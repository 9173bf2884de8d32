import SignetApp.Concurrency.Reach
import SignetApp.Js.Bytes

/-!
# Connecting with a one-shot secret

The `connect` branches of `useBunkerServer.ts` that spend a secret: a dependant's device route, which
binds the client to the endpoint, and an owner route against the register of redirect pairings. With
them what `App.tsx` and `useDependants.ts` store of it. A handler reads a route as rendered when its
event came, and the dependants as rendered when it binds.
-/

namespace SignetApp.Bunker.Connecting

open SignetApp.Js

/-- What pairing reads and writes of a dependant's endpoint. -/
structure BunkerEndpoint where
  pairingSecret : Option JsString
  authorizedClientPubkey : Option JsString
  deriving DecidableEq

/-- The device endpoints, by dependant. -/
abbrev Endpoints := JsString → Option BunkerEndpoint

/-- An entry of `pendingAuthPairingsRef`, under its secret. -/
structure AuthPairing where
  origin : JsString
  appName : JsString
  signingPubkey : JsString
  expiresAt : ℤ
  deriving DecidableEq

/-- `parseConnectMetadata`. -/
structure ConnectMetadata where
  label : JsString
  origin : Option JsString
  deriving DecidableEq

structure ConnectedClient where
  clientPubkey : JsString
  appName : JsString
  appUrl : Option JsString
  connectedAt : ℤ
  lastSeenAt : ℤ
  allowAlways : Bool
  permissions : Option (List JsString)
  deriving DecidableEq

/-- A secret, and what it pairs with. -/
inductive OneShot where
  | device (dependantId secret : JsString)
  | redirect (secret : JsString)
  deriving DecidableEq

/-- The route an event was addressed to, as it was rendered when the event came. -/
inductive Route where
  | device (dependantId : JsString) (endpoint : BunkerEndpoint)
  | owner (pubkey : JsString)

/-- How far the handler of a `connect` has come. -/
inductive Stage where
  /-- The request is being decrypted and its client looked up. -/
  | arriving
  /-- `saveDependant` is under way. -/
  | binding (dependantId secret : JsString) (updated : BunkerEndpoint)
  /-- `getConnectedClient` is under way. -/
  | recalling (secret : JsString) (entry : AuthPairing) (now : ℤ)
  /-- `saveConnectedClient` is under way. -/
  | saving (secret : JsString) (row : ConnectedClient)
  /-- The callback has returned, or thrown. -/
  | settled (slot : OneShot) (ok : Bool)
  | answered
  deriving DecidableEq

structure Connect where
  client : JsString
  secret : JsString
  metadata : ConnectMetadata
  route : Route
  stage : Stage

/-- `request.clientPubkey.toLowerCase()`. -/
def Connect.key (c : Connect) : JsString := toLowerCase c.client

inductive Reply where
  | ack
  | error (message : JsString)
  deriving DecidableEq

/-- A response to a `connect`: `slot` is the secret it pairs by, when it does. -/
structure Answer where
  client : JsString
  slot : Option OneShot
  reply : Reply
  deriving DecidableEq

structure World where
  now : ℤ
  /-- The endpoints in storage. -/
  stored : Endpoints
  /-- What `loadDependants` has read and not yet rendered. -/
  loads : List Endpoints
  /-- The dependants of the last render, which the callbacks close over. -/
  dependants : Endpoints
  /-- The device routes of the last render. -/
  routes : Endpoints
  /-- There is an encryption key. -/
  unlocked : Bool
  bindingInFlight : List JsString
  register : List (JsString × AuthPairing)
  clients : JsString → Option ConnectedClient
  connects : List Connect
  /-- Whom a secret has bound or set to `allowAlways`, in storage. -/
  persisted : List (OneShot × JsString)
  answers : List Answer

/-! ## Checks -/

def constantTimeStringEqual (a b : JsString) : Bool := decide (encodeUtf8 a = encodeUtf8 b)

/-- The record `bindDependantBunkerClient` saves, if it comes to saving one. -/
def bindDependantBunkerClient (endpoint : Option BunkerEndpoint) (clientPubkey : JsString) :
    Option BunkerEndpoint :=
  endpoint.bind fun e =>
    let lcClient := toLowerCase clientPubkey
    if e.authorizedClientPubkey = some lcClient then none
    else if (e.authorizedClientPubkey.filter (· ≠ [])).isSome
        && (e.pairingSecret.filter (· ≠ [])).isNone then none
    else some { e with authorizedClientPubkey := some lcClient, pairingSecret := none }

/-- The walk over the register for a `connect` on the route of `pubkey`: expired entries go, up to
the one that matches. -/
def matchPairing (now : ℤ) (pubkey authSecret : JsString) : List (JsString × AuthPairing) →
    List (JsString × AuthPairing) × Option (JsString × AuthPairing)
  | [] => ([], none)
  | (secret, entry) :: rest =>
    if entry.expiresAt < now then matchPairing now pubkey authSecret rest
    else if toLowerCase entry.signingPubkey = toLowerCase pubkey
        ∧ constantTimeStringEqual secret authSecret = true then
      ((secret, entry) :: rest, some (secret, entry))
    else
      let (kept, found) := matchPairing now pubkey authSecret rest
      ((secret, entry) :: kept, found)

/-- The row `onAuthFlowPairingComplete` saves. -/
def pairedClient (existing : Option ConnectedClient) (clientPubkey : JsString)
    (metadata : ConnectMetadata) (entry : AuthPairing) (now : ℤ) : ConnectedClient where
  clientPubkey := toLowerCase clientPubkey
  appName := if metadata.label = [] then entry.appName else metadata.label
  appUrl := some ((metadata.origin.filter (· ≠ [])).getD entry.origin)
  connectedAt := now / 1000
  lastSeenAt := now / 1000
  allowAlways := true
  permissions := existing.bind (·.permissions)

/-! ## The handler -/

/-- The handler of connect `i` has come to `stage`. -/
def World.move (w : World) (i : ℕ) (c : Connect) (stage : Stage) : World :=
  { w with connects := w.connects.set i { c with stage } }

def World.answer (w : World) (i : ℕ) (c : Connect) (slot : Option OneShot) (reply : Reply) : World :=
  { w.move i c .answered with answers := w.answers ++ [⟨c.key, slot, reply⟩] }

/-- A device route, from the decrypted request to the first wait of `bind`. -/
def World.connectDevice (w : World) (i : ℕ) (c : Connect) (dependantId : JsString)
    (route : BunkerEndpoint) : World :=
  match route.pairingSecret.filter (· ≠ []) with
  | some secret =>
    if constantTimeStringEqual c.secret secret = false then
      w.answer i c none (.error (lit "invalid secret"))
    else if dependantId ∈ w.bindingInFlight then
      w.answer i c none (.error (lit "pairing in progress"))
    else
      let w' := { w with bindingInFlight := dependantId :: w.bindingInFlight }
      if w.unlocked = false then w'.move i c (.settled (.device dependantId secret) false)
      else match bindDependantBunkerClient (w.dependants dependantId) c.key with
        | none => w'.move i c (.settled (.device dependantId secret) true)
        | some updated => w'.move i c (.binding dependantId secret updated)
  | none =>
    match route.authorizedClientPubkey.filter (· ≠ []) with
    | some bound =>
      if c.key = toLowerCase bound then w.answer i c none .ack
      else w.answer i c none (.error (lit "not paired"))
    | none => w.answer i c none (.error (lit "pairing not active"))

/-- An owner route, from the decrypted request to the first wait of `finishAuthPair`. -/
def World.connectOwner (w : World) (i : ℕ) (c : Connect) (pubkey : JsString) : World :=
  if 8 ≤ c.secret.length then
    match matchPairing w.now pubkey c.secret w.register with
    | (register, some (secret, entry)) =>
      { w with register }.move i c (.recalling secret entry w.now)
    | (register, none) => { w with register }.answer i c none .ack
  else w.answer i c none .ack

def World.connected (w : World) (i : ℕ) (c : Connect) : World :=
  match c.route with
  | .device dependantId endpoint => w.connectDevice i c dependantId endpoint
  | .owner pubkey => w.connectOwner i c pubkey

/-- The write of a bind or of a pairing is done. -/
def World.saved (w : World) (i : ℕ) (c : Connect) : World :=
  match c.stage with
  | .binding dependantId secret updated =>
    { w.move i c (.settled (.device dependantId secret) true) with
      stored := Function.update w.stored dependantId (some updated)
      persisted := w.persisted ++ [(.device dependantId secret, c.key)] }
  | .saving secret row =>
    { w.move i c (.settled (.redirect secret) true) with
      clients := Function.update w.clients row.clientPubkey (some row)
      persisted := w.persisted ++ [(.redirect secret, c.key)] }
  | _ => w

/-- The read or the write throws, or the reload that follows a bind. -/
def World.failed (w : World) (i : ℕ) (c : Connect) : World :=
  match c.stage with
  | .binding dependantId secret _ => w.move i c (.settled (.device dependantId secret) false)
  | .settled (.device dependantId secret) true =>
    w.move i c (.settled (.device dependantId secret) false)
  | .recalling secret _ _ => w.move i c (.settled (.redirect secret) false)
  | .saving secret _ => w.move i c (.settled (.redirect secret) false)
  | _ => w

/-- The handler goes on after the callback. -/
def World.settle (w : World) (i : ℕ) (c : Connect) : World :=
  match c.stage with
  | .settled (.device dependantId secret) ok =>
    let w' := { w with bindingInFlight := w.bindingInFlight.filter (· ≠ dependantId) }
    w'.answer i c (some (.device dependantId secret))
      (if ok then .ack else .error (lit "bind failed — try again"))
  | .settled (.redirect secret) true =>
    { w with register := w.register.filter fun e => e.1 ≠ secret }.answer i c
      (some (.redirect secret)) .ack
  | .settled (.redirect secret) false =>
    w.answer i c (some (.redirect secret)) (.error (lit "pairing failed — try again"))
  | _ => w

/-! ## Steps -/

inductive Addressee where
  | device (dependantId : JsString)
  | owner (pubkey : JsString)

inductive Happening where
  | tick (ms : ℕ)
  /-- A `connect` event comes in for a route. -/
  | arrived (client secret : JsString) (metadata : ConnectMetadata)
    (addressee : Addressee)
  /-- It is decrypted and may connect. -/
  | connected (i : ℕ)
  /-- `getConnectedClient` is back. -/
  | recalled (i : ℕ)
  | saved (i : ℕ)
  | failed (i : ℕ)
  | settled (i : ℕ)
  /-- `loadDependants` reads the storage. -/
  | load
  /-- React renders the dependants of a load. -/
  | rendered (n : ℕ)
  /-- The route list follows the dependants. -/
  | rerouted
  | lock (unlocked : Bool)
  /-- The subscription is torn down for more than a reconnect. -/
  | tearDown

/-- Connect `i`, when there is one. -/
def World.atConnect (w : World) (i : ℕ) (f : Connect → World) : World :=
  match w.connects[i]? with
  | some c => f c
  | none => w

def World.arrive (w : World) (client secret : JsString) (metadata : ConnectMetadata) (route : Route) :
    World :=
  { w with connects := w.connects ++ [{ client, secret, metadata, route, stage := .arriving }] }

def World.next (w : World) : Happening → World
  | .tick ms => { w with now := w.now + ms }
  | .arrived client secret metadata (.device dependantId) =>
    match w.routes dependantId with
    | some endpoint => w.arrive client secret metadata (.device dependantId endpoint)
    | none => w
  | .arrived client secret metadata (.owner pubkey) =>
    w.arrive client secret metadata (.owner pubkey)
  | .connected i =>
    w.atConnect i fun c => match c.stage with
      | .arriving => w.connected i c
      | _ => w
  | .recalled i =>
    w.atConnect i fun c => match c.stage with
      | .recalling secret entry now =>
        w.move i c (.saving secret (pairedClient (w.clients c.key) c.client c.metadata entry now))
      | _ => w
  | .saved i => w.atConnect i (w.saved i)
  | .failed i => w.atConnect i (w.failed i)
  | .settled i => w.atConnect i (w.settle i)
  | .load => { w with loads := w.loads ++ [w.stored] }
  | .rendered n =>
    match w.loads[n]? with
    | some dependants => { w with dependants }
    | none => w
  | .rerouted => { w with routes := w.dependants }
  | .lock unlocked => { w with unlocked }
  | .tearDown => { w with bindingInFlight := [] }

/-- Nobody has connected yet; storage, renders and register are as they may be. -/
structure World.Fresh (w : World) : Prop where
  connects : w.connects = []
  persisted : w.persisted = []
  answers : w.answers = []

/-- The secret an endpoint in storage still waits for. -/
def World.secretOf (w : World) (dependantId : JsString) : Option JsString :=
  (w.stored dependantId).bind (·.pairingSecret)

/-! ## What a one-shot secret promises -/

structure SpentOnce (start w : World) : Prop where
  /-- A secret binds, or sets to `allowAlways`, one client. -/
  one : ∀ slot k k', (slot, k) ∈ w.persisted → (slot, k') ∈ w.persisted → k = k'
  /-- Only that client is told that it is paired. -/
  acked : ∀ a ∈ w.answers, a.reply = .ack → ∀ slot, a.slot = some slot →
    (slot, a.client) ∈ w.persisted
  /-- A bind that was not persisted consumes nothing. -/
  device_kept : ∀ d s, start.secretOf d = some s → (∀ k, (.device d s, k) ∉ w.persisted) →
    w.secretOf d = some s
  redirect_kept : ∀ s entry, (s, entry) ∈ start.register →
    (∀ k, (.redirect s, k) ∉ w.persisted) → (s, entry) ∈ w.register ∨ entry.expiresAt < w.now

/-! ## Care -/

/-- The secret a handler in this stage may yet store a client by, or has just stored one by. -/
def Stage.slot : Stage → Option OneShot
  | .arriving => none
  | .binding dependantId secret _ => some (.device dependantId secret)
  | .recalling secret _ _ => some (.redirect secret)
  | .saving secret _ => some (.redirect secret)
  | .settled slot true => some slot
  | .settled _ false => none
  | .answered => none

/-- The secret connect `c` would get past the checks with. -/
def World.presents (w : World) (c : Connect) : Option OneShot :=
  match c.route with
  | .device dependantId endpoint =>
    (endpoint.pairingSecret.filter (· ≠ [])).bind fun secret =>
      if constantTimeStringEqual c.secret secret = true ∧ dependantId ∉ w.bindingInFlight
        ∧ w.unlocked = true then some (.device dependantId secret) else none
  | .owner pubkey =>
    if 8 ≤ c.secret.length then
      (matchPairing w.now pubkey c.secret w.register).2.map fun e => .redirect e.1
    else none

/-- Storage still waits for the secret, and the dependants as rendered let the client bind. -/
def World.UpToDate (w : World) (key : JsString) : OneShot → Prop
  | .device dependantId secret =>
    w.secretOf dependantId = some secret ∧
      ∃ e ∈ w.dependants dependantId, e.authorizedClientPubkey ≠ some key ∧
        ((e.authorizedClientPubkey.filter (· ≠ [])).isSome →
          (e.pairingSecret.filter (· ≠ [])).isSome)
  | .redirect _ => True

/-- A connect that gets past the checks finds the endpoint up to date, and no other client on its
way to being stored by the same secret. -/
def Careful (w : World) : Happening → Prop
  | .connected i => ∀ c ∈ w.connects[i]?, c.stage = .arriving → ∀ slot ∈ w.presents c,
      w.UpToDate c.key slot ∧ ∀ c' ∈ w.connects, c'.stage.slot = some slot → c'.key = c.key
  | _ => True

instance (w : World) (key : JsString) (slot : OneShot) : Decidable (w.UpToDate key slot) :=
  match slot with
  | .device dependantId secret =>
    inferInstanceAs (Decidable (w.secretOf dependantId = some secret ∧
      ∃ e ∈ w.dependants dependantId, e.authorizedClientPubkey ≠ some key ∧
        ((e.authorizedClientPubkey.filter (· ≠ [])).isSome →
          (e.pairingSecret.filter (· ≠ [])).isSome)))
  | .redirect _ => isTrue trivial

instance (w : World) (a : Happening) : Decidable (Careful w a) :=
  match a with
  | .connected i =>
    inferInstanceAs (Decidable (∀ c ∈ w.connects[i]?, c.stage = .arriving →
      ∀ slot ∈ w.presents c, w.UpToDate c.key slot ∧
        ∀ c' ∈ w.connects, c'.stage.slot = some slot → c'.key = c.key))
  | .tick _ | .arrived _ _ _ _ | .recalled _ | .saved _ | .failed _ | .settled _ | .load
  | .rendered _ | .rerouted | .lock _ | .tearDown => isTrue trivial

end SignetApp.Bunker.Connecting
