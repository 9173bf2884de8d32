import SignetApp.Bunker.Connecting
import SignetApp.Child.Inference

/-!
# Requests on the owner's persona routes

What `useBunkerServer.ts` asks before it signs, encrypts or decrypts for a client of an owner route,
`resolveApproval`, and `nip46-permissions.ts`. Each row is read when the code reads it and written
when the code writes it; checks that only ever refuse a request are up to the run.
-/

namespace SignetApp.Bunker.OwnerRoutes

open SignetApp.Js SignetApp.Child SignetApp.Bunker.Connecting

/-! ## Permissions -/

def permissionMethods : List JsString :=
  [lit "get_public_key", lit "sign_event", lit "nip04_encrypt", lit "nip04_decrypt",
    lit "nip44_encrypt", lit "nip44_decrypt"]

/-- `/^(0|[1-9]\d{0,4})$/`, up to 65535. -/
def isKindText (kind : JsString) : Bool :=
  kind.all isDigit && decide (1 ≤ kind.length ∧ kind.length ≤ 5)
    && (kind = [unit '0'] || kind.head? ≠ some (unit '0')) && decide (digitsValue 10 kind ≤ 65535)

def isPermission (token : JsString) : Bool :=
  match splitOn ':' token with
  | [method] => permissionMethods.contains method
  | [method, kind] => method = lit "sign_event" && isKindText kind
  | _ => false

/-- `parseNip46Permissions`, as a test. -/
def parsesAsPermissions (raw : JsString) : Bool :=
  decide (raw ≠ [] ∧ raw.length ≤ 1024 ∧ (splitOn ',' raw).length ≤ 32)
    && (splitOn ',' raw).all isPermission

def nip46PermissionAllows (permissions : Option (List JsString)) (method : JsString)
    (kind : Option ℚ) : Bool :=
  match permissions with
  | none => true
  | some permissions =>
    if permissions = [] ∨ parsesAsPermissions ([unit ','].intercalate permissions) = false then false
    else if method ∈ [lit "connect", lit "ping", lit "logout", lit "switch_relays",
        lit "get_public_key"] then true
    else if method = lit "sign_event" then
      kind.any fun k => decide (k.den = 1 ∧ 0 ≤ k ∧ k ≤ 65535)
        && (permissions.contains method
          || permissions.contains (lit "sign_event:" ++ lit (toString k.num)))
    else permissions.contains method

/-! ## Requests -/

inductive CryptoMethod where
  | nip04Encrypt
  | nip04Decrypt
  | nip44Encrypt
  | nip44Decrypt
  deriving DecidableEq

inductive Request where
  | connect (secret : JsString) (metadata : ConnectMetadata)
  | crypto (method : CryptoMethod)
  | signEvent (template : UnsignedEvent)

def Request.method : Request → JsString
  | .connect _ _ => lit "connect"
  | .crypto .nip04Encrypt => lit "nip04_encrypt"
  | .crypto .nip04Decrypt => lit "nip04_decrypt"
  | .crypto .nip44Encrypt => lit "nip44_encrypt"
  | .crypto .nip44Decrypt => lit "nip44_decrypt"
  | .signEvent _ => lit "sign_event"

def Request.kind : Request → Option ℚ
  | .signEvent template => some template.kind
  | _ => none

/-- The reserved ceremony: a `d` tag under `kin-jar/`. -/
def isKinterestAuthority (template : UnsignedEvent) : Bool :=
  template.tags.any fun
    | name :: value :: _ => name = lit "d" &&
      ["kin-jar/family-authorisation/", "kin-jar/child-selection/", "kin-jar/parent-presence/"].any
        fun start => (lit start).isPrefixOf value
    | _ => false

def ownerRoutePubkeyMismatch (routePubkey templatePubkey : JsString) : Bool :=
  decide (templatePubkey ≠ [] ∧ toLowerCase templatePubkey ≠ toLowerCase routePubkey)

def sensitiveForAllowAlways (existing : ConnectedClient) (template : UnsignedEvent) : Bool :=
  isKinterestAuthority template
    || [some .pairDevice, some .mutateIdentity, some .appPermission].contains (inferScope template)
    || existing.permissions.isSome && decide (template.kind = 5)

def ownerRouteNip44Authorised (existing : Option ConnectedClient) : Bool :=
  existing.any (·.allowAlways)

/-! ## Handlers -/

inductive Stage where
  /-- Being decrypted; the client's row has not been read. -/
  | arriving
  | admitted
  /-- `finishAuthPair` reads the row, and saves it. -/
  | pairing (secret : JsString) (entry : AuthPairing) (now : ℤ)
  | savingPair (secret persona : JsString) (row : ConnectedClient)
  | paired (secret : JsString)
  /-- The signer is at work without a prompt. -/
  | serving (existing : ConnectedClient)
  /-- `lastSeenAt` is being brought up to date. -/
  | touchReading
  | touching (row : ConnectedClient)
  /-- In the approval queue. -/
  | waiting
  | approving (always : Bool)
  /-- The signer is at work on an approved request. -/
  | signing (always : Bool)
  | remembering
  | savingAlways (row : ConnectedClient)
  | ended
  deriving DecidableEq

structure Handler where
  client : JsString
  /-- The public key of the route, which signs. -/
  route : JsString
  request : Request
  stage : Stage

/-- A client, and a persona of the owner's. -/
structure Approval where
  client : JsString
  persona : JsString
  deriving DecidableEq

def Handler.approval (h : Handler) : Approval := ⟨toLowerCase h.client, toLowerCase h.route⟩

/-- A request served: to whom and by whose key, and whether the owner was asked. -/
structure Served where
  approval : Approval
  byHand : Bool
  deriving DecidableEq

structure World where
  now : ℤ
  clients : JsString → Option ConnectedClient
  register : List (JsString × AuthPairing)
  handlers : List Handler
  /-- The approvals that set `allowAlways`. -/
  approvals : List Approval
  served : List Served

def World.move (w : World) (i : ℕ) (h : Handler) (stage : Stage) : World :=
  { w with handlers := w.handlers.set i { h with stage } }

/-- `getConnectedClient` for the scope of the request is back. -/
def World.admit (w : World) (i : ℕ) (h : Handler) : World :=
  if nip46PermissionAllows ((w.clients h.client).bind (·.permissions)) h.request.method h.request.kind
  then w.move i h .admitted
  else w.move i h .ended

/-- The owner route's gate. -/
def World.gated (w : World) (i : ℕ) (h : Handler) : World :=
  match h.request with
  | .connect secret _ =>
    if 8 ≤ secret.length then
      match matchPairing w.now h.route secret w.register with
      | (register, some (secret, entry)) => { w with register }.move i h (.pairing secret entry w.now)
      | (register, none) => { w with register }.move i h .ended
    else w.move i h .ended
  | .crypto _ =>
    if nip46PermissionAllows ((w.clients h.client).bind (·.permissions)) h.request.method none = false then
      w.move i h .ended
    else match (w.clients h.client).filter (·.allowAlways) with
      | some row => w.move i h (.serving row)
      | none => w.move i h .ended
  | .signEvent template =>
    if ownerRoutePubkeyMismatch h.route template.pubkey then w.move i h .ended
    else if nip46PermissionAllows ((w.clients h.client).bind (·.permissions)) h.request.method
        h.request.kind = false then w.move i h .ended
    else match (w.clients h.client).filter fun row =>
        row.allowAlways && !sensitiveForAllowAlways row template with
      | some row => w.move i h (.serving row)
      | none => w.move i h .waiting

/-- The row `resolveApproval` saves for "allow always". -/
def allowedClient (existing : Option ConnectedClient) (clientPubkey : JsString) (now : ℤ) :
    ConnectedClient where
  clientPubkey := clientPubkey
  appName := (existing.map (·.appName)).getD (lit "Unknown app")
  appUrl := existing.bind (·.appUrl)
  connectedAt := (existing.map (·.connectedAt)).getD (now / 1000)
  lastSeenAt := now / 1000
  allowAlways := true
  permissions := existing.bind (·.permissions)

/-- A row that was being read is back. -/
def World.recalled (w : World) (i : ℕ) (h : Handler) : World :=
  match h.stage, h.request with
  | .pairing secret entry now, .connect _ metadata =>
    w.move i h (.savingPair secret (toLowerCase entry.signingPubkey)
      (pairedClient (w.clients (toLowerCase h.client)) h.client metadata entry now))
  | .touchReading, _ =>
    match w.clients h.client with
    | some row => w.move i h (.touching { row with lastSeenAt := w.now / 1000 })
    | none => w.move i h .ended
  | .approving always, .signEvent template =>
    if nip46PermissionAllows ((w.clients h.client).bind (·.permissions)) h.request.method
        h.request.kind then
      -- a ceremony is approved once only
      w.move i h (.signing (always && !isKinterestAuthority template))
    else w.move i h .ended
  | .remembering, _ => w.move i h (.savingAlways (allowedClient (w.clients h.client) h.client w.now))
  | _, _ => w

/-- The signer is back. -/
def World.signed (w : World) (i : ℕ) (h : Handler) : World :=
  match h.stage with
  | .serving existing =>
    let w' := match h.request with
      | .signEvent _ => w.move i h (.touching { existing with lastSeenAt := w.now / 1000 })
      | _ => w.move i h .touchReading
    { w' with served := w.served ++ [⟨h.approval, false⟩] }
  | .signing always =>
    { w.move i h (if always then .remembering else .ended) with
      served := w.served ++ [⟨h.approval, true⟩] }
  | _ => w

/-- `saveConnectedClient`. -/
def World.save (w : World) (row : ConnectedClient) : World :=
  { w with clients := Function.update w.clients row.clientPubkey (some row) }

def World.saved (w : World) (i : ℕ) (h : Handler) : World :=
  match h.stage with
  | .savingPair secret persona row =>
    { (w.move i h (.paired secret)).save row with
      approvals := w.approvals ++ [⟨toLowerCase h.client, persona⟩] }
  | .touching row => (w.move i h .ended).save row
  | .savingAlways row =>
    { (w.move i h .ended).save row with approvals := w.approvals ++ [h.approval] }
  | _ => w

/-! ## Steps -/

inductive Happening where
  | tick (ms : ℕ)
  | arrived (client route : JsString) (request : Request)
  | admitted (i : ℕ)
  | gated (i : ℕ)
  | recalled (i : ℕ)
  | signed (i : ℕ)
  | saved (i : ℕ)
  /-- The redirect's secret is taken from the register. -/
  | spent (i : ℕ)
  | approve (i : ℕ) (always : Bool)
  /-- A refusal, a denial, or an operation that throws. -/
  | ends (i : ℕ)
  /-- The owner signs in to a site by redirect, as one persona. -/
  | minted (secret : JsString) (entry : AuthPairing)
  /-- The owner disconnects a client. -/
  | revoked (client : JsString)

/-- Handler `i`, when there is one. -/
def World.atHandler (w : World) (i : ℕ) (f : Handler → World) : World :=
  match w.handlers[i]? with
  | some h => f h
  | none => w

def World.next (w : World) : Happening → World
  | .tick ms => { w with now := w.now + ms }
  | .arrived client route request =>
    { w with handlers := w.handlers ++ [{ client, route, request, stage := .arriving }] }
  | .admitted i =>
    w.atHandler i fun h => match h.stage with
      | .arriving => w.admit i h
      | _ => w
  | .gated i =>
    w.atHandler i fun h => match h.stage with
      | .admitted => w.gated i h
      | _ => w
  | .recalled i => w.atHandler i (w.recalled i)
  | .signed i => w.atHandler i (w.signed i)
  | .saved i => w.atHandler i (w.saved i)
  | .spent i =>
    w.atHandler i fun h => match h.stage with
      | .paired secret => { w.move i h .ended with
          register := w.register.filter fun e => e.1 ≠ secret }
      | _ => w
  | .approve i always =>
    w.atHandler i fun h => match h.stage with
      | .waiting => w.move i h (.approving always)
      | _ => w
  | .ends i => w.atHandler i fun h => w.move i h .ended
  | .minted secret entry => { w with register := w.register ++ [(secret, entry)] }
  | .revoked client => { w with clients := Function.update w.clients client none }

/-- Nobody is allowed always yet. -/
structure World.Fresh (w : World) : Prop where
  handlers : w.handlers = []
  approvals : w.approvals = []
  served : w.served = []
  clients : ∀ k row, w.clients k = some row → row.allowAlways = false

/-! ## What "allow always" covers -/

structure KeepsToPersona (w : World) : Prop where
  /-- What is served without asking is served by the key of a persona the client was allowed for. -/
  given : ∀ s ∈ w.served, s.byHand = false → s.approval ∈ w.approvals
  /-- A client that is allowed always was allowed for some persona. -/
  earned : ∀ k row, w.clients k = some row → row.allowAlways = true →
    ∃ persona, ⟨toLowerCase row.clientPubkey, persona⟩ ∈ w.approvals

/-- The request needs no prompt from a client with this row, if it has `allowAlways`. -/
def Handler.promptless (h : Handler) (row : ConnectedClient) : Bool :=
  nip46PermissionAllows row.permissions h.request.method h.request.kind &&
    match h.request with
    | .connect _ _ => false
    | .crypto _ => true
    | .signEvent template =>
      !ownerRoutePubkeyMismatch h.route template.pubkey && !sensitiveForAllowAlways row template

/-- A client allowed always sends what needs no prompt only to the routes it was allowed on. -/
def Careful (w : World) : Happening → Prop
  | .gated i => ∀ h ∈ w.handlers[i]?, h.stage = .admitted → ∀ row ∈ w.clients h.client,
      row.allowAlways = true → h.promptless row = true → h.approval ∈ w.approvals
  | _ => True

instance (w : World) (a : Happening) : Decidable (Careful w a) :=
  match a with
  | .gated i =>
    inferInstanceAs (Decidable (∀ h ∈ w.handlers[i]?, h.stage = .admitted →
      ∀ row ∈ w.clients h.client, row.allowAlways = true → h.promptless row = true →
        h.approval ∈ w.approvals))
  | .tick _ | .arrived _ _ _ | .admitted _ | .recalled _ | .signed _ | .saved _ | .spent _
  | .approve _ _ | .ends _ | .minted _ _ | .revoked _ => isTrue trivial

end SignetApp.Bunker.OwnerRoutes
