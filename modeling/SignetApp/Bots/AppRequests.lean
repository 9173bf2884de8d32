import SignetApp.Bots.AppGrants
import SignetApp.Concurrency.Tasks
import SignetApp.Js.Guards

/-!
# The requests of bot apps

`botAppRequestHandler` and `signWithBotAppGrant`, as asynchronous tasks over what the device stores
and what each handler remembers. What the signer, the relay and the session do is a choice of the
surroundings, and so is how far the clock moves.
-/

namespace SignetApp.Bots

open SignetApp.Js SignetApp.Sync
open SignetApp.Apps (isString)

/-! ## Requests -/

def maxNip46Content : ℕ := 128 * 1024
def maxNip46Params : ℕ := 16
def requestKind : ℚ := 24133

structure UnsignedEvent where
  kind : ℚ
  pubkey : JsString
  created_at : ℚ
  tags : List (List JsString)
  content : JsString
  deriving DecidableEq

structure InboundRequest where
  id : JsString
  method : JsString
  params : List JsString
  clientPubkey : JsString

section

variable [Numerals]

/-- What `parseInboundRequest` makes of the decrypted text; `none` where it returns `null`. -/
def parseInboundRequest (event : NostrEvent) (plaintext : Option JsString) : Option InboundRequest := do
  guard (event.kind = requestKind ∧ isHexOf 64 (toLowerCase event.pubkey) = true
    ∧ event.content.length ≤ maxNip46Content)
  let p ← asObject (← plaintext)
  let id ← isStr 64 (p.get "id")
  let method ← isStr 64 (p.get "method")
  let params ← isArrayOf isString (p.get "params")
  guard (params.length ≤ maxNip46Params)
  pure { id := id.val, method := method.val, params, clientPubkey := toLowerCase event.pubkey }

/-- `none` where it returns `null`. -/
def parseSignEventTemplate (raw : JsString) : Option UnsignedEvent := do
  let e ← asObject raw
  let kind ← isFinite (e.get "kind")
  guard (isEventKind kind = true)
  let content ← isString (e.get "content")
  let created_at ← isFinite (e.get "created_at")
  guard (0 < created_at)
  let tags ← isArrayOf (isArrayOf isString) (e.get "tags")
  pure { kind, pubkey := (isString (e.get "pubkey")).getD [], created_at, tags, content }

end

/-! ## Grants as text -/

/-- `vaultContentHash`. -/
class ContentHash where
  vaultContentHash : JsString → JsString

def BotAppGrant.toJs (g : BotAppGrant) : JsValue :=
  .obj ([("id", .str g.id), ("botPubkey", .str g.botPubkey), ("clientPubkey", .str g.clientPubkey),
      ("appName", .str g.appName), ("relayUrl", .str g.relayUrl),
      ("eventKinds", .arr (g.eventKinds.map numberToJs)), ("createdAt", numberToJs g.createdAt),
      ("expiresAt", numberToJs g.expiresAt)]
    ++ property "revokedAt" numberToJs g.revokedAt)

def grantsToJs (root : JsString) (grants : List BotAppGrant) : JsValue :=
  .obj [("v", .ofNat 1), ("ownerRoot", .str root), ("grants", .arr (grants.map BotAppGrant.toJs))]

/-- `vaultContentHash(JSON.stringify(grant))`. -/
def binding [Platform] [ContentHash] (g : BotAppGrant) : JsString :=
  ContentHash.vaultContentHash (jsonText g.toJs)

/-! ## State -/

/-- What a handler was made with: one bot at one relay. Every session has handlers of its own. -/
structure HandlerOptions where
  session : ℕ
  botPubkey : JsString
  relayUrl : JsString
  deriving DecidableEq

structure Rate where
  start : ℕ
  count : ℕ

structure Handler where
  seen : List (JsString × ℚ)
  rates : OrderedMap JsString Rate
  pending : ℕ

def Handler.fresh : Handler := ⟨[], .empty, 0⟩

/-- What is stored, the time, what the handlers remember, and what they did: how often a handler took
up an event, had it signed for, and answered it. -/
structure World where
  grants : List BotAppGrant
  registry : BotRegistry
  clock : ℕ
  handlers : HandlerOptions → Handler
  taken : HandlerOptions × JsString → ℕ
  signed : HandlerOptions × JsString → ℕ
  answered : HandlerOptions × JsString → ℕ
  /-- An event was young enough when it was looked at, and too old when the old ones were forgotten. -/
  straddled : Bool

/-- What a read of the consent showed. -/
structure Shown where
  grants : List BotAppGrant
  registry : BotRegistry
  now : ℕ

/-- What the bot's key is asked to sign, for which request, and what the last read showed. -/
structure Signing where
  handler : HandlerOptions
  event : NostrEvent
  grant : BotAppGrant
  template : UnsignedEvent
  shown : Shown

structure Answering where
  handler : HandlerOptions
  event : NostrEvent
  grant : BotAppGrant
  shown : Shown
  response : NostrEvent

inductive Action where
  | outside
  | read
  | write
  | remember
  | sign (s : Signing)
  | publish (a : Answering)

abbrev Op := Async Unit Action World

/-- What the surroundings answer, or throw. -/
def outside (β : Type) : Op β :=
  .once .outside fun (answer : Except Unit β) (w : World) => (answer, w)

def current : Op Unit := outside Unit

/-- `if (condition) throw …`. -/
def throwIf (condition : Bool) : Op Unit := if condition then throw () else pure ()

/-- One read of what is stored; it may fail. -/
def read {β : Type} (f : World → Option β) : Op β :=
  .once .read fun (ok : Bool) (w : World) =>
    match ok, f w with
    | true, some b => (.ok b, w)
    | _, _ => (.error (), w)

/-- A change of what is stored that may be refused, or interrupted. -/
def write (f : World → Option World) : Op Unit :=
  .once .write fun (ok : Bool) (w : World) =>
    match ok, f w with
    | true, some w' => (.ok (), w')
    | _, _ => (.error (), w)

def now : Op ℕ := .once .read fun (_ : Unit) (w : World) => (.ok w.clock, w)

def loadBotRegistry : Op BotRegistry := read fun w => some w.registry

/-! ## Consent -/

section

variable [Numerals] [ContentHash]

def loadBotAppGrants (root : JsString) : Op (List BotAppGrant) :=
  read fun w =>
    if maxGrantsText < textLength (grantsToJs root w.grants) then none else parseGrants w.grants root

def approveBotAppGrant (root : JsString) (grant : BotAppGrant) : Op Unit := do
  throwIf (!approvable root grant)
  current
  let now ← now
  let registry ← loadBotRegistry
  current
  write fun w =>
    (approve root now registry grant.clean w.grants).map fun grants => { w with grants }
  current

def revokeBotAppGrant (root grantId : JsString) : Op Unit := do
  current
  let now ← now
  write fun w => (revoke root now grantId w.grants).map fun grants => { w with grants }
  current

/-- How `permitted` and `read` begin: both stores are read, between two looks at the session. -/
def readStored (root : JsString) : Op Shown := do
  current
  let grants ← loadBotAppGrants root
  let registry ← loadBotRegistry
  current
  let now ← now
  pure ⟨grants, registry, now⟩

/-- `permitted` of a request. -/
def permitted (root : JsString) (h : HandlerOptions) (grant : BotAppGrant) : Op Shown := do
  let shown ← readStored root
  match shown.grants.find? fun g => g.id = grant.id with
  | none => throw ()
  | some fresh =>
    throwIf (binding fresh ≠ binding grant || fresh.expiresAt ≤ shown.now || fresh.createdAt > shown.now
      || !isLive shown.registry h.botPubkey)
    pure shown

/-- `read` of `signWithBotAppGrant`: the grant that allows the event. -/
def readGrant (root : JsString) (h : HandlerOptions) (grantId clientPubkey : JsString)
    (event : UnsignedEvent) : Op (BotAppGrant × Shown) := do
  let shown ← readStored root
  match shown.grants.find? fun g =>
      g.id = grantId && g.botPubkey = h.botPubkey && g.clientPubkey = clientPubkey with
  | none => throw ()
  | some grant =>
    throwIf (grant.revokedAt.isSome || grant.createdAt > shown.now || grant.expiresAt ≤ shown.now
      || event.pubkey ≠ grant.botPubkey || !grant.eventKinds.contains event.kind
      || !isLive shown.registry grant.botPubkey)
    pure (grant, shown)

def bump (counts : HandlerOptions × JsString → ℕ) (k : HandlerOptions × JsString) :
    HandlerOptions × JsString → ℕ :=
  counts + Pi.single k 1

variable [Keys]

/-- `signWithBotAppGrant`, for a request of a handler. -/
def signWithBotAppGrant (root : JsString) (h : HandlerOptions) (request : NostrEvent)
    (grant : BotAppGrant) (event : UnsignedEvent) : Op NostrEvent := do
  let first ← readGrant root h grant.id grant.clientPubkey event
  let activePublicKeyHex ← outside JsString
  throwIf (activePublicKeyHex ≠ h.botPubkey)
  let second ← readGrant root h grant.id grant.clientPubkey event
  throwIf (binding second.1 ≠ binding first.1)
  let signed ← Async.once (.sign ⟨h, request, second.1, event, second.2⟩)
    fun (answer : Except Unit NostrEvent) (w : World) =>
      (answer, { w with signed := bump w.signed (h, request.id) })
  let third ← readGrant root h grant.id grant.clientPubkey event
  throwIf (binding third.1 ≠ binding first.1)
  throwIf (signed.pubkey ≠ event.pubkey || signed.kind ≠ event.kind || signed.created_at ≠ event.created_at
    || signed.content ≠ event.content || signed.tags ≠ event.tags || !Keys.verifyEvent signed)
  pure signed

/-! ## The handler -/

/-- What is checked of an event before anything is remembered. -/
def admissible (h : HandlerOptions) (event : NostrEvent) (now : ℕ) : Bool :=
  event.kind = requestKind && decide (event.content.length ≤ maxNip46Content)
    && decide (event.tags.length ≤ 16)
    && (event.created_at.den = 1 && decide (|event.created_at| ≤ maxSafeInteger))
    && decide ((now : ℚ) - 300 ≤ event.created_at) && decide (event.created_at ≤ (now : ℚ) + 60)
    && event.tags.filter (fun tag => tag.head? = some (lit "p")) = [[lit "p", h.botPubkey]]
    && Keys.verifyEvent event

/-- `if (timestamp < now() - 300) seen.delete(id)`. -/
def forget (now : ℕ) (seen : List (JsString × ℚ)) : List (JsString × ℚ) :=
  seen.filter fun e => !decide (e.2 < (now : ℚ) - 300)

def World.setHandler (w : World) (h : HandlerOptions) (handler : Handler) : World :=
  { w with handlers := Function.update w.handlers h handler }

/-- Up to the first `await`: whether the event is taken up. The clock may have moved on by `elapsed`
when the old events are forgotten. -/
def World.take (w : World) (h : HandlerOptions) (event : NostrEvent) (isCurrent : Bool) (elapsed : ℕ) :
    Except Unit Unit × World :=
  let handler := w.handlers h
  if !isCurrent || decide (4 ≤ handler.pending) || !admissible h event w.clock then (.error (), w)
  else
    let later := w.clock + elapsed
    let seen := forget later handler.seen
    let w' := { w with clock := later }.setHandler h { handler with seen := seen }
    if seen.any (fun e => e.1 = event.id) || decide (512 ≤ seen.length) then (.error (), w')
    else
      (.ok (), { w.setHandler h { handler with
                    seen := seen ++ [(event.id, event.created_at)]
                    pending := handler.pending + 1 } with
        clock := later
        taken := bump w.taken (h, event.id)
        straddled := w.straddled || decide (event.created_at < (later : ℚ) - 300) })

/-- The grant a request is served under: the newest that allows it. -/
def selectGrant (h : HandlerOptions) (event : NostrEvent) (now : ℕ) (grants : List BotAppGrant) :
    Option BotAppGrant :=
  ((grants.filter fun g => g.botPubkey = h.botPubkey && g.clientPubkey = event.pubkey
      && g.relayUrl = h.relayUrl && g.revokedAt.isNone && decide (g.createdAt ≤ (now : ℚ))
      && decide ((now : ℚ) < g.expiresAt)).insertionSort
    fun a b => b.createdAt < a.createdAt ∨ (b.createdAt = a.createdAt ∧ b.id ≤ a.id)).head?

/-- The grant is looked for, and the request counted. -/
def World.choose (w : World) (h : HandlerOptions) (event : NostrEvent) (grants : List BotAppGrant) :
    Except Unit BotAppGrant × World :=
  match selectGrant h event w.clock grants with
  | none => (.error (), w)
  | some grant =>
    let handler := w.handlers h
    let rates := handler.rates
    match (rates.get event.pubkey).filter fun rate => w.clock - rate.start < 60 with
    | none =>
      (.ok grant, w.setHandler h { handler with rates := rates.set event.pubkey ⟨w.clock, 1⟩ })
    | some rate =>
      if 30 ≤ rate.count then (.error (), w)
      else
        (.ok grant, w.setHandler h
          { handler with rates := rates.set event.pubkey { rate with count := rate.count + 1 } })

/-- What a request asks for: a result, or an error. -/
def respond (root : JsString) (h : HandlerOptions) (event : NostrEvent) (grant : BotAppGrant)
    (request : InboundRequest) : Op (JsString ⊕ String) := do
  if request.method = lit "get_public_key" ∧ request.params = [] then return .inl h.botPubkey
  else if request.method = lit "ping" ∧ request.params = [] then return .inl (lit "pong")
  else if request.method = lit "connect" ∧ request.params.head? = some h.botPubkey then
    return .inl (lit "ack")
  else
    match decide (request.method = lit "sign_event"), request.params with
    | true, [raw] =>
      match parseSignEventTemplate raw with
      | none => return .inr "event not authorised"
      | some template =>
        if template.pubkey ≠ h.botPubkey ∨ template.kind ∉ grant.eventKinds then
          return .inr "event not authorised"
        else
          let signed ← signWithBotAppGrant root h event grant template
          return .inl (jsonText signed.toJs)
    | _, _ => return .inr "method not authorised"

/-- What is encrypted for the client. -/
def responseText (request : InboundRequest) (result : JsString ⊕ String) : JsString :=
  match result with
  | .inl result => jsonText (.obj [("id", .str request.id), ("result", .str result)])
  | .inr error => jsonText (.obj [("id", .str request.id), ("error", .ofLit error)])

/-- `buildResponseEvent`: the text is encrypted, and the event signed. -/
def buildResponseEvent (_text _clientPubkey : JsString) : Op NostrEvent := do
  let _encrypted ← outside JsString
  outside NostrEvent

/-- The request of an event that was taken up. -/
def serve (root : JsString) (h : HandlerOptions) (event : NostrEvent) : Op Unit := do
  let grants ← loadBotAppGrants root
  current
  let grant ← Async.once .remember fun (_ : Unit) (w : World) => w.choose h event grants
  let _ ← permitted root h grant
  let activePublicKeyHex ← outside JsString
  throwIf (activePublicKeyHex ≠ h.botPubkey)
  let _ ← permitted root h grant
  let plaintext ← outside (Option JsString)
  match parseInboundRequest event plaintext with
  | none => throw ()
  | some request =>
    throwIf (request.clientPubkey ≠ grant.clientPubkey)
    let _ ← permitted root h grant
    let result ← respond root h event grant request
    let _ ← permitted root h grant
    let response ← buildResponseEvent (responseText request result) event.pubkey
    let shown ← permitted root h grant
    Async.once (.publish ⟨h, event, grant, shown, response⟩) fun (_ : Unit) (w : World) =>
      (.ok (), { w with answered := bump w.answered (h, event.id) })

/-- `botAppRequestHandler(...)(event)`. -/
def handle (root : JsString) (h : HandlerOptions) (event : NostrEvent) : Op Unit := do
  Async.once .remember fun (c : Bool × ℕ) (w : World) => w.take h event c.1 c.2
  (serve root h event).tryCatch fun _ => pure ()
  Async.once .remember fun (_ : Unit) (w : World) =>
    (.ok (), w.setHandler h { w.handlers h with pending := (w.handlers h).pending - 1 })

/-! ## Runs -/

/-- What may be started at any time. -/
inductive Starts (root : JsString) : Op Unit → Prop where
  | handle (h : HandlerOptions) (event : NostrEvent) : Starts root (handle root h event)
  | approve (grant : BotAppGrant) : Starts root (approveBotAppGrant root grant)
  | revoke (grantId : JsString) : Starts root (revokeBotAppGrant root grantId)
  /-- A bot is created, removed or edited. -/
  | registry (registry : BotRegistry) : Starts root (write fun w => some { w with registry })
  | tick (elapsed : ℕ) : Starts root (write fun w => some { w with clock := w.clock + elapsed })

end

/-- Before any grant. -/
def World.initial (registry : BotRegistry) (clock : ℕ) : World where
  grants := []
  registry := registry
  clock := clock
  handlers _ := .fresh
  taken _ := 0
  signed _ := 0
  answered _ := 0
  straddled := false

end SignetApp.Bots
