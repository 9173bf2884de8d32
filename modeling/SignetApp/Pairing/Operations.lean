import SignetApp.Concurrency.Tasks
import SignetApp.Pairing.Plans

/-!
# The operations on one pairing

The exported functions of the `child-contact-*` modules and their callers, as asynchronous tasks
over the rows of one pairing. An action is what `updateEncryptedPrivateState` commits in one
compare-and-swap, one read of a row, one call of a signer or a relay, or an answer from outside:
the session guard `isCurrent`, the contact policy, randomness, sealing. Any action may also be
interrupted: the session changed, or the row was contended.
-/

namespace SignetApp.Pairing

open SignetApp.Js SignetApp.Contacts

variable [InviteSdk] [Sync.Sha256] [Signatures]

/-! ## State -/

/-- The rows stored for one pairing. -/
structure Store where
  inbox : Option Inbox
  review : Option ReviewState
  execution : Option ExecutionState
  replies : Option ReplyOutbox
  outbox : Option Outbox
  replyInbox : Option ReplyInbox

/-- The rows, and what has left the device: exchanges reserved for a signer attempt, exchanges the
signer was called for, and replies handed to a relay, oldest first. -/
structure World where
  store : Store
  reserved : List Hex32
  signed : List Hex32
  published : List ChildContactReplyOutboxEntry

/-- Before anything was stored. -/
def World.initial : World := ⟨⟨none, none, none, none, none, none⟩, [], [], []⟩

def entriesOf {E : Type} (row : Option (PairingRow E)) : List E := row.elim [] (·.entries)

/-! ## Changes -/

/-- What one compare-and-swap writes. -/
inductive Change where
  | expire (scope : ChildRequestScope) (now : ℤ)
  | store (scope : ChildRequestScope) (request : ChildContactRequest) (fingerprint : Hex64)
    (now : ℤ)
  | transition (scope : ChildRequestScope) (requestId : Hex32) (source : List ChildRequestStatus)
    (target : ChildRequestStatus) (now : ℤ)
  | review (scope : ChildRequestScope) (plan : ChildContactExchangePlan) (settled : List Hex32)
  | cancelPlan (scope : ChildRequestScope) (requestId : Hex32) (now : ℤ)
  | reserve (scope : ChildRequestScope) (plan : ChildContactExchangePlan)
    (plans : List ChildContactExchangePlan) (settled : List Hex32) (now : ℤ)
  | recordSigned (scope : ChildRequestScope) (exchangeId : Hex32) (event : NostrEvent) (now : ℤ)
  | cancelExecution (scope : ChildRequestScope) (exchangeId : Hex32) (now : ℤ)
  | queueReply (scope : ChildRequestScope) (requestId : Hex32) (event : NostrEvent)
    (reply : ChildContactReply) (relays : List JsString) (now : ℤ) (replaceUnreconciled : Bool)
  | acknowledge (scope : ChildRequestScope) (id : Hex32) (eventId : JsString) (now : ℤ)
  | queueRequest (scope : ChildRequestScope) (request : ChildContactRequest) (fingerprint : Hex64)
    (now : ℤ)
  | attachEvent (scope : ChildRequestScope) (requestId : Hex32) (event : NostrEvent)
  | saveReply (scope : ChildRequestScope) (receipt : ChildContactReplyReceipt)

def Store.withInbox (s : Store) (row : Inbox) : Store := { s with inbox := some row }
def Store.withReview (s : Store) (row : ReviewState) : Store := { s with review := some row }
def Store.withExecution (s : Store) (row : ExecutionState) : Store :=
  { s with execution := some row }
def Store.withReplies (s : Store) (row : ReplyOutbox) : Store := { s with replies := some row }
def Store.withOutbox (s : Store) (row : Outbox) : Store := { s with outbox := some row }
def Store.withReplyInbox (s : Store) (row : ReplyInbox) : Store := { s with replyInbox := some row }

/-- The rows after a change, which may be refused. -/
def Change.onStore (s : Store) : Change → Except String Store
  | expire scope now => (expireInbox scope now s.inbox).map s.withInbox
  | store scope request fingerprint now =>
    (storeRequest scope request fingerprint now s.inbox).map s.withInbox
  | transition scope requestId source target now =>
    (transitionReceipt scope requestId source target now s.inbox).map s.withInbox
  | review scope plan settled => (reviewRequest scope plan settled s.review).map s.withReview
  | cancelPlan scope requestId now => (Pairing.cancelPlan scope requestId now s.review).map s.withReview
  | reserve scope plan plans settled now =>
    (Pairing.reserve scope plan plans settled now s.execution).map fun r => s.withExecution r.1
  | recordSigned scope exchangeId event now =>
    (Pairing.recordSigned scope exchangeId event now s.execution).map s.withExecution
  | cancelExecution scope exchangeId now =>
    (Pairing.cancelExecution scope exchangeId now s.execution).map s.withExecution
  | queueReply scope requestId event reply relays now replaceUnreconciled =>
    (Pairing.queueReply scope requestId event reply relays now replaceUnreconciled s.replies).map
      s.withReplies
  | acknowledge scope id eventId now =>
    (acknowledgeReply scope id eventId now s.replies).map s.withReplies
  | queueRequest scope request fingerprint now =>
    (Pairing.queueRequest scope request fingerprint now s.outbox).map s.withOutbox
  | attachEvent scope requestId event =>
    (Pairing.attachEvent scope requestId event s.outbox).map s.withOutbox
  | saveReply scope receipt => (saveReplyReceipt scope receipt s.replyInbox).map s.withReplyInbox

/-- The exchanges a change newly reserves for a signer attempt. -/
def Change.reserves (s : Store) : Change → List Hex32
  | reserve scope plan plans settled now =>
    match Pairing.reserve scope plan plans settled now s.execution with
    | .ok (_, true) => [plan.exchangeId]
    | _ => []
  | _ => []

def Change.apply (c : Change) (w : World) : Except String World :=
  (c.onStore w.store).map fun store =>
    { w with store, reserved := w.reserved ++ c.reserves w.store }

/-! ## Actions -/

inductive Authority where
  | go | wait | withdraw
  deriving DecidableEq

inductive Action where
  | outside
  | read
  | commit (c : Change)
  | sign (plan : ChildContactExchangePlan)
  | publish (entry : ChildContactReplyOutboxEntry)
  /-- An answer 'go', with the plan and the receipt it rests on. -/
  | go (plan : ChildContactExchangePlan) (receipt : ChildRequestReceipt)

/-- An asynchronous function of this code. -/
abbrev Op := Async String Action World

/-- An action on the world that may be refused, or interrupted with an exception. -/
def interruptible {β : Type} (f : World → Except String (β × World)) (interruption : Option String)
    (w : World) : Except String β × World :=
  match interruption, f w with
  | some e, _ => (.error e, w)
  | none, .error e => (.error e, w)
  | none, .ok (b, w') => (.ok b, w')

/-- What the surroundings answer, or throw. -/
def ask (β : Type) : Op β :=
  .once .outside fun (answer : Except String β) (w : World) => (answer, w)

def read {β : Type} (f : Store → β) : Op β :=
  .once .read (interruptible fun w => .ok (f w.store, w))

/-- `updateEncryptedPrivateState`, answering from the rows before and after. -/
def commit {β : Type} (c : Change) (answer : Store → Store → β) : Op β :=
  .once (.commit c) (interruptible fun w => (c.apply w).map fun w' => (answer w.store w'.store, w'))

/-- The signer is called; it may fail, or never answer. -/
def sign (plan : ChildContactExchangePlan) : Op NostrEvent :=
  .once (.sign plan) fun (answer : Except String NostrEvent) (w : World) =>
    (answer, { w with signed := w.signed ++ [plan.exchangeId] })

/-- A reply goes to the relays; they may refuse it, or never answer. -/
def publish (entry : ChildContactReplyOutboxEntry) : Op Bool :=
  .once (.publish entry) fun (answer : Except String Bool) (w : World) =>
    (answer, { w with published := w.published ++ [entry] })

def answerGo (plan : ChildContactExchangePlan) (receipt : ChildRequestReceipt) : Op Authority :=
  .once (.go plan receipt) fun (_ : Unit) (w : World) => (.ok .go, w)

/-- `if (condition) throw new Error(message)`. -/
def throwIf (condition : Bool) (message : String) : Op Unit :=
  if condition then throw message else pure ()

/-- `if (condition) await t`. -/
def onlyIf (condition : Bool) (t : Op Unit) : Op Unit :=
  if condition then t else pure ()

/-- What the surroundings must allow: `if (!await allowed()) throw new Error(message)`. -/
def require (message : String) : Op Unit := do
  let allowed ← ask Bool
  throwIf (!allowed) message

def check (message : String) : Op Unit := require message

/-! ## Requests and receipts -/

def requestSession : String := "Child request session changed"

def loadChildContactInbox (scope : ChildRequestScope) (now : ℤ) : Op (List ChildRequestReceipt) := do
  check requestSession
  throwIf (!stamp now) "Invalid request clock"
  throwIf (!scope.validScope) "Invalid child request scope"
  match ← read (·.inbox) with
  | none => return []
  | some row =>
    throwIf (1024 * 1024 < inboxBytes row) "Child request inbox exceeds limit"
    let inbox ← Async.ofExcept (parseInbox row scope)
    check requestSession
    if (expire inbox scope now).entries.map (·.status) = inbox.entries.map (·.status) then
      return inbox.entries
    let saved ← commit (.expire scope now) fun _ s => entriesOf s.inbox
    check requestSession
    return saved

def storeChildContactRequest (scope : ChildRequestScope) (request : ChildContactRequest)
    (fingerprint : Hex64) (now : ℤ) : Op (Option ChildRequestReceipt) := do
  match parseChildContactRequest request with
  | none => throw "Invalid current child request"
  | some request =>
    throwIf (!childContactRequestInScope request scope || !stamp now || now + 300 < request.createdAt
        || request.expiresAt ≤ now)
      "Invalid current child request"
    check requestSession
    throwIf (!scope.validScope) "Invalid child request scope"
    let saved ← commit (.store scope request fingerprint now) fun _ s => entriesOf s.inbox
    check requestSession
    return saved.find? fun r => r.id = request.id

def transitionChildContactReceipt (scope : ChildRequestScope) (requestId : Hex32)
    (source : List ChildRequestStatus) (target : ChildRequestStatus) (now : ℤ) :
    Op (Option ChildRequestReceipt) := do
  throwIf (!scope.validScope) "Invalid child request scope"
  throwIf (!stamp now || target = .pending) "Invalid child receipt transition"
  check requestSession
  let saved ← commit (.transition scope requestId source target now) fun _ s => entriesOf s.inbox
  check requestSession
  return saved.find? fun r => r.id = requestId

/-! ## Replies -/

def replySession : String := "Child reply session changed"

def loadChildContactReplyOutbox (scope : ChildRequestScope) :
    Op (List ChildContactReplyOutboxEntry) := do
  check replySession
  match ← read (·.replies) with
  | none => return []
  | some row =>
    let state ← Async.ofExcept (parseReplyOutbox row scope)
    check replySession
    return state.entries

def queueChildContactReply (scope : ChildRequestScope) (requestId : Hex32) (event : NostrEvent)
    (reply : ChildContactReply) (relays : List JsString) (now : ℤ) (replaceUnreconciled : Bool) :
    Op (Option ChildContactReplyOutboxEntry) := do
  Async.ofExcept (mayQueueReply scope requestId event reply relays now)
  let saved ← commit (.queueReply scope requestId event reply relays now replaceUnreconciled)
    fun _ s => entriesOf s.replies
  return saved.find? fun e => e.id = requestId

def deliverChildContactReply (scope : ChildRequestScope) (id : Hex32) (now : ℤ) : Op Bool := do
  throwIf (!stamp now) "Invalid child reply delivery"
  check replySession
  match (← loadChildContactReplyOutbox scope).find? fun e => e.id = id with
  | none => return false
  | some before =>
    if before.acknowledged then return false
    -- `mayDeliver`.
    require "Child reply policy changed"
    check replySession
    let sent ← publish before
    check replySession
    if !sent then return false
    let saved ← commit (.acknowledge scope id before.event.id now) fun _ s => entriesOf s.replies
    check replySession
    return (saved.find? fun e => e.id = id).any (·.acknowledged)

/-- The loop of `deliverPendingChildContactReplies`, over the entries it loaded. -/
def deliverEach (scope : ChildRequestScope) (now : ℤ) :
    List ChildContactReplyOutboxEntry → Op ℕ
  | [] => return 0
  | entry :: entries => do
    if entry.acknowledged || entry.reply.all fun r => r.expiresAt ≤ now then
      deliverEach scope now entries
    else
      let delivered ← (deliverChildContactReply scope entry.id now).tryCatch fun cause => do
        require cause
        pure false
      let rest ← deliverEach scope now entries
      return rest + if delivered then 1 else 0

def deliverPendingChildContactReplies (scope : ChildRequestScope) (now : ℤ) : Op ℕ := do
  deliverEach scope now (← loadChildContactReplyOutbox scope)

/-- `/policy changed/.test(message)`. -/
def isPolicyChange (message : String) : Bool :=
  decide ("policy changed".toList <:+: message.toList)

/-- The reply `sendChildContactReply` makes. -/
def replyFor (scope : ChildRequestScope) (plan : ChildContactExchangePlan)
    (status : ChildContactReplyStatus) (now : ℤ) (exchangeId contactId : Option Hex32) :
    ChildContactReply :=
  { requestId := plan.requestId, guardian := scope.guardian, endpoint := scope.endpoint,
    client := scope.client, persona := plan.persona, revision := plan.request.revision,
    createdAt := now, expiresAt := now + ttl, status,
    exchangeId := if status = .completed then exchangeId else none,
    contactId := if status = .completed then contactId else none }

/-- `sealChildContactReply`: the transport encrypts and signs. -/
def sealChildContactReply (reply : ChildContactReply) : Op NostrEvent :=
  match parseChildContactReply reply with
  | none => throw "Invalid child contact reply"
  | some _ => ask NostrEvent

def sendChildContactReply (scope : ChildRequestScope) (plan : ChildContactExchangePlan)
    (status : ChildContactReplyStatus) (now : ℤ) (relays : List JsString)
    (exchangeId contactId : Option Hex32) (replaceUnreconciled : Bool) : Op Bool := do
  -- `mayDeliver`.
  if !(← ask Bool) then return false
  check replySession
  let previous := (← loadChildContactReplyOutbox scope).find? fun e => e.requestId = plan.requestId
  let now := max now ((previous.elim 0 fun e => e.event.createdAt) + 1)
  let reply := replyFor scope plan status now exchangeId contactId
  let event ← sealChildContactReply reply
  check replySession
  let _ ← queueChildContactReply scope plan.requestId event reply relays now replaceUnreconciled
  (deliverChildContactReply scope plan.requestId now).tryCatch fun cause => do
    check replySession
    if isPolicyChange cause then return false else throw cause

/-! ## Review -/

def reviewSession : String := "Child review session changed"

def loadChildContactReview (scope : ChildRequestScope) : Op (List ChildContactExchangePlan) := do
  throwIf (32 < scope.personas.length) "Invalid child review scope"
  check reviewSession
  match ← read (·.review) with
  | none => return []
  | some row =>
    let state ← Async.ofExcept (parseReview row scope)
    check reviewSession
    return state.entries

def settledRequestIds (scope : ChildRequestScope) (plans : List ChildContactExchangePlan)
    (now : ℤ) : Op (List Hex32) := do
  if plans.isEmpty then return []
  let receipts ← loadChildContactInbox scope now
  let replies ← loadChildContactReplyOutbox scope
  return settledAmong plans receipts replies now

def loadSettledChildContactPlans (scope : ChildRequestScope) (now : ℤ) : Op (List Hex32) := do
  settledRequestIds scope (← loadChildContactReview scope) now

inductive Decision where
  | approve | deny
  deriving DecidableEq

/-- The plan a review makes for a pending request. -/
def planFor (scope : ChildRequestScope) (request : ChildContactRequest) (fingerprint : Hex64)
    (decision : Decision) (now : ℤ) (nonce replySecret : Hex64) : ChildContactExchangePlan :=
  { scope.toPairingKeys with
    requestId := request.id, fingerprint, persona := request.persona,
    peer := InviteSdk.recipient request.invite,
    exchangeId := exchangeId scope.toPairingKeys request.id,
    status := if decision = .approve then .approved else .denied,
    createdAt := now, updatedAt := now, nonce, replySecret, request }

def reviewChildContactRequest (scope : ChildRequestScope) (requestId : Hex32) (fingerprint : Hex64)
    (decision : Decision) (now : ℤ) : Op (Option ChildContactExchangePlan) := do
  throwIf (32 < scope.personas.length) "Invalid child review scope"
  throwIf (!stamp now) "Invalid child review decision"
  check reviewSession
  let receipts ← loadChildContactInbox scope now
  match (receipts.find? fun r => r.id = requestId).filter
      (fun r => r.status = .pending && r.fingerprint = fingerprint) |>.bind (·.request) with
  | none => throw "Child request is no longer reviewable"
  | some request =>
    throwIf (request.expiresAt ≤ now || !scope.personas.contains request.persona)
      "Child request expired or withdrawn"
    -- `mayConnect`.
    onlyIf (decision = .approve) (require "The contact policy changed")
    check reviewSession
    let settled ← settledRequestIds scope (← loadChildContactReview scope) now
    check reviewSession
    let nonce ← ask Hex64
    let replySecret ← ask Hex64
    let plan := planFor scope request fingerprint decision now nonce replySecret
    let saved ← commit (.review scope plan settled) fun _ s => entriesOf s.review
    check reviewSession
    return saved.find? fun p => p.requestId = request.id

def cancelChildContactExchange (scope : ChildRequestScope) (requestId : Hex32) (now : ℤ) :
    Op (Option ChildContactExchangePlan) := do
  throwIf (32 < scope.personas.length) "Invalid child review scope"
  throwIf (!stamp now) "Invalid child exchange cancellation"
  let saved ← commit (.cancelPlan scope requestId now) fun _ s => entriesOf s.review
  check reviewSession
  return saved.find? fun p => p.requestId = requestId

/-! ## Execution -/

def executionSession : String := "Child execution session changed"

def loadChildContactExecutions (scope : ChildRequestScope) : Op (List ChildContactExecution) := do
  check executionSession
  match ← read (·.execution) with
  | none => return []
  | some row =>
    let state ← Async.ofExcept (parseExecutions row scope)
    check executionSession
    return state.entries

def executeChildContactPlan (scope : ChildRequestScope) (requestId : Hex32) (now : ℤ) :
    Op (Option ChildContactExecution) := do
  throwIf (!stamp now) "Invalid child execution request"
  check executionSession
  match (← loadChildContactReview scope).find? fun p => p.requestId = requestId with
  | none => throw "Child exchange is not approved"
  | some plan =>
    throwIf (plan.status ≠ .approved) "Child exchange is not approved"
    require "The contact policy changed"
    check executionSession
    let plans ← loadChildContactReview scope
    let settled ← loadSettledChildContactPlans scope now
    check executionSession
    -- Whether the reservation put a new row in, and the row it left.
    let (inserted, existing) ← commit (.reserve scope plan plans settled now) fun s s' =>
      (!((Change.reserve scope plan plans settled now).reserves s).isEmpty,
        (entriesOf s'.execution).find? fun e => e.exchangeId = plan.exchangeId)
    if existing.any fun e => e.status = .signed then return existing
    throwIf (!inserted) "Child exchange signer attempt needs reconciliation"
    let event ← sign plan
    check executionSession
    throwIf (!parseEvent event) "Invalid child exchange event"
    require "The contact policy changed"
    check executionSession
    let saved ← commit (.recordSigned scope plan.exchangeId event now) fun _ s =>
      entriesOf s.execution
    check executionSession
    return saved.find? fun e => e.exchangeId = plan.exchangeId

def cancelChildContactExecution (scope : ChildRequestScope) (exchangeId : Hex32) (now : ℤ) :
    Op ChildContactExecution := do
  throwIf (!stamp now) "Invalid child execution cancellation"
  let saved ← commit (.cancelExecution scope exchangeId now) fun _ s => entriesOf s.execution
  check executionSession
  match saved.find? fun e => e.exchangeId = exchangeId with
  | none => throw "Child execution not found"
  | some e => return e

/-! ## The lifecycle -/

/-- `guardianChildAbandon`: the exchange is declined with the invite service, then its execution is
cancelled, if there is one. -/
def guardianChildAbandon (scope : ChildRequestScope) (plan : ChildContactExchangePlan) (now : ℤ) :
    Op Unit := do
  ask Unit
  (discard (cancelChildContactExecution scope plan.exchangeId now)).tryCatch fun _ => pure ()

/-- `guardianChildReply`: a pending reply follows the exchange request to the relays. -/
def guardianChildReply (scope : ChildRequestScope) (plan : ChildContactExchangePlan)
    (status : ChildContactReplyStatus) (now : ℤ) (relays : List JsString) : Op Unit := do
  onlyIf (status = .pending) (ask Unit)
  discard (sendChildContactReply scope plan status now relays none none false)

/-- The clock readings of one decision: review, execution, transition, cancellation, reply. -/
structure DecisionTimes where
  review : ℤ
  execute : ℤ
  transition : ℤ
  abandon : ℤ
  cancel : ℤ
  reply : ℤ

/-- `decideChildContactRequest` with the callbacks of `App.tsx`. -/
def decideChildContactRequest (scope : ChildRequestScope) (requestId : Hex32) (fingerprint : Hex64)
    (decision : Decision) (now : DecisionTimes) (relays : List JsString) :
    Op (Option ChildContactExchangePlan) := do
  match ← reviewChildContactRequest scope requestId fingerprint decision now.review with
  | none => throw "undefined"
  | some plan =>
    onlyIf (plan.status = .approved)
      (discard (executeChildContactPlan scope plan.requestId now.execute))
    (discard (transitionChildContactReceipt scope plan.requestId [.pending]
        (if plan.status = .approved then .approved else .denied) now.transition)).tryCatch
      fun cause => do
        onlyIf (plan.status = .approved) do
          let current ← ask Bool
          onlyIf current do
            guardianChildAbandon scope plan now.abandon
            discard (cancelChildContactExchange scope plan.requestId now.cancel)
        throw cause
    guardianChildReply scope plan (if plan.status = .approved then .pending else .denied) now.reply
      relays
    return some plan

def childExchangeAuthority (scope : ChildRequestScope) (exchangeId : Hex32) (now : ℤ) :
    Op Authority := do
  match (← loadChildContactReview scope).find? fun p => p.exchangeId = exchangeId with
  | none => return .withdraw
  | some plan =>
    if plan.status ≠ .approved then return .withdraw
    match (← loadChildContactInbox scope now).find? fun r => r.id = plan.requestId with
    | none => return .withdraw
    | some receipt =>
      if receipt.status = .approved || receipt.status = .completed then answerGo plan receipt
      else return if receipt.status = .pending then .wait else .withdraw

/-- `cancelChildContactRequest`; `relays` when a reply is to be sent. -/
def cancelChildContactRequest (scope : ChildRequestScope) (requestId : Hex32) (now : ℤ)
    (relays : Option (List JsString)) : Op (Option ChildContactExchangePlan) := do
  match (← loadChildContactReview scope).find? fun p => p.requestId = requestId with
  | none => return none
  | some plan =>
    onlyIf (plan.status ≠ .cancelled) (discard (cancelChildContactExchange scope requestId now))
    let executions ← loadChildContactExecutions scope
    onlyIf (executions.any fun e => e.exchangeId = plan.exchangeId && e.status = .planned)
      (discard (cancelChildContactExecution scope plan.exchangeId now))
    -- `cancelExchange`.
    ask Unit
    let receipt := (← loadChildContactInbox scope now).find? fun r => r.id = requestId
    if receipt.any fun r => r.status ≠ .pending && r.status ≠ .approved && r.status ≠ .expired then
      return some plan
    onlyIf receipt.isSome
      (discard (transitionChildContactReceipt scope requestId [.pending, .approved] .expired now))
    match relays with
    | none => return some plan
    | some relays =>
      let sent := (← loadChildContactReplyOutbox scope).find? fun e => e.requestId = requestId
      onlyIf (!(sent.bind (·.reply)).any fun r => r.status = .expired)
        (discard (sendChildContactReply scope plan .expired now relays none none true))
      return some plan

def receiptPlan : ChildRequestStatus → Option ChildContactReviewStatus
  | .approved => some .approved
  | .completed => some .approved
  | .denied => some .denied
  | .expired => some .cancelled
  | .pending | .conflict => none

/-- The contact a completed reply names, when the invite service knows it. -/
def completedContactId (status : ChildContactReplyStatus) : Op (Option Hex32) :=
  if status = .completed then ask (Option Hex32) else pure none

/-- The loop of `reconcileChildContactReplies`, over the plans it loaded. -/
def reconcileEach (scope : ChildRequestScope) (now : ℤ) (relays : List JsString)
    (receipts : List ChildRequestReceipt) (replies : List ChildContactReplyOutboxEntry) :
    List ChildContactExchangePlan → Op ℕ
  | [] => return 0
  | plan :: plans => do
    let due := (receipts.find? fun r => r.id = plan.requestId).filter fun r =>
      receiptPlan r.status = some plan.status && now < r.updatedAt + ttl
    let entry := replies.find? fun e => e.requestId = plan.requestId
    match due.bind fun r => childReplyForReceipt r.status with
    | none => reconcileEach scope now relays receipts replies plans
    | some status =>
      if entry.any fun e => e.reply.all fun r => r.status = status || r.status ≠ .pending then
        reconcileEach scope now relays receipts replies plans
      else do
        -- `transport`, and `isCurrent`.
        let live ← ask Bool
        let current ← ask Bool
        if !live || !current then reconcileEach scope now relays receipts replies plans
        else do
          let contactId ← completedContactId status
          discard (sendChildContactReply scope plan status now relays
            (if status = .completed then some plan.exchangeId else none) contactId false)
          let rest ← reconcileEach scope now relays receipts replies plans
          return rest + 1

def reconcileChildContactReplies (scope : ChildRequestScope) (now : ℤ) (relays : List JsString) :
    Op ℕ := do
  let receipts ← loadChildContactInbox scope now
  let plans ← loadChildContactReview scope
  let replies ← loadChildContactReplyOutbox scope
  reconcileEach scope now relays receipts replies plans

/-- `sendChildCompletionReply`: the exchange was recorded as a contact. -/
def sendChildCompletionReply (scope : ChildRequestScope) (exchangeId contactId : Hex32)
    (completed sent : ℤ) (relays : List JsString) : Op Unit := do
  match (← loadChildContactReview scope).find? fun p => p.exchangeId = exchangeId with
  | none => return ()
  | some plan =>
    if plan.status ≠ .approved then return ()
    if !(← ask Bool) then return ()
    -- `mayReply`.
    require "Child pairing or contact policy changed"
    discard (transitionChildContactReceipt scope plan.requestId [.pending, .approved] .completed
      completed)
    discard (sendChildContactReply scope plan .completed sent relays (some plan.exchangeId)
      (some contactId) false)

/-! ## The child's side -/

def exchangeSession : String := "Child exchange session changed"

def queueChildContactRequest (scope : ChildRequestScope) (request : ChildContactRequest)
    (fingerprint : Hex64) (now : ℤ) : Op (Option ChildContactOutboxEntry) := do
  match parseChildContactRequest request with
  | none => throw "Invalid child request outbox entry"
  | some request =>
    throwIf (request.client ≠ scope.client || request.guardian ≠ scope.guardian || !stamp now
        || request.expiresAt ≤ now)
      "Invalid child request outbox entry"
    check exchangeSession
    throwIf (32 < scope.personas.length) "Invalid child exchange scope"
    let saved ← commit (.queueRequest scope request fingerprint now) fun _ s => entriesOf s.outbox
    return saved.find? fun e => e.request.id = request.id

def attachChildContactRequestEvent (scope : ChildRequestScope) (requestId : Hex32)
    (event : NostrEvent) : Op (Option ChildContactOutboxEntry) := do
  throwIf (32 < scope.personas.length) "Invalid child exchange scope"
  let current ← ask Bool
  throwIf (!current || !eventShape event requestPrefix scope.client none
      || !Signatures.verifyEvent event)
    "Invalid child request event"
  let saved ← commit (.attachEvent scope requestId event) fun _ s => entriesOf s.outbox
  return saved.find? fun e => e.request.id = requestId

/-- `submitChildContactRequest`; the fingerprint is the hash of the request it queues. -/
def submitChildContactRequest (scope : ChildRequestScope) (persona : Hex64)
    (invite : InviteSdk.ContactInvite) (now : ℤ) : Op (Hex32 × Bool) := do
  throwIf (!scope.personas.contains persona) "This persona is not available to ask with"
  check requestSession
  let id ← ask Hex32
  match parseChildContactRequest
      { id, guardian := scope.guardian, endpoint := scope.endpoint, client := scope.client, persona,
        revision := 1, createdAt := now, expiresAt := now + ttl, invite } with
  | none => throw "Unable to build this request"
  | some request =>
    let fingerprint ← ask Hex64
    discard (queueChildContactRequest scope request fingerprint now)
    check requestSession
    -- `sealChildContactRequest`.
    let event ← ask NostrEvent
    check requestSession
    discard (attachChildContactRequestEvent scope request.id event)
    let published ← ask Bool
    return (request.id, published)

/-- `openChildContactReply`, of an event the client key decrypts to this reply. -/
def opensReply (scope : ChildRequestScope) (event : NostrEvent) (reply : ChildContactReply)
    (now : ℤ) : Bool :=
  stamp now && stamp event.createdAt && event.createdAt ≤ now + 300 && now < event.createdAt + ttl
    && eventShape event replyPrefix scope.endpoint (some scope.client)
    && Signatures.verifyEvent event && (parseChildContactReply reply).isSome
    && reply.guardian = scope.guardian && reply.endpoint = scope.endpoint
    && reply.client = scope.client && scope.personas.contains reply.persona
    && reply.createdAt = event.createdAt && now < reply.expiresAt
    && event.tags.all fun t => t[0]? ≠ some (lit "d") || t[1]? = some (replyPrefix ++ reply.requestId.val)

/-- One event at the child's reply inbox. -/
def receiveChildContactReply (scope : ChildRequestScope) (event : NostrEvent)
    (now receivedAt : ℤ) : Op Unit := do
  let (reply, fingerprint) ← ask (ChildContactReply × Hex64)
  onlyIf (opensReply scope event reply now) do
    check replySession
    discard (commit (.saveReply scope ⟨reply.requestId, fingerprint, reply, receivedAt⟩)
      fun _ s => entriesOf s.replyInbox)

end SignetApp.Pairing
