import SignetApp.Pairing.Replies

/-!
# Plans and executions

`child-contact-review.ts` and `child-contact-execution.ts`: the plan a review leaves for a request,
when a plan is settled, the reservation of a signer attempt, and the changes to both rows.
-/

namespace SignetApp.Pairing

open SignetApp.Js SignetApp.Contacts

inductive ChildContactReviewStatus where
  | approved | denied | cancelled
  deriving DecidableEq

def childReplyForReceipt : ChildRequestStatus → Option ChildContactReplyStatus
  | .approved => some .pending
  | .completed => some .completed
  | .denied => some .denied
  | .expired => some .expired
  | .pending | .conflict => none

section
variable [InviteSdk]

structure ChildContactExchangePlan extends PairingKeys where
  requestId : Hex32
  fingerprint : Hex64
  persona : Hex64
  peer : Hex64
  exchangeId : Hex32
  status : ChildContactReviewStatus
  createdAt : ℤ
  updatedAt : ℤ
  nonce : Hex64
  replySecret : Hex64
  request : ChildContactRequest

abbrev ReviewState := PairingRow ChildContactExchangePlan

/-! ## Settled plans -/

def childContactPlanSettled (plan : ChildContactExchangePlan) (receipt : Option ChildRequestReceipt)
    (entry : Option ChildContactReplyOutboxEntry) (now : ℤ) : Bool :=
  if receipt.any fun r => r.status = .pending || r.status = .approved then false
  else if plan.status = .approved && !receipt.any (fun r => r.status = .completed) then false
  else
    let expected := receipt.bind fun r => childReplyForReceipt r.status
    match entry.filter fun e => e.reply.any fun r => some r.status = expected with
    | some found => found.acknowledged || found.reply.any fun r => r.expiresAt ≤ now
    | none => expected.isNone || plan.status = .cancelled || plan.request.expiresAt ≤ now

/-- The plans `settledRequestIds` finds settled in the rows it read. -/
def settledAmong (plans : List ChildContactExchangePlan) (receipts : List ChildRequestReceipt)
    (replies : List ChildContactReplyOutboxEntry) (now : ℤ) : List Hex32 :=
  (plans.filter fun p => childContactPlanSettled p (receipts.find? fun r => r.id = p.requestId)
    (replies.find? fun e => e.requestId = p.requestId) now).map (·.requestId)

end

/-! ## The review row -/

section
variable [InviteSdk] [Sync.Sha256]

def exchangeId (keys : PairingKeys) (requestId : Hex32) : Hex32 :=
  Sync.tagOfHash (Sync.Sha256.hex (lit "child-contact-exchange:v1:" ++ keys.guardian.val ++ lit ":"
    ++ keys.child.val ++ lit ":" ++ requestId.val))

/-- One plan as the review row's reader demands it. -/
def acceptsPlan (scope : ChildRequestScope) (p : ChildContactExchangePlan) : Bool :=
  stamp p.createdAt && stamp p.updatedAt && p.createdAt ≤ p.updatedAt
    && p.toPairingKeys = scope.toPairingKeys
    && exchangeId scope.toPairingKeys p.requestId = p.exchangeId && p.request.id = p.requestId
    && p.request.client = scope.client && p.request.guardian = scope.guardian
    && p.request.endpoint = scope.endpoint && p.request.persona = p.persona
    && InviteSdk.recipient p.request.invite = p.peer

def parseReview (raw : ReviewState) (scope : ChildRequestScope) : Except String ReviewState :=
  if raw.toPairingKeys ≠ scope.toPairingKeys || retainLimit < raw.entries.length then
    .error "Invalid child review state"
  else if !raw.entries.all (acceptsPlan scope) then .error "Invalid child review plan"
  else if !(raw.entries.map (·.requestId)).Nodup || !(raw.entries.map (·.exchangeId)).Nodup then
    .error "Duplicate child review plan"
  else .ok raw

/-- Oldest first, equal times by request id. -/
def evictedBefore (a b : ChildContactExchangePlan) : Prop :=
  a.updatedAt < b.updatedAt ∨ a.updatedAt = b.updatedAt ∧ a.requestId ≤ b.requestId

instance : DecidableRel evictedBefore := fun _ _ => inferInstanceAs (Decidable (_ ∨ _ ∧ _))

/-- The change of `reviewChildContactRequest`, for the plan it made and the requests it found
settled. -/
def reviewRequest (scope : ChildRequestScope) (plan : ChildContactExchangePlan)
    (settled : List Hex32) (previous : Option ReviewState) : Except String ReviewState := do
  let state ← parseReview (previous.getD scope.empty) scope
  match state.entries.find? fun p => p.requestId = plan.requestId with
  | some existing =>
    if existing.fingerprint ≠ plan.fingerprint then throw "Child request review conflict"
    else if existing.status ≠ plan.status then throw "Child request already reviewed"
    else return state
  | none =>
    if liveLimit ≤ (state.entries.filter fun p => !settled.contains p.requestId).length then
      throw "Child review queue is full"
    else if retainLimit ≤ state.entries.length then
      match ((state.entries.filter fun p => settled.contains p.requestId).insertionSort
          evictedBefore).head? with
      | none => throw "Child review queue is full"
      | some oldest => return { state with
          entries := (state.entries.filter fun p => p.requestId ≠ oldest.requestId) ++ [plan] }
    else return { state with entries := state.entries ++ [plan] }

/-- The change of `cancelChildContactExchange`. -/
def cancelPlan (scope : ChildRequestScope) (requestId : Hex32) (now : ℤ)
    (previous : Option ReviewState) : Except String ReviewState := do
  let state ← parseReview (previous.getD scope.empty) scope
  match state.entries.find? fun p => p.requestId = requestId with
  | none => throw "Child exchange plan not found"
  | some plan =>
    if plan.status = .cancelled then return state
    else return { state with
      entries := state.entries.map fun p =>
        if p.requestId = requestId then { p with status := .cancelled, updatedAt := now } else p }

end

/-! ## The execution row -/

inductive ChildContactExecutionStatus where
  | planned | signed | cancelled
  deriving DecidableEq

structure ChildContactExecution where
  requestId : Hex32
  exchangeId : Hex32
  status : ChildContactExecutionStatus
  createdAt : ℤ
  updatedAt : ℤ
  event : Option NostrEvent

abbrev ExecutionState := PairingRow ChildContactExecution

def parseEvent (e : NostrEvent) : Bool :=
  isHexOf 64 e.id && isHexOf 64 e.pubkey && isSafeInteger e.kind && stamp e.createdAt
    && isHexOf 128 e.sig

/-- One execution as the row's reader demands it. -/
def acceptsExecution (e : ChildContactExecution) : Bool :=
  stamp e.createdAt && stamp e.updatedAt && e.createdAt ≤ e.updatedAt
    && if e.status = .signed then e.event.any parseEvent else e.event.isNone

def parseExecutions (raw : ExecutionState) (scope : ChildRequestScope) :
    Except String ExecutionState :=
  if raw.toPairingKeys ≠ scope.toPairingKeys || liveLimit < raw.entries.length then
    .error "Invalid child execution state"
  else if !raw.entries.all acceptsExecution then .error "Invalid child execution"
  else if !(raw.entries.map (·.exchangeId)).Nodup then .error "Duplicate child execution"
  else .ok raw

section
variable [InviteSdk]

/-- `finished`: a cancelled execution, or one of a settled plan or of none of the plans read. -/
def finished (plans : List ChildContactExchangePlan) (settled : List Hex32)
    (e : ChildContactExecution) : Bool :=
  e.status = .cancelled
    || !plans.any fun p => p.exchangeId = e.exchangeId && !settled.contains p.requestId

/-- The reservation in `executeChildContactPlan`, and whether it put a new row in. -/
def reserve (scope : ChildRequestScope) (plan : ChildContactExchangePlan)
    (plans : List ChildContactExchangePlan) (settled : List Hex32) (now : ℤ)
    (previous : Option ExecutionState) : Except String (ExecutionState × Bool) := do
  let state ← parseExecutions (previous.getD scope.empty) scope
  if (state.entries.find? fun e => e.exchangeId = plan.exchangeId).isSome then
    return (state, false)
  let kept := if liveLimit ≤ state.entries.length then
      state.entries.filter fun e => !finished plans settled e
    else state.entries
  if liveLimit ≤ kept.length then throw "Child execution queue is full"
  return ({ state with
    entries := kept ++ [{
      requestId := plan.requestId, exchangeId := plan.exchangeId, status := .planned,
      createdAt := now, updatedAt := now, event := none }] }, true)

end

/-- The change that records the signed event in `executeChildContactPlan`. -/
def recordSigned (scope : ChildRequestScope) (exchangeId : Hex32) (event : NostrEvent) (now : ℤ)
    (previous : Option ExecutionState) : Except String ExecutionState :=
  match previous with
  | none => .error "Invalid child execution state"
  | some row => do
    let state ← parseExecutions row scope
    match state.entries.find? fun e => e.exchangeId = exchangeId with
    | none => throw "Child exchange execution changed"
    | some current =>
      if current.status = .cancelled then throw "Child exchange execution changed"
      else if current.status = .signed then return state
      else return { state with
        entries := state.entries.map fun e =>
          if e.exchangeId = exchangeId then
            { e with status := .signed, updatedAt := now, event := some event }
          else e }

/-- The change of `cancelChildContactExecution`. -/
def cancelExecution (scope : ChildRequestScope) (exchangeId : Hex32) (now : ℤ)
    (previous : Option ExecutionState) : Except String ExecutionState := do
  let state ← parseExecutions (previous.getD scope.empty) scope
  return { state with
    entries := state.entries.map fun e =>
      if e.exchangeId = exchangeId && e.status = .planned then
        { e with status := .cancelled, updatedAt := now }
      else e }

end SignetApp.Pairing
