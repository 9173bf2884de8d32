import SignetApp.Sync.Payload

/-!
# A child's contact requests, as the guardian stores them

`child-contact-requests.ts`: requests, their receipts, the inbox row of one pairing, and the
changes its writers make to it. A stored row is held as the value its JSON denotes; an id or a key
is held at the type of the strings its regular expression accepts, and a time as the integer the
check `stamp` is about.
-/

namespace SignetApp.Pairing

open SignetApp.Js SignetApp.Contacts

/-- `stamp`: a non-negative integer up to the last second of the year 9999. -/
def stamp (n : ℤ) : Bool := 0 ≤ n && n ≤ 253402300799

theorem stamp_iff {n : ℤ} : stamp n = true ↔ 0 ≤ n ∧ n ≤ 253402300799 := by
  simp [stamp]

abbrev ttl : ℤ := 600

abbrev maxBytes : ℕ := 12000

/-- `LIVE_LIMIT`, also the length of the execution row and of both outboxes. -/
abbrev liveLimit : ℕ := 32

/-- `RECEIPT_LIMIT` and `RETAIN_LIMIT`. -/
abbrev retainLimit : ℕ := 1024

/-! ## Packages -/

/-- The contact invites of `@forgesworn/signet-contacts`. -/
class InviteSdk where
  ContactInvite : Type
  recipient : ContactInvite → Hex64
  expiresAt : ContactInvite → Option ℤ
  /-- The bytes of `JSON.stringify(invite)` in UTF-8. -/
  jsonBytes : ContactInvite → ℕ
  /-- `parseContactInvite(JSON.stringify(invite))`. -/
  parseContactInvite : ContactInvite → Option ContactInvite

/-- The parser returns invites in its own form. -/
class LawfulInviteSdk [InviteSdk] : Prop where
  parse_parsed : ∀ {i j : InviteSdk.ContactInvite},
    InviteSdk.parseContactInvite i = some j → InviteSdk.parseContactInvite j = some j

/-! ## Scope -/

/-- The four keys one pairing's rows are stored under. -/
structure PairingKeys where
  guardian : Hex64
  child : Hex64
  endpoint : Hex64
  client : Hex64
  deriving DecidableEq

structure ChildRequestScope extends PairingKeys where
  personas : List Hex64

/-- `validScope` in `child-contact-requests.ts`; the other modules do not ask for distinct
personas, or for personas at all. -/
def ChildRequestScope.validScope (scope : ChildRequestScope) : Bool :=
  scope.personas.length ≤ 32 && scope.personas.Nodup

/-- A row of one pairing: the keys it names, and its entries. -/
structure PairingRow (E : Type) extends PairingKeys where
  entries : List E

/-- The row a writer starts from when none is stored. -/
def PairingKeys.empty {E : Type} (p : PairingKeys) : PairingRow E := { p with entries := [] }

/-! ## Requests -/

section
variable [InviteSdk]

structure ChildContactRequest where
  id : Hex32
  guardian : Hex64
  endpoint : Hex64
  client : Hex64
  persona : Hex64
  revision : ℤ
  createdAt : ℤ
  expiresAt : ℤ
  invite : InviteSdk.ContactInvite

end

/-- The characters of a decimal numeral. -/
def numeralLength (n : ℤ) : ℕ :=
  (Nat.toDigits 10 n.natAbs).length + if n < 0 then 1 else 0

section
variable [InviteSdk]

/-- The bytes of `JSON.stringify(request)`: member names, quotes, commas and the five ids come to
404, then the three numbers and the invite. -/
def requestBytes (r : ChildContactRequest) : ℕ :=
  404 + numeralLength r.revision + numeralLength r.createdAt + numeralLength r.expiresAt
    + InviteSdk.jsonBytes r.invite

/-- `parseChildContactRequest(JSON.stringify(r))`. -/
def parseChildContactRequest (r : ChildContactRequest) : Option ChildContactRequest :=
  if maxBytes < requestBytes r then none
  else if !stamp r.revision || r.revision < 1 || !stamp r.createdAt || !stamp r.expiresAt
      || r.expiresAt ≤ r.createdAt || ttl < r.expiresAt - r.createdAt then none
  else match InviteSdk.parseContactInvite r.invite with
    | none => none
    | some invite =>
      if InviteSdk.recipient invite = r.persona
          || (InviteSdk.expiresAt invite).any fun e => e < r.expiresAt then none
      else some { r with invite }

def childContactRequestInScope (r : ChildContactRequest) (scope : ChildRequestScope) : Bool :=
  r.guardian = scope.guardian && r.endpoint = scope.endpoint && r.client = scope.client
    && scope.personas.contains r.persona

end

/-! ## Receipts -/

inductive ChildRequestStatus where
  | pending | approved | completed | denied | expired | conflict
  deriving DecidableEq

/-- The name of a status, as messages print it. -/
def ChildRequestStatus.text : ChildRequestStatus → String
  | pending => "pending" | approved => "approved" | completed => "completed"
  | denied => "denied" | expired => "expired" | conflict => "conflict"

section
variable [InviteSdk]

structure ChildRequestReceipt where
  id : Hex32
  fingerprint : Hex64
  revision : ℤ
  status : ChildRequestStatus
  updatedAt : ℤ
  /-- Kept only while pending. -/
  request : Option ChildContactRequest

abbrev Inbox := PairingRow ChildRequestReceipt

def isPending (r : ChildRequestReceipt) : Bool := r.status = .pending

/-- One receipt as the inbox's reader takes it. -/
def readReceipt (scope : ChildRequestScope) (r : ChildRequestReceipt) :
    Except String ChildRequestReceipt :=
  if !stamp r.revision || r.revision < 1 || !stamp r.updatedAt then
    .error "Invalid child request receipt"
  else
    let request := r.request.bind parseChildContactRequest
    if r.status = .pending then
      if request.any fun q => q.id = r.id && q.revision = r.revision
          && q.guardian = scope.guardian && q.endpoint = scope.endpoint
          && q.client = scope.client then
        .ok { r with request }
      else .error "Invalid child request receipt"
    else if r.request.isSome then .error "Invalid child request receipt"
    else .ok r

def parseInbox (raw : Inbox) (scope : ChildRequestScope) : Except String Inbox :=
  if raw.toPairingKeys ≠ scope.toPairingKeys || retainLimit < raw.entries.length
      || !(raw.entries.map (·.id)).Nodup || liveLimit < (raw.entries.filter isPending).length then
    .error "Invalid child request inbox"
  else do
    let receipts ← raw.entries.mapM (readReceipt scope)
    return { scope.toPairingKeys with entries := receipts }

/-- The bytes of one receipt in JSON: names, quotes, commas, id and fingerprint come to 159. -/
def receiptBytes (r : ChildRequestReceipt) : ℕ :=
  159 + numeralLength r.revision + r.status.text.length + numeralLength r.updatedAt
    + r.request.elim 0 fun q => 11 + requestBytes q

/-- The bytes of a stored inbox in JSON. -/
def inboxBytes (inbox : Inbox) : ℕ :=
  328 + (inbox.entries.map receiptBytes).sum + (inbox.entries.length - 1)

/-- Nothing waits any more: the invite is dropped with the request. -/
def ChildRequestReceipt.settle (r : ChildRequestReceipt) (status : ChildRequestStatus)
    (updatedAt : ℤ) : ChildRequestReceipt :=
  { r with status, updatedAt, request := none }

/-- A pending receipt that `expire` closes. The reader left a request in every pending receipt. -/
def overdue (scope : ChildRequestScope) (now : ℤ) (r : ChildRequestReceipt) : Bool :=
  isPending r && r.request.all fun q => q.expiresAt ≤ now || !scope.personas.contains q.persona

def expire (inbox : Inbox) (scope : ChildRequestScope) (now : ℤ) : Inbox :=
  { inbox with
    entries := inbox.entries.map fun r => if overdue scope now r then r.settle .expired now else r }

/-! ## The writers' changes -/

/-- The sweep in `loadChildContactInbox`. -/
def expireInbox (scope : ChildRequestScope) (now : ℤ) (previous : Option Inbox) :
    Except String Inbox :=
  match previous with
  | none => .error "Child request inbox changed"
  | some row => do return expire (← parseInbox row scope) scope now

/-- The change of `storeChildContactRequest`. -/
def storeRequest (scope : ChildRequestScope) (request : ChildContactRequest) (fingerprint : Hex64)
    (now : ℤ) (previous : Option Inbox) : Except String Inbox := do
  let inbox := expire (← parseInbox (previous.getD scope.empty) scope) scope now
  match inbox.entries.find? fun r => r.id = request.id with
  | some existing =>
    if existing.fingerprint = fingerprint || existing.status = .conflict then return inbox
    else return { inbox with
      entries := inbox.entries.map fun r =>
        if r.id = request.id then r.settle .conflict now else r }
  | none =>
    if retainLimit ≤ inbox.entries.length || liveLimit ≤ (inbox.entries.filter isPending).length then
      throw "Child request inbox is full"
    else return { inbox with
      entries := inbox.entries ++ [{
        id := request.id, fingerprint, revision := request.revision, status := .pending,
        updatedAt := now, request := some request }] }

/-- The change of `transitionChildContactReceipt`. -/
def transitionReceipt (scope : ChildRequestScope) (requestId : Hex32)
    (source : List ChildRequestStatus) (target : ChildRequestStatus) (now : ℤ)
    (previous : Option Inbox) : Except String Inbox :=
  match previous with
  | none => .error "Child request receipt not found"
  | some row => do
    let inbox := expire (← parseInbox row scope) scope now
    match inbox.entries.find? fun r => r.id = requestId with
    | none => throw "Child request receipt not found"
    | some receipt =>
      if receipt.status = target then return inbox
      else if !source.contains receipt.status then
        throw ("Child request is already " ++ receipt.status.text)
      else return { inbox with
        entries := inbox.entries.map fun r =>
          if r.id = requestId then r.settle target (max now r.updatedAt) else r }

end

end SignetApp.Pairing
