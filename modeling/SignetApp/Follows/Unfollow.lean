import SignetApp.Concurrency.Reach
import SignetApp.Contacts.GroupRecord
import SignetApp.Contacts.ListView
import SignetApp.Contacts.Tombstones
import SignetApp.Follows.Suffix

/-!
# Tidying up after an import

`nostr-follows.ts`, `computeUnfollows`, and `unlinkContactsFromList` of `useContactsV2.ts`: the contacts that
an import brought and that are followed no longer are taken off a list, by every device from its own log.
-/

namespace SignetApp.Follows

open SignetApp.Js SignetApp.Contacts

/-! ## What is offered -/

def followsOriginCaption : JsString := lit "Nostr follows"

/-- Another list holds the contact. -/
def heldElsewhere (record : ContactRecord) (owner : Hex64) : Bool :=
  record.memberships.any fun m => m.removedAt.isNone && m.ownerIdentityPubkey ≠ owner

structure Unfollows where
  removable : List ContactRecord
  onlyOnThisList : List ContactRecord

/-- A follows import for this persona brought the contact, and none of its keys is followed now. -/
def isUnfollowed (persona : Hex64) (current : List JsString) (record : ContactRecord) : Bool :=
  record.lifecycle ≠ .removed && contactBelongsToList record persona &&
    ((record.origins.getD []).any fun o => o.method = .import && o.caption.map Subtype.val = some followsOriginCaption &&
      o.ownerIdentityPubkey = persona) &&
    !record.identities.isEmpty && !record.identities.any fun i => current.contains i.pubkey.val

def computeUnfollows (records : List ContactRecord) (persona : Hex64) (current : List JsString) : Unfollows :=
  let unfollowed := records.filter (isUnfollowed persona current)
  { removable := unfollowed.filter fun record => heldElsewhere record persona
    onlyOnThisList := unfollowed.filter fun record => !heldElsewhere record persona }

/-! ## What is written -/

structure UnlinkCall where
  contactIds : List Hex32
  ownerIdentityPubkey : Hex64
  actor : MutationActor
  now : Timestamp
  /-- `clockRef.current`. -/
  clock : ℕ
  operationIds : ℕ → Hex32

/-- `frontierOf(ops).maxClock`. -/
def maxClock (ops : List ContactOperation) : ℕ := (ops.map fun op => op.logicalClock.val).foldl max 0

theorem one_le_toDouble {n : ℕ} (h : 1 ≤ n) : 1 ≤ toDouble n := by
  have hlog : 2 ^ Nat.log2 n ≤ n := Nat.log2_self_le (by omega)
  have hunit : 2 ^ (Nat.log2 n - 52) ≤ n := (Nat.pow_le_pow_right (by decide) (Nat.sub_le _ _)).trans hlog
  have hpos : 0 < 2 ^ (Nat.log2 n - 52) := Nat.two_pow_pos _
  have hbelow : 1 ≤ n / 2 ^ (Nat.log2 n - 52) := Nat.div_pos hunit hpos
  have hprod : 1 ≤ n / 2 ^ (Nat.log2 n - 52) * 2 ^ (Nat.log2 n - 52) := Nat.mul_pos hbelow hpos
  unfold toDouble
  dsimp only
  split
  · rw [Nat.add_mul, Nat.one_mul]
    omega
  · exact hprod

theorem one_le_nextClock (own observed : JsValue) : 1 ≤ toDouble (nextClock own observed) :=
  one_le_toDouble (Nat.le_add_left 1 _)

theorem one_le_later {clock : ℕ} (h : 1 ≤ clock) (i : ℕ) : 1 ≤ toDouble (clock + i) :=
  one_le_toDouble (h.trans (Nat.le_add_right clock i))

/-- The clock of the first operation of a call. -/
def UnlinkCall.start (call : UnlinkCall) (current : List ContactOperation) : LamportClock :=
  ⟨toDouble (nextClock (.ofNat call.clock) (.ofNat (maxClock current))), one_le_nextClock _ _⟩

/-- May the contact be taken off the list? Its only list is left to it. -/
def unlinkable (record : Option ContactRecord) (owner : Hex64) : Bool :=
  match record with
  | none => false
  | some r => r.lifecycle ≠ .removed && contactBelongsToList r owner && heldElsewhere r owner

/-- The `i`-th operation of a call. -/
def UnlinkCall.operation (call : UnlinkCall) (directoryId : DirectoryId) (start : LamportClock) (contactId : Hex32)
    (i : ℕ) : ContactOperation :=
  buildOperation {
    directoryId
    contactId
    action := .unlinkList call.ownerIdentityPubkey
    clock := ⟨toDouble (start.val + i), one_le_later start.property i⟩
    actor := call.actor
    now := call.now
    operationId := call.operationIds i }

/-- The operations of a call on a log; `none` where the guard of operations rejects one, as it does an app's. -/
def unlinkContactsFromList (directoryId : DirectoryId) (current : List ContactOperation) (call : UnlinkCall) :
    Option (List ContactOperation) :=
  let records := materialise current
  let chosen := (distinct call.contactIds).filter fun id =>
    unlinkable (records.get ⟨directoryId, id⟩) call.ownerIdentityPubkey
  let ops := chosen.zipIdx.map fun entry => call.operation directoryId (call.start current) entry.1 entry.2
  if ops.all fun op => op.actorRole ≠ .app then some ops else none

/-! ## The devices of an account -/

/-- An unlink of a call, with the log it was checked against. -/
structure Unlink where
  operation : ContactOperation
  against : List ContactOperation

structure Device where
  log : List ContactOperation
  /-- The unlinks that are about to be saved. -/
  checked : List Unlink

structure World where
  directoryId : DirectoryId
  devices : ℕ → Device
  /-- The unlinks that calls have saved. -/
  unlinks : List Unlink

def World.setDevice (w : World) (d : ℕ) (device : Device) : World :=
  { w with devices := fun e => if e = d then device else w.devices e }

inductive Happening where
  /-- A call for contacts that were reported of these records; calls of one device take turns. -/
  | check (d : ℕ) (call : UnlinkCall) (records : List ContactRecord) (current : List JsString)
  | save (d : ℕ)
  /-- Any other operation. -/
  | write (d : ℕ) (op : ContactOperation)
  | merge (d other : ℕ)

/-- The union by operation id; the local copy wins. -/
def unite (own remote : List ContactOperation) : List ContactOperation :=
  own ++ remote.filter fun op => !own.any fun held => held.operationId = op.operationId

def next (w : World) : Happening → World
  | .check d call _ _ =>
    if (w.devices d).checked.isEmpty then
      match unlinkContactsFromList w.directoryId (w.devices d).log call with
      | none => w
      | some ops => w.setDevice d { w.devices d with
          checked := ops.map fun operation => ⟨operation, (w.devices d).log⟩ }
    else w
  | .save d =>
    { w with unlinks := w.unlinks ++ (w.devices d).checked }.setDevice d
      ⟨(w.devices d).log ++ (w.devices d).checked.map Unlink.operation, []⟩
  | .write d op => w.setDevice d { w.devices d with log := (w.devices d).log ++ [op] }
  | .merge d other => w.setDevice d { w.devices d with log := unite (w.devices d).log (w.devices other).log }

/-- A call is for contacts that were reported. -/
def Reported (_ : World) : Happening → Prop
  | .check _ call records current => ∀ id ∈ call.contactIds,
      ∃ record ∈ (computeUnfollows records call.ownerIdentityPubkey current).removable, record.contactId = id
  | _ => True

/-! ## Who removed a contact -/

def idIn (log : List ContactOperation) (contact : RecordKey) : RecordKey := (contextOf log).canonical contact

def Live (log : List ContactOperation) (contact : RecordKey) : Prop :=
  ∃ record, (materialise log).get (idIn log contact) = some record ∧ record.lifecycle ≠ .removed

/-- The operation of a row removes the contact, and nothing restores it afterwards. -/
def RemovedAt (log : List ContactOperation) (contact : RecordKey) (row : LogRow) : Prop :=
  ∃ pre post, groupRows log (idIn log contact) = pre ++ row :: post ∧ ¬ Removed (recordAfter log pre) ∧
    Removed (recordAfter log (pre ++ [row])) ∧ ∀ later ∈ post, ¬ (contextOf log).Restores later

/-- The contact is live, or what removed it is not one of the unlinks. -/
def LiveOrRemovedOtherwise (unlinks : List Unlink) (log : List ContactOperation) (contact : RecordKey) : Prop :=
  Live log contact ∨ ∃ row, RemovedAt log contact row ∧ row.op ∉ unlinks.map Unlink.operation

/-- At the place of each unlink in the order of the log, unless the contact is added again later, another list holds
the contact if this one does. -/
def HeldAtUnlinks (unlinks : List Unlink) (log : List ContactOperation) (contact : RecordKey) : Prop :=
  ∀ (pre post : List LogRow) (row : LogRow) (owner : Hex64) (record : ContactRecord),
    groupRows log (idIn log contact) = pre ++ row :: post → row.op ∈ unlinks.map Unlink.operation →
    row.op.action = .unlinkList owner → (∀ later ∈ post, ¬ (contextOf log).Restores later) →
    recordAfter log pre = some record → record.lifecycle ≠ .removed → contactBelongsToList record owner = true →
    heldElsewhere record owner = true

def listOperations (contact : RecordKey) (ops : List ContactOperation) : List ContactOperation :=
  ops.filter fun op => recordKey op = contact && op.action.isListAction

/-- Each unlink of the contact comes after the list operations that its device knew, and no others. -/
structure NothingBetween (unlinks : List Unlink) (log : List ContactOperation) (contact : RecordKey) : Prop where
  unmerged : Unmerged log contact
  knew : ∀ unlink ∈ unlinks, recordKey unlink.operation = contact → ∀ pre post,
    sortOperations log = pre ++ unlink.operation :: post →
    Unmerged unlink.against contact ∧
      listOperations contact pre = listOperations contact (sortOperations unlink.against)

end SignetApp.Follows
