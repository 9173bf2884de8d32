import Mathlib.Data.List.Sort
import SignetApp.Contacts.Effective
import SignetApp.Sync.Payload

/-!
# Who may reach a child

`child-contact-settings.ts`: the portable form of a child's contact settings and the merge of two
devices' rows, with `contact-invite-policy.ts`, where a row decides who gets through.
-/

namespace SignetApp.Family.ChildContact

open SignetApp.Js SignetApp.Sync
open SignetApp.Contacts (ContactCeilingTier ContactRecord DirectoryId maxCheckTime rankOf
  resolveEffective)

/-! ## The row -/

inductive ContactPolicy where
  | kinOnly | approved | «open»
  deriving DecidableEq

instance : StringUnion ContactPolicy where
  members := [.kinOnly, .approved, .open]
  name | .kinOnly => "kin-only" | .approved => "approved" | .open => "open"

instance : LawfulStringUnion ContactPolicy := ⟨by intro a; cases a <;> decide⟩

def maxApprovedContacts : ℕ := 500

/-- The approved contacts in order, none of them twice. -/
def ApprovedContacts :=
  { keys : List (Hex 64) // keys.Pairwise (· < ·) ∧ keys.length ≤ maxApprovedContacts }

instance : DecidableEq ApprovedContacts :=
  inferInstanceAs
    (DecidableEq { keys : List (Hex 64) // keys.Pairwise (· < ·) ∧ keys.length ≤ maxApprovedContacts })

/-- `[...new Set(approved)].sort()`. -/
def ApprovedContacts.ofList (approved : List (Hex 64)) (h : approved.length ≤ maxApprovedContacts) :
    ApprovedContacts where
  val := (distinct approved).insertionSort (· ≤ ·)
  property := by
    constructor
    · have hsorted := List.pairwise_insertionSort (· ≤ ·) (distinct approved)
      have hnodup : ((distinct approved).insertionSort (· ≤ ·)).Nodup :=
        (List.perm_insertionSort (· ≤ ·) _).nodup_iff.2 (nodup_distinct approved)
      exact (hsorted.and hnodup).imp fun h => lt_of_le_of_ne h.1 h.2
    · rw [List.length_insertionSort]
      exact (length_distinct_le approved).trans h

/-- The contacts on both lists. -/
def ApprovedContacts.inter (previous remote : ApprovedContacts) : ApprovedContacts where
  val := previous.val.filter fun peer => remote.val.contains peer
  property := ⟨previous.property.1.sublist List.filter_sublist,
    List.filter_sublist.length_le.trans previous.property.2⟩

/-- `ChildSettings` in its portable form. -/
structure ChildSettings where
  childPubkey : Hex 64
  guardianPubkey : Hex 64
  contactPolicy : ContactPolicy
  defaultChildCeiling : ContactCeilingTier
  approvedContacts : ApprovedContacts
  updatedAt : BoundedNat maxCheckTime
  contactPolicyConflicted : Bool
  deriving DecidableEq

/-- `v ?? d`. -/
def orDefault (v d : JsValue) : JsValue := if v = .undefined ∨ v = .null then d else v

def portableChildContactSettings (raw : JsValue) : Option ChildSettings := do
  guard (isObj raw)
  let childPubkey ← isHex 64 (raw.get "childPubkey")
  let guardianPubkey ← isHex 64 (raw.get "guardianPubkey")
  let contactPolicy ← StringUnion.parse (raw.get "contactPolicy")
  let defaultChildCeiling ←
    StringUnion.parse (orDefault (raw.get "defaultChildCeiling") (.ofLit "ken"))
  let updatedAt ← isBoundedNat maxCheckTime (orDefault (raw.get "updatedAt") (.ofNat 0))
  let conflicted ← isOpt isBool (raw.get "contactPolicyConflicted")
  let approved ← isArrayOf (isHex 64) (orDefault (raw.get "approvedContacts") (.arr []))
  if h : approved.length ≤ maxApprovedContacts then
    pure {
      childPubkey, guardianPubkey, contactPolicy, defaultChildCeiling
      approvedContacts := .ofList approved h
      updatedAt
      contactPolicyConflicted := conflicted.getD false }
  else none

/-! ## Rows as values -/

/-- The properties without the mark. -/
def ChildSettings.rest (s : ChildSettings) : JsObject :=
  [("childPubkey", s.childPubkey.toJs), ("guardianPubkey", s.guardianPubkey.toJs),
    ("contactPolicy", StringUnion.toJs s.contactPolicy),
    ("defaultChildCeiling", StringUnion.toJs s.defaultChildCeiling),
    ("approvedContacts", .arr (s.approvedContacts.val.map Hex.toJs)),
    ("updatedAt", s.updatedAt.toJs)]

def ChildSettings.toJs (s : ChildSettings) : JsValue :=
  .obj (s.rest ++ if s.contactPolicyConflicted then [("contactPolicyConflicted", .bool true)] else [])

/-! ## The merge -/

def ceilings : List ContactCeilingTier := [.none, .ken, .kith, .kin]

section

variable [Platform]

def withoutConflict (value : ChildSettings) : JsString := jsonText (.obj value.rest)

/-- Two rows of one child and guardian. -/
def ChildSettings.merge (previous remote : ChildSettings) : ChildSettings :=
  if remote.updatedAt.val < previous.updatedAt.val then previous
  else if previous.updatedAt.val < remote.updatedAt.val then remote
  else
    let a := withoutConflict previous
    let b := withoutConflict remote
    if a = b ∧ previous.contactPolicyConflicted = false ∧ remote.contactPolicyConflicted = false then
      previous
    else
      let strictest :=
        min (ceilings.idxOf previous.defaultChildCeiling) (ceilings.idxOf remote.defaultChildCeiling)
      { (if a < b then previous else remote) with
        contactPolicyConflicted := true
        approvedContacts := previous.approvedContacts.inter remote.approvedContacts
        defaultChildCeiling := ceilings.getD strictest .none }

/-- `none` when it throws. -/
def mergeChildContactSettings (locals : Option JsValue) (incoming : JsValue) : Option ChildSettings := do
  let remote ← portableChildContactSettings incoming
  match locals with
  | none => pure remote
  | some row =>
    let previous ← portableChildContactSettings row
    if previous.childPubkey ≠ remote.childPubkey ∨ previous.guardianPubkey ≠ remote.guardianPubkey then
      none
    else pure (previous.merge remote)

end

/-! ## Who gets through -/

inductive ContactInviteDecision where
  | allow | guardianReview | deny
  deriving DecidableEq

/-- The row counts in the child's own directory, while its guardian is active. -/
def ChildSettings.hasAuthority (s : ChildSettings) (directoryId : DirectoryId)
    (activeGuardianPubkeys : List (Hex 64)) : Bool :=
  directoryId = .dependant s.childPubkey && activeGuardianPubkeys.contains s.guardianPubkey

def contactInviteDecision (peer : JsString) (records : List ContactRecord) (directoryId : DirectoryId)
    (settings : Option ChildSettings) (activeGuardianPubkeys : List (Hex 64)) :
    ContactInviteDecision :=
  let dependant := match directoryId with
    | .dependant _ => true
    | _ => false
  let settings := settings.filter fun s => s.hasAuthority directoryId activeGuardianPubkeys
  let effective := (records.filter fun record => record.directoryId = directoryId &&
    record.identities.any fun identity => identity.pubkey.val = peer).map fun record =>
      resolveEffective record {
        activeGuardianPubkeys
        defaultChildCeiling := settings.elim .ken (·.defaultChildCeiling)
        directoryIsDependant := dependant }
  if isHexOf 64 peer = false then .deny
  else if directoryId ≠ .owner ∧ dependant = false then .deny
  else if effective.any (·.blocked) then .deny
  else if dependant = false then .allow
  else if settings.any (·.contactPolicyConflicted) then .deny
  else match settings.elim .kinOnly (·.contactPolicy) with
    | .open => .allow
    | .approved =>
      if settings.any fun s => s.approvedContacts.val.any fun key => key.val = peer then .allow
      else .guardianReview
    | .kinOnly =>
      if effective.any fun record => record.lifecycle = .active && record.effectiveTier = .kin then
        .allow
      else .deny

end SignetApp.Family.ChildContact
