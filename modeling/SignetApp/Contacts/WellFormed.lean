import SignetApp.Contacts.Mutations
import SignetApp.Contacts.RoundTrip

/-!
# Every record is well formed

Whatever rows the reducer is given, each record it returns passes its own guard and has a
consistent standing. Whether it returns at all hangs on one conversion: the guard of
`add-identity` applies `String` to `linkedFromItemId`, and `String` raises on an object with a
property named `toString` (`wellFormed_iff`).
-/

namespace SignetApp.Js

/-! ## What `String` converts -/

mutual
/-- Does `String(v)` return? It raises on an object that carries a property named `toString`, and
on an array that holds such a value. -/
def convertible : JsValue → Bool
  | .obj props => (props.lookup "toString").isNone
  | .arr elems => convertibleAll elems
  | _ => true

def convertibleAll : List JsValue → Bool
  | [] => true
  | v :: rest => convertible v && convertibleAll rest
end

theorem toBool_map {α β : Type} (f : α → β) (x : Except JsError α) :
    (f <$> x).toBool = x.toBool := by
  cases x <;> rfl

variable [Platform]

mutual
theorem isOk_stringOf : ∀ v : JsValue, (stringOf v).toBool = convertible v
  | .undefined | .null | .num _ | .str _ => rfl
  | .bool b => by cases b <;> rfl
  | .obj props => by
    unfold stringOf convertible
    cases props.lookup "toString" <;> rfl
  | .arr elems => by
    have h := isOk_elementStrings elems
    unfold stringOf convertible
    cases he : elementStrings elems with
    | error e => rw [he] at h; exact h
    | ok parts => rw [he] at h; exact h

theorem isOk_elementStrings : ∀ elems : List JsValue,
    (elementStrings elems).toBool = convertibleAll elems
  | [] => rfl
  | v :: rest => by
    have hv := isOk_stringOf v
    have hrest := isOk_elementStrings rest
    have hempty : ∀ part, (do
        let parts ← elementStrings rest
        (pure (part :: parts) : Except JsError (List JsString))).toBool = convertibleAll rest := by
      intro part
      rw [← hrest]
      cases elementStrings rest <;> rfl
    unfold convertibleAll
    cases v with
    | undefined | null => exact hempty []
    | _ =>
      unfold elementStrings
      rw [← hv, ← hrest]
      cases stringOf _ with
      | error e => rfl
      | ok part => cases elementStrings rest <;> rfl
end

end SignetApp.Js

namespace SignetApp.Contacts

open SignetApp.Js

section
variable [Platform]

/-! ## When the filter raises -/

/-- The guard of an `add-identity` gets as far as a `linkedFromItemId` that `String` does not
convert. -/
def Inconvertible (row : JsValue) : Prop :=
  ∃ header, validateHeader row = some header ∧ permitted row header = true ∧
    header.action = .addIdentity ∧ isObj (row.get "value") = true ∧
    (addIdentityValue (row.get "value")).isSome = true ∧
    convertible ((row.get "value").get "linkedFromItemId") = false

theorem isOk_linkedFrom (v : JsValue) : (linkedFrom v).toBool = convertible v := by
  unfold linkedFrom
  by_cases hv : v = .undefined
  · rw [if_pos hv, hv]
    rfl
  · rw [if_neg hv, ← isOk_stringOf]
    cases stringOf v with
    | error e => rfl
    | ok text =>
      change (if isHexOf 32 text = true then _ else _ : Except JsError _).toBool = true
      split
      · cases isHex 32 v <;> rfl
      · rfl

theorem toBool_validateValue (action : ActionName) (v : JsValue) (target : Option Hex32) :
    (validateValue action v target).toBool = false ↔
      action = .addIdentity ∧ isObj v = true ∧ (addIdentityValue v).isSome = true ∧
        convertible (v.get "linkedFromItemId") = false := by
  unfold validateValue
  by_cases ha : action = .addIdentity
  · rw [if_pos ha, ← isOk_linkedFrom]
    cases hvalue : addIdentityValue v with
    | none =>
      have hnone : ((guard (isObj v = true) : Option Unit) *> (none : Option AddIdentityValue)) = none := by
        cases isObj v <;> rfl
      rw [hnone]
      change true = false ↔ _
      simp
    | some value =>
      cases ho : isObj v with
      | false =>
        change true = false ↔ _
        simp
      | true =>
        change ((fun linked => _) <$> linkedFrom (v.get "linkedFromItemId")).toBool = false ↔ _
        rw [toBool_map]
        simp [ha]
  · rw [if_neg ha]
    change true = false ↔ _
    simp [ha]

theorem raises_iff {row : JsValue} : raises row = true ↔ Inconvertible row := by
  have hraises : raises row = true ↔ (validateOperation row).toBool = false := by
    unfold raises
    cases validateOperation row <;> simp [Except.toBool]
  rw [hraises]
  unfold validateOperation Inconvertible
  cases hheader : validateHeader row with
  | none =>
    change true = false ↔ _
    simp
  | some header =>
    simp only [Option.some.injEq, exists_eq_left']
    by_cases hp : permitted row header = true
    · rw [if_pos hp]
      change ((fun action => _) <$> validateValue _ _ _).toBool = false ↔ _
      rw [toBool_map, toBool_validateValue]
      simp [hp]
    · rw [if_neg hp]
      change true = false ↔ _
      simp [hp]

/-! ## Pictures -/

theorem isSome_validPicturePointer {v : JsValue} {p : ContactPicturePointer}
    (h : validPicturePointer v = some p) : (validPicturePointer (.obj p.props)).isSome = true := by
  simp only [validPicturePointer, Option.bind_eq_bind, Option.bind_eq_some_iff] at h
  obtain ⟨_, -, _, -, server, hserver, hash, -, key, -, plainHash, -, heq⟩ := h
  cases heq
  simp only [isPictureServer, Option.bind_eq_bind, Option.bind_eq_some_iff] at hserver
  obtain ⟨server', -, _, hsafe, heq⟩ := hserver
  cases heq
  have hserver : isPictureServer server.toJs = some server := by
    unfold isPictureServer
    rw [isStr_toJs]
    change (guard _ >>= fun _ => some server) = some server
    rw [hsafe]
    rfl
  change (do
    guard (isObj (.obj _) = true)
    guard (_ ∧ _)
    let server ← isPictureServer server.toJs
    let hash ← isHex 64 hash.toJs
    let key ← isHex 64 key.toJs
    let plainHash ← isHex 64 plainHash.toJs
    some (ContactPicturePointer.mk server hash key plainHash)).isSome = true
  rw [hserver]
  simp only [isHex_toJs]
  rfl

theorem safe_of_accepted {row : JsValue} {op : ContactOperation} (h : accepted row = some op)
    {p : ContactPicturePointer} (hp : op.action = .setPicture p) :
    (validPicturePointer (.obj p.props)).isSome = true := by
  obtain ⟨header, action, -, -, hvalue, rfl⟩ := accepted_eq_some h
  have haction : action = .setPicture p := hp
  subst haction
  have hname : header.action = .setPicture := (name_of_validateValue hvalue).symm
  rw [hname] at hvalue
  have hpure : validatePureValue .setPicture (row.get "value") header.targetOperationId
      = some (.setPicture p) := by injection hvalue
  simp only [validatePureValue, Option.bind_eq_bind, Option.bind_eq_some_iff,
    Option.map_eq_some_iff] at hpure
  obtain ⟨_, -, q, hq, heq⟩ := hpure
  cases heq
  exact isSome_validPicturePointer hq

/-! ## Well-formed records -/

/-- **A well-formed record.** It passes its guard; it is removed exactly when it has a removal time,
archived only when removed; removed, it is in no list and has no primary one; live, it has a
primary list exactly when it is in some list, and the primary is one of these; and no guardian has
two vouches or two ceilings in force. -/
structure WellFormed (record : ContactRecord) : Prop where
  valid : validateRecord record.toJs = .ok true
  removed_iff : record.lifecycle = .removed ↔ record.removedAt.isSome = true
  archived : record.archived.isSome = true → record.lifecycle = .removed
  unlisted : record.lifecycle = .removed →
    activeOwners record.memberships = [] ∧ record.primaryIdentityPubkey = none
  primary_iff : record.lifecycle ≠ .removed →
    (record.primaryIdentityPubkey.isSome = true ↔ activeOwners record.memberships ≠ [])
  primary_active : ∀ owner ∈ record.primaryIdentityPubkey, owner ∈ activeOwners record.memberships
  vouches : ∀ guardian,
    (record.vouches.filter fun v => v.standsFor guardian).length ≤ 1
  ceilings : ∀ guardian,
    (record.ceilings.filter fun c => c.standsFor guardian).length ≤ 1

theorem wellFormed_of_valid {record : ContactRecord} (hstanding : Standing record)
    (hfacts : FactsValid (fun p => (validPicturePointer (.obj p.props)).isSome = true) record) :
    WellFormed record where
  valid := validateRecord_toJs hstanding.lists hfacts.2
  removed_iff := hstanding.removedAt_iff
  archived := hstanding.archived
  unlisted h := ⟨hstanding.unlisted h, hstanding.primary_of_removed h⟩
  primary_iff _ := by
    refine ⟨fun hsome => ?_, hstanding.lists.primary_of_active⟩
    obtain ⟨p, hp⟩ := Option.isSome_iff_exists.mp hsome
    exact List.ne_nil_of_mem (hstanding.lists.primary_active p hp)
  primary_active := hstanding.lists.primary_active
  vouches := length_filter_le_one hfacts.1.vouches
  ceilings := length_filter_le_one hfacts.1.ceilings

/-- **The reducer returns well-formed records exactly when no guard reaches a conversion that
raises.** -/
theorem wellFormed_iff (rows : List JsValue) :
    (∃ records, applyOperations rows = .ok records ∧
        ∀ key record, records.get key = some record → WellFormed record) ↔
      ∀ row ∈ rows, ¬ Inconvertible row := by
  have hany : rows.any raises = false ↔ ∀ row ∈ rows, ¬ Inconvertible row := by
    simp [List.any_eq_false, ← raises_iff]
  rw [← hany]
  unfold applyOperations
  rw [validOperations_eq]
  constructor
  · rintro ⟨records, hrecords, -⟩
    by_contra hraises
    rw [if_pos (by simpa using hraises)] at hrecords
    cases hrecords
  · intro hnone
    rw [if_neg (by simp [hnone])]
    refine ⟨materialise (rows.filterMap accepted), rfl, fun key record hget => ?_⟩
    refine wellFormed_of_valid (standing_of_get hget) (factsValid_of_get ?_ hget)
    intro op hop p hp
    obtain ⟨row, -, haccepted⟩ := List.mem_filterMap.mp hop
    exact safe_of_accepted haccepted hp

end

/-- An `add-identity` whose `linkedFromItemId` is `{ toString: 1 }`. -/
def hostileRow : JsValue :=
  let op := sampleOp 1 1 1 (actorOf .owner 1) (sampleIdentity 1 1)
  let value := ("linkedFromItemId", .obj [("toString", .ofNat 1)]) :: op.action.value
  .obj (("value", .obj value) :: op.toJs)

/-- One such row and the whole log has no records. -/
theorem applyOperations_raises :
    ¬ ∀ rows, ∃ records, @applyOperations samplePlatform rows = .ok records ∧
      ∀ key record, records.get key = some record → @WellFormed samplePlatform record := by
  intro h
  obtain ⟨records, hrecords, -⟩ := h [hostileRow]
  have hraises : (@applyOperations samplePlatform [hostileRow]).toBool = false := by decide +kernel
  rw [hrecords] at hraises
  cases hraises

end SignetApp.Contacts
