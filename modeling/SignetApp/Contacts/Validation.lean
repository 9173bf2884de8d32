import SignetApp.Contacts.Encoding
import SignetApp.Contacts.Merge

/-!
# What the operation guard accepts

The filter of `applyOperations` either keeps or refuses each row by itself (`validOperations_eq`),
and what it keeps carries what it read.
-/

namespace SignetApp.Contacts

open SignetApp.Js

theorem isHex_eq_some_iff {n : ℕ} {v : JsValue} {h : Hex n} : isHex n v = some h ↔ v = h.toJs := by
  constructor
  · intro hv
    cases v with
    | str s =>
      by_cases hs : isHexOf n s = true
      · rw [isHex, dif_pos hs] at hv
        have heq : (⟨s, hs⟩ : Hex n) = h := Option.some.inj hv
        rw [← heq]
        rfl
      · rw [isHex, dif_neg hs] at hv
        cases hv
    | _ => cases hv
  · rintro rfl
    exact isHex_toJs h

section
variable [Platform]

/-- The operation a row stands for. -/
def accepted (row : JsValue) : Option ContactOperation :=
  match validateOperation row with
  | .ok op => op
  | .error _ => none

/-- Does the guard raise on a row? -/
def raises (row : JsValue) : Bool :=
  match validateOperation row with
  | .ok _ => false
  | .error _ => true

theorem validOperations_eq (rows : List JsValue) :
    validOperations rows
      = if rows.any raises then .error .typeError else .ok (rows.filterMap accepted) := by
  unfold validOperations
  induction rows with
  | nil => rfl
  | cons row rows ih =>
    rw [List.filterMapM_cons, ih]
    cases h : validateOperation row with
    | error e =>
      cases e
      simp only [List.any_cons, raises, h, Bool.true_or, if_true]
      rfl
    | ok op =>
      have hr : raises row = false := by simp only [raises, h]
      have ha : accepted row = op := by simp only [accepted, h]
      rw [List.any_cons, hr, Bool.false_or, List.filterMap_cons, ha]
      cases op <;> cases rows.any raises <;> rfl

theorem validOperations_eq_ok_iff {rows : List JsValue} {ops : List ContactOperation} :
    validOperations rows = .ok ops ↔ rows.any raises = false ∧ ops = rows.filterMap accepted := by
  rw [validOperations_eq]
  cases rows.any raises <;> simp [eq_comm]

theorem validOperations_of_perm {xs ys : List JsValue} (h : xs.Perm ys) :
    (validOperations xs = .error .typeError ∧ validOperations ys = .error .typeError) ∨
      ∃ as bs, validOperations xs = .ok as ∧ validOperations ys = .ok bs ∧ as.Perm bs := by
  rw [validOperations_eq, validOperations_eq, h.any_eq]
  cases ys.any raises
  · exact .inr ⟨_, _, rfl, rfl, h.filterMap accepted⟩
  · exact .inl ⟨rfl, rfl⟩

theorem accepted_eq_some {row : JsValue} {op : ContactOperation} (h : accepted row = some op) :
    ∃ header action, validateHeader row = some header ∧ permitted row header = true ∧
      validateValue header.action (row.get "value") header.targetOperationId = .ok (some action) ∧
      op = header.withAction action := by
  unfold accepted validateOperation at h
  cases hh : validateHeader row with
  | none => rw [hh] at h; cases h
  | some header =>
    rw [hh] at h
    by_cases hp : permitted row header = true
    · simp only [if_pos hp] at h
      cases hv : validateValue header.action (row.get "value") header.targetOperationId with
      | error e => rw [hv] at h; cases h
      | ok action =>
        rw [hv] at h
        cases action with
        | none => cases h
        | some action =>
          cases h
          exact ⟨header, action, rfl, hp, hv, rfl⟩
    · simp only [if_neg hp] at h
      cases h

/-! ## The action of an accepted row -/

variable {action : ContactAction} {target : Option Hex32} {v : JsValue} {name : ActionName}

theorem name_of_validatePureValue (h : validatePureValue name v target = some action) :
    action.name = name := by
  unfold validatePureValue at h
  rw [Option.bind_eq_bind, Option.bind_eq_some_iff] at h
  obtain ⟨_, -, h⟩ := h
  cases name <;>
    simp only [addValue, vouchValue, addMethodValue, updateMethodValue, keyLinkValue,
      Option.bind_eq_bind, Option.bind_eq_some_iff, Option.map_eq_some_iff] at h <;>
    grind [ContactAction.name]

theorem name_of_validateValue (h : validateValue name v target = .ok (some action)) :
    action.name = name := by
  unfold validateValue at h
  by_cases hname : name = .addIdentity
  · rw [if_pos hname] at h
    cases hv : ((guard (isObj v = true) : Option Unit) *> addIdentityValue v) with
    | none => rw [hv] at h; cases h
    | some value =>
      rw [hv] at h
      cases hl : linkedFrom (v.get "linkedFromItemId") with
      | error e => rw [hl] at h; cases h
      | ok linked =>
        rw [hl] at h
        cases linked with
        | none => cases h
        | some linked => cases h; exact hname.symm
  · rw [if_neg hname] at h
    exact name_of_validatePureValue (by injection h)

end

variable {row : JsValue}

theorem validateHeader_eq_some {header : OperationHeader} (h : validateHeader row = some header) :
    isHex 32 (row.get "operationId") = some header.operationId ∧
      isHex 64 (row.get "actorPubkey") = some header.actorPubkey ∧
      StringUnion.parse (row.get "actorRole") = some header.actorRole ∧
      StringUnion.parse (row.get "action") = some header.action := by
  simp only [validateHeader, Option.bind_eq_bind, Option.bind_eq_some_iff] at h
  obtain ⟨_, -, _, -, id, hid, _, -, _, -, _, -, actor, hactor, role, hrole, _, -, _, -, _, -, _, -,
    action, haction, heq⟩ := h
  cases heq
  exact ⟨hid, hactor, hrole, haction⟩

theorem operationId_of_accepted [Platform] {op : ContactOperation}
    (h : accepted row = some op) : row.get "operationId" = op.operationId.toJs := by
  obtain ⟨header, action, hh, -, -, rfl⟩ := accepted_eq_some h
  exact isHex_eq_some_iff.mp (validateHeader_eq_some hh).1

end SignetApp.Contacts
