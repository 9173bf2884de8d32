import SignetApp.Contacts.Groups

/-!
# Tombstones

A removed record stays removed until an `add` restores it. Three actions can remove a record
(`remove`, `archive`, and `unlink-list` of its last list); the safety actions and the hardening of
an archive pass through a tombstone without lifting it, and the first `add` of a merged duplicate
is no restoration. So a group's record is removed at the end exactly when some removal has no
restoring `add` after it (`removed_iff`).
-/

namespace SignetApp.Contacts

open SignetApp.Js

/-- The actions that can remove a record. -/
def ContactAction.isRemoval : ContactAction → Bool
  | .remove | .archive | .unlinkList _ => true
  | _ => false

/-- Is there a record, and is it removed? -/
def Removed (record : Option ContactRecord) : Prop := ∃ r, record = some r ∧ r.lifecycle = .removed

@[simp] theorem removed_some {r : ContactRecord} : Removed (some r) ↔ r.lifecycle = .removed := by
  simp [Removed]

@[simp] theorem not_removed_none : ¬ Removed none := by simp [Removed]

/-- An `add` that restores: any but the first `add` of an id merged into another. -/
def MergeContext.Restores (ctx : MergeContext) (row : LogRow) : Prop :=
  row.op.action.isAdd = true ∧ ¬ (row.first = true ∧ ctx.canonical row.sourceKey ≠ row.sourceKey)

/-! ## What each step does to the lifecycle -/

@[simp] theorem lifecycle_linkContactList (record : ContactRecord) (owner : Hex64)
    (at_ : Timestamp) : (linkContactList record owner at_).lifecycle = record.lifecycle := by
  unfold linkContactList
  split <;> rfl

@[simp] theorem lifecycle_awaitReview (ctx : MergeContext) (key : RecordKey) (v : AddContactValue)
    (record : ContactRecord) : (ctx.awaitReview key v record).lifecycle = record.lifecycle := by
  unfold MergeContext.awaitReview
  grind

@[simp] theorem isRemoval_mapItems (f : Hex32 → Hex32) (action : ContactAction) :
    (action.mapItems f).isRemoval = action.isRemoval := by cases action <;> rfl

theorem lifecycle_applyAdd_ne (record : Option ContactRecord) (op : ContactOperation)
    (v : AddContactValue) : (applyAdd record op v).lifecycle ≠ .removed := by
  unfold applyAdd
  cases hv : v.lifecycle with
  | none => cases record <;> grind
  | some l =>
    have := l.toLifecycle_ne_removed
    cases record <;> grind

theorem lifecycle_addContact_ne (record : Option ContactRecord) (op : ContactOperation)
    (v : AddContactValue) : (addContact record op v).lifecycle ≠ .removed := by
  have happly := lifecycle_applyAdd_ne record op v
  unfold addContact chooseList proposeContact
  grind [lifecycle_linkContactList]

variable {op : ContactOperation} {next : ContactRecord}

theorem lifecycle_mutate_ne {record : ContactRecord}
    (h : mutate record op = some next) (hop : op.action.isRemoval = false)
    (hlive : record.lifecycle ≠ .removed) : next.lifecycle ≠ .removed := by
  unfold mutate at h
  cases ha : op.action <;> simp only [ha] at h hop <;>
    grind [ContactRecord.touch, ContactAction.isRemoval, lifecycle_linkContactList,
      LiveLifecycle.toLifecycle_ne_removed]

theorem lifecycle_mutate_of_admitted {record : ContactRecord}
    (h : mutate record op = some next) (hadm : admittedWhenRemoved record op.action = true)
    (hrem : record.lifecycle = .removed) : next.lifecycle = .removed := by
  unfold mutate at h
  cases ha : op.action <;> simp only [ha] at h hadm <;>
    grind [ContactRecord.touch, admittedWhenRemoved]

theorem lifecycle_duplicateAdd {record : ContactRecord}
    {v : AddContactValue} (h : duplicateAdd record op v = some next) :
    next.lifecycle = record.lifecycle := by
  unfold duplicateAdd at h
  by_cases hrem : record.lifecycle = .removed
  · rw [if_pos hrem] at h
    cases h
  · rw [if_neg hrem] at h
    cases hintro : v.appIntroduction with
    | none => grind [lifecycle_linkContactList]
    | some intro =>
      simp only [hintro, applyOne, hrem, false_and, if_false, mutate, ContactRecord.touch] at h
      grind

theorem applyOne_of_removed {record : ContactRecord}
    (hrem : record.lifecycle = .removed) (hop : op.action.isAdd = false)
    (h : applyOne (some record) op = some next) : next.lifecycle = .removed := by
  rw [applyOne_some record hop] at h
  cases hadm : admittedWhenRemoved record op.action with
  | false => rw [if_pos ⟨hrem, hadm⟩] at h; cases h
  | true =>
    rw [if_neg (by simp [hadm])] at h
    exact lifecycle_mutate_of_admitted h hadm hrem

theorem applyOne_of_live {record : Option ContactRecord} (hlive : ¬ Removed record) (hop : op.action.isRemoval = false)
    (h : applyOne record op = some next) : next.lifecycle ≠ .removed := by
  by_cases hadd : op.action.isAdd = true
  · obtain ⟨v, hv⟩ := ContactAction.isAdd_iff.mp hadd
    rw [applyOne_add record hv] at h
    cases h
    exact lifecycle_addContact_ne _ _ _
  · have hadd : op.action.isAdd = false := by simpa using hadd
    cases record with
    | none => rw [applyOne_none hadd] at h; cases h
    | some r =>
      rw [removed_some] at hlive
      rw [applyOne_some r hadd, if_neg fun h => hlive h.1] at h
      exact lifecycle_mutate_ne h hop hlive

/-! ## One row of a group -/

variable {ctx : MergeContext} {record : Option ContactRecord} {row : LogRow}

@[simp] theorem isRemoval_remap (ctx : MergeContext) (op : ContactOperation) :
    (ctx.remap op).action.isRemoval = op.action.isRemoval := isRemoval_mapItems _ _

theorem removed_advance (hrem : Removed record) (hrow : ¬ ctx.Restores row) :
    Removed (advance (groupStep ctx) record row) := by
  obtain ⟨r, rfl, hr⟩ := hrem
  cases hstep : groupStep ctx (some r) row with
  | none => rw [advance_of_none hstep]; exact removed_some.mpr hr
  | some next =>
    rw [advance_of_some hstep, removed_some]
    cases hf : row.firstAdd with
    | none =>
      rw [groupStep_of_not_first hf] at hstep
      have hadd : row.op.action.isAdd = false := by
        cases hadd : row.op.action.isAdd with
        | false => rfl
        | true =>
          have hfirst := LogRow.firstAdd_eq_none_iff.mp hf hadd
          exact absurd ⟨hadd, by simp [hfirst]⟩ hrow
      exact applyOne_of_removed hr ((isAdd_remap ctx row.op).trans hadd) hstep
    | some v =>
      obtain ⟨hfirst, hadd⟩ := LogRow.isAdd_of_firstAdd hf
      have hdup : ctx.canonical row.sourceKey ≠ row.sourceKey := fun hc =>
        hrow ⟨hadd, fun h => h.2 hc⟩
      rw [groupStep_duplicate hf hdup] at hstep
      rw [lifecycle_duplicateAdd hstep, hr]

theorem not_removed_advance_of_restores (hrow : ctx.Restores row) :
    ¬ Removed (advance (groupStep ctx) record row) := by
  obtain ⟨hadd, hnot⟩ := hrow
  obtain ⟨v', hv'⟩ := ContactAction.isAdd_iff.mp ((isAdd_remap ctx row.op).trans hadd)
  have happly := fun record => applyOne_add record hv'
  have hlive := fun record => lifecycle_addContact_ne record (ctx.remap row.op) v'
  have hstep : ∃ final, groupStep ctx record row = some final ∧ final.lifecycle ≠ .removed := by
    cases hf : row.firstAdd with
    | none => exact ⟨_, (groupStep_of_not_first hf record).trans (happly record), hlive record⟩
    | some v =>
      have hfirst := (LogRow.isAdd_of_firstAdd hf).1
      cases record with
      | none =>
        refine ⟨_, ?_, (lifecycle_awaitReview ctx row.sourceKey v _).trans_ne (hlive none)⟩
        rw [groupStep_first hf (.inl rfl), happly, Option.map_some]
      | some r =>
        have hc : ctx.canonical row.sourceKey = row.sourceKey := by
          by_contra hne
          exact hnot ⟨hfirst, hne⟩
        refine ⟨_, ?_, (lifecycle_awaitReview ctx row.sourceKey v _).trans_ne (hlive (some r))⟩
        rw [groupStep_first hf (.inr hc), happly, Option.map_some]
  obtain ⟨final, hstep, hfinal⟩ := hstep
  rw [advance_of_some hstep, removed_some]
  exact hfinal

theorem isRemoval_of_removed_advance (hlive : ¬ Removed record)
    (hrem : Removed (advance (groupStep ctx) record row)) : row.op.action.isRemoval = true := by
  by_contra hop
  have hop : (ctx.remap row.op).action.isRemoval = false := by simpa using hop
  cases hstep : groupStep ctx record row with
  | none => rw [advance_of_none hstep] at hrem; exact hlive hrem
  | some next =>
    rw [advance_of_some hstep, removed_some] at hrem
    cases hf : row.firstAdd with
    | none =>
      rw [groupStep_of_not_first hf] at hstep
      exact applyOne_of_live hlive hop hstep hrem
    | some v =>
      by_cases hfresh : record = none ∨ ctx.canonical row.sourceKey = row.sourceKey
      · rw [groupStep_first hf hfresh, Option.map_eq_some_iff] at hstep
        obtain ⟨r, happly, rfl⟩ := hstep
        exact applyOne_of_live hlive hop happly (by simpa using hrem)
      · obtain ⟨hsome, hdup⟩ := not_or.mp hfresh
        obtain ⟨r, rfl⟩ := Option.ne_none_iff_exists'.mp hsome
        rw [groupStep_duplicate hf hdup] at hstep
        rw [removed_some, ← lifecycle_duplicateAdd hstep] at hlive
        exact hlive hrem

/-! ## The whole log -/

/-- **Deletion is durable.** A group's record is removed in the result exactly when some removal
left it removed and no `add` of the group restored it after that. -/
theorem removed_iff (ops : List ContactOperation) (key : RecordKey) :
    Removed ((materialise ops).get key) ↔
      ∃ pre row post, groupRows ops key = pre ++ row :: post ∧
        row.op.action.isRemoval = true ∧ Removed (recordAfter ops (pre ++ [row])) ∧
        ∀ later ∈ post, ¬ (contextOf ops).Restores later := by
  have hget : Removed ((materialise ops).get key)
      ↔ Removed (recordAfter ops (groupRows ops key)) := by
    rw [get_materialise]
    cases recordAfter ops (groupRows ops key) with
    | none => rfl
    | some r => rw [Option.map_some, removed_some, removed_some, withMergedIds_eq]
  rw [hget]
  constructor
  · intro hend
    obtain ⟨pre, row, post, heq, hpre, hrow, hpost⟩ := exists_set_of_runAt not_removed_none
      (fun _ _ _ hrow => not_removed_advance_of_restores hrow) hend
    refine ⟨pre, row, post, heq, isRemoval_of_removed_advance hpre hrow, ?_, hpost⟩
    rw [recordAfter, runAt_append]
    exact hrow
  · rintro ⟨pre, row, post, heq, -, hrow, hpost⟩
    have hsplit : pre ++ row :: post = (pre ++ [row]) ++ post := by simp
    rw [heq, hsplit, recordAfter, runAt_append]
    exact runAt_kept hrow fun _ later hlater hrem => removed_advance hrem (hpost later hlater)

end SignetApp.Contacts
