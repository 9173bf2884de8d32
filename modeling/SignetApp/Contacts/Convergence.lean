import SignetApp.Contacts.Clock
import SignetApp.Contacts.Encoding
import SignetApp.Contacts.Groups
import SignetApp.Contacts.Mutations
import SignetApp.Contacts.Validation

/-!
# Convergence

Devices exchange logs and merge them in any order and nesting. Two devices that hold the same rows
compute the same records, in the same order: a merged log holds each row once, the sort forgets
the order in which rows arrived, and nothing after the sort looks back.
-/

namespace SignetApp.Contacts

open SignetApp.Js

/-! ## Sorting forgets arrival order -/

variable {xs ys : List ContactOperation}

theorem materialise_congr
    (h : sortOperations xs = sortOperations ys) : materialise xs = materialise ys := by
  unfold materialise logRows
  rw [h]

theorem sortOperations_eq_of_perm (h : xs.Perm ys)
    (hids : OperationIdsAgree xs) : sortOperations xs = sortOperations ys :=
  insertionSort_eq_of_perm h fun a ha b hb hab hba =>
    hids a ha b hb (operationLE_antisymm hab hba)

/-! ## Merge trees -/

/-- How a device came by its log: its own rows, or a merge of two logs. -/
inductive MergeTree where
  | device (rows : List RawOperation)
  | merge (own remote : MergeTree)

namespace MergeTree

/-- The log at the root of the tree. -/
def log : MergeTree → List RawOperation
  | device rows => rows
  | merge own remote => (mergeOps own.log remote.log).1

/-- Every row of every device. -/
def rows : MergeTree → List RawOperation
  | device rows => rows
  | merge own remote => own.rows ++ remote.rows

/-- The device has merged at least once, or its own log holds no row twice. -/
def HoldsRowsOnce : MergeTree → Prop
  | device rows => rows.Nodup
  | merge _ _ => True

variable {t : MergeTree}

theorem mem_log_iff (h : IdsAgree t.rows) {op : RawOperation} : op ∈ t.log ↔ op ∈ t.rows := by
  induction t generalizing op with
  | device rows => exact Iff.rfl
  | merge own remote ihOwn ihRemote =>
    have hown := fun {op} => @ihOwn (h.mono fun _ h => List.mem_append_left _ h) op
    have hremote := fun {op} => @ihRemote (h.mono fun _ h => List.mem_append_right _ h) op
    have hids : IdsAgree (own.log ++ remote.log) := by
      refine h.mono fun x hx => ?_
      rcases List.mem_append.mp hx with hx | hx
      · exact List.mem_append_left _ (hown.mp hx)
      · exact List.mem_append_right _ (hremote.mp hx)
    rw [log, rows, List.mem_append, ← hown, ← hremote]
    exact mem_mergedRows_iff hids

theorem HoldsRowsOnce.nodup_log (h : t.HoldsRowsOnce) : t.log.Nodup := by
  cases t with
  | device rows => exact h
  | merge own remote => exact nodup_mergedRows _ _

end MergeTree

/-! ## The records of a log -/

section
variable [Platform]

/-- The records of a log of rows. -/
def recordsOf (rows : List RawOperation) : Except JsError (OrderedMap RecordKey ContactRecord) :=
  applyOperations (rows.map .obj)

theorem operationIdsAgree_accepted {rows : List RawOperation} (h : IdsAgree rows) :
    OperationIdsAgree ((rows.map JsValue.obj).filterMap accepted) := by
  intro a ha b hb hab
  obtain ⟨_, hx, ha⟩ := List.mem_filterMap.mp ha
  obtain ⟨_, hy, hb⟩ := List.mem_filterMap.mp hb
  obtain ⟨x, hxrows, rfl⟩ := List.mem_map.mp hx
  obtain ⟨y, hyrows, rfl⟩ := List.mem_map.mp hy
  have hxy : RawOperation.operationId x = RawOperation.operationId y := by
    rw [RawOperation.operationId, RawOperation.operationId, operationId_of_accepted ha,
      operationId_of_accepted hb, hab]
  rw [h x hxrows y hyrows hxy, hb] at ha
  exact (Option.some.inj ha).symm

variable {xs ys : List RawOperation}

theorem recordsOf_eq_of_perm (h : xs.Perm ys) (hids : IdsAgree xs) :
    recordsOf xs = recordsOf ys := by
  unfold recordsOf applyOperations
  rcases validOperations_of_perm (h.map JsValue.obj) with ⟨hx, hy⟩ | ⟨as, bs, hx, hy, hperm⟩
  · rw [hx, hy]
  · have has := (validOperations_eq_ok_iff.mp hx).2
    rw [hx, hy]
    refine congrArg Except.ok (materialise_congr (sortOperations_eq_of_perm hperm ?_))
    rw [has]
    exact operationIdsAgree_accepted hids

theorem recordsOf_eq_of_same_rows (hx : xs.Nodup) (hy : ys.Nodup)
    (hids : IdsAgree xs) (h : ∀ op, op ∈ xs ↔ op ∈ ys) : recordsOf xs = recordsOf ys :=
  recordsOf_eq_of_perm ((List.perm_ext_iff_of_nodup hx hy).mpr h) hids

variable {t u : MergeTree}

theorem recordsOf_log_eq (hids : IdsAgree (t.rows ++ u.rows))
    (ht : t.HoldsRowsOnce) (hu : u.HoldsRowsOnce) (h : ∀ op, op ∈ t.log ↔ op ∈ u.log) :
    recordsOf t.log = recordsOf u.log := by
  refine recordsOf_eq_of_same_rows ht.nodup_log hu.nodup_log ?_ h
  have hids : IdsAgree t.rows := hids.mono fun _ h => List.mem_append_left _ h
  exact hids.mono fun op hop => (MergeTree.mem_log_iff hids).mp hop

theorem recordsOf_log_eq_of_rows (hids : IdsAgree (t.rows ++ u.rows))
    (ht : t.HoldsRowsOnce) (hu : u.HoldsRowsOnce) (h : ∀ op, op ∈ t.rows ↔ op ∈ u.rows) :
    recordsOf t.log = recordsOf u.log := by
  refine recordsOf_log_eq hids ht hu fun op => ?_
  rw [MergeTree.mem_log_iff (hids.mono fun _ h => List.mem_append_left _ h),
    MergeTree.mem_log_iff (hids.mono fun _ h => List.mem_append_right _ h)]
  exact h op

/-- **The merge laws, up to the records.** Trees that hold the same rows agree; in particular a
merge may be commuted, re-nested and repeated. -/
theorem mergeOps_laws :
    (∀ t u : MergeTree, IdsAgree (t.rows ++ u.rows) → t.HoldsRowsOnce → u.HoldsRowsOnce →
      (∀ op, op ∈ t.log ↔ op ∈ u.log) → recordsOf t.log = recordsOf u.log) ∧
    (∀ a b, IdsAgree (a ++ b) → recordsOf (mergeOps a b).1 = recordsOf (mergeOps b a).1) ∧
    (∀ a b c, IdsAgree (a ++ b ++ c) →
      recordsOf (mergeOps (mergeOps a b).1 c).1 = recordsOf (mergeOps a (mergeOps b c).1).1) ∧
    (∀ a b, IdsAgree (a ++ b) →
      recordsOf (mergeOps (mergeOps a b).1 b).1 = recordsOf (mergeOps a b).1) ∧
    (∀ a, IdsAgree a → a.Nodup → recordsOf (mergeOps a a).1 = recordsOf a) := by
  have hrows : ∀ t u : MergeTree, IdsAgree t.rows → (∀ op, op ∈ t.rows ↔ op ∈ u.rows) →
      t.HoldsRowsOnce → u.HoldsRowsOnce → recordsOf t.log = recordsOf u.log := by
    intro t u hids h ht hu
    refine recordsOf_log_eq_of_rows (hids.mono fun op hop => ?_) ht hu h
    rcases List.mem_append.mp hop with hop | hop
    · exact hop
    · exact (h op).mpr hop
  refine ⟨fun t u => recordsOf_log_eq, ?_, ?_, ?_, ?_⟩
  · intro a b hids
    refine hrows (.merge (.device a) (.device b)) (.merge (.device b) (.device a)) hids ?_ ⟨⟩ ⟨⟩
    intro op
    simp only [MergeTree.rows, List.mem_append]
    exact or_comm
  · intro a b c hids
    refine hrows (.merge (.merge (.device a) (.device b)) (.device c))
      (.merge (.device a) (.merge (.device b) (.device c))) hids ?_ ⟨⟩ ⟨⟩
    intro op
    simp only [MergeTree.rows, List.mem_append]
    exact or_assoc
  · intro a b hids
    refine (hrows (.merge (.device a) (.device b))
      (.merge (.merge (.device a) (.device b)) (.device b)) hids ?_ ⟨⟩ ⟨⟩).symm
    intro op
    simp only [MergeTree.rows, List.mem_append]
    tauto
  · intro a hids hnd
    refine (hrows (.device a) (.merge (.device a) (.device a)) hids ?_ hnd ⟨⟩).symm
    intro op
    simp only [MergeTree.rows, List.mem_append, or_self]

end

/-! ## A row held twice -/

/-- An added and blocked contact, the block's row read twice. -/
def repeatedBlock : List RawOperation :=
  let owner := actorOf .owner 1
  let add := (sampleOp 1 10 0 owner (sampleAdd .kin)).toJs
  let block := (sampleOp 2 10 1 owner (.block .contact none)).toJs
  [add, block, block]

/-- A log that holds a row twice applies it twice, and its merge with itself once: two block facts
against one. -/
theorem mergeOps_not_idempotent :
    IdsAgree repeatedBlock ∧
      @recordsOf samplePlatform (mergeOps repeatedBlock repeatedBlock).1
        ≠ @recordsOf samplePlatform repeatedBlock := by
  refine ⟨?_, by decide +kernel⟩
  unfold IdsAgree
  decide +kernel

/-- Two devices that read two rows in either order. -/
theorem mergeOps_laws_two_rows :
    @recordsOf samplePlatform (mergeOps [repeatedBlock[0]] [repeatedBlock[1]]).1
      = @recordsOf samplePlatform (mergeOps [repeatedBlock[1]] [repeatedBlock[0]]).1 :=
  (@mergeOps_laws samplePlatform).2.1 _ _ (by unfold IdsAgree; decide +kernel)

end SignetApp.Contacts
