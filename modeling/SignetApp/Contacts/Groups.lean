import SignetApp.Contacts.Merge

/-!
# The merged log, group by group

Both ways through `materialise` are one: a replay of the rows of each group on the record of its
canonical id (`get_materialise`). Where nothing is merged the groups are single ids and the replay
is the first pass (`materialise_eq_secondPass`).
-/

namespace SignetApp.Contacts

open SignetApp.Js

/-! ## The sorted log -/

theorem perm_sortOperations (ops : List ContactOperation) : (sortOperations ops).Perm ops :=
  List.perm_insertionSort _ _

theorem pairwise_sortOperations (ops : List ContactOperation) :
    (sortOperations ops).Pairwise operationLE :=
  List.pairwise_insertionSort _ _

variable {ops : List ContactOperation}

@[simp] theorem mem_sortOperations {op : ContactOperation} : op ∈ sortOperations ops ↔ op ∈ ops :=
  (perm_sortOperations ops).mem_iff

theorem operationLE_antisymm {a b : ContactOperation} (h : operationLE a b) (h' : operationLE b a) :
    a.operationId = b.operationId := by
  have hk : sortKey a = sortKey b := le_antisymm h h'
  have := congrArg (fun k => (ofLex (ofLex k).2).2) hk
  exact this

/-- One operation an id. -/
def OperationIdsAgree (ops : List ContactOperation) : Prop :=
  ∀ a ∈ ops, ∀ b ∈ ops, a.operationId = b.operationId → a = b

theorem exists_split_sortOperations (hids : OperationIdsAgree ops)
    {a b : ContactOperation} (ha : a ∈ ops) (hb : b ∈ ops) (hne : a ≠ b) (hle : operationLE a b) :
    ∃ pre post, sortOperations ops = pre ++ b :: post ∧ a ∈ pre := by
  obtain ⟨pre, post, hsplit⟩ := List.append_of_mem (mem_sortOperations.mpr hb)
  refine ⟨pre, post, hsplit, ?_⟩
  have hmem : a ∈ pre ++ b :: post := hsplit ▸ mem_sortOperations.mpr ha
  have hsorted := hsplit ▸ pairwise_sortOperations ops
  rcases List.mem_append.mp hmem with hpre | hrest
  · exact hpre
  · rcases List.mem_cons.mp hrest with rfl | hpost
    · exact absurd rfl hne
    · have hba : operationLE b a :=
        (List.pairwise_cons.mp (List.pairwise_append.mp hsorted).2.1).1 a hpost
      exact absurd (hids a ha b hb (operationLE_antisymm hle hba)) hne

@[simp] theorem map_op_markFirstAdds (ops : List ContactOperation) :
    ∀ seen, (markFirstAdds seen ops).map LogRow.op = ops := by
  induction ops with
  | nil => intro seen; rfl
  | cons op ops ih =>
    intro seen
    unfold markFirstAdds
    split <;> rw [List.map_cons, ih]

@[simp] theorem map_op_logRows (ops : List ContactOperation) :
    (logRows ops).map LogRow.op = sortOperations ops :=
  map_op_markFirstAdds _ _

theorem mem_of_mem_logRows {row : LogRow} (h : row ∈ logRows ops) : row.op ∈ ops := by
  rw [← mem_sortOperations, ← map_op_logRows]
  exact List.mem_map_of_mem h

/-- The marks of a class of contact ids do not depend on the rest of the log. -/
theorem filter_markFirstAdds (p : RecordKey → Bool) (ops : List ContactOperation) :
    ∀ {seen seen' : List RecordKey}, (∀ k, p k = true → (k ∈ seen ↔ k ∈ seen')) →
      (markFirstAdds seen ops).filter (fun row => p row.sourceKey)
        = markFirstAdds seen' (ops.filter fun op => p (recordKey op)) := by
  induction ops with
  | nil => intro _ _ _; rfl
  | cons op ops ih =>
    intro seen seen' h
    by_cases hp : p (recordKey op) = true
    · have hmem := h _ hp
      rw [List.filter_cons_of_pos (by exact hp)]
      by_cases hadd : op.action.isAdd ∧ recordKey op ∉ seen
      · have hadd' : op.action.isAdd ∧ recordKey op ∉ seen' := ⟨hadd.1, hmem.not.mp hadd.2⟩
        rw [markFirstAdds, markFirstAdds, if_pos hadd, if_pos hadd',
          List.filter_cons_of_pos (by exact hp), ih]
        intro k hk
        simp [h k hk]
      · have hadd' : ¬ (op.action.isAdd ∧ recordKey op ∉ seen') :=
          fun ⟨h₁, h₂⟩ => hadd ⟨h₁, hmem.not.mpr h₂⟩
        rw [markFirstAdds, markFirstAdds, if_neg hadd, if_neg hadd',
          List.filter_cons_of_pos (by exact hp), ih h]
    · rw [List.filter_cons_of_neg (by exact hp), markFirstAdds]
      split
      · rw [List.filter_cons_of_neg (by exact hp)]
        refine ih fun k hk => ?_
        have hne : k ≠ recordKey op := by rintro rfl; exact hp hk
        simp [hne, h k hk]
      · rw [List.filter_cons_of_neg (by exact hp)]
        exact ih h

theorem LogRow.firstAdd_eq_some_iff {row : LogRow} {v : AddContactValue} :
    row.firstAdd = some v ↔ row.first = true ∧ row.op.action = .add v := by
  unfold LogRow.firstAdd
  cases row.op.action <;> simp

theorem LogRow.firstAdd_eq_none_iff {row : LogRow} :
    row.firstAdd = none ↔ (row.op.action.isAdd = true → row.first = false) := by
  unfold LogRow.firstAdd
  cases row.op.action <;> simp [ContactAction.isAdd]

theorem LogRow.isAdd_of_firstAdd {row : LogRow} {v : AddContactValue} (h : row.firstAdd = some v) :
    row.first = true ∧ row.op.action.isAdd = true := by
  obtain ⟨hf, ha⟩ := LogRow.firstAdd_eq_some_iff.mp h
  exact ⟨hf, by rw [ha]; rfl⟩

/-! ## One row of the second pass -/

@[simp] theorem isAdd_mapItems (f : Hex32 → Hex32) (action : ContactAction) :
    (action.mapItems f).isAdd = action.isAdd := by cases action <;> rfl

@[simp] theorem isAdd_remap (ctx : MergeContext) (op : ContactOperation) :
    (ctx.remap op).action.isAdd = op.action.isAdd := isAdd_mapItems _ _

section GroupStep

variable {ctx : MergeContext} {row : LogRow} {v : AddContactValue}

theorem groupStep_of_not_first (h : row.firstAdd = none) (record : Option ContactRecord) :
    groupStep ctx record row = applyOne record (ctx.remap row.op) := by
  simp only [groupStep, h]

theorem groupStep_first (h : row.firstAdd = some v) {record : Option ContactRecord}
    (hfresh : record = none ∨ ctx.canonical row.sourceKey = row.sourceKey) :
    groupStep ctx record row
      = (applyOne record (ctx.remap row.op)).map (ctx.awaitReview row.sourceKey v) := by
  cases record with
  | none => simp only [groupStep, h]
  | some r =>
    have hc : ctx.canonical row.sourceKey = row.sourceKey := by simpa using hfresh
    simp only [groupStep, h, hc, ne_eq, not_true_eq_false, if_false]

theorem groupStep_duplicate (h : row.firstAdd = some v) {record : ContactRecord}
    (hdup : ctx.canonical row.sourceKey ≠ row.sourceKey) :
    groupStep ctx (some record) row = duplicateAdd record (ctx.remap row.op) v := by
  simp only [groupStep, h, if_pos hdup]

end GroupStep

/-! ## The records of the first pass -/

namespace FirstPass

theorem raw_follow (pass : FirstPass) (op : ContactOperation) (next : ContactRecord) :
    (pass.follow op next).raw = pass.raw := by
  unfold follow gain release
  grind

theorem raw_step (pass : FirstPass) (op : ContactOperation) :
    (pass.step op).raw = replayStep recordKey applyOne pass.raw op := by
  unfold step replayStep
  cases applyOne (pass.raw.get (recordKey op)) op with
  | none => rfl
  | some next => rw [raw_follow]

end FirstPass

theorem raw_firstPass (ops : List ContactOperation) :
    (firstPass ops).raw = replay recordKey applyOne .empty ops := by
  have h : ∀ (ops : List ContactOperation) (pass : FirstPass),
      (ops.foldl FirstPass.step pass).raw = replay recordKey applyOne pass.raw ops := by
    intro ops
    induction ops with
    | nil => intro pass; rfl
    | cons op ops ih => intro pass; rw [List.foldl_cons, ih, FirstPass.raw_step]; rfl
  exact h ops .start

/-! ## One context for both ways -/

/-- The first pass over a log. -/
def passOf (ops : List ContactOperation) : FirstPass := firstPass (sortOperations ops)

/-- The class of a contact id after the first pass. -/
def rootOf (ops : List ContactOperation) (key : RecordKey) : RecordKey :=
  (passOf ops).parent.find key

/-- The contact ids that have a record, in the order of their first `add`. -/
def contactKeys (ops : List ContactOperation) : List RecordKey := (passOf ops).raw.keys

/-- The context that redirects nothing. -/
def plainContext (rows : List LogRow) : MergeContext :=
  { aliases := .empty, grouped := .empty, itemAliases := .empty, firstAdds := firstAddOf rows }

/-- Did the first pass merge two ids? -/
def merges (ops : List ContactOperation) : Bool :=
  ((passOf ops).groups.entries.map Prod.snd).any fun group => 1 < group.length

/-- What a log is replayed with. -/
def contextOf (ops : List ContactOperation) : MergeContext :=
  if merges ops then mergeContext ((passOf ops).groups.entries.map Prod.snd) (logRows ops)
  else plainContext (logRows ops)

section Plain

variable {rows : List LogRow}

@[simp] theorem canonical_plainContext (key : RecordKey) :
    (plainContext rows).canonical key = key := rfl

@[simp] theorem group_plainContext (key : RecordKey) : (plainContext rows).group key = [key] := rfl

@[simp] theorem remapItem_plainContext (key : RecordKey) :
    (plainContext rows).remapItem key = id := rfl

@[simp] theorem LinkedFrom.mapItem_id : LinkedFrom.mapItem id = id := by
  funext l
  cases l <;> rfl

@[simp] theorem BlockScope.mapItem_id : BlockScope.mapItem id = id := by
  funext s
  cases s <;> rfl

@[simp] theorem ContactAction.mapItems_id (action : ContactAction) :
    action.mapItems id = action := by
  cases action <;> simp [ContactAction.mapItems]

@[simp] theorem remap_plainContext (op : ContactOperation) : (plainContext rows).remap op = op := by
  simp [MergeContext.remap, recordKey]

@[simp] theorem awaitReview_plainContext (key : RecordKey) (v : AddContactValue)
    (next : ContactRecord) : (plainContext rows).awaitReview key v next = next := by
  unfold MergeContext.awaitReview
  cases v.appIntroduction with
  | none => rfl
  | some intro => simp [MergeContext.heldElsewhere]

theorem groupStep_plainContext (record : Option ContactRecord) (row : LogRow) :
    groupStep (plainContext rows) record row = applyOne record row.op := by
  have hid : ∀ v, (plainContext rows).awaitReview row.sourceKey v = id :=
    fun v => funext fun next => awaitReview_plainContext _ v next
  unfold groupStep
  cases row.firstAdd <;> cases record <;> simp [hid]

theorem withMergedIds_plainContext (key : RecordKey) (record : ContactRecord) :
    (plainContext rows).withMergedIds key record = record := rfl

end Plain

theorem replay_map_op (keyOf : ContactOperation → RecordKey)
    (step : Option ContactRecord → ContactOperation → Option ContactRecord)
    (m : OrderedMap RecordKey ContactRecord) (rows : List LogRow) :
    replay (fun row : LogRow => keyOf row.op) (fun record row => step record row.op) m rows
      = replay keyOf step m (rows.map LogRow.op) := by
  rw [replay, replay, List.foldl_map]
  rfl

theorem materialise_eq_secondPass (ops : List ContactOperation) :
    materialise ops = secondPass (contextOf ops) (logRows ops) := by
  have hany : merges ops
      = ((firstPass (sortOperations ops)).groups.entries.map Prod.snd).any
          (fun group => 1 < group.length) := rfl
  unfold materialise contextOf
  simp only
  rw [← hany]
  by_cases h : merges ops = true
  · rw [if_pos h, if_pos h]
    rfl
  · rw [if_neg h, if_neg h, secondPass]
    have hstep : groupStep (plainContext (logRows ops)) = fun record row => applyOne record row.op :=
      funext fun record => funext fun row => groupStep_plainContext record row
    have hreplay := replay_map_op recordKey applyOne .empty (logRows ops)
    rw [map_op_logRows] at hreplay
    rw [hstep, raw_firstPass, ← hreplay]
    refine OrderedMap.ext ?_
    simp [OrderedMap.mapEntries, withMergedIds_plainContext]
    rfl

/-! ## Canonical ids -/

theorem groups_passOf (ops : List ContactOperation) :
    (passOf ops).groups = classes (rootOf ops) (contactKeys ops) := rfl

variable {key : RecordKey}

theorem classAt_of_not_merges (h : merges ops = false) (hk : key ∈ contactKeys ops) :
    classAt (rootOf ops) (contactKeys ops) (rootOf ops key) = [key] := by
  have hmem : key ∈ classAt (rootOf ops) (contactKeys ops) (rootOf ops key) :=
    mem_classAt.mpr ⟨hk, rfl⟩
  have hgroup : classAt (rootOf ops) (contactKeys ops) (rootOf ops key)
      ∈ (passOf ops).groups.entries.map Prod.snd := mem_classes_iff.mpr ⟨key, hk, rfl⟩
  have hlen := List.any_eq_false.mp h _ hgroup
  cases hc : classAt (rootOf ops) (contactKeys ops) (rootOf ops key) with
  | nil => rw [hc] at hmem; cases hmem
  | cons a rest =>
    rw [hc] at hmem hlen
    have hrest : rest = [] := List.length_eq_zero_iff.mp (by simpa using hlen)
    subst hrest
    rw [List.mem_singleton.mp hmem]

theorem canonical_contextOf (ops : List ContactOperation) (key : RecordKey) :
    (contextOf ops).canonical key = leaderOf (rootOf ops) (contactKeys ops) key := by
  unfold contextOf
  by_cases h : merges ops = true
  · rw [if_pos h, MergeContext.canonical]
    simp only [mergeContext, groups_passOf, get_leaders_classes]
    by_cases hk : key ∈ contactKeys ops
    · rw [if_pos hk]; rfl
    · rw [if_neg hk, leaderOf_of_not_mem hk]; rfl
  · rw [if_neg h, canonical_plainContext]
    by_cases hk : key ∈ contactKeys ops
    · rw [leaderOf, if_pos hk, classAt_of_not_merges (by simpa using h) hk]
      rfl
    · rw [leaderOf_of_not_mem hk]

theorem group_contextOf (hk : key ∈ contactKeys ops) :
    (contextOf ops).group ((contextOf ops).canonical key)
      = classAt (rootOf ops) (contactKeys ops) (rootOf ops key) := by
  rw [canonical_contextOf]
  unfold contextOf
  by_cases h : merges ops = true
  · have hlead : leaderOf (rootOf ops) (contactKeys ops) key ∈ contactKeys ops := leaderOf_mem hk
    rw [if_pos h, MergeContext.group]
    simp only [mergeContext, groups_passOf, get_byLeader_classes]
    rw [if_pos ⟨hlead, leaderOf_leaderOf key⟩, root_leaderOf (rootOf ops)]
    rfl
  · rw [if_neg h, group_plainContext, leaderOf, if_pos hk,
      classAt_of_not_merges (by simpa using h) hk]
    rfl

/-! ## The record of a group -/

/-- The rows of the group led by a contact id. -/
def groupRows (ops : List ContactOperation) (key : RecordKey) : List LogRow :=
  (logRows ops).filter fun row => (contextOf ops).canonical row.sourceKey = key

/-- The record a list of rows leaves at a canonical id. -/
def recordAfter (ops : List ContactOperation) (rows : List LogRow) : Option ContactRecord :=
  runAt (groupStep (contextOf ops)) none rows

theorem get_materialise (ops : List ContactOperation) (key : RecordKey) :
    (materialise ops).get key
      = (recordAfter ops (groupRows ops key)).map ((contextOf ops).withMergedIds key) := by
  rw [materialise_eq_secondPass, secondPass, OrderedMap.get_mapEntries, get_replay]
  rfl

theorem exists_recordAfter {record : ContactRecord} (h : (materialise ops).get key = some record) :
    ∃ r, recordAfter ops (groupRows ops key) = some r ∧
      record = (contextOf ops).withMergedIds key r := by
  rw [get_materialise, Option.map_eq_some_iff] at h
  obtain ⟨r, hr, rfl⟩ := h
  exact ⟨r, hr, rfl⟩

theorem withMergedIds_eq (ctx : MergeContext) (key : RecordKey) (record : ContactRecord) :
    ctx.withMergedIds key record
      = { record with mergedContactIds := (ctx.withMergedIds key record).mergedContactIds } := by
  unfold MergeContext.withMergedIds
  split <;> rfl

end SignetApp.Contacts
