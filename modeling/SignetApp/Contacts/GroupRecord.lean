import SignetApp.Contacts.FirstPass

/-!
# The record of a group

What names a record never changes after the `add` that made it: its key, its creator, its aliases.
So the record at a key carries that key, and a record *holds* exactly the contact ids of its group
(`holds_iff`).
-/

namespace SignetApp.Contacts

open SignetApp.Js

structure RecordName where
  key : RecordKey
  createdByActorRole : ContactActorRole
  createdByOperationId : Hex32
  mergedContactIds : Option (List Hex32)

def ContactRecord.key (record : ContactRecord) : RecordKey := ⟨record.directoryId, record.contactId⟩

def ContactRecord.recordName (record : ContactRecord) : RecordName :=
  ⟨record.key, record.createdByActorRole, record.createdByOperationId, record.mergedContactIds⟩

@[simp] theorem recordName_linkContactList (record : ContactRecord) (owner : Hex64)
    (at_ : Timestamp) : (linkContactList record owner at_).recordName = record.recordName := by
  unfold linkContactList
  split <;> rfl

@[simp] theorem recordName_unlinkContactList (record : ContactRecord) (owner : Hex64)
    (at_ : Timestamp) : (unlinkContactList record owner at_).recordName = record.recordName := by
  unfold unlinkContactList
  grind [ContactRecord.recordName, ContactRecord.key]

@[simp] theorem recordName_removeContactLists (record : ContactRecord) (at_ : Timestamp) :
    (removeContactLists record at_).recordName = record.recordName := by
  unfold removeContactLists
  split <;> rfl

@[simp] theorem recordName_awaitReview (ctx : MergeContext) (key : RecordKey) (v : AddContactValue)
    (record : ContactRecord) : (ctx.awaitReview key v record).recordName = record.recordName := by
  unfold MergeContext.awaitReview
  grind [ContactRecord.recordName, ContactRecord.key]

variable {op : ContactOperation} {next record : ContactRecord}

theorem recordName_mutate
    (h : mutate record op = some next) : next.recordName = record.recordName := by
  have hlink := recordName_linkContactList
  have hunlink := recordName_unlinkContactList
  have hremove := recordName_removeContactLists
  unfold mutate at h
  cases ha : op.action <;> simp only [ha] at h <;>
    grind [ContactRecord.recordName, ContactRecord.key, ContactRecord.touch]

/-- The name of a record an operation would make. -/
def madeName (op : ContactOperation) : RecordName :=
  ⟨recordKey op, op.actorRole, op.operationId, none⟩

theorem recordName_addContact_none (op : ContactOperation) (v : AddContactValue) :
    (addContact none op v).recordName = madeName op := by
  have hlink := recordName_linkContactList
  have hmade : (applyAdd none op v).recordName = madeName op := rfl
  unfold addContact chooseList proposeContact
  grind [ContactRecord.recordName, ContactRecord.key]

/-- The record at a key carries the key, and no aliases before the end. -/
def Named (key : RecordKey) (record : ContactRecord) : Prop :=
  record.key = key ∧ record.mergedContactIds = none

theorem recordName_addContact (v : AddContactValue) (h : Named (recordKey op) record) :
    (addContact (some record) op v).recordName = record.recordName := by
  obtain ⟨hkey, hmerged⟩ := h
  have hlink := recordName_linkContactList
  have happly : (applyAdd (some record) op v).recordName = record.recordName := by
    unfold applyAdd
    grind [ContactRecord.recordName, ContactRecord.key, recordKey]
  unfold addContact chooseList proposeContact
  cases hintro : v.appIntroduction <;> cases howner : v.ownerIdentityPubkey <;> grind

theorem recordName_applyOne
    (hnamed : Named (recordKey op) record) (h : applyOne (some record) op = some next) :
    next.recordName = record.recordName := by
  by_cases hadd : op.action.isAdd = true
  · obtain ⟨v, hv⟩ := ContactAction.isAdd_iff.mp hadd
    rw [applyOne_add _ hv] at h
    cases h
    exact recordName_addContact v hnamed
  · rw [applyOne_some record (by simpa using hadd)] at h
    split at h
    · cases h
    · exact recordName_mutate h

theorem recordName_duplicateAdd {v : AddContactValue} (hnamed : Named (recordKey op) record)
    (h : duplicateAdd record op v = some next) : next.recordName = record.recordName := by
  unfold duplicateAdd at h
  split at h
  · cases h
  · cases hintro : v.appIntroduction with
    | none =>
      have hlink := recordName_linkContactList
      grind [ContactRecord.recordName, ContactRecord.key]
    | some intro =>
      simp only [hintro, Option.some.injEq] at h
      subst h
      set proposal : ContactOperation := { op with action := .appProposeList intro }
      have hproposal : Named (recordKey proposal) record := hnamed
      cases happly : applyOne (some record) proposal with
      | none => rfl
      | some r => exact recordName_applyOne hproposal happly

variable {row : LogRow} {ctx : MergeContext}

theorem recordName_groupStep (hnamed : Named (recordKey (ctx.remap row.op)) record)
    (h : groupStep ctx (some record) row = some next) : next.recordName = record.recordName := by
  cases hf : row.firstAdd with
  | none =>
    rw [groupStep_of_not_first hf] at h
    exact recordName_applyOne hnamed h
  | some v =>
    by_cases hc : ctx.canonical row.sourceKey = row.sourceKey
    · rw [groupStep_first hf (.inr hc), Option.map_eq_some_iff] at h
      obtain ⟨r, happly, rfl⟩ := h
      rw [recordName_awaitReview]
      exact recordName_applyOne hnamed happly
    · rw [groupStep_duplicate hf hc] at h
      exact recordName_duplicateAdd hnamed h

theorem recordName_groupStep_none (h : groupStep ctx none row = some next) :
    row.op.action.isAdd = true ∧ next.recordName = madeName (ctx.remap row.op) := by
  have happly : ∀ r, applyOne none (ctx.remap row.op) = some r →
      row.op.action.isAdd = true ∧ r.recordName = madeName (ctx.remap row.op) := by
    intro r hr
    by_cases hadd : (ctx.remap row.op).action.isAdd = true
    · obtain ⟨v, hv⟩ := ContactAction.isAdd_iff.mp hadd
      rw [applyOne_add _ hv] at hr
      cases hr
      exact ⟨by rwa [isAdd_remap] at hadd, recordName_addContact_none _ _⟩
    · rw [applyOne_none (by simpa using hadd)] at hr
      cases hr
  cases hf : row.firstAdd with
  | none =>
    rw [groupStep_of_not_first hf] at h
    exact happly next h
  | some v =>
    rw [groupStep_first hf (.inl rfl), Option.map_eq_some_iff] at h
    obtain ⟨r, hr, rfl⟩ := h
    rw [recordName_awaitReview]
    exact happly r hr

theorem isSome_groupStep_none
    (h : row.op.action.isAdd = true) : (groupStep ctx none row).isSome = true := by
  obtain ⟨v, hv⟩ := ContactAction.isAdd_iff.mp ((isAdd_remap ctx row.op).trans h)
  cases hf : row.firstAdd with
  | none => rw [groupStep_of_not_first hf, applyOne_add _ hv]; rfl
  | some _ => rw [groupStep_first hf (.inl rfl), applyOne_add _ hv]; rfl

/-! ## Which records there are -/

variable {ops : List ContactOperation}

theorem isSome_recordAfter_iff {rows : List LogRow} :
    (recordAfter ops rows).isSome ↔ ∃ row ∈ rows, row.op.action.isAdd = true := by
  refine isSome_runAt_iff _ (fun row _ h => isSome_groupStep_none h) fun row _ h => ?_
  cases hstep : groupStep (contextOf ops) none row with
  | none => rfl
  | some next => exact absurd (recordName_groupStep_none hstep).1 h

variable {key : RecordKey}

theorem mem_contactKeys_iff :
    key ∈ contactKeys ops ↔ ∃ op ∈ ops, op.action.isAdd = true ∧ recordKey op = key := by
  rw [contactKeys, passOf, OrderedMap.mem_keys_iff, raw_firstPass, get_replay,
    OrderedMap.get_empty, isSome_runAt_iff fun op => op.action.isAdd = true]
  · simp only [List.mem_filter, mem_sortOperations, decide_eq_true_eq]
    grind
  · intro op _ h
    obtain ⟨v, hv⟩ := ContactAction.isAdd_iff.mp h
    rw [applyOne_add _ hv]
    rfl
  · intro op _ h
    exact applyOne_none (by simpa using h)

theorem mem_groupRows :
    row ∈ groupRows ops key ↔ row ∈ logRows ops ∧ (contextOf ops).canonical row.sourceKey = key := by
  simp [groupRows]

theorem canonical_canonical (ops : List ContactOperation) (key : RecordKey) :
    (contextOf ops).canonical ((contextOf ops).canonical key) = (contextOf ops).canonical key := by
  simp only [canonical_contextOf, leaderOf_leaderOf]

theorem contactKeys_eq (ops : List ContactOperation) :
    contactKeys ops
      = distinct (((sortOperations ops).filter fun op => op.action.isAdd).map recordKey) := by
  rw [contactKeys, passOf, raw_firstPass, keys_replay fun op : ContactOperation => op.action.isAdd]
  · intro op h
    obtain ⟨v, hv⟩ := ContactAction.isAdd_iff.mp h
    rw [applyOne_add _ hv]
    rfl
  · intro op h
    exact applyOne_none h

theorem canonical_eq_iff {a b : RecordKey} (ha : a ∈ contactKeys ops) (hb : b ∈ contactKeys ops) :
    (contextOf ops).canonical a = (contextOf ops).canonical b ↔ rootOf ops a = rootOf ops b := by
  rw [canonical_contextOf, canonical_contextOf]
  constructor
  · intro h
    rw [← root_leaderOf (rootOf ops), h, root_leaderOf (rootOf ops)]
  · exact leaderOf_congr ha hb

theorem exists_split_groupRows (hids : OperationIdsAgree ops)
    {a b : ContactOperation} (ha : a ∈ ops) (hb : b ∈ ops) (hne : a ≠ b) (hle : operationLE a b)
    (hkey : recordKey a = recordKey b) :
    ∃ pre row post, groupRows ops ((contextOf ops).canonical (recordKey b)) = pre ++ row :: post ∧
      row.op = b ∧ ∃ earlier ∈ pre, earlier.op = a := by
  obtain ⟨pre, post, hsplit, hpre⟩ := exists_split_sortOperations hids ha hb hne hle
  rw [← map_op_logRows, List.map_eq_append_iff] at hsplit
  obtain ⟨rows, rest, hrows, rfl, hrest⟩ := hsplit
  obtain ⟨row, later, rfl, rfl, rfl⟩ := List.map_eq_cons_iff.mp hrest
  obtain ⟨earlier, hearlier, rfl⟩ := List.mem_map.mp hpre
  set inGroup : LogRow → Bool := fun r =>
    (contextOf ops).canonical r.sourceKey = (contextOf ops).canonical (recordKey row.op)
  refine ⟨rows.filter inGroup, row, later.filter inGroup, ?_, rfl, earlier, ?_, rfl⟩
  · change (logRows ops).filter inGroup = _
    rw [hrows, List.filter_append, List.filter_cons_of_pos (by simp [inGroup, LogRow.sourceKey])]
  · exact List.mem_filter.mpr ⟨hearlier, by simp [inGroup, LogRow.sourceKey, hkey]⟩

theorem isSome_get_materialise_iff :
    ((materialise ops).get key).isSome ↔
      key ∈ contactKeys ops ∧ (contextOf ops).canonical key = key := by
  rw [get_materialise, Option.isSome_map, isSome_recordAfter_iff]
  constructor
  · rintro ⟨row, hrow, hadd⟩
    obtain ⟨hlog, rfl⟩ := mem_groupRows.mp hrow
    have hmem : row.sourceKey ∈ contactKeys ops :=
      mem_contactKeys_iff.mpr ⟨row.op, mem_of_mem_logRows hlog, hadd, rfl⟩
    refine ⟨?_, canonical_canonical ops _⟩
    rw [canonical_contextOf]
    exact leaderOf_mem hmem
  · rintro ⟨hmem, hc⟩
    obtain ⟨op, hop, hadd, rfl⟩ := mem_contactKeys_iff.mp hmem
    rw [← mem_sortOperations, ← map_op_logRows] at hop
    obtain ⟨row, hrow, rfl⟩ := List.mem_map.mp hop
    exact ⟨row, mem_groupRows.mpr ⟨hrow, hc⟩, hadd⟩

/-! ## The ids a record holds -/

/-- The contact ids a record stands for: its own and those merged into it. -/
def ContactRecord.holds (record : ContactRecord) (key : RecordKey) : Prop :=
  key.directoryId = record.directoryId ∧
    key.contactId ∈ record.contactId :: record.mergedContactIds.getD []

instance (record : ContactRecord) (key : RecordKey) : Decidable (record.holds key) :=
  inferInstanceAs (Decidable (_ ∧ _))

theorem recordKey_remap_of_mem
    (h : row ∈ groupRows ops key) : recordKey ((contextOf ops).remap row.op) = key := by
  rw [recordKey_remap]
  exact (mem_groupRows.mp h).2

theorem named_recordAfter {rows : List LogRow}
    (hrows : rows ⊆ groupRows ops key) : ∀ record ∈ recordAfter ops rows, Named key record := by
  refine runAt_forall (fun s hs row hrow next hstep => ?_) (fun _ h => by cases h)
  have hkey := recordKey_remap_of_mem (hrows hrow)
  cases s with
  | none =>
    have hname := (recordName_groupStep_none hstep).2
    have h₁ := congrArg RecordName.key hname
    have h₂ := congrArg RecordName.mergedContactIds hname
    exact ⟨h₁.trans hkey, h₂⟩
  | some r =>
    have hr : Named key r := hs r rfl
    have hname := recordName_groupStep (by rw [hkey]; exact hr) hstep
    have h₁ := congrArg RecordName.key hname
    have h₂ := congrArg RecordName.mergedContactIds hname
    exact ⟨h₁.trans hr.1, h₂.trans hr.2⟩

/-- **A record holds exactly the contact ids of its group.** -/
theorem holds_iff (h : (materialise ops).get key = some record) {other : RecordKey} :
    record.holds other ↔ other ∈ contactKeys ops ∧ (contextOf ops).canonical other = key := by
  have hsome : ((materialise ops).get key).isSome := by rw [h]; rfl
  obtain ⟨hmem, hc⟩ := isSome_get_materialise_iff.mp hsome
  obtain ⟨r, hr, rfl⟩ := exists_recordAfter h
  obtain ⟨hkey, hmerged⟩ := named_recordAfter (fun _ h => h) r hr
  have hgroup := group_contextOf hmem
  rw [hc] at hgroup
  obtain ⟨rest, hrest⟩ := classAt_eq_leaderOf_cons (rootOf ops) hmem
  rw [← canonical_contextOf, hc] at hrest
  -- The ids the record names are those of its class.
  have hids : ((contextOf ops).withMergedIds key r).contactId
        :: ((contextOf ops).withMergedIds key r).mergedContactIds.getD []
      = (classAt (rootOf ops) (contactKeys ops) (rootOf ops key)).map RecordKey.contactId := by
    have hid : r.contactId = key.contactId := congrArg RecordKey.contactId hkey
    rw [MergeContext.withMergedIds, hgroup, hrest]
    cases rest with
    | nil => simp [hid, hmerged]
    | cons second rest => simp [hid]
  have hdir : ((contextOf ops).withMergedIds key r).directoryId = key.directoryId := by
    rw [withMergedIds_eq]
    exact congrArg RecordKey.directoryId hkey
  rw [ContactRecord.holds, hids, hdir, List.mem_map]
  constructor
  · rintro ⟨hd, k, hk, hid⟩
    obtain ⟨hkmem, hroot⟩ := mem_classAt.mp hk
    have hk : k = other := by
      have hkd : k.directoryId = key.directoryId := by
        rw [← directoryId_rootOf ops k, hroot, directoryId_rootOf]
      cases k
      cases other
      simp_all
    subst hk
    refine ⟨hkmem, ?_⟩
    rw [canonical_contextOf, leaderOf_congr hkmem hmem hroot, ← canonical_contextOf, hc]
  · rintro ⟨hother, rfl⟩
    refine ⟨(directoryId_canonical ops other).symm, other, mem_classAt.mpr ⟨hother, ?_⟩, rfl⟩
    rw [canonical_contextOf, root_leaderOf (rootOf ops)]

end SignetApp.Contacts
