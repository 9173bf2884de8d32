import SignetApp.Contacts.Effective
import SignetApp.Contacts.Encoding
import SignetApp.Contacts.GroupRecord
import SignetApp.Contacts.Mutations
import SignetApp.Contacts.Validation

/-!
# Blocks

A block is a fact on the record, and only its author can lift it. No action rebuilds a record
without its blocks: `blocks_applyOne` says all an operation can do to them. So the fact of a block
whose contact was added before it survives every longer log in which its author does not lift it,
on whatever record its contact ends up (`block_stands`).
-/

namespace SignetApp.Contacts

open SignetApp.Js

/-- The fact a `block` operation leaves. -/
def blockFact (op : ContactOperation) (scope : BlockScope) (reason : Option (Str capReason)) :
    BlockFact :=
  { blockedBy := op.actorPubkey
    scope
    blockedAt := op.createdAt
    reason := reason.bind fun r => nonEmpty (clean r.toText)
    operationId := op.operationId
    liftedByOperationId := none }

/-- The blocks after an `unblock`. -/
def liftBlocks (op : ContactOperation) (blocks : List BlockFact) : List BlockFact :=
  blocks.map fun b =>
    if some b.operationId = op.targetOperationId then
      { b with liftedByOperationId := some op.operationId }
    else b

/-! ## What each step does to the blocks -/

@[simp] theorem blocks_linkContactList (record : ContactRecord) (owner : Hex64) (at_ : Timestamp) :
    (linkContactList record owner at_).blocks = record.blocks := by
  unfold linkContactList
  split <;> rfl

@[simp] theorem blocks_unlinkContactList (record : ContactRecord) (owner : Hex64)
    (at_ : Timestamp) : (unlinkContactList record owner at_).blocks = record.blocks := by
  unfold unlinkContactList
  grind

@[simp] theorem blocks_removeContactLists (record : ContactRecord) (at_ : Timestamp) :
    (removeContactLists record at_).blocks = record.blocks := by
  unfold removeContactLists
  split <;> rfl

@[simp] theorem blocks_awaitReview (ctx : MergeContext) (key : RecordKey) (v : AddContactValue)
    (record : ContactRecord) : (ctx.awaitReview key v record).blocks = record.blocks := by
  unfold MergeContext.awaitReview
  grind

@[simp] theorem blocks_addContact (record : Option ContactRecord) (op : ContactOperation)
    (v : AddContactValue) :
    (addContact record op v).blocks = (record.map ContactRecord.blocks).getD [] := by
  have happly : (applyAdd record op v).blocks = (record.map ContactRecord.blocks).getD [] := by
    unfold applyAdd
    cases record <;> grind
  unfold addContact chooseList proposeContact
  grind [blocks_linkContactList]

/-- What an operation may do to the blocks of a record: keep them, add its own fact, or lift the
facts of a block by its own author. -/
inductive BlockChange (op : ContactOperation) (blocks : List BlockFact) : List BlockFact → Prop
  | keep : BlockChange op blocks blocks
  | block (scope : BlockScope) (reason : Option (Str capReason))
      (haction : op.action = .block scope reason) :
      BlockChange op blocks (blocks ++ [blockFact op scope reason])
  | unblock (found : BlockFact) (haction : op.action = .unblock)
      (hfound : blocks.find? (fun b => some b.operationId = op.targetOperationId) = some found)
      (hauthor : found.blockedBy = op.actorPubkey) :
      BlockChange op blocks (liftBlocks op blocks)

variable {op : ContactOperation}

theorem BlockChange.eq_of_other {blocks blocks' : List BlockFact}
    (h : BlockChange op blocks blocks') (hblock : ∀ scope reason, op.action ≠ .block scope reason)
    (hunblock : op.action ≠ .unblock) : blocks' = blocks := by
  cases h with
  | keep => rfl
  | block scope reason haction => exact absurd haction (hblock scope reason)
  | unblock found haction _ _ => exact absurd haction hunblock

variable {next record : ContactRecord}

theorem blockChange_mutate
    (h : mutate record op = some next) : BlockChange op record.blocks next.blocks := by
  unfold mutate at h
  cases ha : op.action with
  | block scope reason =>
    simp only [ha, Option.some.injEq] at h
    subst h
    exact .block scope reason ha
  | unblock =>
    simp only [ha, ContactRecord.touch] at h
    cases hfound : record.blocks.find? fun b => some b.operationId = op.targetOperationId with
    | none => simp [hfound] at h
    | some found =>
      simp only [hfound] at h
      split at h
      · cases h
      · next hnot =>
        cases h
        exact .unblock found ha hfound (not_not.mp (not_or.mp hnot).2)
  | _ =>
    have hkeep : next.blocks = record.blocks := by
      simp only [ha] at h
      grind [ContactRecord.touch, blocks_linkContactList, blocks_unlinkContactList,
        blocks_removeContactLists]
    rw [hkeep]
    exact .keep

theorem blockChange_applyOne
    (h : applyOne (some record) op = some next) : BlockChange op record.blocks next.blocks := by
  by_cases hadd : op.action.isAdd = true
  · obtain ⟨v, hv⟩ := ContactAction.isAdd_iff.mp hadd
    rw [applyOne_add _ hv] at h
    cases h
    rw [blocks_addContact]
    exact .keep
  · rw [applyOne_some record (by simpa using hadd)] at h
    split at h
    · cases h
    · exact blockChange_mutate h

theorem blocks_duplicateAdd {v : AddContactValue} (h : duplicateAdd record op v = some next) :
    next.blocks = record.blocks := by
  unfold duplicateAdd at h
  split at h
  · cases h
  · cases hintro : v.appIntroduction with
    | none => grind [blocks_linkContactList]
    | some intro =>
      simp only [hintro, Option.some.injEq] at h
      subst h
      set proposal : ContactOperation := { op with action := .appProposeList intro }
      cases happly : applyOne (some record) proposal with
      | none => rfl
      | some r =>
        exact (blockChange_applyOne happly).eq_of_other (fun _ _ h => by cases h) fun h => by cases h

variable {row : LogRow}

theorem blockChange_groupStep {ctx : MergeContext}
    (h : groupStep ctx (some record) row = some next) :
    BlockChange (ctx.remap row.op) record.blocks next.blocks := by
  cases hf : row.firstAdd with
  | none =>
    rw [groupStep_of_not_first hf] at h
    exact blockChange_applyOne h
  | some v =>
    by_cases hc : ctx.canonical row.sourceKey = row.sourceKey
    · rw [groupStep_first hf (.inr hc), Option.map_eq_some_iff] at h
      obtain ⟨r, happly, rfl⟩ := h
      rw [blocks_awaitReview]
      exact blockChange_applyOne happly
    · rw [groupStep_duplicate hf hc] at h
      rw [blocks_duplicateAdd h]
      exact .keep

theorem blocks_groupStep_none {ctx : MergeContext}
    (h : groupStep ctx none row = some next) : next.blocks = [] := by
  have happly : ∀ r, applyOne none (ctx.remap row.op) = some r → r.blocks = [] := by
    intro r hr
    by_cases hadd : (ctx.remap row.op).action.isAdd = true
    · obtain ⟨v, hv⟩ := ContactAction.isAdd_iff.mp hadd
      rw [applyOne_add _ hv] at hr
      cases hr
      rw [blocks_addContact]
      rfl
    · rw [applyOne_none (by simpa using hadd)] at hr
      cases hr
  cases hf : row.firstAdd with
  | none =>
    rw [groupStep_of_not_first hf] at h
    exact happly next h
  | some v =>
    rw [groupStep_first hf (.inl rfl), Option.map_eq_some_iff] at h
    obtain ⟨r, hr, rfl⟩ := h
    rw [blocks_awaitReview]
    exact happly r hr

/-! ## One block over a run -/

section OneBlock

variable {ctx : MergeContext} {b : ContactOperation} {scope : BlockScope}
  {reason : Option (Str capReason)}

/-- Every fact under the block's operation id is its author's. -/
def Authored (b : ContactOperation) (blocks : List BlockFact) : Prop :=
  ∀ f ∈ blocks, f.operationId = b.operationId → f.blockedBy = b.actorPubkey

/-- The block stands: its fact is there, not lifted. -/
def Stands (b : ContactOperation) (fact : BlockFact) (blocks : List BlockFact) : Prop :=
  Authored b blocks ∧ fact ∈ blocks

variable {blocks blocks' : List BlockFact}

theorem authored_of_blockChange {op : ContactOperation}
    (hid : op.operationId = b.operationId → op.actorPubkey = b.actorPubkey)
    (h : Authored b blocks) (hchange : BlockChange op blocks blocks') : Authored b blocks' := by
  intro f hf hfid
  cases hchange with
  | keep => exact h f hf hfid
  | block scope reason haction =>
    rcases List.mem_append.mp hf with hf | hf
    · exact h f hf hfid
    · rw [List.mem_singleton.mp hf] at hfid ⊢
      exact hid hfid
  | unblock found haction hfound hauthor =>
    obtain ⟨g, hg, rfl⟩ := List.mem_map.mp hf
    by_cases htarget : some g.operationId = op.targetOperationId
    · rw [if_pos htarget] at hfid ⊢
      exact h g hg hfid
    · rw [if_neg htarget] at hfid ⊢
      exact h g hg hfid

variable {fact : BlockFact}

theorem mem_of_blockChange {op : ContactOperation} (hfact : fact.operationId = b.operationId) (h : Stands b fact blocks)
    (hnot : op.action = .unblock → op.actorPubkey = b.actorPubkey →
      op.targetOperationId ≠ some b.operationId)
    (hchange : BlockChange op blocks blocks') : fact ∈ blocks' := by
  obtain ⟨hauthored, hmem⟩ := h
  cases hchange with
  | keep => exact hmem
  | block scope reason haction => exact List.mem_append_left _ hmem
  | unblock found haction hfound hauthor =>
    have htarget : op.targetOperationId ≠ some b.operationId := by
      intro htarget
      have hid : some found.operationId = op.targetOperationId := by
        simpa using List.find?_some hfound
      rw [htarget, Option.some.injEq] at hid
      have hby := hauthored found (List.mem_of_find?_eq_some hfound) hid
      exact hnot haction (hauthor.symm.trans hby) htarget
    refine List.mem_map.mpr ⟨fact, hmem, if_neg ?_⟩
    rw [hfact]
    exact Ne.symm htarget

/-- Rows that share no author with the block's id, and do not lift it. -/
structure Harmless (ctx : MergeContext) (b : ContactOperation) (row : LogRow) : Prop where
  author : row.op.operationId = b.operationId → row.op.actorPubkey = b.actorPubkey
  noLift : row.op.action = .unblock → row.op.actorPubkey = b.actorPubkey →
    row.op.targetOperationId ≠ some b.operationId

theorem unblock_of_mapItems {f : Hex32 → Hex32} {action : ContactAction}
    (h : action.mapItems f = .unblock) : action = .unblock := by
  cases action <;> simp [ContactAction.mapItems] at h ⊢

variable {s : Option ContactRecord} {rows : List LogRow}

theorem authored_run (hrows : ∀ row ∈ rows, Harmless ctx b row) (hs : ∀ r ∈ s, Authored b r.blocks) :
    ∀ r ∈ runAt (groupStep ctx) s rows, Authored b r.blocks := by
  refine runAt_forall (fun s hs row hrow next hstep => ?_) hs
  cases s with
  | none =>
    rw [blocks_groupStep_none hstep]
    intro f hf
    cases hf
  | some r =>
    refine authored_of_blockChange ?_ (hs r rfl) (blockChange_groupStep hstep)
    exact (hrows row hrow).author

theorem stands_run (hfact : fact.operationId = b.operationId) (hrows : ∀ row ∈ rows, Harmless ctx b row)
    (hs : ∃ r, s = some r ∧ Stands b fact r.blocks) :
    ∃ r, runAt (groupStep ctx) s rows = some r ∧ Stands b fact r.blocks := by
  refine runAt_kept
    (P := fun s : Option ContactRecord => ∃ r, s = some r ∧ Stands b fact r.blocks) hs ?_
  rintro _ row hrow ⟨r, rfl, hr⟩
  cases hstep : groupStep ctx (some r) row with
  | none => exact ⟨r, advance_of_none hstep, hr⟩
  | some next =>
    have hchange := blockChange_groupStep hstep
    have hnot := (hrows row hrow).noLift
    refine ⟨next, advance_of_some hstep, ?_, ?_⟩
    · refine authored_of_blockChange ?_ hr.1 hchange
      exact (hrows row hrow).author
    · refine mem_of_blockChange hfact hr (fun h => ?_) hchange
      exact hnot (unblock_of_mapItems h)

theorem groupStep_block (ctx : MergeContext) {row : LogRow} (haction : row.op.action = .block scope reason)
    (record : ContactRecord) :
    ∃ next, groupStep ctx (some record) row = some next ∧
      blockFact (ctx.remap row.op) (scope.mapItem (ctx.remapItem row.sourceKey)) reason
        ∈ next.blocks := by
  have hf : row.firstAdd = none := by
    rw [LogRow.firstAdd_eq_none_iff, haction]
    intro h
    cases h
  have hop : (ctx.remap row.op).action
      = .block (scope.mapItem (ctx.remapItem row.sourceKey)) reason := by
    simp only [MergeContext.remap, haction, ContactAction.mapItems]
    rfl
  have hadd : (ctx.remap row.op).action.isAdd = false := by rw [hop]; rfl
  have hadm : admittedWhenRemoved record (ctx.remap row.op).action = true := by rw [hop]; rfl
  rw [groupStep_of_not_first hf, applyOne_some record hadd, if_neg (by simp [hadm])]
  refine ⟨_, by simp only [mutate, hop]; rfl, ?_⟩
  exact List.mem_append_right _ List.mem_cons_self

end OneBlock

/-! ## The whole log -/

/-- **A block can only be lifted by its author.** Take a block whose contact was added before it in
a log. In every larger log in which the block's author does not lift it, the one record that holds
the contact has the block's fact, not lifted, and is blocked under every context. -/
theorem block_stands {ops ops' : List ContactOperation} (hids : OperationIdsAgree ops')
    (hsub : ops ⊆ ops') {added b : ContactOperation} {scope : BlockScope}
    {reason : Option (Str capReason)} (hadded : added ∈ ops) (hb : b ∈ ops)
    (hadd : added.action.isAdd = true) (hblock : b.action = .block scope reason)
    (hkey : recordKey added = recordKey b) (hle : operationLE added b)
    (hnot : ∀ u ∈ ops', u.action = .unblock → u.actorPubkey = b.actorPubkey →
      u.targetOperationId ≠ some b.operationId) :
    (∃ key record, (materialise ops').get key = some record ∧ record.holds (recordKey b)) ∧
    ∀ key record, (materialise ops').get key = some record → record.holds (recordKey b) →
      (∃ fact ∈ record.blocks, fact.operationId = b.operationId ∧
        fact.blockedBy = b.actorPubkey ∧ fact.blockedAt = b.createdAt ∧
        fact.scope = scope.mapItem ((contextOf ops').remapItem (recordKey b)) ∧
        fact.liftedByOperationId = none) ∧
      ∀ ctx, (resolveEffective record ctx).blocked = true := by
  have hne : added ≠ b := by
    rintro rfl
    rw [hblock] at hadd
    cases hadd
  have hmem : recordKey b ∈ contactKeys ops' :=
    mem_contactKeys_iff.mpr ⟨added, hsub hadded, hadd, hkey⟩
  have hharmless : ∀ row ∈ logRows ops', Harmless (contextOf ops') b row := fun row hrow =>
    ⟨fun hid => by rw [hids _ (mem_of_mem_logRows hrow) b (hsub hb) hid],
      fun haction => hnot _ (mem_of_mem_logRows hrow) haction⟩
  obtain ⟨pre, row, post, hsplit, rfl, earlier, hearlier, rfl⟩ :=
    exists_split_groupRows hids (hsub hadded) (hsub hb) hne hle hkey
  set key := (contextOf ops').canonical (recordKey row.op) with hkeydef
  have hrows : ∀ r ∈ pre ++ row :: post, Harmless (contextOf ops') row.op r := fun r hr =>
    hharmless r (mem_groupRows.mp (hsplit ▸ hr)).1
  -- Before the block there is a record, whose facts under the block's id are its author's.
  obtain ⟨before, hbefore⟩ : ∃ before, recordAfter ops' pre = some before :=
    Option.isSome_iff_exists.mp (isSome_recordAfter_iff.mpr ⟨earlier, hearlier, hadd⟩)
  have hauthored : Authored row.op before.blocks :=
    authored_run (fun r hr => hrows r (List.mem_append_left _ hr)) (fun _ h => by cases h)
      before hbefore
  obtain ⟨after, hafter, hfact⟩ := groupStep_block (contextOf ops') hblock before
  set fact := blockFact ((contextOf ops').remap row.op)
    (scope.mapItem ((contextOf ops').remapItem row.sourceKey)) reason
  -- The block leaves its fact, and the rest of the group's rows keep it.
  have hstands : Stands row.op fact after.blocks := by
    refine ⟨authored_of_blockChange ?_ hauthored (blockChange_groupStep hafter), hfact⟩
    exact fun _ => rfl
  obtain ⟨last, hlast, -, hlastFact⟩ := stands_run
    (show fact.operationId = row.op.operationId from rfl)
    (fun r hr => hrows r (List.mem_append_right _ (List.mem_cons_of_mem _ hr))) ⟨after, rfl, hstands⟩
  have hrun : recordAfter ops' (groupRows ops' key) = some last := by
    rw [hsplit, recordAfter, runAt_append]
    change runAt _ (recordAfter ops' pre) _ = _
    rw [hbefore, runAt_cons, advance_of_some hafter]
    exact hlast
  have hget : (materialise ops').get key
      = some ((contextOf ops').withMergedIds key last) := by
    rw [get_materialise, hrun, Option.map_some]
  refine ⟨⟨key, _, hget, (holds_iff hget).mpr ⟨hmem, rfl⟩⟩, fun key' record hrecord hholds => ?_⟩
  obtain ⟨-, rfl⟩ := (holds_iff hrecord).mp hholds
  obtain rfl := Option.some.inj (hget.symm.trans hrecord)
  have hfinal : fact ∈ ((contextOf ops').withMergedIds key last).blocks := by
    rw [withMergedIds_eq]
    exact hlastFact
  exact ⟨⟨fact, hfinal, rfl, rfl, rfl, rfl, rfl⟩, blocked_eq_true hfinal rfl⟩

/-! ## A block that rests on a merge -/

/-- The block of a contact that is added only later, for a key another contact holds. -/
def earlyBlock : ContactOperation := sampleOp 3 2 3 (actorOf .owner 1) (.block .contact none)

/-- The two contacts share a key, so the block finds the record of the first. -/
def mergedLog : List ContactOperation :=
  let owner := actorOf .owner 1
  [sampleOp 1 1 0 owner (sampleAdd .kin), sampleOp 2 1 1 owner (sampleIdentity 7 9), earlyBlock,
    sampleOp 4 2 4 owner (sampleAdd .kin), sampleOp 5 2 5 owner (sampleIdentity 8 9)]

/-- The first contact lets go of the key before the second gains it. -/
def unmergedLog : List ContactOperation :=
  sampleOp 6 1 2 (actorOf .owner 1) (.removeItem (Hex.repeated 32 7)) :: mergedLog

/-- A block that sorts before its own contact's `add` takes effect only through the merge, and is
lost with it, though nobody lifted it. -/
theorem block_lost_with_merge :
    (unmergedLog.map ContactOperation.operationId).Nodup ∧ mergedLog ⊆ unmergedLog ∧
      (∀ op ∈ unmergedLog, @accepted samplePlatform (.obj op.toJs) = some op) ∧
      (∀ op ∈ unmergedLog, op.action ≠ .unblock) ∧
      ((materialise mergedLog).get (sampleKey 1)).map
          (fun r => (decide (r.holds (sampleKey 2)), r.blocks))
        = some (true, [blockFact earlyBlock .contact none]) ∧
      ((materialise unmergedLog).get (sampleKey 2)).map
          (fun r => (decide (r.holds (sampleKey 2)), r.blocks))
        = some (true, []) := by
  decide +kernel

/-- The same block, made after its contact's `add`, against an attempt of another actor to lift it. -/
def contestedLog : List ContactOperation :=
  [sampleOp 4 2 4 (actorOf .owner 1) (sampleAdd .kin),
    sampleOp 7 2 5 (actorOf .owner 1) (.block .contact none),
    sampleOp 8 2 6 (actorOf .guardian 2) .unblock (some 7)]

theorem block_stands_contested :
    ∃ key record, (materialise contestedLog).get key = some record ∧
      record.holds (sampleKey 2) :=
  (@block_stands contestedLog contestedLog (by unfold OperationIdsAgree; decide +kernel)
    (List.Subset.refl _) contestedLog[0] contestedLog[1] .contact none (by decide +kernel)
    (by decide +kernel) rfl rfl rfl (by decide +kernel) (by decide +kernel)).1

end SignetApp.Contacts
