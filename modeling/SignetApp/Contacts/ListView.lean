import SignetApp.Contacts.Locality
import SignetApp.Contacts.Standing

/-!
# The lists of a contact

Which lists a contact is on, and whether it is removed, is decided by its adds, its list operations and its removals,
in their order. No other operation is read for it.
-/

namespace SignetApp.Contacts

open SignetApp.Js

/-- The actions that bear on the lists of a contact, or on its removal. -/
def ContactAction.isListAction : ContactAction → Bool
  | .add _ | .linkList _ | .unlinkList _ | .appProposeList _ | .reviewAppList _ _ | .remove | .archive => true
  | _ => false

/-- The part of a record that those actions read and write. -/
structure ListView where
  removed : Bool
  archived : Option Bool
  listMemberships : Option (List ContactListMembership)
  primaryIdentityPubkey : Option Hex64
  appIntroductions : Option (List AppContactIntroduction)

def ContactRecord.listView (r : ContactRecord) : ListView where
  removed := r.lifecycle = .removed
  archived := r.archived
  listMemberships := r.listMemberships
  primaryIdentityPubkey := r.primaryIdentityPubkey
  appIntroductions := r.appIntroductions

/-- The view of the record that an operation leaves. -/
def viewAfter (record : Option ContactRecord) (op : ContactOperation) : Option ListView :=
  (advance applyOne record op).map ContactRecord.listView

section

variable {r s next : ContactRecord} {record record' : Option ContactRecord} {op : ContactOperation}

theorem listView_eq_iff :
    r.listView = s.listView ↔ (r.lifecycle = .removed ↔ s.lifecycle = .removed) ∧ r.archived = s.archived ∧
      r.listMemberships = s.listMemberships ∧ r.primaryIdentityPubkey = s.primaryIdentityPubkey ∧
      r.appIntroductions = s.appIntroductions := by
  simp [ContactRecord.listView]

/-! ## The other operations -/

theorem listView_mutate (h : mutate r op = some next) (hop : op.action.isListAction = false)
    (hlive : op.action = .unblock ∨ (∃ scope reason, op.action = .block scope reason) ∨ r.lifecycle ≠ .removed) :
    next.listView = r.listView := by
  rw [listView_eq_iff]
  unfold mutate at h
  cases ha : op.action <;> simp only [ha] at h hop hlive <;>
    grind [ContactRecord.touch, ContactAction.isListAction, LiveLifecycle.toLifecycle_ne_removed]

theorem viewAfter_of_not_list (hop : op.action.isListAction = false) :
    viewAfter record op = record.map ContactRecord.listView := by
  have hadd : op.action.isAdd = false := by
    cases ha : op.action <;> first | rfl | (rw [ha] at hop; cases hop)
  unfold viewAfter
  cases record with
  | none => rw [advance_of_none (applyOne_none hadd)]
  | some r =>
    cases hstep : applyOne (some r) op with
    | none => rw [advance_of_none hstep]
    | some next =>
      rw [advance_of_some hstep, Option.map_some, Option.map_some]
      rw [applyOne_some r hadd] at hstep
      split at hstep
      · cases hstep
      · rename_i hadmitted
        rw [listView_mutate hstep hop]
        by_cases hremoved : r.lifecycle = .removed
        · cases ha : op.action <;> simp_all [admittedWhenRemoved, ContactAction.isListAction]
        · exact .inr (.inr hremoved)

/-! ## The list operations -/

theorem belongs_congr (h : r.listMemberships = s.listMemberships) (owner : Hex64) :
    contactBelongsToList r owner = contactBelongsToList s owner := by
  simp only [contactBelongsToList, ContactRecord.memberships, h]

theorem listView_linkContactList (h : r.listView = s.listView) (owner : Hex64) (at_ : Timestamp) :
    (linkContactList r owner at_).listView = (linkContactList s owner at_).listView := by
  obtain ⟨hremoved, harchived, hlists, hprimary, hintroductions⟩ := listView_eq_iff.1 h
  unfold linkContactList
  rw [belongs_congr hlists]
  split
  · exact h
  · rw [listView_eq_iff]
    refine ⟨hremoved, harchived, ?_, ?_, hintroductions⟩
    · simp only [ContactRecord.memberships, hlists]
    · simp only [hprimary]

theorem listView_unlinkContactList (h : r.listView = s.listView) (owner : Hex64) (at_ : Timestamp) :
    (unlinkContactList r owner at_).listView = (unlinkContactList s owner at_).listView := by
  obtain ⟨hremoved, harchived, hlists, hprimary, hintroductions⟩ := listView_eq_iff.1 h
  have hmemberships : r.memberships = s.memberships := by simp only [ContactRecord.memberships, hlists]
  unfold unlinkContactList
  rw [belongs_congr hlists, hmemberships, hprimary]
  dsimp only
  by_cases hbelongs : contactBelongsToList s owner = true
  · rw [if_pos hbelongs, if_pos hbelongs]
    generalize (if s.primaryIdentityPubkey = some owner then
      oldest (s.memberships.map fun m => if m.ownerIdentityPubkey = owner then m.removed at_ else m)
      else s.primaryIdentityPubkey) = primary
    rw [listView_eq_iff]
    by_cases hnone : primary = none
    · rw [if_pos hnone, if_pos hnone]
      exact ⟨Iff.rfl, harchived, rfl, rfl, hintroductions⟩
    · rw [if_neg hnone, if_neg hnone]
      exact ⟨hremoved, harchived, rfl, rfl, hintroductions⟩
  · rw [if_neg hbelongs, if_neg hbelongs]
    exact h

theorem listView_removeContactLists (h : r.listView = s.listView) (at_ : Timestamp) :
    (removeContactLists r at_).listView = (removeContactLists s at_).listView := by
  obtain ⟨hremoved, harchived, hlists, hprimary, hintroductions⟩ := listView_eq_iff.1 h
  unfold removeContactLists
  rw [hlists]
  split
  · exact h
  · rw [listView_eq_iff]
    exact ⟨hremoved, harchived, rfl, rfl, hintroductions⟩

theorem memberships_congr (h : r.listMemberships = s.listMemberships) : r.memberships = s.memberships := by
  simp only [ContactRecord.memberships, h]

theorem listView_applyAdd (h : record.map ContactRecord.listView = record'.map ContactRecord.listView)
    (v : AddContactValue) : (applyAdd record op v).listView = (applyAdd record' op v).listView := by
  cases record with
  | none =>
    cases record' with
    | none => rfl
    | some s => cases h
  | some r =>
    cases record' with
    | none => cases h
    | some s =>
      obtain ⟨hremoved, harchived, hlists, hprimary, hintroductions⟩ := listView_eq_iff.1 (Option.some.inj h)
      have hlive : ∀ r : ContactRecord, r.lifecycle ≠ .removed →
          (v.lifecycle.map LiveLifecycle.toLifecycle).getD r.lifecycle ≠ .removed := by
        intro r hr
        cases v.lifecycle with
        | none => exact hr
        | some lifecycle => exact lifecycle.toLifecycle_ne_removed
      rw [listView_eq_iff]
      by_cases hr : r.lifecycle = .removed
      · simp [applyAdd, hr, hremoved.1 hr, hlists, hprimary, hintroductions]
      · have hs : s.lifecycle ≠ .removed := fun hs => hr (hremoved.2 hs)
        simp [applyAdd, hr, hs, hlists, hprimary, hintroductions, harchived, hlive]

theorem listView_addContact (h : record.map ContactRecord.listView = record'.map ContactRecord.listView)
    (v : AddContactValue) : (addContact record op v).listView = (addContact record' op v).listView := by
  have hnone : record.isNone = record'.isNone := by
    cases record <;> cases record' <;> first | rfl | cases h
  have hadd := @listView_applyAdd record record' op h v
  have hproposed : (proposeContact record op v (applyAdd record op v)).listView =
      (proposeContact record' op v (applyAdd record' op v)).listView := by
    unfold proposeContact
    rw [hnone]
    split
    · rename_i intro _
      split
      · have hlinked := listView_eq_iff.1 (listView_linkContactList hadd intro.ownerIdentityPubkey op.createdAt)
        rw [listView_eq_iff]
        exact ⟨hlinked.1, hlinked.2.1, hlinked.2.2.1, hlinked.2.2.2.1, rfl⟩
      · exact hadd
    · exact hadd
  unfold addContact chooseList
  split
  · exact listView_linkContactList hproposed _ _
  · exact hproposed

theorem listView_mutate_congr (h : r.listView = s.listView) (hop : op.action.isListAction = true) :
    (mutate r op).map ContactRecord.listView = (mutate s op).map ContactRecord.listView := by
  obtain ⟨hremoved, harchived, hlists, hprimary, hintroductions⟩ := listView_eq_iff.1 h
  have htouched : (r.touch op).listView = (s.touch op).listView := h
  have hintros : r.introductions = s.introductions := by simp only [ContactRecord.introductions, hintroductions]
  unfold mutate
  cases ha : op.action with
  | add v => rfl
  | linkList owner => exact congrArg some (listView_linkContactList h owner _)
  | unlinkList owner => exact congrArg some (listView_unlinkContactList h owner _)
  | appProposeList intro =>
    dsimp only
    rw [hintros, belongs_congr hlists]
    split
    · exact congrArg some h
    · exact congrArg some (listView_eq_iff.2 ⟨hremoved, harchived, hlists, hprimary, rfl⟩)
  | reviewAppList grantId accept =>
    dsimp only
    rw [hintros, hintroductions]
    split
    · exact congrArg some h
    · rename_i intro _
      have hnext : (if accept = true then linkContactList (r.touch op) intro.ownerIdentityPubkey op.createdAt
            else r.touch op).listView =
          (if accept = true then linkContactList (s.touch op) intro.ownerIdentityPubkey op.createdAt
            else s.touch op).listView := by
        split
        · exact listView_linkContactList htouched _ _
        · exact htouched
      obtain ⟨h₁, h₂, h₃, h₄, -⟩ := listView_eq_iff.1 hnext
      exact congrArg some (listView_eq_iff.2 ⟨h₁, h₂, h₃, h₄, rfl⟩)
  | remove =>
    obtain ⟨-, -, h₃, h₄, h₅⟩ := listView_eq_iff.1 (listView_removeContactLists htouched op.createdAt)
    exact congrArg some (listView_eq_iff.2 ⟨Iff.rfl, rfl, h₃, h₄, h₅⟩)
  | archive =>
    obtain ⟨-, -, h₃, h₄, h₅⟩ := listView_eq_iff.1 (listView_removeContactLists htouched op.createdAt)
    exact congrArg some (listView_eq_iff.2 ⟨Iff.rfl, rfl, h₃, h₄, h₅⟩)
  | _ => rw [ha] at hop; cases hop

/-- **What an operation leaves of the lists is decided by what it finds of them.** -/
theorem viewAfter_congr (h : record.map ContactRecord.listView = record'.map ContactRecord.listView) :
    viewAfter record op = viewAfter record' op := by
  by_cases hop : op.action.isListAction = true
  · unfold viewAfter
    by_cases hadd : op.action.isAdd = true
    · obtain ⟨v, hv⟩ := ContactAction.isAdd_iff.1 hadd
      rw [advance_of_some (applyOne_add _ hv), advance_of_some (applyOne_add _ hv)]
      exact congrArg some (listView_addContact h v)
    · have hadd : op.action.isAdd = false := by simpa using hadd
      cases record with
      | none =>
        cases record' with
        | none => rfl
        | some s => cases h
      | some r =>
        cases record' with
        | none => cases h
        | some s =>
          have hview := Option.some.inj h
          obtain ⟨hremoved, harchived, -, -, -⟩ := listView_eq_iff.1 hview
          have hadmitted : admittedWhenRemoved r op.action = admittedWhenRemoved s op.action := by
            unfold admittedWhenRemoved
            rw [harchived]
          have hmutate := listView_mutate_congr hview hop
          have hstep : (applyOne (some r) op).map ContactRecord.listView =
              (applyOne (some s) op).map ContactRecord.listView := by
            rw [applyOne_some r hadd, applyOne_some s hadd]
            by_cases hskip : r.lifecycle = .removed ∧ admittedWhenRemoved r op.action = false
            · rw [if_pos hskip, if_pos ⟨hremoved.1 hskip.1, hadmitted ▸ hskip.2⟩]
            · rw [if_neg hskip, if_neg fun hs => hskip ⟨hremoved.2 hs.1, hadmitted.trans hs.2⟩]
              exact hmutate
          unfold advance
          cases hr : applyOne (some r) op <;> cases hs : applyOne (some s) op <;> rw [hr, hs] at hstep
          · exact h
          · cases hstep
          · cases hstep
          · exact hstep
  · have hop : op.action.isListAction = false := by simpa using hop
    rw [viewAfter_of_not_list hop, viewAfter_of_not_list hop, h]

theorem listView_runAt (h : record.map ContactRecord.listView = record'.map ContactRecord.listView)
    (ops : List ContactOperation) :
    (runAt applyOne record ops).map ContactRecord.listView =
      (runAt applyOne record' (ops.filter fun op => op.action.isListAction)).map ContactRecord.listView := by
  induction ops generalizing record record' with
  | nil => exact h
  | cons op ops ih =>
    by_cases hop : op.action.isListAction = true
    · rw [List.filter_cons_of_pos (by exact hop)]
      exact ih (viewAfter_congr h)
    · rw [List.filter_cons_of_neg (by exact hop)]
      refine ih ?_
      show viewAfter record op = _
      rw [viewAfter_of_not_list (by simpa using hop), h]

end

/-! ## A contact that is merged with no other -/

section

variable {ops : List ContactOperation} {contact : RecordKey}

theorem viewAfter_remap {record : Option ContactRecord} {op : ContactOperation} (hop : recordKey op = contact)
    (hc : (contextOf ops).canonical contact = contact) :
    viewAfter record ((contextOf ops).remap op) = viewAfter record op := by
  by_cases hlist : op.action.isListAction = true
  · have haction : ((contextOf ops).remap op).action = op.action := by
      unfold MergeContext.remap
      cases ha : op.action <;> first | rfl | (rw [ha] at hlist; cases hlist)
    have hremap : (contextOf ops).remap op =
        { op with itemId := op.itemId.map ((contextOf ops).remapItem (recordKey op)) } := by
      show ({ op with
        contactId := ((contextOf ops).canonical (recordKey op)).contactId
        itemId := op.itemId.map ((contextOf ops).remapItem (recordKey op))
        action := ((contextOf ops).remap op).action } : ContactOperation) = _
      rw [haction, hop, hc, ← hop]
      rfl
    rw [hremap]
    rfl
  · have hnot : op.action.isListAction = false := by simpa using hlist
    have hnot' : ((contextOf ops).remap op).action.isListAction = false := by
      unfold MergeContext.remap
      cases ha : op.action <;> first | rfl | (rw [ha] at hnot; cases hnot)
    rw [viewAfter_of_not_list hnot, viewAfter_of_not_list hnot']

theorem groupStep_of_unmerged (h : Unmerged ops contact) {row : LogRow} (hrow : row.sourceKey = contact)
    (record : Option ContactRecord) :
    groupStep (contextOf ops) record row = applyOne record ((contextOf ops).remap row.op) := by
  have hc := h.canonical_eq
  have hgroup : (contextOf ops).group contact = [contact] := by
    have hgroup := group_contextOf h.1
    rw [hc] at hgroup
    exact hgroup.trans h.classOf_eq
  have hawait : ∀ v next, (contextOf ops).awaitReview row.sourceKey v next = next := by
    intro v next
    unfold MergeContext.awaitReview
    cases v.appIntroduction with
    | none => rfl
    | some intro => simp [MergeContext.heldElsewhere, hrow, hc, hgroup]
  cases hf : row.firstAdd with
  | none => exact groupStep_of_not_first hf record
  | some v =>
    rw [groupStep_first hf (.inr (by rw [hrow, hc]))]
    cases applyOne record ((contextOf ops).remap row.op) with
    | none => rfl
    | some next => rw [Option.map_some, hawait]

theorem listView_recordAfter (h : Unmerged ops contact) {rows : List LogRow}
    (hrows : ∀ row ∈ rows, row.sourceKey = contact) :
    (recordAfter ops rows).map ContactRecord.listView =
      (runAt applyOne none ((rows.map LogRow.op).filter fun op => op.action.isListAction)).map
        ContactRecord.listView := by
  have hrun : ∀ {record record' : Option ContactRecord},
      record.map ContactRecord.listView = record'.map ContactRecord.listView →
      (runAt (groupStep (contextOf ops)) record rows).map ContactRecord.listView =
        (runAt applyOne record' (rows.map LogRow.op)).map ContactRecord.listView := by
    intro record record' hview
    induction rows generalizing record record' with
    | nil => exact hview
    | cons row rows ih =>
      refine ih (fun later hlater => hrows later (List.mem_cons_of_mem _ hlater)) ?_
      have hrow := hrows row List.mem_cons_self
      have hstep : advance (groupStep (contextOf ops)) record row =
          advance applyOne record ((contextOf ops).remap row.op) := by
        unfold advance
        rw [groupStep_of_unmerged h hrow]
      rw [hstep]
      show viewAfter record ((contextOf ops).remap row.op) = viewAfter record' row.op
      rw [viewAfter_remap hrow h.canonical_eq, viewAfter_congr hview]
  rw [recordAfter, hrun rfl, listView_runAt rfl]

end

end SignetApp.Contacts
