import SignetApp.Contacts.Groups
import SignetApp.Contacts.Tombstones

/-!
# Lifecycle and list membership

What a record's lifecycle says about its lists, and the other way round: a removed record has a
removal time, no active membership and no primary list; a live one has a primary list exactly when
it is in some list, and the primary is one of them (`Standing`). Every step of the reducer keeps
this.
-/

namespace SignetApp.Contacts

open SignetApp.Js

/-! ## Memberships -/

def activeOwners (memberships : List ContactListMembership) : List Hex64 :=
  (memberships.filter fun m => m.removedAt.isNone).map ContactListMembership.ownerIdentityPubkey

/-- One membership an owner, and a primary among the active ones exactly when there are any. -/
structure ListsValid (memberships : List ContactListMembership) (primary : Option Hex64) :
    Prop where
  owners : (memberships.map ContactListMembership.ownerIdentityPubkey).Nodup
  primary_active : ∀ owner ∈ primary, owner ∈ activeOwners memberships
  primary_of_active : activeOwners memberships ≠ [] → primary.isSome = true

variable {owner : Hex64}

variable {memberships : List ContactListMembership}

theorem mem_activeOwners :
    owner ∈ activeOwners memberships ↔
      ∃ m ∈ memberships, m.removedAt = none ∧ m.ownerIdentityPubkey = owner := by
  simp [activeOwners, and_assoc]

theorem contactBelongsToList_iff {record : ContactRecord} :
    contactBelongsToList record owner = true ↔ owner ∈ activeOwners record.memberships := by
  simp only [contactBelongsToList, List.any_eq_true, mem_activeOwners,
    ContactListMembership.activeFor, Bool.and_eq_true, decide_eq_true_eq, Option.isNone_iff_eq_none]
  grind

theorem ListsValid.nil : ListsValid [] none where
  owners := List.nodup_nil
  primary_active _ h := by cases h
  primary_of_active h := absurd rfl h

/-- Filing a new active membership in the place of the owner's old one. -/
theorem ListsValid.link {primary : Option Hex64} (h : ListsValid memberships primary)
    (hnot : owner ∉ activeOwners memberships) (addedAt : Timestamp) :
    ListsValid (memberships.filter (fun m => m.ownerIdentityPubkey ≠ owner)
        ++ [{ ownerIdentityPubkey := owner, addedAt, removedAt := none }])
      (some (primary.getD owner)) where
  owners := by
    rw [List.map_append, List.nodup_append]
    refine ⟨h.owners.sublist (List.filter_sublist.map _), List.nodup_singleton _, ?_⟩
    rintro _ hx _ hy rfl
    obtain ⟨m, hm, rfl⟩ := List.mem_map.mp hx
    have hne := (List.mem_filter.mp hm).2
    simp only [List.map_cons, List.map_nil, List.mem_singleton] at hy
    simp [hy] at hne
  primary_active p hp := by
    cases hp
    rw [mem_activeOwners]
    cases hprimary : primary with
    | none => exact ⟨_, List.mem_append_right _ List.mem_cons_self, rfl, rfl⟩
    | some p =>
      obtain ⟨m, hm, hactive, hmp⟩ := mem_activeOwners.mp (h.primary_active p (by rw [hprimary]; rfl))
      have hp : m.ownerIdentityPubkey ≠ owner := by
        rintro rfl
        exact hnot (mem_activeOwners.mpr ⟨m, hm, hactive, rfl⟩)
      refine ⟨m, List.mem_append_left _ (List.mem_filter.mpr ⟨hm, by simpa using hp⟩), hactive, ?_⟩
      simpa using hmp
  primary_of_active _ := rfl

theorem map_owner_removed (at_ : Timestamp) (p : ContactListMembership → Bool)
    (memberships : List ContactListMembership) :
    (memberships.map fun m => if p m then m.removed at_ else m).map
        ContactListMembership.ownerIdentityPubkey
      = memberships.map ContactListMembership.ownerIdentityPubkey := by
  rw [List.map_map]
  refine List.map_congr_left fun m _ => ?_
  by_cases hp : p m <;> simp [hp, ContactListMembership.removed]

theorem mem_activeOwners_removed {at_ : Timestamp} {p : ContactListMembership → Bool}
    {memberships : List ContactListMembership} {owner : Hex64} :
    owner ∈ activeOwners (memberships.map fun m => if p m then m.removed at_ else m) ↔
      ∃ m ∈ memberships, p m = false ∧ m.removedAt = none ∧ m.ownerIdentityPubkey = owner := by
  rw [mem_activeOwners]
  constructor
  · rintro ⟨_, hmem, hactive, howner⟩
    obtain ⟨m, hm, rfl⟩ := List.mem_map.mp hmem
    by_cases hp : p m = true
    · rw [if_pos hp] at hactive
      cases hactive
    · rw [if_neg hp] at hactive howner
      exact ⟨m, hm, by simpa using hp, hactive, howner⟩
  · rintro ⟨m, hm, hp, hactive, howner⟩
    exact ⟨m, List.mem_map.mpr ⟨m, hm, by simp [hp]⟩, hactive, howner⟩

theorem oldest_spec (memberships : List ContactListMembership) :
    (∀ owner ∈ oldest memberships, owner ∈ activeOwners memberships) ∧
      (activeOwners memberships ≠ [] → (oldest memberships).isSome = true) := by
  have hperm := List.perm_insertionSort olderMembership
    (memberships.filter fun m => m.removedAt.isNone)
  unfold oldest activeOwners
  cases hs : (memberships.filter fun m => m.removedAt.isNone).insertionSort olderMembership with
  | nil =>
    rw [hs] at hperm
    rw [List.perm_nil.mp hperm.symm]
    exact ⟨fun _ h => (by cases h), fun h => absurd rfl h⟩
  | cons m rest =>
    rw [hs] at hperm
    refine ⟨fun owner howner => ?_, fun _ => rfl⟩
    cases howner
    exact List.mem_map_of_mem (hperm.mem_iff.mp List.mem_cons_self)

/-! ## The standing of a record -/

/-- **Lifecycle and lists agree.** -/
structure Standing (r : ContactRecord) : Prop where
  lists : ListsValid r.memberships r.primaryIdentityPubkey
  removedAt_iff : r.lifecycle = .removed ↔ r.removedAt.isSome = true
  archived : r.archived.isSome = true → r.lifecycle = .removed
  unlisted : r.lifecycle = .removed → activeOwners r.memberships = []

variable {r : ContactRecord}

theorem Standing.primary_of_removed (h : Standing r)
    (hrem : r.lifecycle = .removed) : r.primaryIdentityPubkey = none := by
  cases hp : r.primaryIdentityPubkey with
  | none => rfl
  | some p =>
    have hmem := h.lists.primary_active p (by rw [hp]; rfl)
    rw [h.unlisted hrem] at hmem
    cases hmem

/-- What the standing of a record rests on. -/
structure StandingView where
  lifecycle : ContactLifecycle
  removedAt : Option Timestamp
  archived : Option Bool
  listMemberships : Option (List ContactListMembership)
  primaryIdentityPubkey : Option Hex64

def ContactRecord.standingView (r : ContactRecord) : StandingView :=
  ⟨r.lifecycle, r.removedAt, r.archived, r.listMemberships, r.primaryIdentityPubkey⟩

theorem Standing.congr {s : ContactRecord} (h : Standing r) (heq : s.standingView = r.standingView) :
    Standing s := by
  have h₁ : s.lifecycle = r.lifecycle := congrArg StandingView.lifecycle heq
  have h₂ : s.removedAt = r.removedAt := congrArg StandingView.removedAt heq
  have h₃ : s.archived = r.archived := congrArg StandingView.archived heq
  have h₄ : s.memberships = r.memberships :=
    congrArg (fun v => v.listMemberships.getD []) heq
  have h₅ : s.primaryIdentityPubkey = r.primaryIdentityPubkey :=
    congrArg StandingView.primaryIdentityPubkey heq
  refine ⟨?_, ?_, ?_, ?_⟩
  · rw [h₄, h₅]; exact h.lists
  · rw [h₁, h₂]; exact h.removedAt_iff
  · rw [h₁, h₃]; exact h.archived
  · rw [h₁, h₄]; exact h.unlisted

theorem Standing.of_live (hlists : ListsValid r.memberships r.primaryIdentityPubkey)
    (hlive : r.lifecycle ≠ .removed) (hremovedAt : r.removedAt = none) (harchived : r.archived = none) :
    Standing r where
  lists := hlists
  removedAt_iff := by simp [hlive, hremovedAt]
  archived h := by rw [harchived] at h; cases h
  unlisted h := absurd h hlive

theorem Standing.live (h : Standing r) (hlive : r.lifecycle ≠ .removed) :
    r.removedAt = none ∧ r.archived = none := by
  have hr : ¬ r.removedAt.isSome = true := fun hr => hlive (h.removedAt_iff.mpr hr)
  have ha : ¬ r.archived.isSome = true := fun ha => hlive (h.archived ha)
  simpa using And.intro hr ha

/-! ## The list operations -/

theorem Standing.linkContactList {r : ContactRecord} (h : Standing r) (hlive : r.lifecycle ≠ .removed)
    (owner : Hex64) (at_ : Timestamp) : Standing (linkContactList r owner at_) := by
  unfold Contacts.linkContactList
  split
  · exact h
  · next hnot =>
    obtain ⟨hremovedAt, harchived⟩ := h.live hlive
    refine Standing.of_live (h.lists.link ?_ at_) hlive hremovedAt harchived
    rwa [← contactBelongsToList_iff]

theorem Standing.unlinkContactList {r : ContactRecord} (h : Standing r)
    (hlive : r.lifecycle ≠ .removed) (owner : Hex64) (at_ : Timestamp) :
    Standing (unlinkContactList r owner at_) := by
  unfold Contacts.unlinkContactList
  by_cases hbelongs : contactBelongsToList r owner = true
  · rw [if_pos hbelongs]
    obtain ⟨hremovedAt, harchived⟩ := h.live hlive
    set memberships := r.memberships.map fun m =>
      if m.ownerIdentityPubkey = owner then m.removed at_ else m with hmemberships
    have hform : memberships = r.memberships.map fun m =>
        if (fun m : ContactListMembership => decide (m.ownerIdentityPubkey = owner)) m then
          m.removed at_ else m := by simp [hmemberships]
    have hmem : ∀ o, o ∈ activeOwners memberships ↔
        o ∈ activeOwners r.memberships ∧ o ≠ owner := by
      intro o
      rw [hform, mem_activeOwners_removed, mem_activeOwners]
      simp only [decide_eq_false_iff_not]
      grind
    have howners : (memberships.map ContactListMembership.ownerIdentityPubkey).Nodup := by
      rw [hform, map_owner_removed]
      exact h.lists.owners
    have hsome : r.primaryIdentityPubkey.isSome = true :=
      h.lists.primary_of_active (List.ne_nil_of_mem (contactBelongsToList_iff.mp hbelongs))
    set primary := if r.primaryIdentityPubkey = some owner then oldest memberships
      else r.primaryIdentityPubkey with hprimary
    have hlists : ListsValid memberships primary := by
      refine ⟨howners, fun o ho => ?_, fun hne => ?_⟩
      · by_cases hp : r.primaryIdentityPubkey = some owner
        · rw [hprimary, if_pos hp] at ho
          exact (oldest_spec memberships).1 o ho
        · rw [hprimary, if_neg hp] at ho
          refine (hmem o).mpr ⟨h.lists.primary_active o ho, ?_⟩
          rintro rfl
          exact hp ho
      · by_cases hp : r.primaryIdentityPubkey = some owner
        · rw [hprimary, if_pos hp]
          exact (oldest_spec memberships).2 hne
        · rw [hprimary, if_neg hp]
          exact hsome
    by_cases hnone : primary = none
    · rw [if_pos hnone]
      have hempty : activeOwners memberships = [] := by
        by_contra hne
        have := hlists.primary_of_active hne
        rw [hnone] at this
        cases this
      exact ⟨hlists, by simp, fun _ => rfl, fun _ => hempty⟩
    · rw [if_neg hnone]
      exact Standing.of_live hlists hlive hremovedAt harchived
  · rw [if_neg hbelongs]
    exact h

theorem lists_removeContactLists
    (h : ListsValid r.memberships r.primaryIdentityPubkey) (at_ : Timestamp) :
    ListsValid (removeContactLists r at_).memberships (removeContactLists r at_).primaryIdentityPubkey ∧
      activeOwners (removeContactLists r at_).memberships = [] := by
  unfold removeContactLists
  cases hm : r.listMemberships with
  | none =>
    have hnil : r.memberships = [] := by rw [ContactRecord.memberships, hm]; rfl
    exact ⟨h, by rw [hnil]; rfl⟩
  | some memberships =>
    have hr : r.memberships = memberships := by rw [ContactRecord.memberships, hm]; rfl
    rw [hr] at h
    have hempty : activeOwners (memberships.map fun m => if m.removedAt.isNone then m.removed at_ else m)
        = [] := by
      refine List.eq_nil_iff_forall_not_mem.mpr fun o ho => ?_
      obtain ⟨m, -, hp, hactive, -⟩ := mem_activeOwners_removed.mp ho
      rw [hactive] at hp
      cases hp
    refine ⟨⟨?_, fun _ h => (by cases h), fun hne => absurd hempty hne⟩, hempty⟩
    exact (map_owner_removed at_ (fun m => m.removedAt.isNone) memberships).symm ▸ h.owners

variable {next : ContactRecord}

theorem standing_of_removal {at_ : Timestamp} (h : Standing r)
    (hlists : next.memberships = (removeContactLists r at_).memberships)
    (hprimary : next.primaryIdentityPubkey = (removeContactLists r at_).primaryIdentityPubkey)
    (hlifecycle : next.lifecycle = .removed) (hremovedAt : next.removedAt.isSome = true) :
    Standing next := by
  obtain ⟨hvalid, hempty⟩ := lists_removeContactLists h.lists at_
  refine ⟨?_, ?_, fun _ => hlifecycle, fun _ => ?_⟩
  · rw [hlists, hprimary]; exact hvalid
  · exact ⟨fun _ => hremovedAt, fun _ => hlifecycle⟩
  · rw [hlists]; exact hempty

/-! ## One operation -/

theorem memberships_touch_removeContactLists (r : ContactRecord) (op : ContactOperation) :
    (removeContactLists (r.touch op) op.createdAt).memberships
        = (removeContactLists r op.createdAt).memberships ∧
      (removeContactLists (r.touch op) op.createdAt).primaryIdentityPubkey
        = (removeContactLists r op.createdAt).primaryIdentityPubkey := by
  unfold removeContactLists ContactRecord.touch
  cases hm : r.listMemberships <;> simp [hm, ContactRecord.memberships]

variable {op : ContactOperation}

theorem standing_mutate (h : mutate r op = some next) (hr : Standing r)
    (hadm : r.lifecycle ≠ .removed ∨ admittedWhenRemoved r op.action = true) : Standing next := by
  have htouch : Standing (r.touch op) := hr.congr rfl
  unfold mutate at h
  cases ha : op.action with
  | linkList owner =>
    have hlive : r.lifecycle ≠ .removed := by simpa [ha, admittedWhenRemoved] using hadm
    simp only [ha, Option.some.injEq] at h
    rw [← h]
    exact hr.linkContactList hlive _ _
  | unlinkList owner =>
    have hlive : r.lifecycle ≠ .removed := by simpa [ha, admittedWhenRemoved] using hadm
    simp only [ha, Option.some.injEq] at h
    rw [← h]
    exact hr.unlinkContactList hlive _ _
  | reviewAppList grantId accept =>
    have hlive : r.lifecycle ≠ .removed := by simpa [ha, admittedWhenRemoved] using hadm
    simp only [ha] at h
    split at h
    · cases h; exact hr
    · next intro _ =>
      cases h
      refine Standing.congr (r := if accept = true then
        linkContactList (r.touch op) intro.ownerIdentityPubkey op.createdAt else r.touch op) ?_ rfl
      split
      · exact htouch.linkContactList hlive _ _
      · exact htouch
  | setLifecycle lifecycle =>
    have hlive : r.lifecycle ≠ .removed := by simpa [ha, admittedWhenRemoved] using hadm
    obtain ⟨hremovedAt, harchived⟩ := hr.live hlive
    simp only [ha, Option.some.injEq] at h
    rw [← h]
    exact Standing.of_live hr.lists lifecycle.toLifecycle_ne_removed hremovedAt harchived
  | remove =>
    simp only [ha, Option.some.injEq] at h
    rw [← h]
    obtain ⟨hlists, hprimary⟩ := memberships_touch_removeContactLists r op
    exact standing_of_removal hr hlists hprimary rfl rfl
  | archive =>
    simp only [ha, Option.some.injEq] at h
    rw [← h]
    obtain ⟨hlists, hprimary⟩ := memberships_touch_removeContactLists r op
    exact standing_of_removal hr hlists hprimary rfl rfl
  | _ =>
    simp only [ha] at h
    refine hr.congr ?_
    grind [ContactRecord.touch, ContactRecord.standingView]

theorem standing_applyAdd {record : Option ContactRecord} (h : ∀ r ∈ record, Standing r)
    (op : ContactOperation) (v : AddContactValue) : Standing (applyAdd record op v) := by
  have hvalue : ∀ old : ContactLifecycle, old ≠ .removed →
      (v.lifecycle.map LiveLifecycle.toLifecycle).getD old ≠ .removed := by
    intro old hold
    cases v.lifecycle with
    | none => exact hold
    | some l => exact l.toLifecycle_ne_removed
  cases record with
  | none => exact Standing.of_live ListsValid.nil (hvalue _ (by simp)) rfl rfl
  | some r =>
    have hr := h r rfl
    unfold applyAdd
    by_cases hrem : r.lifecycle = .removed
    · simp only [ne_eq, hrem, not_true_eq_false, if_false]
      refine Standing.of_live ?_ (hvalue _ (by simp)) rfl rfl
      have hprimary : (if r.listMemberships.isSome = true then r.primaryIdentityPubkey else none)
          = r.primaryIdentityPubkey := by
        rw [hr.primary_of_removed hrem]
        split <;> rfl
      change ListsValid r.memberships (if _ then _ else _)
      rw [hprimary]
      exact hr.lists
    · simp only [ne_eq, hrem, not_false_eq_true, if_true]
      obtain ⟨hremovedAt, harchived⟩ := hr.live hrem
      exact Standing.of_live hr.lists (hvalue _ hrem) hremovedAt harchived

theorem standing_chooseList (hnext : Standing next)
    (hlive : next.lifecycle ≠ .removed) (op : ContactOperation) (v : AddContactValue) :
    Standing (chooseList op v next) := by
  unfold chooseList
  cases v.ownerIdentityPubkey with
  | none => exact hnext
  | some owner => exact hnext.linkContactList hlive _ _

theorem standing_proposeContact (hnext : Standing next)
    (hlive : next.lifecycle ≠ .removed) (record : Option ContactRecord) (op : ContactOperation)
    (v : AddContactValue) :
    Standing (proposeContact record op v next) ∧
      (proposeContact record op v next).lifecycle ≠ .removed := by
  unfold proposeContact
  cases v.appIntroduction with
  | none => exact ⟨hnext, hlive⟩
  | some intro =>
    dsimp only
    split
    · exact ⟨(hnext.linkContactList hlive _ _).congr rfl,
        (lifecycle_linkContactList _ _ _).trans_ne hlive⟩
    · exact ⟨hnext, hlive⟩

theorem standing_addContact {record : Option ContactRecord} (h : ∀ r ∈ record, Standing r)
    (op : ContactOperation) (v : AddContactValue) : Standing (addContact record op v) := by
  obtain ⟨hproposed, hlive⟩ := standing_proposeContact (standing_applyAdd h op v)
    (lifecycle_applyAdd_ne record op v) record op v
  exact standing_chooseList hproposed hlive op v

theorem standing_applyOne {record : Option ContactRecord} (h : applyOne record op = some next)
    (hrecord : ∀ r ∈ record, Standing r) : Standing next := by
  by_cases hadd : op.action.isAdd = true
  · obtain ⟨v, hv⟩ := ContactAction.isAdd_iff.mp hadd
    rw [applyOne_add _ hv] at h
    cases h
    exact standing_addContact hrecord op v
  · have hadd : op.action.isAdd = false := by simpa using hadd
    cases record with
    | none => rw [applyOne_none hadd] at h; cases h
    | some r =>
      rw [applyOne_some r hadd] at h
      split at h
      · cases h
      · next hadm =>
        refine standing_mutate h (hrecord r rfl) ?_
        by_cases hrem : r.lifecycle = .removed
        · exact .inr (by simpa [hrem] using hadm)
        · exact .inl hrem

/-! ## One row of a group -/

variable {v : AddContactValue}

theorem standing_duplicateAdd {record : ContactRecord} (h : duplicateAdd record op v = some next) (hrecord : Standing record) :
    Standing next := by
  unfold duplicateAdd at h
  split at h
  · cases h
  · next hlive =>
    cases hintro : v.appIntroduction with
    | some intro =>
      simp only [hintro, Option.some.injEq] at h
      subst h
      set proposal : ContactOperation := { op with action := .appProposeList intro }
      cases happly : applyOne (some record) proposal with
      | none => exact hrecord
      | some r => exact standing_applyOne happly fun _ hr => by cases hr; exact hrecord
    | none =>
      simp only [hintro] at h
      split at h
      · cases h
        exact hrecord
      · cases h
        cases v.ownerIdentityPubkey with
        | none => exact hrecord.congr rfl
        | some owner => exact (hrecord.linkContactList hlive owner op.createdAt).congr rfl

variable {key : RecordKey} {ctx : MergeContext}

theorem standing_awaitReview
    {record : ContactRecord} (h : Standing record) (hlive : record.lifecycle ≠ .removed) :
    Standing (ctx.awaitReview key v record) := by
  unfold MergeContext.awaitReview
  cases v.appIntroduction with
  | none => exact h
  | some intro =>
    simp only
    split
    · obtain ⟨hremovedAt, harchived⟩ := h.live hlive
      exact Standing.of_live ListsValid.nil hlive hremovedAt harchived
    · exact h

theorem standing_groupStep {row : LogRow} {record : Option ContactRecord} (h : groupStep ctx record row = some next)
    (hrecord : ∀ r ∈ record, Standing r) : Standing next := by
  cases hf : row.firstAdd with
  | none =>
    rw [groupStep_of_not_first hf] at h
    exact standing_applyOne h hrecord
  | some v =>
    by_cases hfresh : record = none ∨ ctx.canonical row.sourceKey = row.sourceKey
    · rw [groupStep_first hf hfresh, Option.map_eq_some_iff] at h
      obtain ⟨r, happly, rfl⟩ := h
      refine standing_awaitReview (standing_applyOne happly hrecord) ?_
      obtain ⟨v', hv'⟩ := ContactAction.isAdd_iff.mp
        ((isAdd_remap ctx row.op).trans (LogRow.isAdd_of_firstAdd hf).2)
      rw [applyOne_add _ hv'] at happly
      cases happly
      exact lifecycle_addContact_ne _ _ _
    · obtain ⟨hsome, hdup⟩ := not_or.mp hfresh
      obtain ⟨r, rfl⟩ := Option.ne_none_iff_exists'.mp hsome
      rw [groupStep_duplicate hf hdup] at h
      exact standing_duplicateAdd h (hrecord r rfl)

theorem standing_of_get {ops : List ContactOperation} {record : ContactRecord}
    (h : (materialise ops).get key = some record) : Standing record := by
  obtain ⟨r, hr, rfl⟩ := exists_recordAfter h
  have hstanding : Standing r := runAt_forall
    (fun _ hs _ _ _ hstep => standing_groupStep hstep hs) (fun _ h => by cases h) r hr
  exact hstanding.congr (by rw [withMergedIds_eq]; rfl)

end SignetApp.Contacts
