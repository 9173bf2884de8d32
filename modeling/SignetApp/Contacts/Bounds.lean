import SignetApp.Contacts.Groups

/-!
# Bounds on the facts of a record

The facts a record collects stay within the caps its guard tests (`Bounded`), and a guardian has
at most one vouch and one ceiling in force (`FactsSingle`). Every step of the reducer keeps both;
only `set-picture` needs to know that its operation was let through by the operation guard.
-/

namespace SignetApp.Contacts

open SignetApp.Js

/-! ## One fact in force -/

section OneInForce

variable {α β : Type} {inForce : α → Bool} {author : α → β}

theorem sublist_map_inForce {f : α → α} (hauthor : ∀ a, author (f a) = author a)
    (hforce : ∀ a, inForce (f a) = true → inForce a = true) (facts : List α) :
    List.Sublist (((facts.map f).filter inForce).map author) ((facts.filter inForce).map author) := by
  induction facts with
  | nil => exact List.Sublist.refl _
  | cons a facts ih =>
    by_cases ha : inForce (f a) = true
    · simp only [List.map_cons, List.filter_cons, ha, hforce a ha, if_true, hauthor]
      exact ih.cons_cons _
    · by_cases ha' : inForce a = true
      · simp only [List.map_cons, List.filter_cons, ha, ha', if_true]
        exact ih.cons _
      · simp only [List.map_cons, List.filter_cons, ha, ha']
        exact ih

variable {facts : List α}

theorem nodup_append_inForce {fact : α} (h : ((facts.filter inForce).map author).Nodup)
    (hnew : ∀ a ∈ facts, inForce a = true → author a ≠ author fact) :
    (((facts ++ [fact]).filter inForce).map author).Nodup := by
  rw [List.filter_append, List.map_append, List.nodup_append]
  refine ⟨h, ?_, ?_⟩
  · cases hf : inForce fact <;> simp [hf]
  · rintro _ hx _ hy rfl
    obtain ⟨a, ha, rfl⟩ := List.mem_map.mp hx
    obtain ⟨b, hb, hab⟩ := List.mem_map.mp hy
    obtain ⟨ha, hforce⟩ := List.mem_filter.mp ha
    have hb := List.mem_singleton.mp (List.mem_of_mem_filter hb)
    exact hnew a ha hforce (by rw [← hab, hb])

theorem length_filter_le_one [DecidableEq β] (h : ((facts.filter inForce).map author).Nodup) (b : β) :
    (facts.filter fun a => decide (author a = b) && inForce a).length ≤ 1 := by
  have hfilter : (facts.filter fun a => decide (author a = b) && inForce a)
      = (facts.filter inForce).filter fun a => decide (author a = b) := List.filter_filter.symm
  have hcount : ((facts.filter inForce).filter fun a => decide (author a = b)).length
      = ((facts.filter inForce).map author).count b := by
    rw [List.count_eq_countP, List.countP_map, List.countP_eq_length_filter]
    rfl
  rw [hfilter, hcount]
  exact List.nodup_iff_count_le_one.mp h b

end OneInForce

def GuardianVouch.inForce (v : GuardianVouch) : Bool := v.revokedByOperationId.isNone

def GuardianCeiling.inForce (c : GuardianCeiling) : Bool := c.revokedByOperationId.isNone

/-- At most one vouch and one ceiling in force a guardian. -/
structure FactsSingle (r : ContactRecord) : Prop where
  vouches : ((r.vouches.filter GuardianVouch.inForce).map GuardianVouch.guardianPubkey).Nodup
  ceilings : ((r.ceilings.filter GuardianCeiling.inForce).map GuardianCeiling.guardianPubkey).Nodup

/-! ## Caps -/

/-- What the record guard bounds, `safe` being its test of a picture. -/
structure Bounded (safe : ContactPicturePointer → Prop) (r : ContactRecord) : Prop where
  roles : r.roles.length ≤ capRoles
  origins : (r.origins.getD []).length ≤ capOrigins
  checks : (r.checks.getD []).length ≤ capChecks
  introductions : (r.introductions.map fun i => i.grantId).Nodup
  picture : ∀ p ∈ r.picture, safe p

theorem length_replace_le {α κ : Type} [DecidableEq κ] {cap : ℕ} {id : α → κ} {as : List α}
    {a : α} (h : as.length ≤ cap)
    (hroom : ¬ (cap ≤ as.length ∧ (!as.any fun b => id b = id a) = true)) :
    (as.filter (fun b => id b ≠ id a) ++ [a]).length ≤ cap := by
  rw [List.length_append, List.length_singleton]
  have hle : (as.filter fun b => decide (id b ≠ id a)).length ≤ as.length :=
    List.length_filter_le _ _
  by_cases hfull : cap ≤ as.length
  · -- The list is full, so the identity is in it.
    have hmem : ∃ b ∈ as, id b = id a := by
      by_contra hnone
      refine hroom ⟨hfull, ?_⟩
      simp only [Bool.not_eq_true', List.any_eq_false, decide_eq_true_eq]
      exact fun b hb hid => hnone ⟨b, hb, hid⟩
    have hlt : (as.filter fun b => decide (id b ≠ id a)).length < as.length := by
      obtain ⟨b, hb, hid⟩ := hmem
      refine List.length_filter_lt_length_iff_exists.mpr ⟨b, hb, ?_⟩
      simp [hid]
    omega
  · omega

theorem length_cleanRoles_le (roles : Roles) : (cleanRoles roles.val).length ≤ capRoles :=
  (length_distinct_le _).trans ((List.length_filterMap_le _ _).trans roles.property)

/-! ## One operation -/

/-- What the facts and caps of a record rest on. -/
structure FactsView where
  vouches : List GuardianVouch
  ceilings : List GuardianCeiling
  roles : List (Str capRole)
  origins : Option (List ContactOrigin)
  checks : Option (List ContactCheck)
  appIntroductions : Option (List AppContactIntroduction)
  picture : Option ContactPicturePointer

def ContactRecord.factsView (r : ContactRecord) : FactsView :=
  ⟨r.vouches, r.ceilings, r.roles, r.origins, r.checks, r.appIntroductions, r.picture⟩

variable {safe : ContactPicturePointer → Prop}

/-- Facts and caps together. -/
def FactsValid (safe : ContactPicturePointer → Prop) (r : ContactRecord) : Prop :=
  FactsSingle r ∧ Bounded safe r

variable {r : ContactRecord}

theorem FactsValid.congr {s : ContactRecord} (h : FactsValid safe r)
    (heq : s.factsView = r.factsView) : FactsValid safe s := by
  simp only [ContactRecord.factsView, FactsView.mk.injEq] at heq
  obtain ⟨hv, hc, hr, ho, hch, hi, hp⟩ := heq
  obtain ⟨⟨h₁, h₂⟩, ⟨h₃, h₄, h₅, h₆, h₇⟩⟩ := h
  refine ⟨⟨by rw [hv]; exact h₁, by rw [hc]; exact h₂⟩, ⟨by rw [hr]; exact h₃, by rw [ho]; exact h₄,
    by rw [hch]; exact h₅, ?_, by rw [hp]; exact h₇⟩⟩
  rw [ContactRecord.introductions, hi]
  exact h₆

@[simp] theorem factsView_linkContactList (r : ContactRecord) (owner : Hex64) (at_ : Timestamp) :
    (linkContactList r owner at_).factsView = r.factsView := by
  unfold linkContactList
  split <;> rfl

theorem factsView_unlinkContactList (r : ContactRecord) (owner : Hex64) (at_ : Timestamp) :
    (unlinkContactList r owner at_).factsView = r.factsView := by
  unfold unlinkContactList
  grind [ContactRecord.factsView]

theorem factsView_removeContactLists (r : ContactRecord) (at_ : Timestamp) :
    (removeContactLists r at_).factsView = r.factsView := by
  unfold removeContactLists
  split <;> rfl

theorem map_grantId_map {f : AppContactIntroduction → AppContactIntroduction}
    (h : ∀ i, (f i).grantId = i.grantId) (is : Option (List AppContactIntroduction)) :
    ((is.map fun is => is.map f).getD []).map (fun i => i.grantId)
      = (is.getD []).map fun i => i.grantId := by
  cases is with
  | none => rfl
  | some is =>
    simp only [Option.map_some, Option.getD_some, List.map_map]
    exact List.map_congr_left fun i _ => h i

variable {op : ContactOperation} {next : ContactRecord}

theorem factsValid_mutate (h : mutate r op = some next) (hr : FactsValid safe r)
    (hsafe : ∀ p, op.action = .setPicture p → safe p) : FactsValid safe next := by
  obtain ⟨hsingle, hbounded⟩ := hr
  unfold mutate at h
  cases ha : op.action with
  | vouch guardianPubkey tier role =>
    simp only [ha] at h
    split at h
    · cases h
    · cases h
      refine ⟨{ hsingle with vouches := ?_ }, { hbounded with }⟩
      refine nodup_append_inForce (hsingle.vouches.sublist (sublist_map_inForce ?_ ?_ _)) ?_
      · intro v
        split <;> rfl
      · intro v
        split
        · exact fun h => by cases h
        · exact id
      · rintro _ hv hforce
        obtain ⟨v, hv, rfl⟩ := List.mem_map.mp hv
        by_cases hstands : v.standsFor guardianPubkey = true
        · rw [if_pos hstands] at hforce
          cases hforce
        · rw [if_neg hstands] at hforce ⊢
          intro heq
          exact hstands (by simp_all [GuardianVouch.standsFor, GuardianVouch.inForce])
  | revokeVouch =>
    simp only [ha] at h
    split at h
    · cases h
    · split at h
      · cases h
      · cases h
        refine ⟨{ hsingle with vouches := ?_ }, { hbounded with }⟩
        refine hsingle.vouches.sublist (sublist_map_inForce ?_ ?_ _)
        · intro v
          split <;> rfl
        · intro v
          split
          · exact fun h => by cases h
          · exact id
  | ceiling guardianPubkey maxTier =>
    simp only [ha] at h
    split at h
    · cases h
    · cases h
      refine ⟨{ hsingle with ceilings := ?_ }, { hbounded with }⟩
      refine nodup_append_inForce (hsingle.ceilings.sublist (sublist_map_inForce ?_ ?_ _)) ?_
      · intro c
        split <;> rfl
      · intro c
        split
        · exact fun h => by cases h
        · exact id
      · rintro _ hc hforce
        obtain ⟨c, hc, rfl⟩ := List.mem_map.mp hc
        by_cases hstands : c.standsFor guardianPubkey = true
        · rw [if_pos hstands] at hforce
          cases hforce
        · rw [if_neg hstands] at hforce ⊢
          intro heq
          exact hstands (by simp_all [GuardianCeiling.standsFor, GuardianCeiling.inForce])
  | revokeCeiling guardianPubkey =>
    simp only [ha] at h
    split at h
    · cases h
    · split at h
      · cases h
      · cases h
        refine ⟨{ hsingle with ceilings := ?_ }, { hbounded with }⟩
        refine hsingle.ceilings.sublist (sublist_map_inForce ?_ ?_ _)
        · intro c
          split <;> rfl
        · intro c
          split
          · exact fun h => by cases h
          · exact id
  | setRoles roles =>
    simp only [ha, Option.some.injEq] at h
    subst h
    exact ⟨{ hsingle with }, { hbounded with roles := length_cleanRoles_le roles }⟩
  | setPicture p =>
    simp only [ha, Option.some.injEq] at h
    subst h
    refine ⟨{ hsingle with }, { hbounded with picture := fun q hq => ?_ }⟩
    cases hq
    exact hsafe p ha
  | clearPicture =>
    simp only [ha, Option.some.injEq] at h
    subst h
    exact ⟨{ hsingle with }, { hbounded with picture := fun q hq => by cases hq }⟩
  | recordOrigin v =>
    simp only [ha] at h
    split at h
    · cases h
      exact ⟨{ hsingle with }, { hbounded with }⟩
    · next hroom =>
      cases h
      exact ⟨{ hsingle with }, { hbounded with origins := length_replace_le hbounded.origins hroom }⟩
  | removeOrigin id =>
    simp only [ha, Option.some.injEq] at h
    subst h
    exact ⟨{ hsingle with }, { hbounded with
      origins := (List.length_filter_le _ _).trans hbounded.origins }⟩
  | recordCheck v =>
    simp only [ha] at h
    split at h
    · cases h
      exact ⟨{ hsingle with }, { hbounded with }⟩
    · split at h
      · cases h
        exact ⟨{ hsingle with }, { hbounded with }⟩
      · next hroom =>
        cases h
        exact ⟨{ hsingle with }, { hbounded with checks := length_replace_le hbounded.checks hroom }⟩
  | removeCheck id =>
    simp only [ha, Option.some.injEq] at h
    subst h
    exact ⟨{ hsingle with }, { hbounded with
      checks := (List.length_filter_le _ _).trans hbounded.checks }⟩
  | appProposeList intro =>
    simp only [ha] at h
    split at h
    · cases h
      exact ⟨hsingle, hbounded⟩
    · next hfresh =>
      cases h
      refine ⟨{ hsingle with }, { hbounded with introductions := ?_ }⟩
      change (List.map _ (r.introductions ++ [_])).Nodup
      rw [List.map_append, List.nodup_append]
      refine ⟨hbounded.introductions, List.nodup_singleton _, ?_⟩
      rintro _ hx _ hy rfl
      obtain ⟨i, hi, rfl⟩ := List.mem_map.mp hx
      have hgrant : i.grantId = intro.grantId := by simpa [introduce] using hy
      exact hfresh (List.any_eq_true.mpr ⟨i, hi, by simpa using hgrant⟩)
  | reviewAppList grantId accept =>
    simp only [ha] at h
    split at h
    · cases h
      exact ⟨hsingle, hbounded⟩
    · next intro _ =>
      cases h
      have hlinked : FactsValid safe (if accept = true then
          linkContactList (r.touch op) intro.ownerIdentityPubkey op.createdAt else r.touch op) := by
        refine FactsValid.congr ⟨hsingle, hbounded⟩ ?_
        split
        · exact factsView_linkContactList _ _ _
        · rfl
      obtain ⟨hs, hb⟩ := hlinked
      refine ⟨{ hs with }, { hb with introductions := ?_ }⟩
      have hgrants := map_grantId_map (f := fun i => if i.grantId = grantId then
        { i with status := if accept then .accepted else .rejected } else i)
        (fun i => by split <;> rfl) r.appIntroductions
      exact hgrants.symm ▸ hbounded.introductions
  | _ =>
    have hlink := factsView_linkContactList
    have hunlink := factsView_unlinkContactList
    have hremove := factsView_removeContactLists
    simp only [ha] at h
    refine FactsValid.congr ⟨hsingle, hbounded⟩ ?_
    grind [ContactRecord.touch, ContactRecord.factsView]

theorem factsValid_applyAdd {record : Option ContactRecord} (h : ∀ r ∈ record, FactsValid safe r)
    (op : ContactOperation) (v : AddContactValue) : FactsValid safe (applyAdd record op v) := by
  have hroles : (cleanRoles ((v.roles.map Subtype.val).getD [])).length ≤ capRoles := by
    cases v.roles with
    | none => exact Nat.zero_le _
    | some roles => exact length_cleanRoles_le roles
  cases record with
  | none =>
    refine ⟨⟨List.nodup_nil, List.nodup_nil⟩, ⟨hroles, Nat.zero_le _, Nat.zero_le _,
      List.nodup_nil, fun p hp => ?_⟩⟩
    cases hp
  | some r =>
    obtain ⟨hsingle, hbounded⟩ := h r rfl
    unfold applyAdd
    simp only
    split
    · refine ⟨{ hsingle with }, { hbounded with roles := ?_ }⟩
      change (if v.roles.isSome = true then _ else r.roles).length ≤ capRoles
      split
      · exact hroles
      · exact hbounded.roles
    · exact ⟨{ hsingle with }, { hbounded with roles := hroles }⟩

theorem FactsValid.linkContactList {next : ContactRecord} (hnext : FactsValid safe next)
    (owner : Hex64) (now : Timestamp) : FactsValid safe (linkContactList next owner now) :=
  hnext.congr (factsView_linkContactList _ _ _)

theorem factsValid_chooseList (hnext : FactsValid safe next)
    (op : ContactOperation) (v : AddContactValue) : FactsValid safe (chooseList op v next) := by
  unfold chooseList
  cases v.ownerIdentityPubkey with
  | none => exact hnext
  | some owner => exact hnext.linkContactList owner _

theorem factsValid_proposeContact (hnext : FactsValid safe next)
    (record : Option ContactRecord) (op : ContactOperation) (v : AddContactValue) :
    FactsValid safe (proposeContact record op v next) := by
  unfold proposeContact
  cases v.appIntroduction with
  | none => exact hnext
  | some intro =>
    dsimp only
    split
    · obtain ⟨hsingle, hbounded⟩ := hnext.linkContactList intro.ownerIdentityPubkey op.createdAt
      exact ⟨{ hsingle with }, { hbounded with introductions := List.nodup_singleton _ }⟩
    · exact hnext

theorem factsValid_addContact {record : Option ContactRecord} (h : ∀ r ∈ record, FactsValid safe r)
    (op : ContactOperation) (v : AddContactValue) : FactsValid safe (addContact record op v) :=
  factsValid_chooseList (factsValid_proposeContact (factsValid_applyAdd h op v) record op v) op v

theorem factsValid_applyOne {record : Option ContactRecord} (h : applyOne record op = some next)
    (hrecord : ∀ r ∈ record, FactsValid safe r) (hsafe : ∀ p, op.action = .setPicture p → safe p) :
    FactsValid safe next := by
  by_cases hadd : op.action.isAdd = true
  · obtain ⟨v, hv⟩ := ContactAction.isAdd_iff.mp hadd
    rw [applyOne_add _ hv] at h
    cases h
    exact factsValid_addContact hrecord op v
  · have hadd : op.action.isAdd = false := by simpa using hadd
    cases record with
    | none => rw [applyOne_none hadd] at h; cases h
    | some r =>
      rw [applyOne_some r hadd] at h
      split at h
      · cases h
      · exact factsValid_mutate h (hrecord r rfl) hsafe

/-! ## One row of a group -/

variable {v : AddContactValue}

theorem factsValid_duplicateAdd {record : ContactRecord} (h : duplicateAdd record op v = some next)
    (hrecord : FactsValid safe record) : FactsValid safe next := by
  unfold duplicateAdd at h
  split at h
  · cases h
  · cases hintro : v.appIntroduction with
    | some intro =>
      simp only [hintro, Option.some.injEq] at h
      subst h
      set proposal : ContactOperation := { op with action := .appProposeList intro }
      cases happly : applyOne (some record) proposal with
      | none => exact hrecord
      | some r =>
        refine factsValid_applyOne happly (fun _ hr => by cases hr; exact hrecord) fun p hp => ?_
        cases hp
    | none =>
      simp only [hintro] at h
      split at h
      · cases h
        exact hrecord
      · cases h
        cases v.ownerIdentityPubkey with
        | none => exact hrecord.congr rfl
        | some owner =>
          have hlinked := hrecord.congr (factsView_linkContactList record owner op.createdAt)
          exact hlinked.congr rfl

variable {key : RecordKey} {ctx : MergeContext}

theorem factsValid_awaitReview {record : ContactRecord} (h : FactsValid safe record) :
    FactsValid safe (ctx.awaitReview key v record) := by
  unfold MergeContext.awaitReview
  cases v.appIntroduction with
  | none => exact h
  | some intro =>
    simp only
    split
    · obtain ⟨hsingle, hbounded⟩ := h
      refine ⟨{ hsingle with }, { hbounded with introductions := ?_ }⟩
      have hgrants := map_grantId_map (f := fun i => if i.grantId = intro.grantId then
        { i with status := .pending } else i) (fun i => by split <;> rfl) record.appIntroductions
      exact hgrants.symm ▸ hbounded.introductions
    · exact h

theorem setPicture_of_mapItems {f : Hex32 → Hex32} {action : ContactAction}
    {p : ContactPicturePointer} (h : action.mapItems f = .setPicture p) : action = .setPicture p := by
  cases action <;> simp_all [ContactAction.mapItems]

theorem factsValid_groupStep {row : LogRow} {record : Option ContactRecord} (h : groupStep ctx record row = some next)
    (hrecord : ∀ r ∈ record, FactsValid safe r)
    (hsafe : ∀ p, row.op.action = .setPicture p → safe p) : FactsValid safe next := by
  have hremap : ∀ p, (ctx.remap row.op).action = .setPicture p → safe p :=
    fun p hp => hsafe p (setPicture_of_mapItems hp)
  cases hf : row.firstAdd with
  | none =>
    rw [groupStep_of_not_first hf] at h
    exact factsValid_applyOne h hrecord hremap
  | some v =>
    by_cases hfresh : record = none ∨ ctx.canonical row.sourceKey = row.sourceKey
    · rw [groupStep_first hf hfresh, Option.map_eq_some_iff] at h
      obtain ⟨r, happly, rfl⟩ := h
      exact factsValid_awaitReview (factsValid_applyOne happly hrecord hremap)
    · obtain ⟨hsome, hdup⟩ := not_or.mp hfresh
      obtain ⟨r, rfl⟩ := Option.ne_none_iff_exists'.mp hsome
      rw [groupStep_duplicate hf hdup] at h
      exact factsValid_duplicateAdd h (hrecord r rfl)

/-- **Every record of the result is within its caps**, one vouch and one ceiling in force a
guardian, if every picture operation is safe. -/
theorem factsValid_of_get {ops : List ContactOperation} {record : ContactRecord}
    (hsafe : ∀ op ∈ ops, ∀ p, op.action = .setPicture p → safe p)
    (h : (materialise ops).get key = some record) : FactsValid safe record := by
  obtain ⟨r, hr, rfl⟩ := exists_recordAfter h
  have hvalid : FactsValid safe r := runAt_forall
    (fun _ hs row hrow _ hstep => factsValid_groupStep hstep hs fun p hp =>
      hsafe row.op (mem_of_mem_logRows (List.mem_of_mem_filter hrow)) p hp)
    (fun _ h => by cases h) r hr
  exact hvalid.congr (by rw [withMergedIds_eq]; rfl)

end SignetApp.Contacts
