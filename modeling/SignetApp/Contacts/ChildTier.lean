import SignetApp.Contacts.Blocks
import SignetApp.Contacts.Tombstones

/-!
# Who classified a contact

The implicit child ceiling caps a tier that no guardian stands behind. Who does is read off the
record: the role that last set the tier, or else the role that created it (`authority`). Every way
of setting a tier moves the authority with it but one: an `add` on a record that exists takes the
tier of the `add` and keeps the authority the record had. So a child's classification stays under
the bound as long as no such `add` comes from anyone but a guardian (`effectiveTier_le`).
-/

namespace SignetApp.Contacts

open SignetApp.Js

/-- The role that stands behind a record's tier. -/
def ContactRecord.authority (record : ContactRecord) : ContactActorRole :=
  record.tierSetByActorRole.getD record.createdByActorRole

/-- The role that stands behind the tier an `add` writes. -/
def authorityAfterAdd (record : Option ContactRecord) (op : ContactOperation) : ContactActorRole :=
  match record with
  | none => op.actorRole
  | some r =>
    if r.createdByActorRole = .app ∧ op.actorRole ≠ .app then op.actorRole
    else if r.lifecycle = .removed then r.createdByActorRole
    else r.authority

/-- The tier a guardian's operation asserts. -/
def guardianTier (op : ContactOperation) : Option ContactTier :=
  if op.actorRole = .guardian then
    match op.action with
    | .add v => some v.tier
    | .setTier tier => some tier
    | _ => none
  else none

/-- The highest rank guardians assert in a list of rows. -/
def guardianRank (rows : List LogRow) : ℕ :=
  (rows.filterMap fun row => guardianTier row.op).foldr (fun tier best => max tier.rank best) 0

variable {tier : ContactTier} {row : LogRow} {rows : List LogRow}

theorem rank_le_guardianRank
    (hrow : row ∈ rows) (h : guardianTier row.op = some tier) : tier.rank ≤ guardianRank rows := by
  have hmem : tier ∈ rows.filterMap fun row => guardianTier row.op :=
    List.mem_filterMap.mpr ⟨row, hrow, h⟩
  unfold guardianRank
  generalize rows.filterMap (fun row => guardianTier row.op) = tiers at hmem
  induction tiers with
  | nil => cases hmem
  | cons t tiers ih =>
    rw [List.foldr_cons]
    rcases List.mem_cons.mp hmem with rfl | hmem
    · exact Nat.le_max_left _ _
    · exact (ih hmem).trans (Nat.le_max_right _ _)

/-! ## What each step does to the tier and its authority -/

/-- The tier with the authority behind it. -/
def ContactRecord.classification (record : ContactRecord) : ContactTier × ContactActorRole :=
  (record.tier, record.authority)

@[simp] theorem classification_linkContactList (record : ContactRecord) (owner : Hex64)
    (at_ : Timestamp) :
    (linkContactList record owner at_).classification = record.classification := by
  unfold linkContactList
  split <;> rfl

@[simp] theorem classification_awaitReview (ctx : MergeContext) (key : RecordKey)
    (v : AddContactValue) (record : ContactRecord) :
    (ctx.awaitReview key v record).classification = record.classification := by
  unfold MergeContext.awaitReview
  grind [ContactRecord.classification, ContactRecord.authority]

theorem classification_addContact (record : Option ContactRecord) (op : ContactOperation)
    (v : AddContactValue) :
    (addContact record op v).classification = (v.tier, authorityAfterAdd record op) := by
  have hlink := classification_linkContactList
  have happly : (applyAdd record op v).classification = (v.tier, authorityAfterAdd record op) := by
    unfold applyAdd
    cases record with
    | none => rfl
    | some r =>
      by_cases hrem : r.lifecycle = .removed <;>
        by_cases happ : r.createdByActorRole = .app ∧ op.actorRole ≠ .app <;>
        simp [ContactRecord.classification, ContactRecord.authority, authorityAfterAdd,
          creditedRole, hrem, happ]
  unfold addContact chooseList proposeContact
  grind [ContactRecord.classification, ContactRecord.authority]

variable {op : ContactOperation} {next : ContactRecord}

theorem classification_mutate {record : ContactRecord} (h : mutate record op = some next) :
    next.classification = record.classification ∨
      ∃ tier, op.action = .setTier tier ∧ next.classification = (tier, op.actorRole) := by
  unfold mutate at h
  cases ha : op.action with
  | setTier tier =>
    simp only [ha, Option.some.injEq] at h
    subst h
    exact .inr ⟨tier, rfl, rfl⟩
  | _ =>
    have hlink := classification_linkContactList
    simp only [ha] at h
    refine .inl ?_
    grind [ContactRecord.touch, ContactRecord.classification, ContactRecord.authority,
      unlinkContactList, removeContactLists]

theorem ContactTier.rank_injective : Function.Injective ContactTier.rank := by
  intro a b h
  cases a <;> cases b <;> simp_all [ContactTier.rank]

theorem classification_raised (record : ContactRecord) (tier : ContactTier)
    (role : ContactActorRole) (at_ : Timestamp) :
    let raised := { record with
      tier := if record.tier.rank < tier.rank then tier else record.tier
      tierSetByActorRole :=
        if record.tier.rank ≤ tier.rank then some role else record.tierSetByActorRole
      createdAt := at_ }
    raised.classification = record.classification ∨ raised.classification = (tier, role) := by
  simp only [ContactRecord.classification, ContactRecord.authority]
  rcases lt_trichotomy record.tier.rank tier.rank with hlt | heq | hgt
  · exact .inr (by simp [hlt, hlt.le])
  · exact .inr (by simp [ContactTier.rank_injective heq])
  · exact .inl (by simp [hgt.not_gt, hgt.not_ge])

variable {v : AddContactValue}

/-- The first `add` of a duplicate id leaves the classification, or makes it its own. -/
theorem classification_duplicateAdd {record : ContactRecord} (h : duplicateAdd record op v = some next) :
    next.classification = record.classification ∨
      next.classification = (v.tier, op.actorRole) := by
  unfold duplicateAdd at h
  split at h
  · cases h
  · next hlive =>
    cases hintro : v.appIntroduction with
    | some intro =>
      simp only [hintro, Option.some.injEq] at h
      subst h
      set proposal : ContactOperation := { op with action := .appProposeList intro }
      cases happly : applyOne (some record) proposal with
      | none => exact .inl rfl
      | some r =>
        rw [applyOne_some record rfl, if_neg fun h => hlive h.1] at happly
        rcases classification_mutate happly with h | ⟨tier, haction, -⟩
        · exact .inl h
        · cases haction
    | none =>
      simp only [hintro] at h
      split at h
      · cases h
        exact .inl rfl
      · cases h
        cases v.ownerIdentityPubkey with
        | none => exact classification_raised record _ _ _
        | some owner =>
          rw [← classification_linkContactList record owner op.createdAt]
          exact classification_raised _ _ _ _

/-! ## The bound over a run -/

variable {ctx : MergeContext} {bound : ℕ}

/-- A tier a guardian stands behind is within the bound. -/
def WithinBound (bound : ℕ) (record : ContactRecord) : Prop :=
  record.authority = .guardian → record.tier.rank ≤ bound

/-- An `add` from anyone but a guardian, on a record whose tier keeps a guardian's authority, with
a tier above the bound. -/
def MergeContext.Promotes (ctx : MergeContext) (bound : ℕ) (record : ContactRecord)
    (row : LogRow) : Prop :=
  ctx.Restores row ∧ row.op.actorRole ≠ .guardian ∧
    authorityAfterAdd (some record) row.op = .guardian ∧
    ∃ v, row.op.action = .add v ∧ bound < v.tier.rank

theorem withinBound_of_classification {record : ContactRecord}
    {role : ContactActorRole} (h : record.classification = (tier, role))
    (hbound : role = .guardian → tier.rank ≤ bound) : WithinBound bound record := by
  intro hauth
  have htier : record.tier = tier := congrArg Prod.fst h
  have hrole : record.authority = role := congrArg Prod.snd h
  rw [htier]
  exact hbound (hrole.symm.trans hauth)

theorem WithinBound.congr {record : ContactRecord} (h : WithinBound bound record)
    (heq : next.classification = record.classification) : WithinBound bound next :=
  withinBound_of_classification heq h

theorem add_of_mapItems {f : Hex32 → Hex32} {action : ContactAction}
    (h : action.mapItems f = .add v) : action = .add v := by
  cases action <;> simp_all [ContactAction.mapItems]

theorem withinBound_applyOne {record : Option ContactRecord} (h : applyOne record op = some next)
    (hrecord : ∀ r ∈ record, WithinBound bound r)
    (hguardian : ∀ tier, guardianTier op = some tier → tier.rank ≤ bound)
    (hadd : ∀ v, op.action = .add v → op.actorRole ≠ .guardian →
      authorityAfterAdd record op = .guardian → v.tier.rank ≤ bound) :
    WithinBound bound next := by
  by_cases hop : op.action.isAdd = true
  · obtain ⟨v, hv⟩ := ContactAction.isAdd_iff.mp hop
    rw [applyOne_add _ hv] at h
    cases h
    refine withinBound_of_classification (classification_addContact record op v) fun hauth => ?_
    by_cases hrole : op.actorRole = .guardian
    · exact hguardian _ (by simp [guardianTier, hrole, hv])
    · exact hadd v hv hrole hauth
  · have hop : op.action.isAdd = false := by simpa using hop
    cases record with
    | none => rw [applyOne_none hop] at h; cases h
    | some r =>
      rw [applyOne_some r hop] at h
      split at h
      · cases h
      · rcases classification_mutate h with heq | ⟨tier, haction, heq⟩
        · exact (hrecord r rfl).congr heq
        · refine withinBound_of_classification heq fun hrole => hguardian tier ?_
          simp [guardianTier, hrole, haction]

/-- **One row keeps the bound**, unless it promotes. -/
theorem withinBound_groupStep {record : Option ContactRecord}
    (h : groupStep ctx record row = some next) (hrecord : ∀ r ∈ record, WithinBound bound r)
    (hguardian : ∀ tier, guardianTier row.op = some tier → tier.rank ≤ bound)
    (hnot : ∀ r ∈ record, ¬ ctx.Promotes bound r row) : WithinBound bound next := by
  have htier : guardianTier (ctx.remap row.op) = guardianTier row.op := by
    cases ha : row.op.action <;> simp [guardianTier, MergeContext.remap, ha, ContactAction.mapItems]
  have happly : ∀ r, applyOne record (ctx.remap row.op) = some r →
      (∀ p ∈ record, ¬ (row.first = true ∧ ctx.canonical row.sourceKey ≠ row.sourceKey)) →
      WithinBound bound r := by
    intro r hr hnotdup
    refine withinBound_applyOne hr hrecord (by rwa [htier]) fun v hv hrole hauth => ?_
    have hv := add_of_mapItems hv
    by_contra hlt
    cases record with
    | none => exact hrole hauth
    | some p =>
      refine hnot p rfl ⟨⟨by rw [hv]; rfl, hnotdup p rfl⟩, hrole, ?_, v, hv, by omega⟩
      exact hauth
  cases hf : row.firstAdd with
  | none =>
    rw [groupStep_of_not_first hf] at h
    by_cases hadd : row.op.action.isAdd = true
    · refine happly next h fun _ _ hdup => ?_
      rw [LogRow.firstAdd_eq_none_iff.mp hf hadd] at hdup
      exact absurd hdup.1 (by simp)
    · refine withinBound_applyOne h hrecord (by rwa [htier]) fun v hv => ?_
      rw [add_of_mapItems hv] at hadd
      exact absurd rfl hadd
  | some v =>
    obtain ⟨-, hv⟩ := LogRow.firstAdd_eq_some_iff.mp hf
    by_cases hfresh : record = none ∨ ctx.canonical row.sourceKey = row.sourceKey
    · rw [groupStep_first hf hfresh, Option.map_eq_some_iff] at h
      obtain ⟨r, hr, rfl⟩ := h
      refine WithinBound.congr (happly r hr fun p hp hdup => ?_) (classification_awaitReview _ _ _ _)
      rcases hfresh with rfl | hc
      · cases hp
      · exact hdup.2 hc
    · obtain ⟨hsome, hdup⟩ := not_or.mp hfresh
      obtain ⟨r, rfl⟩ := Option.ne_none_iff_exists'.mp hsome
      rw [groupStep_duplicate hf hdup] at h
      rcases classification_duplicateAdd h with heq | heq
      · exact (hrecord r rfl).congr heq
      · refine withinBound_of_classification heq fun hrole => hguardian v.tier ?_
        have hrole : row.op.actorRole = .guardian := hrole
        simp [guardianTier, hrole, hv]

theorem withinBound_run
    (hguardian : ∀ row ∈ rows, ∀ tier, guardianTier row.op = some tier → tier.rank ≤ bound)
    (hnot : ∀ pre row post, rows = pre ++ row :: post →
      ∀ r ∈ runAt (groupStep ctx) none pre, ¬ ctx.Promotes bound r row) :
    ∀ r ∈ runAt (groupStep ctx) none rows, WithinBound bound r := by
  induction rows using List.reverseRecOn with
  | nil => intro r hr; cases hr
  | append_singleton rows row ih =>
    have ih := ih (fun r hr => hguardian r (List.mem_append_left _ hr))
      fun pre r post heq => hnot pre r (post ++ [row]) (by rw [heq]; simp)
    intro r hr
    rw [runAt_append, runAt_cons, runAt_nil] at hr
    cases hstep : groupStep ctx (runAt (groupStep ctx) none rows) row with
    | none => rw [advance_of_none hstep] at hr; exact ih r hr
    | some next =>
      rw [advance_of_some hstep] at hr
      cases hr
      exact withinBound_groupStep hstep ih (hguardian row (by simp)) (hnot rows row [] rfl)

/-! ## The effective tier -/

theorem ownRank_le {record : ContactRecord} {ctx : EffectiveContext}
    (hrecord : WithinBound bound record) (hdep : ctx.directoryIsDependant = true)
    (hrole : ctx.creatingActorRole = none) :
    ownRank record ctx ≤ max (rankOf ctx.defaultChildCeiling) bound := by
  have hactor : tierActor record ctx = record.authority := by
    rw [tierActor, hrole]
    rfl
  have hcap : (if ctx.directoryIsDependant = true ∧ record.authority ≠ .guardian then
        min record.tier.rank (rankOf ctx.defaultChildCeiling) else record.tier.rank)
      ≤ max (rankOf ctx.defaultChildCeiling) bound := by
    by_cases hauth : record.authority = .guardian
    · rw [if_neg fun h => h.2 hauth]
      exact (hrecord hauth).trans (Nat.le_max_right _ _)
    · rw [if_pos ⟨hdep, hauth⟩]
      exact (Nat.min_le_right _ _).trans (Nat.le_max_left _ _)
  unfold ownRank
  simp only [hactor]
  split
  · exact (Nat.min_le_left _ _).trans hcap
  · exact hcap

/-- **A child cannot promote a contact.** In every replay of a log in which no `add` promotes, the
effective tier of a dependant's contact is at most the child ceiling, what guardians asserted on
its ids, or an active guardian's vouch. -/
theorem effectiveTier_le {ops : List ContactOperation} {key : RecordKey} {record : ContactRecord}
    (hget : (materialise ops).get key = some record) {ctx : EffectiveContext}
    (hdep : ctx.directoryIsDependant = true) (hrole : ctx.creatingActorRole = none)
    (hnot : ∀ pre row post, groupRows ops key = pre ++ row :: post →
      ∀ r, recordAfter ops pre = some r →
        ¬ (contextOf ops).Promotes (guardianRank (groupRows ops key)) r row) :
    rankOf (resolveEffective record ctx).effectiveTier
      ≤ max (max (rankOf ctx.defaultChildCeiling) (guardianRank (groupRows ops key)))
          (vouchedRank record ctx) := by
  obtain ⟨r, hr, rfl⟩ := exists_recordAfter hget
  have hbound : WithinBound (guardianRank (groupRows ops key)) r :=
    withinBound_run (fun row hrow tier htier => rank_le_guardianRank hrow htier) hnot r hr
  have hfinal : WithinBound (guardianRank (groupRows ops key))
      ((contextOf ops).withMergedIds key r) :=
    hbound.congr (by rw [withMergedIds_eq]; rfl)
  refine (rankOf_effectiveTier_le _ ctx).trans (max_le_max ?_ (Nat.le_refl _))
  exact ownRank_le hfinal hdep hrole

/-! ## An `add` that promotes -/

/-- The directory of a sample dependant. -/
def childDirectory : DirectoryId := .dependant (Hex.repeated 64 3)

/-- The child's contacts as a guardian sees them. -/
def childContext : EffectiveContext :=
  { activeGuardianPubkeys := [Hex.repeated 64 2], defaultChildCeiling := .ken
    directoryIsDependant := true }

/-- A guardian adds a contact as ken, and the child adds it again as kin. -/
def readdedLog : List ContactOperation :=
  [(sampleOp 1 1 0 (actorOf .guardian 2) (sampleAdd .ken)).inDirectory childDirectory,
    (sampleOp 2 1 1 (actorOf .dependant 3) (sampleAdd .kin)).inDirectory childDirectory]

/-- The child's `add` counts as the guardian's classification: the contact is kin, above the child
ceiling, what the guardian asserted and every vouch. -/
theorem child_promotes_by_adding_again :
    (∀ op ∈ readdedLog, @accepted samplePlatform (.obj op.toJs) = some op) ∧
      ((materialise readdedLog).get ⟨childDirectory, Hex.repeated 32 1⟩).map
          (fun r => ((resolveEffective r childContext).effectiveTier,
            max (max (rankOf childContext.defaultChildCeiling)
                (guardianRank (groupRows readdedLog ⟨childDirectory, Hex.repeated 32 1⟩)))
              (vouchedRank r childContext)))
        = some (.kin, rankOf .ken) := by
  decide +kernel

/-- A contact the child added as kin, seen as ken. -/
theorem effectiveTier_le_child_added :
    ∃ record, (materialise [readdedLog[1]]).get ⟨childDirectory, Hex.repeated 32 1⟩ = some record ∧
      rankOf (resolveEffective record childContext).effectiveTier ≤
        max (max (rankOf childContext.defaultChildCeiling)
            (guardianRank (groupRows [readdedLog[1]] ⟨childDirectory, Hex.repeated 32 1⟩)))
          (vouchedRank record childContext) := by
  have hsome : ((materialise [readdedLog[1]]).get ⟨childDirectory, Hex.repeated 32 1⟩).isSome := by
    decide +kernel
  have hlen : (groupRows [readdedLog[1]] ⟨childDirectory, Hex.repeated 32 1⟩).length = 1 := by
    decide +kernel
  obtain ⟨record, hrecord⟩ := Option.isSome_iff_exists.mp hsome
  refine ⟨record, hrecord, effectiveTier_le hrecord rfl rfl fun pre row post heq r hr => ?_⟩
  -- Nothing comes before the only row.
  rw [heq, List.length_append, List.length_cons] at hlen
  obtain rfl : pre = [] := List.length_eq_zero_iff.mp (by omega)
  cases hr

end SignetApp.Contacts
