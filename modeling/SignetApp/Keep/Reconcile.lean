import SignetApp.Collections.Sweep
import SignetApp.Keep.Owners

/-!
# Reconciling a Keep

One pass of `reconcileKeep` leaves nothing for a second one to do. The auto-link comes first; then
each owner's games invites are brought in line on their own, since an invite is marked by its grant
and no two invites share one.
-/

namespace SignetApp.Keep

open SignetApp.Js SignetApp.Contacts

/-! ## The auto-link -/

/-- Two contexts with the same clock, personas and keys: a later call may draw other grants. -/
def SameWishes (c c' : ReconcileContext) : Prop :=
  c'.now = c.now ∧ c'.eligible = c.eligible ∧ c'.canSign = c.canSign

variable {p : Hex64} {keep : StoredKeep}

theorem isLinked_iff :
    isLinked keep p = true ↔ p ∈ keep.personas := OrderedMap.has_eq_true_iff

/-- Linking personas that are not linked, while there is room, appends them all. -/
theorem linkAll_spec : ∀ {ps : List Hex64} {keep : StoredKeep}, ps.Nodup →
    (∀ p ∈ ps, p ∉ keep.personas) →
    ps.length ≤ KEEP_MAX_OWNER_PERSONAS - keep.personas.length →
    ∃ links seen, ps.foldl (fun added p => (linkPersona added p).getD added) keep
        = { keep with links := links, seen := seen } ∧
      links.keys = keep.personas ++ ps ∧ ∀ q ∈ keep.seen, q ∈ seen := by
  intro ps
  induction ps with
  | nil =>
    intro keep _ _ _
    exact ⟨keep.links, keep.seen, rfl, (List.append_nil _).symm, fun q hq => hq⟩
  | cons p ps ih =>
    intro keep hnodup hnew hroom
    rw [List.nodup_cons] at hnodup
    have hp : p ∉ keep.personas := hnew p List.mem_cons_self
    have hlinked : isLinked keep p = false := by
      rw [Bool.eq_false_iff]
      exact fun h => hp (isLinked_iff.1 h)
    have hfree : ¬ KEEP_MAX_OWNER_PERSONAS ≤ keep.personas.length := by
      rw [List.length_cons] at hroom
      omega
    rw [List.foldl_cons]
    have hstep : (linkPersona keep p).getD keep = { keep with
        links := keep.links.set p ⟨[KEEP_SECTION_GAMES], none, false, none⟩
        seen := if keep.seen.contains p then keep.seen else keep.seen ++ [p] } := by
      rw [linkPersona, if_neg (by simp [hlinked, hfree]), Option.getD_some]
    have hkeys : (keep.links.set p ⟨[KEEP_SECTION_GAMES], none, false, none⟩).keys
        = keep.personas ++ [p] := by
      rw [OrderedMap.keys_set]
      exact if_neg hp
    obtain ⟨links, seen, hrest, hlinks, hseen⟩ := @ih ((linkPersona keep p).getD keep) hnodup.2
      (by
        intro q hq
        rw [hstep]
        show q ∉ (keep.links.set p _).keys
        rw [hkeys, List.mem_append, List.mem_singleton, not_or]
        exact ⟨hnew q (List.mem_cons_of_mem p hq), fun hqp => hnodup.1 (hqp ▸ hq)⟩)
      (by
        rw [hstep]
        show ps.length ≤ _ - (keep.links.set p _).keys.length
        rw [hkeys, List.length_append, List.length_singleton]
        rw [List.length_cons] at hroom
        omega)
    refine ⟨links, seen, ?_, ?_, ?_⟩
    · rw [hrest, hstep]
    · rw [hlinks, hstep]
      show (keep.links.set p _).keys ++ ps = _
      rw [hkeys, List.append_assoc, List.singleton_append]
    · intro q hq
      apply hseen
      rw [hstep]
      show q ∈ if keep.seen.contains p then keep.seen else keep.seen ++ [p]
      split
      · exact hq
      · exact List.mem_append_left _ hq

variable {ctx : ReconcileContext}

/-- What the auto-link makes of a Keep it changes: the update is new and lists the fresh personas. -/
theorem autoLink_signed {signer : Hex64}
    (heligible : ctx.eligible.Nodup) (hwants : (keep.scope = .all
      && !(keep.update.any (·.failed.isSome))) = true) (hsigner : autoSigner keep ctx = some signer) :
    ∃ links seen update, autoLink keep ctx
        = some ({ keep with links := links, seen := seen, update := some update }, true) ∧
      update.failed = none ∧ links.keys = keep.personas ++ freshPersonas keep ctx ∧
      ∀ q ∈ keep.seen, q ∈ seen := by
  have hfresh : ∀ p ∈ freshPersonas keep ctx, p ∉ keep.personas := by
    intro p hp hmem
    have hcond := (List.mem_filter.1 (List.mem_of_mem_take hp)).2
    simp [isLinked_iff.2 hmem] at hcond
  have hnodup : (freshPersonas keep ctx).Nodup :=
    (heligible.filter _).sublist (List.take_sublist _ _)
  have hcompose : canCompose keep = true := by
    rw [autoSigner] at hsigner
    split at hsigner
    · next h => exact (Bool.and_eq_true_iff.1 h).2
    · cases hsigner
  obtain ⟨links, seen, hadded, hlinks, hseen⟩ := linkAll_spec hnodup hfresh
    (List.length_take_le _ _)
  have hkeys : (links.mapEntries fun _ link => composedLink (lastRev keep + 1) ctx.now link).keys
      = keep.personas ++ freshPersonas keep ctx := by
    rw [OrderedMap.keys_mapEntries, hlinks]
  rw [autoLink, if_pos hwants, hsigner]
  show ∃ links seen update, (composeUpdate _ signer ctx.now).map _ = _ ∧ _
  have hcompose' : canCompose { keep with links := links, seen := seen } = true := hcompose
  rw [hadded, composeUpdate, if_pos hcompose']
  exact ⟨_, seen, _, rfl, rfl, hkeys, hseen⟩

theorem fresh_covers (hp : p ∈ ctx.eligible) (hseen : p ∉ keep.seen) (hlinked : p ∉ keep.personas) :
    p ∈ freshPersonas keep ctx ∨
      KEEP_MAX_OWNER_PERSONAS ≤ (keep.personas ++ freshPersonas keep ctx).length := by
  have hmem : p ∈ ctx.eligible.filter fun p => !keep.seen.contains p && !isLinked keep p := by
    have hno : isLinked keep p = false := by
      rw [Bool.eq_false_iff]
      exact fun h => hlinked (isLinked_iff.1 h)
    apply List.mem_filter.2
    simp [hp, hseen, hno]
  rw [freshPersonas, List.length_append, List.length_take]
  generalize (ctx.eligible.filter fun p => !keep.seen.contains p && !isLinked keep p) = met at *
  by_cases hroom : met.length ≤ KEEP_MAX_OWNER_PERSONAS - keep.personas.length
  · rw [List.take_of_length_le hroom]
    exact .inl hmem
  · right
    omega

variable {k : StoredKeep}

theorem fresh_eq_nil (h : ∀ p ∈ ctx.eligible, p ∉ k.seen →
      p ∈ k.personas ∨ KEEP_MAX_OWNER_PERSONAS ≤ k.personas.length) :
    freshPersonas k ctx = [] := by
  rw [freshPersonas]
  by_cases hfull : KEEP_MAX_OWNER_PERSONAS ≤ k.personas.length
  · rw [Nat.sub_eq_zero_of_le hfull, List.take_zero]
  · have hnone : (ctx.eligible.filter fun p => !k.seen.contains p && !isLinked k p) = [] := by
      rw [List.filter_eq_nil_iff]
      intro p hp hcond
      rw [Bool.and_eq_true_iff] at hcond
      have hseen : p ∉ k.seen := by simpa using hcond.1
      rcases h p hp hseen with hmem | hfull'
      · simp [isLinked_iff.2 hmem] at hcond
      · exact hfull hfull'
    rw [hnone, List.take_nil]

variable {ctx' : ReconcileContext}

theorem freshPersonas_congr (h : SameWishes ctx ctx') (invites : List StoredInvite) :
    freshPersonas { k with invites := invites } ctx' = freshPersonas k ctx := by
  unfold freshPersonas
  rw [h.2.1]
  rfl

theorem autoSigner_congr (h : SameWishes ctx ctx') (invites : List StoredInvite) :
    autoSigner { k with invites := invites } ctx' = autoSigner k ctx := by
  unfold autoSigner
  rw [freshPersonas_congr h, h.2.2]
  rfl

theorem autoSigner_eq_none
    (hfresh : freshPersonas k ctx = []) (hupdate : k.update.isSome) : autoSigner k ctx = none := by
  have hnone : k.update.isNone = false := by
    cases hu : k.update with
    | none => rw [hu] at hupdate; cases hupdate
    | some u => rfl
  simp [autoSigner, hfresh, hnone]

/-- The auto-link succeeds, leaves the invites alone, links every eligible persona it has not met
while there is room and someone to sign, and a second call finds nothing to do. -/
theorem autoLink_spec {keep : StoredKeep} {ctx : ReconcileContext}
    (heligible : ctx.eligible.Nodup) :
    ∃ k b, autoLink keep ctx = some (k, b) ∧ k.invites = keep.invites ∧ k.status = keep.status ∧
      k.personas.length ≤ keep.personas.length + KEEP_MAX_OWNER_PERSONAS ∧
      (keep.scope = .all → (∀ u ∈ keep.update, u.failed = none) → canCompose keep = true →
        (pickSigner keep ctx.canSign none).isSome → ∀ p ∈ ctx.eligible, p ∉ keep.seen →
          isLinked k p = true ∨ KEEP_MAX_OWNER_PERSONAS ≤ k.personas.length) ∧
      ∀ ctx' invites, SameWishes ctx ctx' → autoLink { k with invites := invites } ctx'
        = some ({ k with invites := invites }, false) := by
  by_cases hwants : (keep.scope = .all && !(keep.update.any (·.failed.isSome))) = true
  · cases hsigner : autoSigner keep ctx with
    | none =>
      have hlink : autoLink keep ctx = some (keep, false) := by
        rw [autoLink, if_pos hwants, hsigner]
      refine ⟨keep, false, hlink, rfl, rfl, Nat.le_add_right _ _, ?_, ?_⟩
      · intro _ _ hcompose hsign p hp hseen
        -- Someone could have signed, so nobody was fresh.
        have hfresh : freshPersonas keep ctx = [] := by
          by_contra hne
          have hsome : autoSigner keep ctx = pickSigner keep ctx.canSign none := by
            simp [autoSigner, hne, hcompose]
          rw [← hsome, hsigner] at hsign
          cases hsign
        by_cases hmem : p ∈ keep.personas
        · exact .inl (isLinked_iff.2 hmem)
        · rcases fresh_covers hp hseen hmem with h | h
          · rw [hfresh] at h
            cases h
          · rw [hfresh, List.append_nil] at h
            exact .inr h
      · intro ctx' invites hsame
        have hwants' : (({ keep with invites := invites } : StoredKeep).scope = .all
          && !(keep.update.any (·.failed.isSome))) = true := hwants
        rw [autoLink, if_pos hwants', autoSigner_congr hsame, hsigner]
    | some signer =>
      obtain ⟨links, seen, update, hlink, hfailed, hkeys, hseen⟩ :=
        autoLink_signed heligible hwants hsigner
      have hmet : ∀ p ∈ ctx.eligible, p ∉ keep.seen →
          p ∈ links.keys ∨ KEEP_MAX_OWNER_PERSONAS ≤ links.keys.length := by
        intro p hp hnew
        rw [hkeys]
        by_cases hmem : p ∈ keep.personas
        · exact .inl (List.mem_append_left _ hmem)
        · rcases fresh_covers hp hnew hmem with h | h
          · exact .inl (List.mem_append_right _ h)
          · exact .inr h
      refine ⟨_, true, hlink, rfl, rfl, ?_, ?_, ?_⟩
      · show links.keys.length ≤ _
        rw [hkeys, List.length_append]
        have hlen : (freshPersonas keep ctx).length
            ≤ KEEP_MAX_OWNER_PERSONAS - keep.personas.length := List.length_take_le _ _
        omega
      · intro _ _ _ _ p hp hnew
        rw [isLinked_iff]
        exact hmet p hp hnew
      · intro ctx' invites hsame
        rw [autoLink]
        split
        · rw [autoSigner_congr hsame, autoSigner_eq_none]
          · exact fresh_eq_nil fun p hp hnew => hmet p hp fun h => hnew (hseen p h)
          · rfl
        · rfl
  · have hlink : autoLink keep ctx = some (keep, false) := by rw [autoLink, if_neg hwants]
    refine ⟨keep, false, hlink, rfl, rfl, Nat.le_add_right _ _, ?_, ?_⟩
    · intro hall hfine
      have hany : keep.update.any (·.failed.isSome) = false := by
        cases hu : keep.update with
        | none => rfl
        | some u => simp [hfine u hu]
      rw [hall, hany] at hwants
      exact absurd rfl hwants
    · intro ctx' invites _
      have hwants' : ¬ (({ keep with invites := invites } : StoredKeep).scope = .all
        && !(keep.update.any (·.failed.isSome))) = true := hwants
      rw [autoLink, if_neg hwants']

/-! ## Marking by grant -/

@[simp] theorem marked_grant (i : StoredInvite) : i.marked.grant = i.grant := rfl
@[simp] theorem marked_gamesFor (i : StoredInvite) : i.marked.gamesFor = i.gamesFor := rfl
@[simp] theorem marked_status (i : StoredInvite) : i.marked.status = i.status := rfl
@[simp] theorem marked_createdAt (i : StoredInvite) : i.marked.createdAt = i.createdAt := rfl
@[simp] theorem marked_expiration (i : StoredInvite) : i.marked.expiration = i.expiration := rfl
@[simp] theorem marked_revokeSent (i : StoredInvite) : i.marked.revokeSent = true := rfl
@[simp] theorem marked_marked (i : StoredInvite) : i.marked.marked = i.marked := rfl

/-- An invite as marking `targets` leaves it. -/
def markThose (targets : List StoredInvite) (i : StoredInvite) : StoredInvite :=
  if i ∈ targets then i.marked else i

theorem markThose_cases (targets : List StoredInvite) (i : StoredInvite) :
    (i ∈ targets ∧ markThose targets i = i.marked) ∨ (i ∉ targets ∧ markThose targets i = i) := by
  unfold markThose
  by_cases h : i ∈ targets
  · exact .inl ⟨h, if_pos h⟩
  · exact .inr ⟨h, if_neg h⟩

@[simp] theorem markThose_nil (i : StoredInvite) : markThose [] i = i := if_neg List.not_mem_nil

@[simp] theorem markThose_grant (targets : List StoredInvite) (i : StoredInvite) :
    (markThose targets i).grant = i.grant := by
  rcases markThose_cases targets i with ⟨_, h⟩ | ⟨_, h⟩ <;> rw [h]
  rfl

@[simp] theorem markThose_gamesFor (targets : List StoredInvite) (i : StoredInvite) :
    (markThose targets i).gamesFor = i.gamesFor := by
  rcases markThose_cases targets i with ⟨_, h⟩ | ⟨_, h⟩ <;> rw [h]
  rfl

@[simp] theorem markThose_status (targets : List StoredInvite) (i : StoredInvite) :
    (markThose targets i).status = i.status := by
  rcases markThose_cases targets i with ⟨_, h⟩ | ⟨_, h⟩ <;> rw [h]
  rfl

@[simp] theorem markThose_createdAt (targets : List StoredInvite) (i : StoredInvite) :
    (markThose targets i).createdAt = i.createdAt := by
  rcases markThose_cases targets i with ⟨_, h⟩ | ⟨_, h⟩ <;> rw [h]
  rfl

/-- Marking goes by the grant. -/
theorem foldl_mark (targets : List StoredInvite) : ∀ s : Sweep, targets.foldl mark s
    = ⟨s.invites.map fun x => if x.grant ∈ targets.map (·.grant) then x.marked else x, s.drawn,
      s.replaced || !targets.isEmpty⟩ := by
  induction targets with
  | nil => intro s; simp
  | cons i targets ih =>
    intro s
    rw [List.foldl_cons, ih (mark s i)]
    have hinvites : ((mark s i).invites.map fun x =>
        if x.grant ∈ targets.map (·.grant) then x.marked else x)
        = s.invites.map fun x =>
          if x.grant ∈ (i :: targets).map (·.grant) then x.marked else x := by
      show ((s.invites.map fun x => if x.grant = i.grant then x.marked else x).map _) = _
      rw [List.map_map]
      apply List.map_congr_left
      intro x _
      show (if (if x.grant = i.grant then x.marked else x).grant ∈ targets.map (·.grant) then
        (if x.grant = i.grant then x.marked else x).marked
        else if x.grant = i.grant then x.marked else x) = _
      have hmem : x.grant ∈ (i :: targets).map (·.grant)
          ↔ x.grant = i.grant ∨ x.grant ∈ targets.map (·.grant) := by
        rw [List.map_cons, List.mem_cons]
      by_cases hx : x.grant = i.grant
      · rw [if_pos hx, if_pos (hmem.2 (.inl hx))]
        split <;> rfl
      · rw [if_neg hx]
        simp only [hmem, hx, false_or]
    rw [hinvites]
    show (⟨_, s.drawn, true || !targets.isEmpty⟩ : Sweep) = ⟨_, s.drawn, s.replaced || true⟩
    rw [Bool.true_or, Bool.or_true]

variable {s : Sweep}

variable {targets : List StoredInvite}

theorem foldl_mark_eq
    (hgrants : (s.invites.map (·.grant)).Nodup) (htargets : ∀ i ∈ targets, i ∈ s.invites) :
    targets.foldl mark s
      = ⟨s.invites.map (markThose targets), s.drawn, s.replaced || !targets.isEmpty⟩ := by
  rw [foldl_mark]
  have hinvites : (s.invites.map fun x =>
      if x.grant ∈ targets.map (·.grant) then x.marked else x)
      = s.invites.map (markThose targets) := by
    apply List.map_congr_left
    intro x hx
    have hmem : x.grant ∈ targets.map (·.grant) ↔ x ∈ targets := by
      rw [List.mem_map]
      constructor
      · rintro ⟨i, hi, hgrant⟩
        have hix : i = x := List.inj_on_of_nodup_map hgrants (htargets i hi) hx hgrant
        exact hix ▸ hi
      · intro h
        exact ⟨x, h, rfl⟩
    unfold markThose
    simp only [hmem]
  rw [hinvites]

/-! ## One owner's turn -/

/-- The invites for one owner, or the members' for nobody. -/
def mineOf (q : Option Hex64) (invites : List StoredInvite) : List StoredInvite :=
  invites.filter fun i => i.gamesFor == q

variable {i : StoredInvite}

variable {invites : List StoredInvite}

theorem mem_mineOf {q : Option Hex64} : i ∈ mineOf q invites ↔ i ∈ invites ∧ i.gamesFor = q := by
  rw [mineOf, List.mem_filter, beq_iff_eq]

theorem mineOf_map (q : Option Hex64) (targets invites : List StoredInvite) :
    mineOf q (invites.map (markThose targets)) = (mineOf q invites).map (markThose targets) := by
  unfold mineOf
  rw [List.filter_map]
  congr 1
  apply List.filter_congr
  intro i _
  simp

theorem mineOf_append (q : Option Hex64) (as bs : List StoredInvite) :
    mineOf q (as ++ bs) = mineOf q as ++ mineOf q bs := List.filter_append as bs

/-- The first `bound` grants drawn differ from each other and from those in use. -/
structure FreshDraws (ctx : ReconcileContext) (bound : ℕ) (invites : List StoredInvite) :
    Prop where
  distinct : ∀ m n, m < n → n < bound → ctx.grants m ≠ ctx.grants n
  unused : ∀ n, n < bound → ctx.grants n ∉ invites.map (·.grant)

/-- No two invites share a grant, and `n` more can be drawn. -/
structure Sound (ctx : ReconcileContext) (bound n : ℕ) (s : Sweep) : Prop where
  grants : (s.invites.map (·.grant)).Nodup
  room : s.drawn + n ≤ bound
  distinct : ∀ m n, m < n → n < bound → ctx.grants m ≠ ctx.grants n
  unused : ∀ m, s.drawn ≤ m → m < bound → ctx.grants m ∉ s.invites.map (·.grant)

variable {bound n : ℕ}

theorem Sound.add
    (h : Sound ctx bound (n + 1) s) (p : Hex64) : Sound ctx bound n (s.add p ctx) := by
  obtain ⟨hgrants, hroom, hdistinct, hunused⟩ := h
  have hmap : (s.add p ctx).invites.map (·.grant)
      = s.invites.map (·.grant) ++ [ctx.grants s.drawn] := by
    show (s.invites ++ [newGamesInvite p ctx s.drawn]).map _ = _
    rw [List.map_append]
    rfl
  have hnew : ctx.grants s.drawn ∉ s.invites.map (·.grant) :=
    hunused s.drawn (le_refl _) (by omega)
  refine ⟨?_, ?_, hdistinct, ?_⟩
  · rw [hmap, List.nodup_append]
    refine ⟨hgrants, List.nodup_singleton _, ?_⟩
    intro g hg g' hg' heq
    rw [List.mem_singleton] at hg'
    exact hnew (hg' ▸ heq ▸ hg)
  · show s.drawn + 1 + n ≤ bound
    omega
  · intro m hm hbound
    have hm' : s.drawn + 1 ≤ m := hm
    rw [hmap, List.mem_append, List.mem_singleton, not_or]
    exact ⟨hunused m (by omega) hbound,
      fun h => hdistinct s.drawn m (by omega) hbound h.symm⟩

theorem Sound.skip (h : Sound ctx bound (n + 1) s) : Sound ctx bound n s :=
  ⟨h.grants, by have := h.room; omega, h.distinct, h.unused⟩

theorem Sound.mark (h : Sound ctx bound n s) (targets : List StoredInvite) (replaced : Bool) :
    Sound ctx bound n ⟨s.invites.map (markThose targets), s.drawn, replaced⟩ := by
  have hmap : (s.invites.map (markThose targets)).map (·.grant) = s.invites.map (·.grant) := by
    rw [List.map_map]
    apply List.map_congr_left
    intro i _
    exact markThose_grant targets i
  refine ⟨?_, h.room, h.distinct, ?_⟩
  · show ((s.invites.map (markThose targets)).map (·.grant)).Nodup
    rw [hmap]
    exact h.grants
  · intro m hm hbound
    show _ ∉ (s.invites.map (markThose targets)).map (·.grant)
    rw [hmap]
    exact h.unused m hm hbound

/-- What an owner's turn decides from the owner's invites: which are marked and what is added. -/
def Decides (k : StoredKeep) (ctx : ReconcileContext) (p : Hex64)
    (mine targets added : List StoredInvite) : Prop :=
  if gamesOn k p then
    targets = superseded mine ctx.now ∧
      ∃ n, added = if needsInvite mine ctx.now then [newGamesInvite p ctx n] else []
  else targets = mine.filter unwantedInvite ∧ added = []

/-- What an owner's turn makes of the owner's invites. -/
def Settles (k : StoredKeep) (ctx : ReconcileContext) (p : Hex64)
    (mine mine' : List StoredInvite) : Prop :=
  ∃ targets added, Decides k ctx p mine targets added ∧
    mine' = mine.map (markThose targets) ++ added

variable {now : ℤ} {mine : List StoredInvite}

theorem mem_superseded :
    i ∈ superseded mine now ↔ (i ∈ mine ∧ liveInvite i now = true) ∧
      ∃ a, longest ((mine.filter (liveInvite · now)).filter (·.status = .active)) = some a ∧
        KEEP_GAMES_RENEW_BEFORE_S ≤ a.expiration - now ∧ i.expiration < a.expiration := by
  unfold superseded
  dsimp only
  cases hlong : longest ((mine.filter (liveInvite · now)).filter (·.status = .active)) with
  | none => simp
  | some a =>
    dsimp only
    by_cases hlasts : KEEP_GAMES_RENEW_BEFORE_S ≤ a.expiration - now
    · rw [if_pos hlasts]
      simp only [List.mem_filter, hlasts, Option.some.injEq, decide_eq_true_eq, exists_eq_left',
        true_and]
    · rw [if_neg hlasts]
      simp [hlasts]

/-- An owner's turn, on a list where no two invites share a grant. -/
theorem sweepOwner_eq {k : StoredKeep} {ctx : ReconcileContext} {bound n : ℕ} {s : Sweep}
    (hs : Sound ctx bound (n + 1) s) (p : Hex64) : ∃ targets added,
      Decides k ctx p (mineOf (some p) s.invites) targets added ∧
      (∀ i ∈ targets, i ∈ mineOf (some p) s.invites) ∧ (∀ i ∈ added, i.gamesFor = some p) ∧
      (sweepOwner k ctx s p).invites = s.invites.map (markThose targets) ++ added ∧
      Sound ctx bound n (sweepOwner k ctx s p) := by
  by_cases hgames : gamesOn k p = true
  · have htargets : ∀ i ∈ superseded (mineOf (some p) s.invites) ctx.now,
        i ∈ mineOf (some p) s.invites := fun i hi => (mem_superseded.1 hi).1.1
    by_cases hneeds : needsInvite (mineOf (some p) s.invites) ctx.now = true
    · have hadd : Sound ctx bound n (s.add p ctx) := hs.add p
      have hsweep : sweepOwner k ctx s p
          = (superseded (mineOf (some p) s.invites) ctx.now).foldl mark (s.add p ctx) := by
        rw [sweepOwner, if_pos hgames]
        show (superseded (mineOf (some p) s.invites) ctx.now).foldl mark
          (if needsInvite (mineOf (some p) s.invites) ctx.now then _ else _) = _
        rw [if_pos hneeds]
      rw [hsweep, foldl_mark_eq hadd.grants fun i hi =>
        List.mem_append_left _ (mem_mineOf.1 (htargets i hi)).1]
      refine ⟨_, [newGamesInvite p ctx s.drawn], ?_, htargets, ?_, ?_, hadd.mark _ _⟩
      · rw [Decides, if_pos hgames]
        exact ⟨rfl, s.drawn, (if_pos hneeds).symm⟩
      · intro i hi
        rw [List.mem_singleton.1 hi]
        rfl
      · -- The new invite shares no grant with a target.
        have hnew : newGamesInvite p ctx s.drawn
            ∉ superseded (mineOf (some p) s.invites) ctx.now := by
          intro h
          have hroom := hs.room
          exact hs.unused s.drawn (le_refl _) (by omega)
            (List.mem_map.2 ⟨_, (mem_mineOf.1 (htargets _ h)).1, rfl⟩)
        show (s.invites ++ [newGamesInvite p ctx s.drawn]).map (markThose _) = _
        rw [List.map_append, List.map_singleton]
        congr 2
        exact if_neg hnew
    · have hskip : Sound ctx bound n s := hs.skip
      have hsweep : sweepOwner k ctx s p
          = (superseded (mineOf (some p) s.invites) ctx.now).foldl mark s := by
        rw [sweepOwner, if_pos hgames]
        show (superseded (mineOf (some p) s.invites) ctx.now).foldl mark
          (if needsInvite (mineOf (some p) s.invites) ctx.now then _ else _) = _
        rw [if_neg hneeds]
      rw [hsweep, foldl_mark_eq hskip.grants fun i hi => (mem_mineOf.1 (htargets i hi)).1]
      refine ⟨_, [], ?_, htargets, fun i hi => (by cases hi), (List.append_nil _).symm,
        hskip.mark _ _⟩
      rw [Decides, if_pos hgames]
      exact ⟨rfl, 0, (if_neg hneeds).symm⟩
  · have hsweep : sweepOwner k ctx s p
        = ((mineOf (some p) s.invites).filter unwantedInvite).foldl mark s := by
      rw [sweepOwner, if_neg hgames]
      rfl
    have htargets : ∀ i ∈ (mineOf (some p) s.invites).filter unwantedInvite,
        i ∈ mineOf (some p) s.invites := fun i hi => List.mem_of_mem_filter hi
    rw [hsweep, foldl_mark_eq hs.grants fun i hi => (mem_mineOf.1 (htargets i hi)).1]
    refine ⟨_, [], ?_, htargets, fun i hi => (by cases hi), (List.append_nil _).symm,
      hs.skip.mark _ _⟩
    rw [Decides, if_neg hgames]
    exact ⟨rfl, rfl⟩

/-- The owners' turns settle one owner after the other. -/
theorem sweeping (k : StoredKeep) (ctx : ReconcileContext) (bound : ℕ) :
    Sweeping (fun q (s : Sweep) => mineOf q s.invites) some (sweepOwner k ctx)
      (Sound ctx bound) (Settles k ctx) where
  inv := by
    intro n s p hs
    obtain ⟨_, _, _, _, _, _, hsound⟩ := @sweepOwner_eq k ctx bound n s hs p
    exact hsound
  frame := by
    intro n s p q hs hq
    obtain ⟨targets, added, _, htargets, hadded, hinvites, _⟩ :=
      @sweepOwner_eq k ctx bound n s hs p
    show mineOf q (sweepOwner k ctx s p).invites = mineOf q s.invites
    have hnone : mineOf q added = [] := by
      apply List.filter_eq_nil_iff.2
      intro i hi hcond
      rw [hadded i hi, beq_iff_eq] at hcond
      exact hq hcond.symm
    rw [hinvites, mineOf_append, hnone, List.append_nil, mineOf_map]
    calc (mineOf q s.invites).map (markThose targets)
        = (mineOf q s.invites).map id := by
          apply List.map_congr_left
          intro i hi
          apply if_neg
          intro ht
          exact hq ((mem_mineOf.1 hi).2.symm.trans (mem_mineOf.1 (htargets i ht)).2)
      _ = mineOf q s.invites := List.map_id _
  own := by
    intro n s p hs
    obtain ⟨targets, added, hdecides, htargets, hadded, hinvites, _⟩ :=
      @sweepOwner_eq k ctx bound n s hs p
    refine ⟨targets, added, hdecides, ?_⟩
    show mineOf (some p) (sweepOwner k ctx s p).invites = _
    have hall : mineOf (some p) added = added := by
      apply List.filter_eq_self.2
      intro i hi
      rw [hadded i hi, beq_iff_eq]
    rw [hinvites, mineOf_append, hall, mineOf_map]

/-! ## What a settled owner has -/

variable {a : StoredInvite}

theorem longest_spec
    (h : longest invites = some a) : a ∈ invites ∧ ∀ b ∈ invites, b.expiration ≤ a.expiration := by
  obtain ⟨hmem, hmax⟩ := @head?_mergeSort _ _ _ a
    (fun a b c hab hbc => by simp only [decide_eq_true_eq] at *; omega)
    (fun a b => by simp only [Bool.or_eq_true, decide_eq_true_eq]; omega) h
  exact ⟨hmem, fun b hb => of_decide_eq_true (hmax b hb)⟩

theorem latest_map (targets invites : List StoredInvite) :
    latest (invites.map (markThose targets)) = (latest invites).map (markThose targets) := by
  unfold latest
  rw [← List.head?_map, List.map_mergeSort]
  intro a _ b _
  rw [markThose_createdAt, markThose_createdAt]

/-- A live invite that is valid beyond the renewal time. -/
def Lasting (now : ℤ) (i : StoredInvite) : Prop :=
  liveInvite i now = true ∧ KEEP_GAMES_RENEW_BEFORE_S ≤ i.expiration - now

/-- The newest of these invites was refused, and the owner has not tried again. -/
def RefusedLast (mine : List StoredInvite) : Prop := ∃ i, latest mine = some i ∧ i.status = .refused

theorem not_needsInvite_iff :
    needsInvite mine now = false ↔ RefusedLast mine ∨ ∃ i ∈ mine, Lasting now i := by
  have hrefused : ((latest mine).any (·.status = .refused)) = true ↔ RefusedLast mine := by
    unfold RefusedLast
    cases latest mine <;> simp
  have hlasting : (longest (mine.filter (liveInvite · now))).all
      (·.expiration - now < KEEP_GAMES_RENEW_BEFORE_S) = false ↔ ∃ i ∈ mine, Lasting now i := by
    cases hlong : longest (mine.filter (liveInvite · now)) with
    | none =>
      have hempty := head?_mergeSort_eq_none.1 hlong
      constructor
      · intro h
        cases h
      · rintro ⟨i, hi, hlive, _⟩
        exact absurd (List.mem_filter.2 ⟨hi, hlive⟩) (hempty ▸ List.not_mem_nil)
    | some a =>
      obtain ⟨hmem, hmax⟩ := longest_spec hlong
      rw [Option.all_some, decide_eq_false_iff_not]
      constructor
      · intro h
        exact ⟨a, List.mem_of_mem_filter hmem, (List.mem_filter.1 hmem).2, by omega⟩
      · rintro ⟨i, hi, hlive, hlasts⟩
        have hle := hmax i (List.mem_filter.2 ⟨hi, hlive⟩)
        omega
  unfold needsInvite
  rw [Bool.and_eq_false_iff, Bool.not_eq_false', hrefused, hlasting]

theorem liveInvite_marked (i : StoredInvite) (now : ℤ) : liveInvite i.marked now = false := by
  simp [liveInvite]

theorem liveInvite_markThose (h : liveInvite (markThose targets i) now = true) :
    i ∉ targets ∧ markThose targets i = i := by
  rcases markThose_cases targets i with ⟨_, hi⟩ | hi
  · rw [hi, liveInvite_marked] at h
    cases h
  · exact hi

theorem lasting_newGamesInvite (p : Hex64) (ctx : ReconcileContext) (n : ℕ) :
    Lasting ctx.now (newGamesInvite p ctx n) := by
  unfold Lasting liveInvite isExpired newGamesInvite KEEP_GAMES_RENEW_BEFORE_S KEEP_GAMES_INVITE_S
  constructor
  · simp
  · show (30 * 86400 : ℤ) ≤ ctx.now + (365 * 86400 - 3600) - ctx.now
    omega

theorem not_superseded
    (h : longest ((mine.filter (liveInvite · now)).filter (·.status = .active)) = some a) :
    a ∉ superseded mine now := by
  intro ha
  obtain ⟨_, b, hb, _, hlt⟩ := mem_superseded.1 ha
  rw [h, Option.some.injEq] at hb
  subst hb
  omega

variable {mine' : List StoredInvite}

/-- An owner with Games on has a lasting invite, or the newest one was refused. -/
theorem settled_games (hgames : gamesOn k p = true)
    (h : Settles k ctx p mine mine') : RefusedLast mine' ∨ ∃ i ∈ mine', Lasting ctx.now i := by
  obtain ⟨targets, added, hdecides, rfl⟩ := h
  rw [Decides, if_pos hgames] at hdecides
  obtain ⟨rfl, n, rfl⟩ := hdecides
  by_cases hneeds : needsInvite mine ctx.now = true
  · rw [if_pos hneeds]
    exact .inr ⟨_, List.mem_append_right _ (List.mem_singleton_self _),
      lasting_newGamesInvite p ctx n⟩
  · rw [if_neg hneeds, List.append_nil]
    rcases not_needsInvite_iff.1 (Bool.eq_false_iff.2 hneeds) with hrefused | ⟨i, hi, hlasts⟩
    · obtain ⟨i, hlatest, hstatus⟩ := hrefused
      refine .inl ⟨markThose (superseded mine ctx.now) i, ?_, ?_⟩
      · rw [latest_map, hlatest]
        rfl
      · rw [markThose_status, hstatus]
    · -- The longest of the live invites outlasts this one, so it is not marked.
      right
      cases hlong : longest (mine.filter (liveInvite · ctx.now)) with
      | none =>
        have hempty := head?_mergeSort_eq_none.1 hlong
        exact absurd (List.mem_filter.2 ⟨hi, hlasts.1⟩) (hempty ▸ List.not_mem_nil)
      | some a =>
        obtain ⟨hmem, hmax⟩ := longest_spec hlong
        have hle := hmax i (List.mem_filter.2 ⟨hi, hlasts.1⟩)
        have hnot : a ∉ superseded mine ctx.now := by
          intro ha
          obtain ⟨_, b, hb, _, hlt⟩ := mem_superseded.1 ha
          have hb' := hmax b (List.mem_of_mem_filter (longest_spec hb).1)
          omega
        have hkept : markThose (superseded mine ctx.now) a = a := if_neg hnot
        refine ⟨a, List.mem_map.2 ⟨a, List.mem_of_mem_filter hmem, hkept⟩,
          (List.mem_filter.1 hmem).2, ?_⟩
        have := hlasts.2
        omega

theorem settled_keeps (hgames : gamesOn k p = true)
    (h : Settles k ctx p mine mine') (hi : i ∈ mine') (hrevoke : i.revokeSent = true) : i ∈ mine ∨
      ∃ a ∈ mine', a.status = .active ∧ Lasting ctx.now a ∧ i.expiration < a.expiration := by
  obtain ⟨targets, added, hdecides, rfl⟩ := h
  rw [Decides, if_pos hgames] at hdecides
  obtain ⟨rfl, n, rfl⟩ := hdecides
  rcases List.mem_append.1 hi with hi | hi
  · obtain ⟨x, hx, rfl⟩ := List.mem_map.1 hi
    rcases markThose_cases (superseded mine ctx.now) x with ⟨hmem, hmark⟩ | ⟨_, hmark⟩
    · right
      obtain ⟨_, a, hlong, hlasts, hlt⟩ := mem_superseded.1 hmem
      have ha := (longest_spec hlong).1
      have hkept : markThose (superseded mine ctx.now) a = a := if_neg (not_superseded hlong)
      have hlive := List.mem_of_mem_filter ha
      refine ⟨a, List.mem_append_left _ (List.mem_map.2 ⟨a, List.mem_of_mem_filter hlive, hkept⟩),
        of_decide_eq_true (List.mem_filter.1 ha).2, ⟨(List.mem_filter.1 hlive).2, hlasts⟩, ?_⟩
      rw [hmark]
      exact hlt
    · rw [hmark]
      exact .inl hx
  · split at hi
    · rw [List.mem_singleton.1 hi] at hrevoke
      cases hrevoke
    · cases hi

theorem settled_unwanted (hgames : gamesOn k p = false)
    (h : Settles k ctx p mine mine') (hi : i ∈ mine')
    (hstatus : i.status = .waiting ∨ i.status = .active) : i.revokeSent = true := by
  obtain ⟨targets, added, hdecides, rfl⟩ := h
  rw [Decides, if_neg (by rw [hgames]; exact Bool.false_ne_true)] at hdecides
  obtain ⟨rfl, rfl⟩ := hdecides
  rw [List.append_nil] at hi
  obtain ⟨x, hx, rfl⟩ := List.mem_map.1 hi
  rcases markThose_cases (mine.filter unwantedInvite) x with ⟨_, hmark⟩ | ⟨hnot, hmark⟩
  · rw [hmark]
    rfl
  · rw [hmark] at hstatus ⊢
    by_contra hrevoke
    apply hnot
    apply List.mem_filter.2
    refine ⟨hx, ?_⟩
    have hno : x.revokeSent = false := Bool.eq_false_iff.2 hrevoke
    rcases hstatus with hstatus | hstatus <;> simp [unwantedInvite, hstatus, hno]

/-- An owner's turn would do nothing. -/
def Quiet (k : StoredKeep) (now : ℤ) (p : Hex64) (mine : List StoredInvite) : Prop :=
  if gamesOn k p then needsInvite mine now = false ∧ superseded mine now = []
  else mine.filter unwantedInvite = []

/-- A settled owner's next turn does nothing. -/
theorem quiet_of_settles (h : Settles k ctx p mine mine') : Quiet k ctx.now p mine' := by
  unfold Quiet
  by_cases hgames : gamesOn k p = true
  · rw [if_pos hgames]
    refine ⟨not_needsInvite_iff.2 (settled_games hgames h), ?_⟩
    obtain ⟨targets, added, hdecides, rfl⟩ := h
    rw [Decides, if_pos hgames] at hdecides
    obtain ⟨rfl, n, rfl⟩ := hdecides
    -- Whatever is live and was there before has stayed as it was.
    have hold : ∀ x ∈ mine.map (markThose (superseded mine ctx.now)),
        liveInvite x ctx.now = true → x ∈ mine ∧ x ∉ superseded mine ctx.now := by
      intro x hx hlive
      obtain ⟨y, hy, rfl⟩ := List.mem_map.1 hx
      obtain ⟨hnot, hkept⟩ := liveInvite_markThose hlive
      rw [hkept]
      exact ⟨hy, hnot⟩
    rw [List.eq_nil_iff_forall_not_mem]
    intro i hi
    obtain ⟨⟨himem, hilive⟩, a, hlong, hlasts, hlt⟩ := mem_superseded.1 hi
    have ha := (longest_spec hlong).1
    have halive := (List.mem_filter.1 (List.mem_of_mem_filter ha)).2
    have hactive : a.status = .active := of_decide_eq_true (List.mem_filter.1 ha).2
    -- The longest active invite was there before: a new one is waiting.
    have hamine : a ∈ mine := by
      rcases List.mem_append.1 (List.mem_of_mem_filter (List.mem_of_mem_filter ha)) with hmem | hmem
      · exact (hold a hmem halive).1
      · split at hmem
        · rw [List.mem_singleton.1 hmem] at hactive
          cases hactive
        · cases hmem
    have hamem : a ∈ (mine.filter (liveInvite · ctx.now)).filter (·.status = .active) :=
      List.mem_filter.2 ⟨List.mem_filter.2 ⟨hamine, halive⟩, decide_eq_true hactive⟩
    rcases List.mem_append.1 himem with hmem | hmem
    · obtain ⟨himine, hinot⟩ := hold i hmem hilive
      apply hinot
      cases hbefore : longest ((mine.filter (liveInvite · ctx.now)).filter (·.status = .active)) with
      | none =>
        rw [head?_mergeSort_eq_none.1 hbefore] at hamem
        cases hamem
      | some b =>
        have hab := (longest_spec hbefore).2 a hamem
        exact mem_superseded.2 ⟨⟨himine, hilive⟩, b, hbefore, by omega, by omega⟩
    · split at hmem
      · -- A new invite is made only where no live one lasts.
        next hneeds =>
        have hnone : needsInvite mine ctx.now = false :=
          not_needsInvite_iff.2 (.inr ⟨a, hamine, halive, hlasts⟩)
        rw [hneeds] at hnone
        cases hnone
      · cases hmem
  · rw [if_neg hgames, List.filter_eq_nil_iff]
    intro i hi hunwanted
    have hstatus : (i.status = .waiting ∨ i.status = .active) ∧ i.revokeSent = false := by
      simp only [unwantedInvite, Bool.and_eq_true, Bool.or_eq_true, decide_eq_true_eq,
        Bool.not_eq_true'] at hunwanted
      exact ⟨hunwanted.2, hunwanted.1.2⟩
    have hrevoke := settled_unwanted (Bool.eq_false_iff.2 hgames) h hi hstatus.1
    rw [hstatus.2] at hrevoke
    cases hrevoke

/-! ## The whole pass -/

theorem replaced_foldl_mark (targets : List StoredInvite) (s : Sweep)
    (h : (targets.foldl mark s).replaced = false) : targets.foldl mark s = s := by
  cases targets with
  | nil => rfl
  | cons i targets =>
    rw [foldl_mark] at h
    have htrue : (s.replaced || true) = false := h
    rw [Bool.or_true] at htrue
    cases htrue

theorem sweepOwner_of_same
    (h : (sweepOwner k ctx s p).replaced = false) : sweepOwner k ctx s p = s := by
  unfold sweepOwner at h ⊢
  dsimp only at h ⊢
  split at h
  · next hgames =>
    rw [if_pos hgames]
    have hmarks := replaced_foldl_mark _ _ h
    rw [hmarks] at h ⊢
    split at h
    · cases h
    · next hneeds => exact if_neg hneeds
  · next hgames =>
    rw [if_neg hgames]
    exact replaced_foldl_mark _ _ h

theorem foldl_of_same (ps : List Hex64) :
    ∀ s : Sweep, (ps.foldl (sweepOwner k ctx) s).replaced = false →
      ps.foldl (sweepOwner k ctx) s = s := by
  induction ps with
  | nil => intro s _; rfl
  | cons p ps ih =>
    intro s h
    rw [List.foldl_cons] at h ⊢
    have hrest := ih _ h
    rw [hrest] at h ⊢
    exact sweepOwner_of_same h

theorem mem_gamesOwners :
    p ∈ gamesOwners k ↔ p ∈ k.personas ∨ ∃ i ∈ k.invites, i.gamesFor = some p := by
  rw [gamesOwners, mem_distinct, List.mem_append, List.mem_filterMap]

theorem length_gamesOwners_le (k : StoredKeep) :
    (gamesOwners k).length ≤ k.personas.length + k.invites.length := by
  refine le_trans (length_distinct_le _) ?_
  rw [List.length_append]
  have hle : (k.invites.filterMap (·.gamesFor)).length ≤ k.invites.length :=
    List.length_filterMap_le _ _
  omega

theorem personas_of_gamesOn (h : gamesOn k p = true) : p ∈ k.personas := by
  apply OrderedMap.mem_keys_iff.2
  unfold gamesOn at h
  cases hget : k.links.get p with
  | none => rw [hget] at h; cases h
  | some link => rfl

theorem swept_spec
    (hgrants : (k.invites.map (·.grant)).Nodup) (hdraws : FreshDraws ctx bound k.invites)
    (hbound : (gamesOwners k).length ≤ bound) :
    ∀ s, s = (gamesOwners k).foldl (sweepOwner k ctx) ⟨k.invites, 0, false⟩ →
      (∀ p ∈ gamesOwners k, Settles k ctx p (mineOf (some p) k.invites)
        (mineOf (some p) s.invites)) ∧
      (∀ p, p ∉ gamesOwners k → mineOf (some p) s.invites = []) ∧
      mineOf none s.invites = mineOf none k.invites := by
  rintro s rfl
  have hsound : Sound ctx bound (gamesOwners k).length ⟨k.invites, 0, false⟩ :=
    ⟨hgrants, by rw [Nat.zero_add]; exact hbound, hdraws.distinct, fun m _ hm => hdraws.unused m hm⟩
  refine ⟨?_, ?_, ?_⟩
  · intro p hp
    exact (sweeping k ctx bound).own_foldl hsound
      ((nodup_distinct _).map (Option.some_injective _)) hp
  · intro p hp
    refine ((sweeping k ctx bound).frame_foldl hsound ?_).trans ?_
    · intro q hq heq
      rw [Option.some.injEq] at heq
      exact hp (heq ▸ hq)
    · rw [List.eq_nil_iff_forall_not_mem]
      intro i hi
      exact hp (mem_gamesOwners.2 (.inr ⟨i, mem_mineOf.1 hi⟩))
  · refine (sweeping k ctx bound).frame_foldl hsound ?_
    intro q _ heq
    cases heq

theorem sweepOwner_quiet
    (h : Quiet k ctx.now p (mineOf (some p) s.invites)) : sweepOwner k ctx s p = s := by
  unfold Quiet at h
  unfold sweepOwner
  dsimp only
  split at h
  · next hgames =>
    rw [if_pos hgames]
    have hneeds : ¬ needsInvite (s.invites.filter fun i => i.gamesFor == some p) ctx.now = true :=
      Bool.eq_false_iff.1 h.1
    have hsuperseded : superseded (s.invites.filter fun i => i.gamesFor == some p) ctx.now = [] :=
      h.2
    rw [if_neg hneeds, hsuperseded, List.foldl_nil]
  · next hgames =>
    rw [if_neg hgames]
    have hunwanted : (s.invites.filter fun i => i.gamesFor == some p).filter unwantedInvite = [] := h
    rw [hunwanted, List.foldl_nil]

theorem reconcileKeep_paired {keep k : StoredKeep} {ctx : ReconcileContext} {b : Bool}
    (hpaired : keep.status = .paired) (hlink : autoLink keep ctx = some (k, b)) :
    ∃ s same, s = (gamesOwners k).foldl (sweepOwner k ctx) ⟨k.invites, 0, false⟩ ∧
      reconcileKeep keep ctx = some ⟨{ k with invites := s.invites }, same⟩ ∧
      same = (!b && !s.replaced) := by
  refine ⟨_, _, rfl, ?_, rfl⟩
  rw [reconcileKeep, if_neg (not_not.2 hpaired), hlink]
  show some (Reconciled.mk (if _ then _ else k) _) = _
  split
  · rfl
  · next h =>
    rw [foldl_of_same _ _ (Bool.eq_false_iff.2 h)]

/-- Where every invite is as the pass left it, a pass changes nothing and returns the Keep it was
given. A pending Keep is always returned so. -/
theorem reconcileKeep_settles (keep : StoredKeep) (ctx : ReconcileContext)
    (hgrants : (keep.invites.map (·.grant)).Nodup) (heligible : ctx.eligible.Nodup)
    (hdraws : FreshDraws ctx
      (keep.personas.length + KEEP_MAX_OWNER_PERSONAS + keep.invites.length) keep.invites) :
    ∃ out, reconcileKeep keep ctx = some out ∧
      (∀ ctx', SameWishes ctx ctx' → reconcileKeep out.keep ctx' = some ⟨out.keep, true⟩) ∧
      (keep.status = .pending → out = ⟨keep, true⟩) ∧
      (keep.status = .paired →
        (∀ p, gamesOn out.keep p = true → RefusedLast (gamesInvitesFor out.keep p) ∨
          ∃ i ∈ gamesInvitesFor out.keep p, Lasting ctx.now i) ∧
        (∀ p, gamesOn out.keep p = false → ∀ i ∈ gamesInvitesFor out.keep p,
          i.status = .waiting ∨ i.status = .active → i.revokeSent = true) ∧
        out.keep.invites.filter (·.gamesFor == none) = keep.invites.filter (·.gamesFor == none) ∧
        -- An active invite that this pass marked.
        (∀ i ∈ out.keep.invites, i ∉ keep.invites → i.status = .active → i.revokeSent = true →
          ∃ p, i.gamesFor = some p ∧ (gamesOn out.keep p = false ∨
            ∃ a ∈ gamesInvitesFor out.keep p, a.status = .active ∧ Lasting ctx.now a ∧
              i.expiration < a.expiration)) ∧
        (keep.scope = .all → (∀ u ∈ keep.update, u.failed = none) → canCompose keep = true →
          (pickSigner keep ctx.canSign none).isSome → ∀ p ∈ ctx.eligible, p ∉ keep.seen →
            isLinked out.keep p = true ∨
              KEEP_MAX_OWNER_PERSONAS ≤ out.keep.personas.length)) := by
  cases hstatus : keep.status with
  | pending =>
    have hpending : ∀ c, reconcileKeep keep c = some ⟨keep, true⟩ := by
      intro c
      rw [reconcileKeep, if_pos (by rw [hstatus]; decide)]
    exact ⟨⟨keep, true⟩, hpending ctx, fun c _ => hpending c, fun _ => rfl, fun h => (by cases h)⟩
  | paired =>
    obtain ⟨k, b, hlink, hinvites, hkstatus, hlength, hcomplete, hagain⟩ :=
      @autoLink_spec keep ctx heligible
    obtain ⟨s, same, hs, hout, _⟩ := reconcileKeep_paired hstatus hlink
    have hbound : (gamesOwners k).length
        ≤ keep.personas.length + KEEP_MAX_OWNER_PERSONAS + keep.invites.length := by
      have hle := length_gamesOwners_le k
      rw [hinvites] at hle
      omega
    rw [← hinvites] at hgrants hdraws hbound
    obtain ⟨hsettles, hothers, hmembers⟩ := swept_spec hgrants hdraws hbound s hs
    refine ⟨_, hout, ?_, fun h => (by cases h), fun _ => ⟨?_, ?_, ?_, ?_, ?_⟩⟩
    · intro ctx' hsame
      obtain ⟨s', same', hs', hout', hsame'⟩ := @reconcileKeep_paired { k with invites := s.invites }
        { k with invites := s.invites } ctx' false (hkstatus.trans hstatus) (hagain ctx' _ hsame)
      have hstill : s' = ⟨s.invites, 0, false⟩ := by
        rw [hs']
        apply foldl_of_still
        intro p _
        apply sweepOwner_quiet
        show Quiet k ctx'.now p (mineOf (some p) s.invites)
        rw [hsame.1]
        by_cases hp : p ∈ gamesOwners k
        · exact quiet_of_settles (hsettles p hp)
        · have hgames : ¬ gamesOn k p = true := fun h =>
            hp (mem_gamesOwners.2 (.inl (personas_of_gamesOn h)))
          rw [hothers p hp, Quiet, if_neg hgames, List.filter_nil]
      rw [hstill] at hout' hsame'
      rw [hout', hsame']
      rfl
    · intro p hgames
      have hgames' : gamesOn k p = true := hgames
      exact settled_games hgames'
        (hsettles p (mem_gamesOwners.2 (.inl (personas_of_gamesOn hgames'))))
    · intro p hgames i hi hwaits
      have hi' : i ∈ mineOf (some p) s.invites := hi
      by_cases hp : p ∈ gamesOwners k
      · exact settled_unwanted hgames (hsettles p hp) hi' hwaits
      · rw [hothers p hp] at hi'
        cases hi'
    · rw [← hinvites]
      exact hmembers
    · intro i hi hnew _ hrevoke
      have hi' : i ∈ s.invites := hi
      rw [← hinvites] at hnew
      cases hfor : i.gamesFor with
      | none =>
        have hmem : i ∈ mineOf none s.invites := mem_mineOf.2 ⟨hi', hfor⟩
        rw [hmembers] at hmem
        exact absurd (mem_mineOf.1 hmem).1 hnew
      | some p =>
        refine ⟨p, rfl, ?_⟩
        have hmem : i ∈ mineOf (some p) s.invites := mem_mineOf.2 ⟨hi', hfor⟩
        cases hgames : gamesOn k p with
        | false => exact .inl hgames
        | true =>
          have hp : p ∈ gamesOwners k := mem_gamesOwners.2 (.inl (personas_of_gamesOn hgames))
          rcases settled_keeps hgames (hsettles p hp) hmem hrevoke with hold | hlonger
          · exact absurd (mem_mineOf.1 hold).1 hnew
          · exact .inr hlonger
    · exact hcomplete

/-! ## Keeps that show the limits -/

/-- The claimer's link right after the claim. -/
def claimerLink : PersonaLink := ⟨[KEEP_SECTION_GAMES], some 0, true, none⟩

/-- A Keep as it stands while the claim is unanswered. -/
def newPendingKeep (claimedBy : Hex64) (scope : KeepScope) : StoredKeep :=
  { claimedBy, scope, rev := 0
    links := ⟨[(claimedBy, claimerLink)], List.nodup_singleton _⟩
    seen := [claimedBy], update := none, status := .pending, invites := [] }

/-- Grants that differ in their last two digits. -/
def countedGrant (n : ℕ) : Hex32 :=
  ⟨List.replicate 30 48 ++ [hexDigit (Fin.ofNat 16 (n / 16)), hexDigit (Fin.ofNat 16 n)], by
    simp [isHexOf, isHexDigit_hexDigit]; decide⟩

/-- A context in which this device holds every key. -/
def openContext (eligible : List Hex64) : ReconcileContext :=
  { now := 1800000000, eligible, canSign := fun _ => true, nameOf := fun _ => lit "Alice"
    grants := countedGrant, secrets := fun _ => Hex.repeated 64 0 }

theorem countedGrant_distinct : ∀ n < 17, ∀ m < n, countedGrant m ≠ countedGrant n := by
  decide

/-- A Keep whose claim was answered is linked to the other persona, once. -/
theorem reconcileKeep_settles_claimed :
    ∃ out, reconcileKeep { newPendingKeep (Hex.repeated 64 10) .all with status := .paired }
        (openContext [Hex.repeated 64 10, Hex.repeated 64 11]) = some out ∧
      (∀ ctx', SameWishes (openContext [Hex.repeated 64 10, Hex.repeated 64 11]) ctx' →
        reconcileKeep out.keep ctx' = some ⟨out.keep, true⟩) ∧
      (isLinked out.keep (Hex.repeated 64 11) = true ∨
        KEEP_MAX_OWNER_PERSONAS ≤ out.keep.personas.length) := by
  obtain ⟨out, hout, hagain, _, hpaired⟩ := reconcileKeep_settles
    { newPendingKeep (Hex.repeated 64 10) .all with status := .paired }
    (openContext [Hex.repeated 64 10, Hex.repeated 64 11]) List.nodup_nil (by decide +kernel)
    ⟨fun m n hm hn => countedGrant_distinct n hn m hm, fun _ _ h => (by cases h)⟩
  obtain ⟨_, _, _, _, hlinked⟩ := hpaired rfl
  refine ⟨out, hout, hagain, hlinked rfl ?_ (by decide) (by decide +kernel) _ ?_
    (by decide +kernel)⟩
  · intro u hu
    cases hu
  · exact List.mem_cons_of_mem _ List.mem_cons_self

/-- A games invite or a member's invite, all with one grant. -/
def plainInvite (gamesFor : Option Hex64) : StoredInvite :=
  { grant := countedGrant 0, secret := Hex.repeated 64 0, kind := .personal
    persona := some (Hex.repeated 64 12), gamesFor, label := none
    createdAt := 1800000000, expiration := 1810000000, status := .active, reason := none
    revokeSent := false, sentAt := none, revokeSentAt := none, ackAt := none }

/-- A paired Keep whose one persona has Games off. -/
def quietKeep : StoredKeep :=
  { newPendingKeep (Hex.repeated 64 10) .all with
    status := .paired
    links := ⟨[(Hex.repeated 64 10, ⟨[], some 0, true, none⟩)], List.nodup_singleton _⟩ }

theorem crowdedLinks_nodup : ((((List.finRange 16).take 14).map fun d =>
    (Hex.repeated 64 d, (⟨[], some 0, true, none⟩ : PersonaLink))).map Prod.fst).Nodup := by
  decide

/-- A paired Keep with fourteen personas, all with Games off. -/
def crowdedKeep : StoredKeep :=
  { quietKeep with
    links := ⟨((List.finRange 16).take 14).map fun d =>
      (Hex.repeated 64 d, ⟨[], some 0, true, none⟩), crowdedLinks_nodup⟩ }

theorem crowded_leaves_room :
    (autoLink crowdedKeep
      (openContext [Hex.repeated 64 14, Hex.repeated 64 14, Hex.repeated 64 15])).map
        (fun l => (isLinked l.1 (Hex.repeated 64 15), l.1.personas.length)) = some (false, 15) := by
  decide +kernel

/-- Nothing is done for a pending Keep; a member's invite is marked with a games invite of the same
grant; nobody is linked at the last revision, nor past a persona named twice. -/
theorem reconcileKeep_limits :
    (gamesOn (newPendingKeep (Hex.repeated 64 10) .all) (Hex.repeated 64 10) = true ∧
      reconcileKeep (newPendingKeep (Hex.repeated 64 10) .all) (openContext [])
        = some ⟨newPendingKeep (Hex.repeated 64 10) .all, true⟩ ∧
      (newPendingKeep (Hex.repeated 64 10) .all).invites = []) ∧
    (reconcileKeep { quietKeep with
          invites := [plainInvite (some (Hex.repeated 64 12)), plainInvite none] }
        (openContext [])).map (fun out => out.keep.invites.filter (·.gamesFor == none))
      = some [(plainInvite none).marked] ∧
    (reconcileKeep { quietKeep with rev := maxSafeInteger }
        (openContext [Hex.repeated 64 11])).map
        (fun out => (isLinked out.keep (Hex.repeated 64 11), out.keep.personas.length))
      = some (false, 1) ∧
    ∃ out, reconcileKeep crowdedKeep
        (openContext [Hex.repeated 64 14, Hex.repeated 64 14, Hex.repeated 64 15]) = some out ∧
      isLinked out.keep (Hex.repeated 64 15) = false ∧
      out.keep.personas.length < KEEP_MAX_OWNER_PERSONAS := by
  refine ⟨⟨by decide +kernel, by decide +kernel, rfl⟩, by decide +kernel, by decide +kernel, ?_⟩
  have hlinked := crowded_leaves_room
  cases hlink : autoLink crowdedKeep
      (openContext [Hex.repeated 64 14, Hex.repeated 64 14, Hex.repeated 64 15]) with
  | none =>
    rw [hlink] at hlinked
    cases hlinked
  | some linked =>
    rw [hlink, Option.map_some, Option.some.injEq, Prod.mk.injEq] at hlinked
    obtain ⟨s, same, _, hout, _⟩ :=
      @reconcileKeep_paired crowdedKeep linked.1 _ linked.2 rfl hlink
    refine ⟨_, hout, hlinked.1, ?_⟩
    show linked.1.personas.length < 16
    rw [hlinked.2]
    decide

end SignetApp.Keep
