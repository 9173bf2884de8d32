import SignetApp.Family.PolicyCompiler

/-!
# The ceiling of a child's own phone

What `compileChildDirectPolicy` lists: at least relay authentication, at most as many kinds as the
firmware takes, and where there are more, those that come first. A ceiling is never empty, since an
empty list would mean every kind.
-/

namespace SignetApp.Family

open SignetApp.Js SignetApp.Grants SignetApp.Child

/-! ## What stands before -/

section

variable {α : Type} [DecidableEq α]

theorem prefix_foldl_insertNew (as bs : List α) : as <+: bs.foldl insertNew as := by
  induction bs generalizing as with
  | nil => exact List.prefix_rfl
  | cons b bs ih =>
    have hstep : as <+: insertNew as b := by
      unfold insertNew
      split
      · exact List.prefix_rfl
      · exact List.prefix_append as [b]
    exact hstep.trans (ih (insertNew as b))

theorem prefix_distinct_append (as bs : List α) : distinct as <+: distinct (as ++ bs) := by
  unfold distinct
  rw [List.foldl_append]
  exact prefix_foldl_insertNew _ bs

variable {as : List α}

theorem prefix_distinct_cons {a : α} (ha : a ∉ as) (bs : List α) :
    distinct as ++ [a] <+: distinct (as ++ a :: bs) := by
  have hnew : distinct (as ++ [a]) = distinct as ++ [a] := by
    rw [distinct_concat, insertNew, if_neg (mem_distinct.not.2 ha)]
  have hsplit : as ++ a :: bs = (as ++ [a]) ++ bs := by simp
  rw [← hnew, hsplit]
  exact prefix_distinct_append (as ++ [a]) bs

theorem distinct_of_nodup (h : as.Nodup) : distinct as = as := by
  induction as using List.reverseRecOn with
  | nil => rfl
  | append_singleton as a ih =>
    obtain ⟨has, -, hdisj⟩ := List.nodup_append.1 h
    rw [distinct_concat, ih has, insertNew, if_neg]
    intro ha
    exact hdisj a ha a (by simp) rfl

theorem length_distinct_congr {bs : List α} (h : ∀ a, a ∈ as ↔ a ∈ bs) :
    (distinct as).length = (distinct bs).length := by
  apply List.Perm.length_eq
  rw [List.perm_ext_iff_of_nodup (nodup_distinct as) (nodup_distinct bs)]
  simpa [mem_distinct] using h

omit [DecidableEq α] in
theorem take_prefix_of_not_mem {pre : List α} {a : α} {n : ℕ} (hpre : pre ++ [a] <+: as)
    (ha : a ∉ as.take n) : as.take n <+: pre ∧ (as.take n).length = n := by
  have hlong : n ≤ pre.length := by
    by_contra hn
    have hle : (pre ++ [a]).length ≤ n := by simp; omega
    have hin : pre ++ [a] <+: as.take n := List.prefix_take_iff.2 ⟨hpre, hle⟩
    exact ha (hin.subset (by simp))
  have htake : as.take n = pre.take n := by
    obtain ⟨rest, rfl⟩ := hpre
    rw [List.append_assoc, List.take_append_of_le_length hlong]
  rw [htake]
  exact ⟨List.take_prefix n pre, by simp [hlong]⟩

end

/-! ## Sorted kinds -/

variable {kinds : List ℕ} {k : ℕ}

theorem mem_sortedUniqueKinds : k ∈ sortedUniqueKinds kinds ↔ k ∈ kinds := by
  simp [sortedUniqueKinds, mem_distinct]

theorem length_sortedUniqueKinds (h : kinds.Nodup) :
    (sortedUniqueKinds kinds).length = kinds.length := by
  rw [sortedUniqueKinds, List.length_mergeSort, distinct_of_nodup h]

theorem sorted_sortedUniqueKinds (kinds : List ℕ) : (sortedUniqueKinds kinds).Pairwise (· < ·) := by
  have hle : (sortedUniqueKinds kinds).Pairwise (· ≤ ·) := by
    have hsort := @List.pairwise_mergeSort ℕ (fun a b => decide (a ≤ b))
      (by simpa using fun a b c => Nat.le_trans) (by simpa using Nat.le_total) (distinct kinds)
    simpa [sortedUniqueKinds] using hsort
  have hne : (sortedUniqueKinds kinds).Pairwise (· ≠ ·) :=
    (List.mergeSort_perm (distinct kinds) _).nodup_iff.2 (nodup_distinct kinds)
  exact hle.imp₂ (fun _ _ => lt_of_le_of_ne) hne

theorem sortedUniqueKinds_eq {sorted : List ℕ} (hsorted : sorted.Pairwise (· < ·))
    (hsame : ∀ k, k ∈ kinds ↔ k ∈ sorted) : sortedUniqueKinds kinds = sorted := by
  apply List.Perm.eq_of_pairwise _ (sorted_sortedUniqueKinds kinds) hsorted
  · apply (List.perm_ext_iff_of_nodup ((sorted_sortedUniqueKinds kinds).imp ne_of_lt)
      (hsorted.imp ne_of_lt)).2
    intro k
    rw [mem_sortedUniqueKinds]
    exact hsame k
  · intro a b _ _ hab hba
    omega

/-! ## The tiers -/

/-- The kinds of the scopes a stage approves by itself. -/
def stageKinds (stage : AutonomyStage) : List ℕ :=
  scopeKinds.flatMap fun (scope, kinds) =>
    if (resolvePolicy stage (some scope)).isAuto then kinds else []

/-- The live allow rules; at full control there is none. -/
def allowRules (dep : CompilerDependant) (nowSeconds : ℚ) : List ChildRuleLike :=
  if dep.autonomyStage = .fullControl then [] else dep.childRules.filter fun r =>
    r.decision = .allow && isLiveRule r.tombstonedAt r.expiresAt (nowSeconds * 1000)

/-- The kinds of the scope a rule names. -/
def ruleScopeKinds (r : ChildRuleLike) : List ℕ :=
  if (kindFromScope r.scope).isNone && !(lit "kind:").isPrefixOf r.scope then
    (kindsOfScope r.scope).getD []
  else []

/-- The first tier but for relay authentication: of the stage and of rules of scopes. -/
def dutyKinds (dep : CompilerDependant) (nowSeconds : ℚ) : List ℕ :=
  stageKinds dep.autonomyStage ++ (allowRules dep nowSeconds).flatMap ruleScopeKinds

/-- The second tier: what was approved once and has not run out. -/
def onceKinds (dep : CompilerDependant) (nowSeconds : ℚ) : List ℕ :=
  dep.approvedOnceKinds.filterMap fun a =>
    if 0 ≤ a.kind ∧ a.kind ≤ 65535 ∧ a.until_ > nowSeconds then some a.kind.toNat else none

/-- The third tier: rules of single kinds with the time of their last change, newest first. -/
def kindRules (dep : CompilerDependant) (nowSeconds : ℚ) : List (ℕ × ℚ) :=
  ((allowRules dep nowSeconds).filterMap fun r =>
    (kindFromScope r.scope).map fun n => (n, r.updatedAt.getD 0)).mergeSort fun x y => y.2 ≤ x.2

theorem ceilingKinds_eq (dep : CompilerDependant) (nowSeconds : ℚ) :
    ceilingKinds dep nowSeconds = (distinct (([22242]
      ++ sortedUniqueKinds ([22242] ++ stageKinds dep.autonomyStage
        ++ (allowRules dep nowSeconds).flatMap ruleScopeKinds) ++ onceKinds dep nowSeconds)
      ++ (kindRules dep nowSeconds).map Prod.fst)).filter (· ∉ neverListedKinds) := rfl

theorem nodup_ceilingKinds (dep : CompilerDependant) (nowSeconds : ℚ) :
    (ceilingKinds dep nowSeconds).Nodup := (nodup_distinct _).filter _

variable {n : ℕ} {nowSeconds : ℚ} {dep : CompilerDependant}

theorem mem_kindRules {at' : ℚ} :
    (n, at') ∈ kindRules dep nowSeconds ↔ ∃ r ∈ allowRules dep nowSeconds,
      kindFromScope r.scope = some n ∧ r.updatedAt.getD 0 = at' := by
  simp [kindRules]

theorem pairwise_kindRules (dep : CompilerDependant) (nowSeconds : ℚ) :
    (kindRules dep nowSeconds).Pairwise fun x y => y.2 ≤ x.2 := by
  have hsort := @List.pairwise_mergeSort (ℕ × ℚ) (fun x y => decide (y.2 ≤ x.2))
    (fun a b c hab hbc => by
      simp only [decide_eq_true_eq] at hab hbc ⊢
      exact hbc.trans hab)
    (fun a b => by simpa using le_total b.2 a.2)
    ((allowRules dep nowSeconds).filterMap fun r =>
      (kindFromScope r.scope).map fun n => (n, r.updatedAt.getD 0))
  simpa [kindRules] using hsort

/-! ## Where kinds come from -/

theorem le_of_mem_scopeKinds : ∀ e ∈ scopeKinds, ∀ k ∈ e.2, k ≤ 65535 := by decide

theorem le_of_mem_kindsOfScope {scope : JsString}
    (h : k ∈ (kindsOfScope scope).getD []) : k ≤ 65535 := by
  unfold kindsOfScope at h
  cases hfind : scopeKinds.find? fun e => lit e.1.name = scope with
  | none => simp [hfind] at h
  | some e =>
    rw [hfind] at h
    exact le_of_mem_scopeKinds e (List.mem_of_find?_eq_some hfind) k h

theorem le_of_mem_dutyKinds (h : k ∈ dutyKinds dep nowSeconds) : k ≤ 65535 := by
  rcases List.mem_append.1 h with hstage | hrules
  · obtain ⟨⟨scope, kinds⟩, he, hk⟩ := List.mem_flatMap.1 hstage
    dsimp only at hk
    split at hk
    · exact le_of_mem_scopeKinds _ he k hk
    · cases hk
  · obtain ⟨r, -, hk⟩ := List.mem_flatMap.1 hrules
    unfold ruleScopeKinds at hk
    split at hk
    · exact le_of_mem_kindsOfScope hk
    · cases hk

theorem le_of_mem_onceKinds (h : k ∈ onceKinds dep nowSeconds) : k ≤ 65535 := by
  obtain ⟨a, -, ha⟩ := List.mem_filterMap.1 h
  split at ha
  · cases ha
    omega
  · cases ha

theorem le_of_kindFromScope {scope : JsString} (h : kindFromScope scope = some k) : k ≤ 65535 := by
  unfold kindFromScope at h
  grind

theorem mem_ceilingKinds :
    k ∈ ceilingKinds dep nowSeconds ↔ k ∉ neverListedKinds ∧ (k = 22242 ∨
      k ∈ dutyKinds dep nowSeconds ∨ k ∈ onceKinds dep nowSeconds ∨
        ∃ r ∈ allowRules dep nowSeconds, kindFromScope r.scope = some k) := by
  have hrules : k ∈ (kindRules dep nowSeconds).map Prod.fst ↔
      ∃ r ∈ allowRules dep nowSeconds, kindFromScope r.scope = some k := by
    constructor
    · intro h
      obtain ⟨⟨n, t⟩, he, rfl⟩ := List.mem_map.1 h
      obtain ⟨r, hr, hkind, -⟩ := mem_kindRules.1 he
      exact ⟨r, hr, hkind⟩
    · rintro ⟨r, hr, hkind⟩
      exact List.mem_map.2 ⟨_, mem_kindRules.2 ⟨r, hr, hkind, rfl⟩, rfl⟩
  rw [ceilingKinds_eq, List.mem_filter, mem_distinct]
  simp only [List.mem_append, List.mem_singleton, mem_sortedUniqueKinds, hrules, dutyKinds,
    decide_eq_true_eq]
  tauto

/-! ## What is kept -/

/-- The kinds of a ceiling, at a stage that has one. -/
def listedKinds (dep : CompilerDependant) (nowSeconds : ℚ) : List ℕ :=
  sortedUniqueKinds ((ceilingKinds dep nowSeconds).take childCeilingMax)

theorem mem_listedKinds :
    k ∈ listedKinds dep nowSeconds ↔ k ∈ (ceilingKinds dep nowSeconds).take childCeilingMax :=
  mem_sortedUniqueKinds

theorem length_listedKinds (dep : CompilerDependant) (nowSeconds : ℚ) :
    (listedKinds dep nowSeconds).length
      = ((ceilingKinds dep nowSeconds).take childCeilingMax).length := by
  apply length_sortedUniqueKinds
  exact (nodup_ceilingKinds dep nowSeconds).sublist (List.take_sublist _ _)

theorem relayAuth_mem_listedKinds (dep : CompilerDependant) (nowSeconds : ℚ) :
    22242 ∈ listedKinds dep nowSeconds := by
  have hfirst : [22242] <+: ceilingKinds dep nowSeconds := by
    have hkept : (distinct [22242]).filter (· ∉ neverListedKinds) = [22242] := by decide
    rw [ceilingKinds_eq, List.append_assoc, List.append_assoc, ← hkept]
    exact (prefix_distinct_append [22242] _).filter _
  have htake : [22242] <+: (ceilingKinds dep nowSeconds).take childCeilingMax :=
    List.prefix_take_iff.2 ⟨hfirst, by decide⟩
  exact mem_listedKinds.2 (htake.subset (by simp))

/-- How many different kinds the first two tiers hold: relay authentication, the kinds of the
stage and of rules of scopes, and what was approved once. -/
def upperKinds (dep : CompilerDependant) (nowSeconds : ℚ) : ℕ :=
  (distinct ((22242 :: dutyKinds dep nowSeconds ++ onceKinds dep nowSeconds).filter
    (· ∉ neverListedKinds))).length

theorem once_mem_listedKinds (hfits : upperKinds dep nowSeconds ≤ childCeilingMax)
    (hk : k ∈ onceKinds dep nowSeconds) (hnever : k ∉ neverListedKinds) :
    k ∈ listedKinds dep nowSeconds := by
  have hupper : (distinct ([22242] ++ sortedUniqueKinds ([22242] ++ stageKinds dep.autonomyStage
        ++ (allowRules dep nowSeconds).flatMap ruleScopeKinds)
        ++ onceKinds dep nowSeconds)).filter (· ∉ neverListedKinds) <+:
      ceilingKinds dep nowSeconds := by
    rw [ceilingKinds_eq]
    exact (prefix_distinct_append _ _).filter _
  have hlength : ((distinct ([22242] ++ sortedUniqueKinds ([22242] ++ stageKinds dep.autonomyStage
        ++ (allowRules dep nowSeconds).flatMap ruleScopeKinds)
        ++ onceKinds dep nowSeconds)).filter (· ∉ neverListedKinds)).length
      = upperKinds dep nowSeconds := by
    rw [filter_distinct]
    apply length_distinct_congr
    intro a
    simp only [List.mem_filter, List.mem_append, mem_sortedUniqueKinds, dutyKinds,
      List.cons_append, List.mem_cons]
    tauto
  have htake := List.prefix_take_iff.2 ⟨hupper, hlength.trans_le hfits⟩
  apply mem_listedKinds.2
  apply htake.subset
  rw [List.mem_filter, mem_distinct]
  exact ⟨List.mem_append_right _ hk, by simpa using hnever⟩

variable {r : ChildRuleLike}

/-- A rule of a single kind is cut only when the ceiling is full of kinds that come before it: of
the upper tiers, or of rules that are not older. -/
theorem full_of_cut (hr : r ∈ allowRules dep nowSeconds) (hkind : kindFromScope r.scope = some n)
    (hnever : n ∉ neverListedKinds) (hcut : n ∉ listedKinds dep nowSeconds) :
    (listedKinds dep nowSeconds).length = childCeilingMax ∧
      ∀ k ∈ listedKinds dep nowSeconds, k = 22242 ∨ k ∈ dutyKinds dep nowSeconds ∨
        k ∈ onceKinds dep nowSeconds ∨ ∃ r' ∈ allowRules dep nowSeconds,
          kindFromScope r'.scope = some k ∧ r.updatedAt.getD 0 ≤ r'.updatedAt.getD 0 := by
  have hentry : (n, r.updatedAt.getD 0) ∈ kindRules dep nowSeconds :=
    mem_kindRules.2 ⟨r, hr, hkind, rfl⟩
  have hrule : n ∈ (kindRules dep nowSeconds).map Prod.fst := List.mem_map.2 ⟨_, hentry, rfl⟩
  obtain ⟨before, after, hsplit, hfirst⟩ := List.eq_append_cons_of_mem
    (List.mem_append_right ([22242] ++ sortedUniqueKinds ([22242] ++ stageKinds dep.autonomyStage
      ++ (allowRules dep nowSeconds).flatMap ruleScopeKinds) ++ onceKinds dep nowSeconds) hrule)
  have hpre : (distinct before).filter (· ∉ neverListedKinds) ++ [n] <+:
      ceilingKinds dep nowSeconds := by
    have h := (prefix_distinct_cons hfirst after).filter (· ∉ neverListedKinds)
    rw [List.filter_append, List.filter_cons_of_pos (by simpa using hnever), List.filter_nil] at h
    rw [ceilingKinds_eq, hsplit]
    exact h
  obtain ⟨hkept, hfull⟩ := take_prefix_of_not_mem hpre (mem_listedKinds.not.1 hcut)
  refine ⟨(length_listedKinds dep nowSeconds).trans hfull, fun k hk => ?_⟩
  have hbefore : k ∈ before :=
    mem_distinct.1 (List.mem_of_mem_filter (hkept.subset (mem_listedKinds.1 hk)))
  -- What stands before the rule is of an upper tier, or of a rule that was sorted before it.
  rcases List.append_eq_append_iff.1 hsplit with ⟨rules, hrules, hrest⟩ | ⟨upper, hupper, -⟩
  · rw [hrules] at hbefore
    rcases List.mem_append.1 hbefore with hk | hk
    · simp only [List.mem_append, List.mem_singleton, mem_sortedUniqueKinds] at hk
      simp only [dutyKinds, List.mem_append]
      tauto
    · obtain ⟨newer, rest, hsorted, hnewer, hlater⟩ := List.map_eq_append_iff.1 hrest
      obtain ⟨⟨k', t⟩, he, rfl⟩ := List.mem_map.1 (hnewer ▸ hk)
      have hin : (n, r.updatedAt.getD 0) ∈ rest := by
        rcases List.mem_append.1 (hsorted ▸ hentry) with h | h
        · refine absurd ?_ hfirst
          rw [hrules, ← hnewer]
          exact List.mem_append_right _ (List.mem_map.2 ⟨_, h, rfl⟩)
        · exact h
      have hpairs := pairwise_kindRules dep nowSeconds
      rw [hsorted] at hpairs
      have hage := (List.pairwise_append.1 hpairs).2.2 _ he _ hin
      have hmem : (k', t) ∈ kindRules dep nowSeconds := hsorted ▸ List.mem_append_left rest he
      obtain ⟨r', hr', hkind', rfl⟩ := mem_kindRules.1 hmem
      exact .inr (.inr (.inr ⟨r', hr', hkind', hage⟩))
  · have hk := List.mem_append_left upper hbefore
    rw [← hupper] at hk
    simp only [List.mem_append, List.mem_singleton, mem_sortedUniqueKinds] at hk
    simp only [dutyKinds, List.mem_append]
    tauto

/-! ## `compileChildDirectPolicy` -/

/-- The names every object has from its prototype. -/
def inheritedNames : List JsString :=
  [lit "constructor", lit "__defineGetter__", lit "__defineSetter__", lit "hasOwnProperty",
    lit "__lookupGetter__", lit "__lookupSetter__", lit "isPrototypeOf",
    lit "propertyIsEnumerable", lit "toString", lit "valueOf", lit "__proto__",
    lit "toLocaleString"]

/-- What the loop over the rules adds to the first tier for one of them. Under an inherited name
`SCOPE_KINDS` holds no list, and looping over it raises. -/
def iterateRule (r : ChildRuleLike) : Except JsError (List ℕ) :=
  if (kindFromScope r.scope).isNone && !(lit "kind:").isPrefixOf r.scope then
    if r.scope ∈ inheritedNames then .error .typeError else .ok ((kindsOfScope r.scope).getD [])
  else .ok []

/-- `compileChildDirectPolicy`, with its exception. -/
def compileChildDirect (dep : CompilerDependant) (boundPersona : JsString) (nowSeconds : ℚ) :
    Except JsError SlotPolicyUpdate := do
  if !dep.defaultSchedulePaused && dep.autonomyStage ≠ .fullAutonomy then
    discard ((allowRules dep nowSeconds).mapM iterateRule)
  return compileChildDirectPolicy dep boundPersona nowSeconds

theorem iterateRule_eq (h : r.scope ∉ inheritedNames) : iterateRule r = .ok (ruleScopeKinds r) := by
  unfold iterateRule ruleScopeKinds
  split
  · rfl
  · rfl

theorem mapM_iterateRule {rules : List ChildRuleLike} (h : ∀ r ∈ rules, r.scope ∉ inheritedNames) :
    rules.mapM iterateRule = .ok (rules.map ruleScopeKinds) := by
  induction rules with
  | nil => rfl
  | cons r rules ih =>
    obtain ⟨hr, hrules⟩ := List.forall_mem_cons.1 h
    rw [List.mapM_cons, iterateRule_eq hr, ih hrules]
    rfl

/-- What holds of the kinds a ceiling lists. -/
structure IsCeiling (dep : CompilerDependant) (nowSeconds : ℚ) (kinds : List ℕ) : Prop where
  sorted : kinds.Pairwise (· < ·)
  nonempty : 1 ≤ kinds.length
  bounded : kinds.length ≤ childCeilingMax
  inRange : ∀ k ∈ kinds, k ≤ 65535
  relayAuth : 22242 ∈ kinds
  permitted : ∀ k ∈ kinds, k ∉ neverListedKinds
  grounded : ∀ k ∈ kinds, k = 22242 ∨ k ∈ dutyKinds dep nowSeconds ∨ k ∈ onceKinds dep nowSeconds ∨
    ∃ r ∈ allowRules dep nowSeconds, kindFromScope r.scope = some k
  once : upperKinds dep nowSeconds ≤ childCeilingMax →
    ∀ k ∈ onceKinds dep nowSeconds, k ∉ neverListedKinds → k ∈ kinds
  cut : ∀ r ∈ allowRules dep nowSeconds, ∀ n, kindFromScope r.scope = some n →
    n ∉ neverListedKinds → n ∉ kinds → kinds.length = childCeilingMax ∧
      ∀ k ∈ kinds, k = 22242 ∨ k ∈ dutyKinds dep nowSeconds ∨ k ∈ onceKinds dep nowSeconds ∨
        ∃ r' ∈ allowRules dep nowSeconds, kindFromScope r'.scope = some k ∧
          r.updatedAt.getD 0 ≤ r'.updatedAt.getD 0

theorem isCeiling_listedKinds (dep : CompilerDependant) (nowSeconds : ℚ) :
    IsCeiling dep nowSeconds (listedKinds dep nowSeconds) where
  sorted := sorted_sortedUniqueKinds _
  nonempty := List.length_pos_of_mem (relayAuth_mem_listedKinds dep nowSeconds)
  bounded := by
    rw [length_listedKinds]
    exact List.length_take_le _ _
  inRange k hk := by
    obtain ⟨-, rfl | hduty | honce | ⟨r, -, hkind⟩⟩ :=
      mem_ceilingKinds.1 (List.mem_of_mem_take (mem_listedKinds.1 hk))
    · decide
    · exact le_of_mem_dutyKinds hduty
    · exact le_of_mem_onceKinds honce
    · exact le_of_kindFromScope hkind
  relayAuth := relayAuth_mem_listedKinds dep nowSeconds
  permitted k hk := (mem_ceilingKinds.1 (List.mem_of_mem_take (mem_listedKinds.1 hk))).1
  grounded k hk := (mem_ceilingKinds.1 (List.mem_of_mem_take (mem_listedKinds.1 hk))).2
  once hfits k hk hnever := once_mem_listedKinds hfits hk hnever
  cut r hr n hkind hnever hcut := full_of_cut hr hkind hnever hcut

/-- A child's phone that is not paused and not left to itself gets a ceiling: never empty, never
too long, and cut from below. -/
theorem compileChildDirect_ceiling (dep : CompilerDependant) (boundPersona : JsString)
    (nowSeconds : ℚ) (hpaused : dep.defaultSchedulePaused = false)
    (hstage : dep.autonomyStage ≠ .fullAutonomy)
    (hnames : ∀ r ∈ allowRules dep nowSeconds, r.scope ∉ inheritedNames) :
    ∃ policy, compileChildDirect dep boundPersona nowSeconds = .ok policy ∧
      IsCeiling dep nowSeconds policy.allowedKinds := by
  refine ⟨compileChildDirectPolicy dep boundPersona nowSeconds, ?_, ?_⟩
  · unfold compileChildDirect
    rw [mapM_iterateRule hnames]
    split <;> rfl
  · have hlisted : (compileChildDirectPolicy dep boundPersona nowSeconds).allowedKinds
        = listedKinds dep nowSeconds := by
      simp [compileChildDirectPolicy, hpaused, hstage, listedKinds]
    rw [hlisted]
    exact isCeiling_listedKinds dep nowSeconds

example : iterateRule { scope := lit "constructor", decision := .allow } = .error .typeError := by
  decide

/-! ## A full ceiling -/

/-- A child with the kinds below `n` approved once. -/
def crowdedChild (stage : AutonomyStage) (n : ℕ) (rules : List ChildRuleLike) :
    CompilerDependant where
  id := []
  identityPubkeys := []
  dormantIdentityPubkeys := []
  autonomyStage := stage
  hasDefaultSchedule := false
  auditVisible := false
  petitionOnDeny := false
  grants := []
  childRules := rules
  approvedOnceKinds := (List.range n).map fun k : ℕ => { kind := k, until_ := 1 }

/-- A rule of a scope, changed at one fixed time. -/
def tiedRule (scope : String) : ChildRuleLike :=
  { scope := lit scope, decision := .allow, updatedAt := some 5 }

/-- At full control, with as many kinds approved once as a ceiling can list. -/
def fullChild : CompilerDependant := crowdedChild .fullControl 64 []

/-- With one place left for two rules. -/
def tiedChild : CompilerDependant :=
  crowdedChild .requestApprove 61 [tiedRule "kind:100", tiedRule "kind:200"]

theorem onceKinds_crowdedChild (hn : n ≤ 64) (stage : AutonomyStage)
    (rules : List ChildRuleLike) : onceKinds (crowdedChild stage n rules) 0 = List.range n := by
  unfold onceKinds crowdedChild
  dsimp only
  rw [List.filterMap_map]
  refine Eq.trans (List.filterMap_congr (g := some) fun k hk => ?_) List.filterMap_some
  have hk := List.mem_range.1 hk
  dsimp only [Function.comp_apply]
  rw [if_pos ⟨by omega, by omega, by norm_num⟩, Int.toNat_natCast]

theorem ceilingKinds_fullControl :
    ceilingKinds (crowdedChild .fullControl 64 []) 0 = 22242 :: List.range 64 := by
  have hduty : sortedUniqueKinds ([22242] ++ stageKinds .fullControl ++ []) = [22242] :=
    sortedUniqueKinds_eq (by decide) fun k => by
      rw [show stageKinds .fullControl = [] from rfl]
      simp
  have hrules : kindRules (crowdedChild .fullControl 64 []) 0 = [] := List.mergeSort_nil
  rw [ceilingKinds_eq, onceKinds_crowdedChild le_rfl, hrules]
  show (distinct (([22242] ++ sortedUniqueKinds ([22242] ++ stageKinds .fullControl ++ [])
    ++ List.range 64) ++ [])).filter (· ∉ neverListedKinds) = _
  rw [hduty]
  decide +kernel

theorem ceilingKinds_tied :
    ceilingKinds (crowdedChild .requestApprove 61 [tiedRule "kind:100", tiedRule "kind:200"]) 0
      = [22242, 21235] ++ List.range 61 ++ [100, 200] := by
  have hduty : sortedUniqueKinds ([22242] ++ stageKinds .requestApprove ++ []) = [21235, 22242] :=
    sortedUniqueKinds_eq (by decide) fun k => by
      rw [show stageKinds .requestApprove = [21235] from rfl]
      simp [or_comm]
  have hrules : kindRules
      (crowdedChild .requestApprove 61 [tiedRule "kind:100", tiedRule "kind:200"]) 0
        = [(100, 5), (200, 5)] := by
    have hlive : (allowRules (crowdedChild .requestApprove 61
        [tiedRule "kind:100", tiedRule "kind:200"]) 0).filterMap (fun r =>
          (kindFromScope r.scope).map fun n => (n, r.updatedAt.getD 0)) = [(100, 5), (200, 5)] := by
      decide
    rw [kindRules, hlive]
    exact List.mergeSort_of_pairwise (by simp)
  rw [ceilingKinds_eq, onceKinds_crowdedChild (by omega), hrules]
  show (distinct (([22242] ++ sortedUniqueKinds ([22242] ++ stageKinds .requestApprove ++ [])
    ++ List.range 61) ++ [100, 200])).filter (· ∉ neverListedKinds) = _
  rw [hduty]
  decide +kernel

theorem compileChildDirect_ceiling_sample :
    ∃ policy, compileChildDirect tiedChild [] 0 = .ok policy ∧
      IsCeiling tiedChild 0 policy.allowedKinds :=
  compileChildDirect_ceiling tiedChild [] 0 rfl (by decide) (by decide +kernel)

/-- Relay authentication takes one of the places, and of two rules of one age one is cut. -/
theorem relayAuth_and_ties_count :
    ((distinct (dutyKinds fullChild 0 ++ onceKinds fullChild 0)).length ≤ childCeilingMax ∧
      63 ∈ onceKinds fullChild 0 ∧ 63 ∉ neverListedKinds ∧
      ∃ policy, compileChildDirect fullChild [] 0 = .ok policy ∧ 63 ∉ policy.allowedKinds) ∧
    (∃ policy, compileChildDirect tiedChild [] 0 = .ok policy ∧
      (∃ r ∈ allowRules tiedChild 0, kindFromScope r.scope = some 200 ∧ r.updatedAt = some 5) ∧
      200 ∉ policy.allowedKinds ∧ 100 ∈ policy.allowedKinds ∧
      100 ∉ 22242 :: (dutyKinds tiedChild 0 ++ onceKinds tiedChild 0) ∧
      ∀ r ∈ allowRules tiedChild 0, kindFromScope r.scope = some 100 → r.updatedAt = some 5) := by
  have hfull := onceKinds_crowdedChild le_rfl .fullControl []
  have htied := onceKinds_crowdedChild (n := 61) (by omega) .requestApprove
    [tiedRule "kind:100", tiedRule "kind:200"]
  refine ⟨⟨?_, ?_, by decide, ?_⟩, ?_⟩
  · rw [fullChild, hfull]
    decide +kernel
  · rw [fullChild, hfull]
    simp
  · refine ⟨compileChildDirectPolicy fullChild [] 0, rfl, ?_⟩
    show 63 ∉ listedKinds fullChild 0
    rw [mem_listedKinds, fullChild, ceilingKinds_fullControl]
    decide +kernel
  · refine ⟨compileChildDirectPolicy tiedChild [] 0, rfl, ?_, ?_, ?_, ?_, ?_⟩
    · exact ⟨tiedRule "kind:200",
        by simp [allowRules, tiedChild, crowdedChild, tiedRule, isLiveRule], by decide, rfl⟩
    · show 200 ∉ listedKinds tiedChild 0
      rw [mem_listedKinds, tiedChild, ceilingKinds_tied]
      decide +kernel
    · show 100 ∈ listedKinds tiedChild 0
      rw [mem_listedKinds, tiedChild, ceilingKinds_tied]
      decide +kernel
    · rw [tiedChild, htied]
      decide +kernel
    · decide +kernel

end SignetApp.Family
