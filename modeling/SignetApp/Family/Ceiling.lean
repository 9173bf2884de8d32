import SignetApp.Family.PolicyCompiler
import Mathlib.Data.Set.Basic

/-!
# What a slot approves by itself

The firmware reads an empty list of kinds as every kind. Read so, the policy of a phone-served slot
keeps every denial, unless the denials together leave no kind of any scope.
-/

namespace SignetApp.Family

open SignetApp.Js SignetApp.Grants

/-- The kinds of events the device signs under a policy without asking. -/
def SlotPolicyUpdate.autoKinds (policy : SlotPolicyUpdate) : Set ℕ :=
  {k | policy.autoApprove = true ∧ lit "sign_event" ∈ policy.allowedMethods
    ∧ (policy.allowedKinds = [] ∨ k ∈ policy.allowedKinds)}

/-- Some active grant takes a scope of this kind out of the ceiling. -/
def Denied (grants : List CompilerGrant) (k : ℕ) : Prop :=
  ∃ g ∈ grants, g.active = true ∧ g.excludes = true
    ∧ ∃ kinds, kindsOfScope g.scope = some kinds ∧ k ∈ kinds

def Dormant (dep : CompilerDependant) (slot : DeviceClientSlot) : Prop :=
  lower slot.boundIdentity ≠ [] ∧ lower slot.boundIdentity ∈ dep.dormantIdentityPubkeys

/-- The slots that the guardian's phone serves for a dependant. -/
structure PhoneServed (input : CompilerInput) (dep : CompilerDependant) (slot : DeviceClientSlot) :
    Prop where
  listed : slot ∈ input.deviceSlots
  notGuardian : isGuardianSlot slot input.guardianClientPubkey = false
  notChildDirect : isChildDirectSlot slot.label = false
  found : findDependantForSlot slot input.dependants = some dep

/-- The compiled policy approves nothing that was denied, and nothing at all where nothing may
pass without the guardian. -/
def KeepsDenials (input : CompilerInput) (dep : CompilerDependant) (slot : DeviceClientSlot) :
    Prop :=
  ∃ c ∈ (compileSlotPolicies input).slots, compileSlot input slot = some c
    ∧ (∀ k, Denied dep.grants k → k ∉ c.policy.autoKinds)
    ∧ (Dormant dep slot ∨ dep.autonomyStage = .fullControl ∨ dep.autonomyStage = .requestApprove →
      c.policy.autoKinds = ∅)

/-! ## Policies as sets of kinds -/

theorem autoKinds_of_not_autoApprove {policy : SlotPolicyUpdate} (h : policy.autoApprove = false) :
    policy.autoKinds = ∅ := by
  apply Set.eq_empty_of_forall_notMem
  intro k hk
  have happ : policy.autoApprove = true := hk.1
  simp [h] at happ

variable {k : ℕ}

theorem mem_autoKinds {policy : SlotPolicyUpdate} (happ : policy.autoApprove = true)
    (hsign : lit "sign_event" ∈ policy.allowedMethods) :
    k ∈ policy.autoKinds ↔ policy.allowedKinds = [] ∨ k ∈ policy.allowedKinds := by
  show (_ ∧ _ ∧ _) ↔ _
  simp only [happ, hsign, true_and]

/-! ## The ceiling -/

theorem kindsOfScope_subset {scope : JsString} {kinds : List ℕ}
    (h : kindsOfScope scope = some kinds) {k : ℕ} (hk : k ∈ kinds) : k ∈ allScopeKinds := by
  unfold kindsOfScope at h
  obtain ⟨e, hfound, rfl⟩ := Option.map_eq_some_iff.mp h
  have hrow : e ∈ scopeKinds := List.mem_of_find?_eq_some hfound
  rw [allScopeKinds, sortedUniqueKinds, List.mem_mergeSort, mem_distinct, List.mem_flatMap]
  exact ⟨e, hrow, hk⟩

theorem mem_excludedKinds {grants : List CompilerGrant} :
    k ∈ excludedKinds grants ↔ Denied grants k := by
  rw [excludedKinds, List.mem_flatMap]
  constructor
  · intro ⟨scope, hscope, hk⟩
    rw [excludedScopes, mem_distinct, List.mem_map] at hscope
    obtain ⟨g, hg, rfl⟩ := hscope
    rw [List.mem_filter, Bool.and_eq_true] at hg
    cases hkinds : kindsOfScope g.scope with
    | none => simp [hkinds] at hk
    | some kinds => exact ⟨g, hg.1, hg.2.1, hg.2.2, kinds, hkinds, by simpa [hkinds] using hk⟩
  · intro ⟨g, hg, hactive, hexcludes, kinds, hkinds, hk⟩
    refine ⟨g.scope, ?_, by simpa [hkinds] using hk⟩
    rw [excludedScopes, mem_distinct, List.mem_map]
    exact ⟨g, List.mem_filter.mpr ⟨hg, by simp [hactive, hexcludes]⟩, rfl⟩

theorem not_mem_neverListedKinds (h : k ∈ allScopeKinds) : k ∉ neverListedKinds := by
  rw [allScopeKinds, sortedUniqueKinds, List.mem_mergeSort, mem_distinct] at h
  have hall : ∀ k ∈ scopeKinds.flatMap Prod.snd, k ∉ neverListedKinds := by decide
  exact hall k h

theorem mem_autonomousKinds {grants : List CompilerGrant} :
    k ∈ (autonomousKinds grants).1 ↔ k ∈ allScopeKinds ∧ ¬ Denied grants k := by
  show k ∈ sortedUniqueKinds _ ↔ _
  rw [sortedUniqueKinds, List.mem_mergeSort, mem_distinct, List.mem_filter]
  simp only [mem_excludedKinds, Bool.and_eq_true, decide_eq_true_eq]
  constructor
  · intro ⟨hall, hallowed, _⟩
    exact ⟨hall, hallowed⟩
  · intro ⟨hall, hallowed⟩
    exact ⟨hall, hallowed, not_mem_neverListedKinds hall⟩

/-! ## The compiled policy -/

variable {slot : DeviceClientSlot} {dep : CompilerDependant} {input : CompilerInput}

theorem compileSlot_of_phoneServed (h : PhoneServed input dep slot) :
    ∃ c ∈ (compileSlotPolicies input).slots, compileSlot input slot = some c
      ∧ c.policy = compileDependantSlotPolicy dep slot := by
  obtain ⟨c, hc, hpolicy⟩ : ∃ c, compileSlot input slot = some c
      ∧ c.policy = compileDependantSlotPolicy dep slot := by
    simp only [compileSlot, h.notGuardian, h.found, h.notChildDirect, Bool.false_eq_true, if_false,
      Option.map_some, Option.some.injEq, exists_eq_left']
  exact ⟨c, List.mem_filterMap.mpr ⟨slot, h.listed, hc⟩, hc, hpolicy⟩

/-- The ceiling is what counts: an autonomous stage, no schedule over the whole dependant, and an
identity in use. -/
def Ceiled (dep : CompilerDependant) (slot : DeviceClientSlot) : Prop :=
  ¬ Dormant dep slot ∧ dep.hasDefaultSchedule = false ∧ isAutonomousStage dep.autonomyStage = true

theorem compileDependantSlotPolicy_of_not_ceiled (h : ¬ Ceiled dep slot) :
    (compileDependantSlotPolicy dep slot).autoApprove = false := by
  unfold Ceiled Dormant at h
  unfold compileDependantSlotPolicy
  grind [lockedSlotPolicy]

theorem allowedKinds_of_ceiled (h : Ceiled dep slot) (hdenied : Denied dep.grants k) :
    (compileDependantSlotPolicy dep slot).allowedKinds = (autonomousKinds dep.grants).1 := by
  obtain ⟨hdormant, hschedule, hstage⟩ := h
  unfold Dormant at hdormant
  have hexcluded : excludedKinds dep.grants ≠ [] :=
    List.ne_nil_of_mem (mem_excludedKinds.mpr hdenied)
  have happlied : (autonomousKinds dep.grants).2 = true := decide_eq_true hexcluded
  unfold compileDependantSlotPolicy
  rw [if_neg hdormant]
  simp only [hschedule, hstage, happlied, if_true, Bool.false_eq_true, if_false, Bool.not_true]
  split <;> rfl

theorem autoApprove_of_ceiled (h : Ceiled dep slot) :
    (compileDependantSlotPolicy dep slot).autoApprove = true
      ∧ lit "sign_event" ∈ (compileDependantSlotPolicy dep slot).allowedMethods := by
  obtain ⟨hdormant, hschedule, hstage⟩ := h
  unfold Dormant at hdormant
  unfold compileDependantSlotPolicy
  rw [if_neg hdormant]
  simp only [hschedule, hstage, if_true, Bool.false_eq_true, if_false, Bool.not_true]
  refine ⟨?_, by decide⟩
  split <;> rfl

theorem KeepsDenials.spared (h : PhoneServed input dep slot) (hceiled : Ceiled dep slot)
    (hkeeps : KeepsDenials input dep slot) : ∃ k ∈ allScopeKinds, ¬ Denied dep.grants k := by
  obtain ⟨c, _, hc, hpolicy⟩ := compileSlot_of_phoneServed h
  obtain ⟨c', _, hc', hkept, _⟩ := hkeeps
  obtain rfl : c = c' := Option.some.inj (hc.symm.trans hc')
  obtain ⟨happrove, hsign⟩ := autoApprove_of_ceiled hceiled
  by_contra hall
  -- Every kind of a scope is denied, so the ceiling is empty and approves one of them.
  have hdenied : ∀ k ∈ allScopeKinds, Denied dep.grants k := fun k hk => by
    by_contra hfree
    exact hall ⟨k, hk, hfree⟩
  have hempty : (autonomousKinds dep.grants).1 = [] := by
    apply List.eq_nil_iff_forall_not_mem.mpr
    intro k hk
    obtain ⟨hscope, hfree⟩ := mem_autonomousKinds.mp hk
    exact hfree (hdenied k hscope)
  have hsome : 1 ∈ allScopeKinds := @kindsOfScope_subset (lit "post-public") [1] rfl 1 (by simp)
  apply hkept 1 (hdenied 1 hsome)
  rw [hpolicy, mem_autoKinds happrove hsign]
  exact .inl ((allowedKinds_of_ceiled hceiled (hdenied 1 hsome)).trans hempty)

theorem not_mem_autoKinds_of_spared
    (hceiled : Ceiled dep slot) (hspared : ∃ k ∈ allScopeKinds, ¬ Denied dep.grants k)
    (hdenied : Denied dep.grants k) : k ∉ (compileDependantSlotPolicy dep slot).autoKinds := by
  obtain ⟨happrove, hsign⟩ := autoApprove_of_ceiled hceiled
  obtain ⟨spared, hscope, hfree⟩ := hspared
  have hmem : spared ∈ (autonomousKinds dep.grants).1 := mem_autonomousKinds.mpr ⟨hscope, hfree⟩
  intro happroved
  rw [mem_autoKinds happrove hsign, allowedKinds_of_ceiled hceiled hdenied] at happroved
  cases happroved with
  | inl hempty => exact List.not_mem_nil (hempty ▸ hmem)
  | inr hk => exact (mem_autonomousKinds.mp hk).2 hdenied

theorem Ceiled.interactive (h : Ceiled dep slot) :
    ¬ (Dormant dep slot ∨ dep.autonomyStage = .fullControl
      ∨ dep.autonomyStage = .requestApprove) := by
  obtain ⟨hdormant, _, hstage⟩ := h
  rintro (hd | hs | hs)
  · exact hdormant hd
  · simp [hs, isAutonomousStage] at hstage
  · simp [hs, isAutonomousStage] at hstage

theorem keepsDenials_of_not_ceiled (h : PhoneServed input dep slot) (hceiled : ¬ Ceiled dep slot) :
    KeepsDenials input dep slot := by
  obtain ⟨c, hlisted, hc, hpolicy⟩ := compileSlot_of_phoneServed h
  have hnothing : c.policy.autoKinds = ∅ :=
    autoKinds_of_not_autoApprove (hpolicy ▸ compileDependantSlotPolicy_of_not_ceiled hceiled)
  refine ⟨c, hlisted, hc, ?_, fun _ => hnothing⟩
  intro k _
  exact hnothing ▸ Set.notMem_empty k

/-- A denial is kept unless it is one of denials that leave nothing, where nothing is read as
everything. -/
theorem keepsDenials_iff {input : CompilerInput} {dep : CompilerDependant}
    {slot : DeviceClientSlot} (h : PhoneServed input dep slot) :
    KeepsDenials input dep slot ↔
      Dormant dep slot ∨ dep.hasDefaultSchedule = true
        ∨ isAutonomousStage dep.autonomyStage = false
        ∨ ∃ k ∈ allScopeKinds, ¬ Denied dep.grants k := by
  by_cases hceiled : Ceiled dep slot
  · obtain ⟨hdormant, hschedule, hstage⟩ := id hceiled
    simp only [hdormant, hschedule, hstage, Bool.false_eq_true, Bool.true_eq_false, false_or]
    constructor
    · exact KeepsDenials.spared h hceiled
    · intro hspared
      obtain ⟨c, hlisted, hc, hpolicy⟩ := compileSlot_of_phoneServed h
      refine ⟨c, hlisted, hc, ?_, fun hd => absurd hd hceiled.interactive⟩
      intro k hdenied
      rw [hpolicy]
      exact not_mem_autoKinds_of_spared hceiled hspared hdenied
  · apply iff_of_true (keepsDenials_of_not_ceiled h hceiled)
    by_contra hnot
    simp only [not_or] at hnot
    exact hceiled ⟨hnot.1, by simpa using hnot.2.1, by simpa using hnot.2.2.1⟩

/-- A dependant of one identity with a denial of each scope. -/
def dependantDenied (stage : AutonomyStage) (denied : List Scope) : CompilerDependant where
  id := lit "c"
  identityPubkeys := [lit "ab"]
  dormantIdentityPubkeys := []
  autonomyStage := stage
  hasDefaultSchedule := false
  auditVisible := false
  petitionOnDeny := false
  grants := denied.map fun scope =>
    { scope := lit scope.name, decision := .deny, hasSchedule := false, tombstoned := false,
      expired := false }

/-- A slot bound to that identity. -/
def boundSlot : DeviceClientSlot where
  slotIndex := 2
  label := lit "MySignet"
  secretFingerprint := lit "f"
  autoApprove := false
  signingApproved := false
  strictPermissions := true
  currentPubkey := none
  authorizedPubkeys := []
  allowedKinds := []
  allowedMethods := []
  escalate := false
  petitionOnDeny := false
  auditChildWrap := false
  boundIdentity := some (lit "ab")

def inputDenied (stage : AutonomyStage) (denied : List Scope) : CompilerInput where
  dependants := [dependantDenied stage denied]
  guardianClientPubkey := none
  deviceSlots := [boundSlot]
  nowSeconds := 0

theorem phoneServed_boundSlot (stage : AutonomyStage) (denied : List Scope) :
    PhoneServed (inputDenied stage denied) (dependantDenied stage denied) boundSlot where
  listed := List.mem_singleton_self _
  notGuardian := rfl
  notChildDirect := by decide
  found := by
    have hlabel : isChildDirectSlot boundSlot.label = false := by decide
    have hbound : lower boundSlot.boundIdentity = lit "ab" := by decide
    have hholds : toLowerCase (lit "ab") = lit "ab" := by decide
    have hne : lit "ab" ≠ [] := by decide
    simp [findDependantForSlot, hlabel, hbound, hne, inputDenied, dependantDenied, hholds]

theorem keepsDenials_iff_post_public :
    KeepsDenials (inputDenied .fullAutonomy [.postPublic])
        (dependantDenied .fullAutonomy [.postPublic]) boundSlot ↔
      Dormant (dependantDenied .fullAutonomy [.postPublic]) boundSlot
        ∨ (dependantDenied .fullAutonomy [.postPublic]).hasDefaultSchedule = true
        ∨ isAutonomousStage (dependantDenied .fullAutonomy [.postPublic]).autonomyStage = false
        ∨ ∃ k ∈ allScopeKinds, ¬ Denied (dependantDenied .fullAutonomy [.postPublic]).grants k :=
  keepsDenials_iff (phoneServed_boundSlot .fullAutonomy [.postPublic])

def everyScope : List Scope :=
  [.signIn, .venueEntry, .postPublic, .reactZapReply, .dmPrivate, .uploadPhoto, .mutateIdentity]

theorem denied_of_everyScope (stage : AutonomyStage) (h : k ∈ allScopeKinds) :
    Denied (dependantDenied stage everyScope).grants k := by
  rw [← mem_excludedKinds]
  have hgrants : (dependantDenied stage everyScope).grants
      = (dependantDenied .fullAutonomy everyScope).grants := rfl
  rw [allScopeKinds, sortedUniqueKinds, List.mem_mergeSort, mem_distinct] at h
  have hall : ∀ k ∈ scopeKinds.flatMap Prod.snd,
      k ∈ excludedKinds (dependantDenied .fullAutonomy everyScope).grants := by decide
  exact hgrants ▸ hall k h

/-- Deny everything, and the device signs everything. -/
theorem denied_everything_approves :
    ¬ ∀ (input : CompilerInput) (dep : CompilerDependant) (slot : DeviceClientSlot),
      PhoneServed input dep slot → KeepsDenials input dep slot := by
  intro hall
  have hserved := phoneServed_boundSlot .autonomousAlerts everyScope
  have hceiled : Ceiled (dependantDenied .autonomousAlerts everyScope) boundSlot :=
    ⟨fun hdormant => List.not_mem_nil hdormant.2, rfl, rfl⟩
  obtain ⟨k, hk, hfree⟩ := (hall _ _ _ hserved).spared hserved hceiled
  exact hfree (denied_of_everyScope .autonomousAlerts hk)

end SignetApp.Family
