import SignetApp.Family.PolicyPush

/-!
# A push settles

Compiling a slot after its policy was stored finds nothing to change. A run that ends without an
error has stored the policy of every slot of the family, so the next run sends nothing.
-/

namespace SignetApp.Family

open SignetApp.Js

/-! ## Compiling what was stored -/

theorem sameSet_of_mem_iff {a b : List JsString} (h : ∀ x, x ∈ a ↔ x ∈ b) : sameSet a b = true := by
  have hperm : (distinct a).Perm (distinct b) := by
    rw [List.perm_ext_iff_of_nodup (nodup_distinct a) (nodup_distinct b)]
    intro x
    rw [mem_distinct, mem_distinct, h]
  unfold sameSet
  simp only [Bool.and_eq_true, decide_eq_true_eq, List.all_eq_true]
  exact ⟨hperm.length_eq, fun x hx => hperm.mem_iff.mp hx⟩

variable {policy : SlotPolicyUpdate}

/-- A policy with the same methods in another order and the same identity in another case is no
change of what was stored. -/
theorem not_differs_of_store {slot : DeviceClientSlot}
    {methods : List JsString} {bound : Option JsString}
    (hmethods : sameSet methods policy.allowedMethods = true)
    (hbound : ∀ b ∈ bound, toLowerCase b = lower (slot.store policy).boundIdentity) :
    policyDiffersFromSlot { policy with allowedMethods := methods, boundIdentity := bound }
      (slot.store policy) = false := by
  have hsame : bound.any
      (fun b => toLowerCase b ≠ lower (slot.store policy).boundIdentity) = false := by
    rw [Option.any_eq_false]
    intro b hb
    simp [hbound b hb]
  unfold policyDiffersFromSlot
  simp only [hsame]
  simp [DeviceClientSlot.store, hmethods, sameSortedKinds]

def dependantPolicy (nowSeconds : ℚ) (dep : CompilerDependant) (slot : DeviceClientSlot) :
    SlotPolicyUpdate :=
  if isChildDirectSlot slot.label then compileChildDirectSlot dep slot nowSeconds
  else compileDependantSlotPolicy dep slot

variable {c : CompiledSlot}

theorem compileSlot_cases {input : CompilerInput} {slot : DeviceClientSlot}
    (h : compileSlot input slot = some c) :
    c.slotIndex = slot.slotIndex ∧ c.secretFingerprint = slot.secretFingerprint
      ∧ c.changed = policyDiffersFromSlot c.policy slot
      ∧ ((isGuardianSlot slot input.guardianClientPubkey = true
          ∧ c.policy = compileGuardianSlotPolicy slot)
        ∨ (isGuardianSlot slot input.guardianClientPubkey = false
          ∧ ∃ dep, findDependantForSlot slot input.dependants = some dep
            ∧ c.policy = dependantPolicy input.nowSeconds dep slot)) := by
  unfold compileSlot at h
  split at h
  · next hguardian =>
    obtain rfl := Option.some.inj h
    exact ⟨rfl, rfl, rfl, .inl ⟨hguardian, rfl⟩⟩
  · next hguardian =>
    obtain ⟨dep, hdep, rfl⟩ := Option.map_eq_some_iff.mp h
    exact ⟨rfl, rfl, rfl, .inr ⟨by simpa using hguardian, dep, hdep, rfl⟩⟩

theorem truthy_eq_some {s : Option JsString} {t : JsString} :
    truthy s = some t ↔ s = some t ∧ t ≠ [] := by
  unfold truthy
  rw [Option.filter_eq_some_iff]
  simp

theorem compileDependantSlotPolicy_congr {dep : CompilerDependant}
    {slot other : DeviceClientSlot} (hlabel : other.label = slot.label)
    (hbound : lower other.boundIdentity = lower slot.boundIdentity) :
    compileDependantSlotPolicy dep other
      = { compileDependantSlotPolicy dep slot with
          boundIdentity := truthy other.boundIdentity } := by
  unfold compileDependantSlotPolicy isChildDeviceSlot
  rw [hlabel, hbound]
  by_cases hdormant : lower slot.boundIdentity ≠ []
      ∧ lower slot.boundIdentity ∈ dep.dormantIdentityPubkeys
  · rw [if_pos hdormant, if_pos hdormant]
  · rw [if_neg hdormant, if_neg hdormant]

variable {dep : CompilerDependant}

theorem compileDependantSlotPolicy_bound {slot : DeviceClientSlot} :
    (compileDependantSlotPolicy dep slot).boundIdentity = truthy slot.boundIdentity :=
  congrArg SlotPolicyUpdate.boundIdentity (@compileDependantSlotPolicy_congr dep slot slot rfl rfl)

variable {nowSeconds : ℚ} {other : DeviceClientSlot}

theorem compileChildDirectSlot_congr {slot : DeviceClientSlot} (hbound : lower other.boundIdentity = lower slot.boundIdentity) :
    compileChildDirectSlot dep other nowSeconds = compileChildDirectSlot dep slot nowSeconds := by
  unfold compileChildDirectSlot
  rw [hbound]

theorem lower_idem (s : Option JsString) : toLowerCase (lower s) = lower s :=
  toLowerCase_toLowerCase (s.getD [])

theorem compileChildDirectSlot_bound {slot : DeviceClientSlot} : ∀ b ∈ (compileChildDirectSlot dep slot nowSeconds).boundIdentity,
      b = lower slot.boundIdentity := by
  intro b hb
  unfold compileChildDirectSlot at hb
  by_cases hlocked : lower slot.boundIdentity = []
      ∨ lower slot.boundIdentity ∈ dep.dormantIdentityPubkeys
  · rw [if_pos hlocked] at hb
    exact (Option.some.inj (truthy_eq_some.mp hb).1).symm
  · rw [if_neg hlocked] at hb
    have hpolicy :
        (compileChildDirectPolicy dep (lower slot.boundIdentity) nowSeconds).boundIdentity
        = some (toLowerCase (lower slot.boundIdentity)) := by
      unfold compileChildDirectPolicy
      by_cases hpaused : dep.defaultSchedulePaused = true
      · rw [if_pos hpaused]
      · rw [if_neg hpaused]
    rw [hpolicy, lower_idem] at hb
    exact (Option.some.inj hb).symm

theorem dependantPolicy_bound {slot : DeviceClientSlot} :
    ∀ b ∈ (dependantPolicy nowSeconds dep slot).boundIdentity,
      toLowerCase b = lower slot.boundIdentity := by
  intro b hb
  unfold dependantPolicy at hb
  split at hb
  · rw [compileChildDirectSlot_bound b hb, lower_idem]
  · rw [compileDependantSlotPolicy_bound] at hb
    rw [(truthy_eq_some.mp hb).1]
    rfl

theorem lower_bound_store {slot : DeviceClientSlot}
    (h : ∀ b ∈ policy.boundIdentity, toLowerCase b = lower slot.boundIdentity) :
    lower (slot.store policy).boundIdentity = lower slot.boundIdentity := by
  show lower ((policy.boundIdentity.map toLowerCase).or slot.boundIdentity) = _
  cases hpolicy : policy.boundIdentity with
  | none => rfl
  | some b =>
    show toLowerCase (toLowerCase b) = _
    rw [toLowerCase_toLowerCase, h b hpolicy]

theorem findDependantForSlot_congr {slot other : DeviceClientSlot}
    {dependants : List CompilerDependant} (hlabel : other.label = slot.label)
    (hbound : lower other.boundIdentity = lower slot.boundIdentity) :
    findDependantForSlot other dependants = findDependantForSlot slot dependants := by
  unfold findDependantForSlot
  rw [hlabel, hbound]

theorem sameSet_self (a : List JsString) : sameSet a a = true := sameSet_of_mem_iff fun _ => Iff.rfl

theorem dependantPolicy_congr {slot : DeviceClientSlot} (hlabel : other.label = slot.label)
    (hbound : lower other.boundIdentity = lower slot.boundIdentity) :
    dependantPolicy nowSeconds dep other
      = { dependantPolicy nowSeconds dep slot with
          boundIdentity := (dependantPolicy nowSeconds dep other).boundIdentity } := by
  unfold dependantPolicy
  rw [hlabel]
  by_cases hdirect : isChildDirectSlot slot.label = true
  · rw [if_pos hdirect, if_pos hdirect, compileChildDirectSlot_congr hbound]
  · rw [if_neg hdirect, if_neg hdirect, compileDependantSlotPolicy_congr hlabel hbound]

theorem dependantPolicy_settles {slot : DeviceClientSlot}
    (hpolicy : policy = dependantPolicy nowSeconds dep slot) :
    policyDiffersFromSlot (dependantPolicy nowSeconds dep (slot.store policy)) (slot.store policy)
      = false := by
  have hbound : lower (slot.store policy).boundIdentity = lower slot.boundIdentity := by
    apply lower_bound_store
    rw [hpolicy]
    exact dependantPolicy_bound
  have hlabel : (slot.store policy).label = slot.label := rfl
  rw [dependantPolicy_congr hlabel hbound, ← hpolicy]
  exact not_differs_of_store (sameSet_self _) dependantPolicy_bound

/-! ## The guardian's slot -/

theorem mem_guardianMethods {slot : DeviceClientSlot} {method : JsString} :
    method ∈ (compileGuardianSlotPolicy slot).allowedMethods ↔
      (method ∈ slot.allowedMethods ∨ method ∈ guardianRequiredMethods)
        ∧ (slot.strictPermissions = true → method ∈ tofuSafeMethods) := by
  unfold compileGuardianSlotPolicy
  by_cases hstrict : slot.strictPermissions = true
  · simp [hstrict, mem_distinct]
  · simp [hstrict, mem_distinct]

theorem compileGuardianSlotPolicy_congr {slot : DeviceClientSlot}
    (hkinds : other.allowedKinds = slot.allowedKinds) :
    compileGuardianSlotPolicy other
      = { compileGuardianSlotPolicy slot with
          allowedMethods := (compileGuardianSlotPolicy other).allowedMethods
          boundIdentity := none } := by
  unfold compileGuardianSlotPolicy
  rw [hkinds]

theorem compileGuardianSlotPolicy_settles {slot : DeviceClientSlot}
    (hpolicy : policy = compileGuardianSlotPolicy slot) :
    policyDiffersFromSlot (compileGuardianSlotPolicy (slot.store policy)) (slot.store policy)
      = false := by
  have hkinds : (slot.store policy).allowedKinds = slot.allowedKinds := by
    rw [hpolicy]
    rfl
  rw [compileGuardianSlotPolicy_congr hkinds, ← hpolicy]
  apply not_differs_of_store _ (by intro b hb; cases hb)
  apply sameSet_of_mem_iff
  intro method
  have hrequired : ∀ m ∈ guardianRequiredMethods, m ∈ tofuSafeMethods := by decide
  have hmethods : (slot.store policy).allowedMethods = policy.allowedMethods := rfl
  have hstrict : (slot.store policy).strictPermissions = slot.strictPermissions := rfl
  rw [mem_guardianMethods, hmethods, hstrict, hpolicy, mem_guardianMethods]
  grind

/-! ## Any slot -/

theorem compileSlot_store {input : CompilerInput} {slot : DeviceClientSlot}
    (h : compileSlot input slot = some c) :
    ∃ next, compileSlot input (slot.store c.policy) = some next
      ∧ next.slotIndex = c.slotIndex ∧ next.changed = false := by
  obtain ⟨hindex, _, _, ⟨hguardian, hpolicy⟩ | ⟨hguardian, dep, hdep, hpolicy⟩⟩ :=
    compileSlot_cases h
  · have hkept : isGuardianSlot (slot.store c.policy) input.guardianClientPubkey = true :=
      hguardian
    unfold compileSlot
    rw [if_pos hkept]
    exact ⟨_, rfl, hindex.symm, compileGuardianSlotPolicy_settles hpolicy⟩
  · have hkept : ¬ isGuardianSlot (slot.store c.policy) input.guardianClientPubkey = true := by
      show ¬ isGuardianSlot slot input.guardianClientPubkey = true
      simp [hguardian]
    have hbound : lower (slot.store c.policy).boundIdentity = lower slot.boundIdentity := by
      apply lower_bound_store
      rw [hpolicy]
      exact dependantPolicy_bound
    unfold compileSlot
    rw [if_neg hkept, @findDependantForSlot_congr slot (slot.store c.policy) _ rfl hbound, hdep]
    exact ⟨_, rfl, hindex.symm, dependantPolicy_settles hpolicy⟩

/-!
## Runs of a push

What one slot of the loop does to the world and to the result, and from that what a run does: in
any surroundings, and when no other manager touches the device.
-/

/-! ## Slots of a device -/

theorem Device.slotAt_eq_some_iff {device : Device} {i : ℕ} {slot : DeviceClientSlot} :
    device.slotAt i = some slot ↔ slot ∈ device.slots ∧ slot.slotIndex = i := by
  constructor
  · intro h
    exact ⟨List.mem_of_find?_eq_some h, by simpa using List.find?_some h⟩
  · intro ⟨hmem, hindex⟩
    have hsome : (device.slotAt i).isSome = true :=
      List.find?_isSome.mpr ⟨slot, hmem, by simpa using hindex⟩
    obtain ⟨found, hfound⟩ := Option.isSome_iff_exists.mp hsome
    have hsame : found.slotIndex = slot.slotIndex := by
      have hi : found.slotIndex = i := by simpa using List.find?_some hfound
      rw [hi, hindex]
    rw [hfound, List.inj_on_of_nodup_map device.distinct (List.mem_of_find?_eq_some hfound) hmem
      hsame]

theorem Device.slotAt_store_self {device : Device} {i : ℕ} {policy : SlotPolicyUpdate}
    {slot : DeviceClientSlot} (h : device.slotAt i = some slot) :
    (device.store i policy).slotAt i = some (slot.store policy) := by
  obtain ⟨hmem, hindex⟩ := slotAt_eq_some_iff.mp h
  rw [slotAt_eq_some_iff]
  exact ⟨List.mem_map.mpr ⟨slot, hmem, if_pos hindex⟩, hindex⟩

theorem Device.slotAt_store_of_ne {device : Device} {i j : ℕ}
    (h : j ≠ i) : (device.store i policy).slotAt j = device.slotAt j := by
  apply Option.ext
  intro slot
  rw [slotAt_eq_some_iff, slotAt_eq_some_iff]
  constructor
  · intro ⟨hmem, hindex⟩
    obtain ⟨old, hold, rfl⟩ := List.mem_map.mp hmem
    by_cases hi : old.slotIndex = i
    · rw [if_pos hi] at hindex
      exact absurd (hindex.symm.trans hi) h
    · rw [if_neg hi] at hindex ⊢
      exact ⟨hold, hindex⟩
  · intro ⟨hmem, hindex⟩
    exact ⟨List.mem_map.mpr ⟨slot, hmem, if_neg fun hi => h (hindex.symm.trans hi)⟩, hindex⟩

/-! ## What is sent -/

/-- The policy was compiled for a slot of an inventory that the run has read, and is sent to its
index and fingerprint. -/
def Backed (family : FamilyState) (listed : List (List DeviceClientSlot)) (u : SentUpdate) :
    Prop :=
  ∃ inventory ∈ listed, ∃ slot ∈ inventory, ∃ c,
    compileSlot (buildCompilerInput family inventory) slot = some c ∧ u.policy = c.policy
      ∧ u.slotIndex = slot.slotIndex ∧ u.secretFingerprint = slot.secretFingerprint

/-- The device takes an update for the fingerprint it holds. -/
def SentUpdate.Matches (u : SentUpdate) : Prop :=
  u.taken = true → ∃ slot, u.occupant = some slot ∧ slot.secretFingerprint = u.secretFingerprint

/-- From `w` to `w'` at most `n` updates were sent, to the slot of index `i`. -/
structure Sends (family : FamilyState) (i n : ℕ) (w w' : World) : Prop where
  listed : w.listed <+: w'.listed
  sent : ∃ more, w'.sent = w.sent ++ more ∧ more.length ≤ n
    ∧ ∀ u ∈ more, u.slotIndex = i ∧ u.Matches ∧ Backed family w'.listed u

theorem Backed.mono {family : FamilyState} {listed listed' : List (List DeviceClientSlot)}
    {u : SentUpdate} (h : Backed family listed u) (hle : listed <+: listed') :
    Backed family listed' u := by
  obtain ⟨inventory, hinventory, hslot⟩ := h
  exact ⟨inventory, hle.subset hinventory, hslot⟩

namespace Sends

variable {family : FamilyState} {i n m : ℕ} {w w' w'' : World}

theorem refl : Sends family i 0 w w where
  listed := List.prefix_refl _
  sent := ⟨[], by simp⟩

theorem trans (h : Sends family i n w w') (h' : Sends family i m w' w'') :
    Sends family i (n + m) w w'' := by
  obtain ⟨more, hmore, hlength, hall⟩ := h.sent
  obtain ⟨more', hmore', hlength', hall'⟩ := h'.sent
  refine ⟨h.listed.trans h'.listed, more ++ more', ?_, ?_, ?_⟩
  · rw [hmore', hmore, List.append_assoc]
  · rw [List.length_append]
    omega
  · intro u hu
    cases List.mem_append.mp hu with
    | inl hu =>
      obtain ⟨hindex, hmatches, hbacked⟩ := hall u hu
      exact ⟨hindex, hmatches, hbacked.mono h'.listed⟩
    | inr hu => exact hall' u hu

theorem mono (h : Sends family i n w w') (hle : n ≤ m) : Sends family i m w w' := by
  obtain ⟨more, hmore, hlength, hall⟩ := h.sent
  exact ⟨h.listed, more, hmore, hlength.trans hle, hall⟩

end Sends

theorem compile_cases (family : FamilyState) (s : Surroundings) (w : World) :
    (∃ message, compile family s w = (.error message, w.next s))
      ∨ compile family s w
          = (.ok (compileSlotPolicies (buildCompilerInput family (w.next s).device.slots)),
            w.read s) := by
  unfold compile listClients
  cases hrefuse : s.refuse w.requests with
  | some message => exact .inl ⟨message, rfl⟩
  | none => exact .inr rfl

/-- An update that is attempted at all: what is recorded, and what happens to the device. -/
theorem updateClientPolicy_cases (s : Surroundings) (c : CompiledSlot) (w : World) :
    (∃ message, updateClientPolicy s c w = (.error message, w))
      ∨ ∃ answer taken, updateClientPolicy s c w
          = (answer,
            { device :=
                if taken then (w.next s).device.store c.slotIndex c.policy else (w.next s).device
              requests := w.requests + 1
              listed := w.listed
              sent := w.sent ++
                [{ slotIndex := c.slotIndex
                   secretFingerprint := c.secretFingerprint
                   policy := c.policy
                   occupant := (w.next s).device.slotAt c.slotIndex
                   taken }] })
        ∧ (taken = true → ∃ slot, (w.next s).device.slotAt c.slotIndex = some slot
          ∧ slot.secretFingerprint = c.secretFingerprint)
        ∧ (answer = .ok () → taken = true) := by
  unfold updateClientPolicy
  by_cases hfingerprint : c.secretFingerprint = []
  · rw [if_pos hfingerprint]
    exact .inl ⟨_, rfl⟩
  · rw [if_neg hfingerprint]
    right
    have hmatches : ∀ {p : Bool}, (((w.next s).device.slotAt c.slotIndex).any
          (·.secretFingerprint = c.secretFingerprint) && p) = true →
        ∃ slot, (w.next s).device.slotAt c.slotIndex = some slot
          ∧ slot.secretFingerprint = c.secretFingerprint := by
      intro p h
      rw [Bool.and_eq_true, Option.any_eq_true] at h
      obtain ⟨⟨slot, hslot, hsame⟩, -⟩ := h
      exact ⟨slot, hslot, by simpa using hsame⟩
    cases hrefuse : s.refuse w.requests with
    | some message =>
      refine ⟨.error message, _, rfl, hmatches, ?_⟩
      intro h
      cases h
    | none =>
      refine ⟨_, _, rfl, hmatches, ?_⟩
      intro h
      split at h
      · next haccepted => simp only [haccepted, Option.isNone_none, Bool.true_or, Bool.and_true]
      · cases h

variable {inventory : List DeviceClientSlot}

theorem updateClientPolicy_sends {family : FamilyState} {s : Surroundings} {w : World} (hinventory : inventory ∈ w.listed)
    (hc : c ∈ (compileSlotPolicies (buildCompilerInput family inventory)).slots) :
    Sends family c.slotIndex 1 w (updateClientPolicy s c w).2 := by
  obtain ⟨message, h⟩ | ⟨answer, taken, h, hmatches, _⟩ := updateClientPolicy_cases s c w
  · rw [h]
    exact Sends.refl.mono (Nat.zero_le 1)
  · rw [h]
    refine ⟨List.prefix_refl _, _, rfl, le_rfl, ?_⟩
    intro u hu
    obtain rfl := List.mem_singleton.mp hu
    obtain ⟨slot, hslot, hcompiled⟩ := List.mem_filterMap.mp hc
    obtain ⟨hindex, hfingerprint, _, _⟩ := compileSlot_cases hcompiled
    exact ⟨rfl, hmatches, inventory, hinventory, slot, hslot, c, hcompiled, rfl, hindex,
      hfingerprint⟩

/-! ## What is counted -/

def PolicyPushResult.total (r : PolicyPushResult) : ℕ :=
  r.pushed + r.unchanged + r.untouched + r.errors.length

/-- A slot was counted, once. -/
structure Counts (r r' : PolicyPushResult) : Prop where
  total : r'.total = r.total + 1
  untouched : r.untouched ≤ r'.untouched

theorem counts_fail (r : PolicyPushResult) (line : JsString) : Counts r (r.fail line) where
  total := by simp only [PolicyPushResult.total, PolicyPushResult.fail, List.length_append,
    List.length_singleton]; omega
  untouched := le_rfl

theorem counts_pushed (r : PolicyPushResult) : Counts r { r with pushed := r.pushed + 1 } where
  total := by simp only [PolicyPushResult.total]; omega
  untouched := le_rfl

theorem counts_unchanged (r : PolicyPushResult) :
    Counts r { r with unchanged := r.unchanged + 1 } where
  total := by simp only [PolicyPushResult.total]; omega
  untouched := le_rfl

theorem counts_untouched (r : PolicyPushResult) :
    Counts r { r with untouched := r.untouched + 1 } where
  total := by simp only [PolicyPushResult.total]; omega
  untouched := Nat.le_succ _

/-! ## One slot -/

theorem retrySlot_spec {family : FamilyState} {s : Surroundings} {slot : CompiledSlot}
    {message : JsString} {r : PolicyPushResult} {w : World} :
    Counts r (retrySlot family s slot message r w).1
      ∧ Sends family slot.slotIndex 1 w (retrySlot family s slot message r w).2 := by
  unfold retrySlot
  obtain ⟨refresh, hcompile⟩ | hcompile := compile_cases family s w
  · rw [hcompile]
    exact ⟨counts_fail r _, List.prefix_refl _, [], by simp [World.next]⟩
  · rw [hcompile]
    have hread : Sends family slot.slotIndex 0 w (w.read s) :=
      ⟨List.prefix_append _ _, [], by simp [World.read, World.next]⟩
    have hinventory : (w.next s).device.slots ∈ (w.read s).listed :=
      List.mem_append_right _ (List.mem_singleton_self _)
    dsimp only
    cases hfresh : (compileSlotPolicies
        (buildCompilerInput family (w.next s).device.slots)).slots.find?
          (·.slotIndex = slot.slotIndex) with
    | none => exact ⟨counts_untouched r, hread.mono (Nat.zero_le 1)⟩
    | some fresh =>
      have hindex : fresh.slotIndex = slot.slotIndex := by simpa using List.find?_some hfresh
      have hsent := hread.trans (hindex ▸ updateClientPolicy_sends (s := s) hinventory
        (List.mem_of_find?_eq_some hfresh))
      dsimp only
      split
      · exact ⟨counts_unchanged r, hread.mono (Nat.zero_le 1)⟩
      · generalize updateClientPolicy s fresh _ = answer at *
        obtain ⟨result, w₂⟩ := answer
        cases result with
        | ok _ => exact ⟨counts_pushed r, hsent⟩
        | error again => exact ⟨counts_fail r _, hsent⟩

theorem pushSlot_spec {family : FamilyState} {s : Surroundings} {w : World} (hinventory : inventory ∈ w.listed) {slot : CompiledSlot}
    (hslot : slot ∈ (compileSlotPolicies (buildCompilerInput family inventory)).slots)
    (r : PolicyPushResult) :
    Counts r (pushSlot family s slot r w).1
      ∧ Sends family slot.slotIndex 2 w (pushSlot family s slot r w).2 := by
  have hsent := updateClientPolicy_sends (s := s) hinventory hslot
  unfold pushSlot
  split
  · exact ⟨counts_unchanged r, Sends.refl.mono (Nat.zero_le 2)⟩
  · generalize updateClientPolicy s slot w = answer at *
    obtain ⟨result, w₁⟩ := answer
    cases result with
    | ok _ => exact ⟨counts_pushed r, hsent.mono (by omega)⟩
    | error message =>
      dsimp only
      split
      · obtain ⟨hcounts, hretry⟩ := @retrySlot_spec family s slot message r w₁
        exact ⟨hcounts, hsent.trans hretry⟩
      · exact ⟨counts_fail r _, hsent.mono (by omega)⟩

/-! ## A run in any surroundings -/

theorem compiled_index_sublist (input : CompilerInput) (slots : List DeviceClientSlot) :
    ((slots.filterMap (compileSlot input)).map CompiledSlot.slotIndex).Sublist
      (slots.map DeviceClientSlot.slotIndex) := by
  induction slots with
  | nil => exact List.Sublist.slnil
  | cons slot slots ih =>
    cases hslot : compileSlot input slot with
    | none =>
      rw [List.filterMap_cons_none hslot]
      exact ih.cons _
    | some c =>
      rw [List.filterMap_cons_some hslot, List.map_cons, List.map_cons, (compileSlot_cases hslot).1]
      exact ih.cons_cons _

/-- From `w` to `w'` at most two updates were sent to each index of `indices`, and none to other
indices. -/
structure SendsAll (family : FamilyState) (indices : List ℕ) (w w' : World) : Prop where
  listed : w.listed <+: w'.listed
  sent : ∃ more, w'.sent = w.sent ++ more
    ∧ (∀ u ∈ more, u.slotIndex ∈ indices ∧ u.Matches ∧ Backed family w'.listed u)
    ∧ ∀ i, more.countP (·.slotIndex = i) ≤ 2

theorem SendsAll.cons {family : FamilyState} {i : ℕ} {indices : List ℕ} {w w' w'' : World}
    (h : Sends family i 2 w w') (h' : SendsAll family indices w' w'') (hi : i ∉ indices) :
    SendsAll family (i :: indices) w w'' := by
  obtain ⟨more, hmore, hlength, hall⟩ := h.sent
  obtain ⟨more', hmore', hall', htwice⟩ := h'.sent
  refine ⟨h.listed.trans h'.listed, more ++ more', by rw [hmore', hmore, List.append_assoc], ?_, ?_⟩
  · intro u hu
    cases List.mem_append.mp hu with
    | inl hu =>
      obtain ⟨hindex, hmatches, hbacked⟩ := hall u hu
      exact ⟨hindex ▸ List.mem_cons_self, hmatches, hbacked.mono h'.listed⟩
    | inr hu =>
      obtain ⟨hindex, hrest⟩ := hall' u hu
      exact ⟨List.mem_cons_of_mem _ hindex, hrest⟩
  · intro j
    rw [List.countP_append]
    by_cases hj : j = i
    · -- The later slots have other indices.
      have hnone : more'.countP (·.slotIndex = j) = 0 := by
        rw [List.countP_eq_zero]
        intro u hu hindex
        have huj : u.slotIndex = i := hj ▸ of_decide_eq_true hindex
        exact hi (huj ▸ (hall' u hu).1)
      have hle := List.countP_le_length (p := fun u : SentUpdate => u.slotIndex = j) (l := more)
      omega
    · have hnone : more.countP (·.slotIndex = j) = 0 := by
        rw [List.countP_eq_zero]
        intro u hu hindex
        exact hj ((of_decide_eq_true hindex).symm.trans (hall u hu).1)
      have hle := htwice j
      omega

theorem pushSlots_spec {family : FamilyState} {s : Surroundings} {slots : List CompiledSlot}
    (hslots : ∀ c ∈ slots, c ∈ (compileSlotPolicies (buildCompilerInput family inventory)).slots)
    (hdistinct : (slots.map CompiledSlot.slotIndex).Nodup) :
    ∀ {r : PolicyPushResult} {w : World}, inventory ∈ w.listed →
      (pushSlots family s slots r w).1.total = r.total + slots.length
        ∧ r.untouched ≤ (pushSlots family s slots r w).1.untouched
        ∧ SendsAll family (slots.map CompiledSlot.slotIndex) w
          (pushSlots family s slots r w).2 := by
  induction slots with
  | nil =>
    intro r w _
    exact ⟨rfl, le_rfl, List.prefix_refl _, [], by simp [pushSlots], by simp, by simp⟩
  | cons slot slots ih =>
    intro r w hinventory
    rw [List.map_cons, List.nodup_cons] at hdistinct
    obtain ⟨hcounts, hsends⟩ :=
      pushSlot_spec (s := s) hinventory (hslots slot List.mem_cons_self) r
    obtain ⟨htotal, huntouched, hrest⟩ := ih (fun c hc => hslots c (List.mem_cons_of_mem _ hc))
      hdistinct.2 (hsends.listed.subset hinventory) (r := (pushSlot family s slot r w).1)
    refine ⟨?_, hcounts.untouched.trans huntouched, hrest.cons hsends hdistinct.1⟩
    have hone := hcounts.total
    show (pushSlots family s slots (pushSlot family s slot r w).1
      (pushSlot family s slot r w).2).1.total = _
    rw [htotal, List.length_cons]
    omega

/-- What a run owes in any surroundings. -/
structure Accounted (family : FamilyState) (r : PolicyPushResult) (w : World) : Prop where
  backed : ∀ u ∈ w.sent, u.Matches ∧ Backed family w.listed u
  twice : ∀ i, w.sent.countP (·.slotIndex = i) ≤ 2
  /-- Either the device could not be read, or each slot compiled from the first reading is counted
  once. -/
  counted :
    (w.sent = [] ∧ r.pushed = 0 ∧ r.unchanged = 0 ∧ r.untouched = 0 ∧ r.errors.length = 1)
      ∨ ∃ inventory, w.listed.head? = some inventory
        ∧ (compileSlotPolicies (buildCompilerInput family inventory)).untouched ≤ r.untouched
        ∧ r.pushed + r.unchanged
            + (r.untouched
              - (compileSlotPolicies (buildCompilerInput family inventory)).untouched)
            + r.errors.length
          = (compileSlotPolicies (buildCompilerInput family inventory)).slots.length

theorem runPolicyPush_accounted (family : FamilyState) (s : Surroundings) (device : Device) :
    Accounted family (runPolicyPush family s { device }).1
      (runPolicyPush family s { device }).2 := by
  unfold runPolicyPush
  obtain ⟨message, hcompile⟩ | hcompile := compile_cases family s { device }
  · rw [hcompile]
    exact ⟨by simp [World.next], by simp [World.next], .inl ⟨rfl, rfl, rfl, rfl, rfl⟩⟩
  · rw [hcompile]
    dsimp only
    generalize hw : (World.read { device } s) = w₁
    have hlisted : w₁.listed = [((World.next { device } s).device).slots] := hw ▸ rfl
    have hsent : w₁.sent = [] := hw ▸ rfl
    generalize hd : (World.next { device } s).device = found at *
    generalize hcompiled : compileSlotPolicies (buildCompilerInput family found.slots) = compiled
    have hdistinct : (compiled.slots.map CompiledSlot.slotIndex).Nodup := by
      rw [← hcompiled]
      exact (compiled_index_sublist _ _).nodup found.distinct
    have hslots : ∀ c ∈ compiled.slots,
        c ∈ (compileSlotPolicies (buildCompilerInput family found.slots)).slots :=
      fun c hc => hcompiled ▸ hc
    obtain ⟨htotal, huntouched, hall⟩ := pushSlots_spec (s := s) hslots hdistinct
      (r := { untouched := compiled.untouched, warnings := compiled.warnings })
      (hlisted ▸ List.mem_singleton_self found.slots)
    obtain ⟨more, hmore, hbacked, htwice⟩ := hall.sent
    rw [hsent, List.nil_append] at hmore
    obtain ⟨rest, hrest⟩ := hall.listed
    refine ⟨?_, ?_, .inr ⟨found.slots, ?_, ?_, ?_⟩⟩
    · rw [hmore]
      exact fun u hu => (hbacked u hu).2
    · rw [hmore]
      exact htwice
    · rw [← hrest, hlisted]
      rfl
    · rw [hcompiled]
      exact huntouched
    · rw [hcompiled]
      simp only [PolicyPushResult.total, List.length_nil] at htotal huntouched
      omega

end SignetApp.Family
