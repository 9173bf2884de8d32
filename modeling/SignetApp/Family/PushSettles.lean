import SignetApp.Family.PushRun

/-!
# Runs without other managers

When nobody else touches the device, a run that ends without an error leaves each slot of the
family as compiled, so the next run sends nothing.
-/

namespace SignetApp.Family

open SignetApp.Js

/-- No other manager changes the device. -/
def Surroundings.Quiet (s : Surroundings) : Prop := ∀ n device, s.interfere n device = device

/-- The compiler would not change this slot. -/
def Settled (family : FamilyState) (slot : DeviceClientSlot) : Prop :=
  ∀ c, compileSlot (buildCompilerInput family []) slot = some c → c.changed = false

variable {c : CompiledSlot} {slot : DeviceClientSlot} {family : FamilyState}

theorem settled_of_unchanged
    (hc : compileSlot (buildCompilerInput family []) slot = some c) (h : c.changed = false) :
    Settled family slot := by
  intro c' hc'
  rw [← Option.some.inj (hc.symm.trans hc')]
  exact h

theorem settled_store (hc : compileSlot (buildCompilerInput family []) slot = some c) :
    Settled family (slot.store c.policy) := by
  obtain ⟨next, hnext, _, hchanged⟩ := compileSlot_store hc
  exact settled_of_unchanged hnext hchanged

/-- From one world to the next only the slot of index `i` may have changed, to one of `slots`. -/
structure Keeps (i : ℕ) (slots : List DeviceClientSlot) (w w' : World) : Prop where
  others : ∀ j, j ≠ i → w'.device.slotAt j = w.device.slotAt j
  slot : ∃ slot ∈ slots, w'.device.slotAt i = some slot

variable {w : World} {s : Surroundings}

theorem updateClientPolicy_keeps (hquiet : s.Quiet) (hslot : w.device.slotAt c.slotIndex = some slot) :
    Keeps c.slotIndex [slot, slot.store c.policy] w (updateClientPolicy s c w).2
      ∧ ((updateClientPolicy s c w).1 = .ok () →
        (updateClientPolicy s c w).2.device.slotAt c.slotIndex = some (slot.store c.policy)) := by
  obtain ⟨message, h⟩ | ⟨answer, taken, h, _, htaken⟩ := updateClientPolicy_cases s c w
  · rw [h]
    refine ⟨⟨fun _ _ => rfl, slot, by simp, hslot⟩, ?_⟩
    intro hok
    cases hok
  · rw [h]
    have hdevice : (w.next s).device = w.device := hquiet _ _
    simp only [hdevice]
    cases taken with
    | true =>
      have hstored := @Device.slotAt_store_self w.device c.slotIndex c.policy slot hslot
      exact ⟨⟨fun j hj => Device.slotAt_store_of_ne hj, _, by simp, hstored⟩, fun _ => hstored⟩
    | false =>
      refine ⟨⟨fun _ _ => rfl, slot, by simp, hslot⟩, ?_⟩
      intro hok
      cases htaken hok

variable {i : ℕ} {device : Device}

theorem find_compiled (hslot : device.slotAt i = some slot)
    (hc : compileSlot (buildCompilerInput family []) slot = some c) :
    (compileSlotPolicies (buildCompilerInput family device.slots)).slots.find?
      (·.slotIndex = i) = some c := by
  obtain ⟨hmem, hindex⟩ := Device.slotAt_eq_some_iff.mp hslot
  have hcompiled : c ∈ (compileSlotPolicies (buildCompilerInput family device.slots)).slots :=
    List.mem_filterMap.mpr ⟨slot, hmem, hc⟩
  have hci : c.slotIndex = i := (compileSlot_cases hc).1.trans hindex
  have hsome : ((compileSlotPolicies (buildCompilerInput family device.slots)).slots.find?
      (·.slotIndex = i)).isSome = true :=
    List.find?_isSome.mpr ⟨c, hcompiled, decide_eq_true hci⟩
  obtain ⟨found, hfound⟩ := Option.isSome_iff_exists.mp hsome
  obtain ⟨other, hother, hotherc⟩ := List.mem_filterMap.mp (List.mem_of_find?_eq_some hfound)
  have hfoundi : found.slotIndex = i := by simpa using List.find?_some hfound
  have hat : device.slotAt i = some other :=
    Device.slotAt_eq_some_iff.mpr ⟨hother, (compileSlot_cases hotherc).1.symm.trans hfoundi⟩
  obtain rfl : slot = other := Option.some.inj (hslot.symm.trans hat)
  obtain rfl : c = found := Option.some.inj (hc.symm.trans hotherc)
  exact hfound

/-- What one slot of the loop does: the other slots stay, and without a new error this one is as
compiled. -/
structure Settles (family : FamilyState) (i : ℕ) (r r' : PolicyPushResult) (w w' : World) :
    Prop where
  others : ∀ j, j ≠ i → w'.device.slotAt j = w.device.slotAt j
  errors : ∃ more, r'.errors = r.errors ++ more
    ∧ (more = [] → ∃ slot, w'.device.slotAt i = some slot ∧ Settled family slot)

theorem settles_fail {r : PolicyPushResult} {line : JsString}
    {w' : World} (h : ∀ j, j ≠ i → w'.device.slotAt j = w.device.slotAt j) :
    Settles family i r (r.fail line) w w' where
  others := h
  errors := ⟨[line], rfl, fun hnil => absurd hnil (List.cons_ne_nil _ _)⟩

theorem retrySlot_settles {family : FamilyState} {s : Surroundings} (hquiet : s.Quiet)
    {c before : CompiledSlot} {message : JsString} {r : PolicyPushResult} {w : World}
    {slot : DeviceClientSlot} (hslot : w.device.slotAt before.slotIndex = some slot)
    (hc : compileSlot (buildCompilerInput family []) slot = some c) :
    Settles family before.slotIndex r (retrySlot family s before message r w).1 w
      (retrySlot family s before message r w).2 := by
  have hdevice : (w.next s).device = w.device := hquiet _ _
  unfold retrySlot
  obtain ⟨refresh, hcompile⟩ | hcompile := compile_cases family s w
  · rw [hcompile]
    exact settles_fail fun j _ => congrArg (Device.slotAt · j) hdevice
  · have hread : (w.read s).device = w.device := hdevice
    have hindex : c.slotIndex = before.slotIndex :=
      (compileSlot_cases hc).1.trans (Device.slotAt_eq_some_iff.mp hslot).2
    have hcslot : (w.read s).device.slotAt c.slotIndex = some slot := by
      rw [hread, hindex, hslot]
    have hupdate := updateClientPolicy_keeps hquiet hcslot
    rw [hcompile, hdevice]
    dsimp only
    rw [find_compiled hslot hc]
    dsimp only
    split
    · next hunchanged =>
      refine ⟨fun j _ => congrArg (Device.slotAt · j) hread, [], by simp, fun _ => ?_⟩
      exact ⟨slot, hindex ▸ hcslot, settled_of_unchanged hc (by simpa using hunchanged)⟩
    · generalize updateClientPolicy s c (w.read s) = answer at *
      obtain ⟨result, w₁⟩ := answer
      obtain ⟨hkeeps, hok⟩ := hupdate
      have hothers : ∀ j, j ≠ before.slotIndex → w₁.device.slotAt j = w.device.slotAt j := by
        intro j hj
        rw [hkeeps.others j (hindex ▸ hj), hread]
      cases result with
      | ok _ =>
        refine ⟨hothers, [], by simp, fun _ => ⟨slot.store c.policy, ?_, settled_store hc⟩⟩
        rw [← hindex]
        exact hok rfl
      | error message => exact settles_fail hothers

theorem pushSlot_settles (hquiet : s.Quiet) {r : PolicyPushResult}
    (hslot : w.device.slotAt c.slotIndex = some slot)
    (hc : compileSlot (buildCompilerInput family []) slot = some c) :
    Settles family c.slotIndex r (pushSlot family s c r w).1 w (pushSlot family s c r w).2 := by
  have hupdate := updateClientPolicy_keeps hquiet hslot
  unfold pushSlot
  split
  · next hunchanged =>
    refine ⟨fun _ _ => rfl, [], by simp, fun _ => ?_⟩
    exact ⟨slot, hslot, settled_of_unchanged hc (by simpa using hunchanged)⟩
  · generalize updateClientPolicy s c w = answer at *
    obtain ⟨result, w₁⟩ := answer
    obtain ⟨hkeeps, hok⟩ := hupdate
    cases result with
    | ok _ =>
      exact ⟨hkeeps.others, [], by simp, fun _ => ⟨slot.store c.policy, hok rfl, settled_store hc⟩⟩
    | error message =>
      dsimp only
      split
      · -- Applied or not, the slot is still the family's.
        obtain ⟨now, hnow, hat⟩ := hkeeps.slot
        obtain ⟨c', hc'⟩ : ∃ c', compileSlot (buildCompilerInput family []) now = some c' := by
          simp only [List.mem_cons, List.not_mem_nil, or_false] at hnow
          rcases hnow with rfl | rfl
          · exact ⟨c, hc⟩
          · obtain ⟨next, hnext, _⟩ := compileSlot_store hc
            exact ⟨next, hnext⟩
        have hretry := @retrySlot_settles family s hquiet c' c message r w₁ now hat hc'
        exact ⟨fun j hj => (hretry.others j hj).trans (hkeeps.others j hj), hretry.errors⟩
      · exact settles_fail hkeeps.others

/-- After the loop each slot stays or is as compiled, unless there was an error. -/
theorem pushSlots_settles (hquiet : s.Quiet)
    {slots : List CompiledSlot} (hdistinct : (slots.map CompiledSlot.slotIndex).Nodup) :
    ∀ {r : PolicyPushResult} {w : World},
      (∀ c ∈ slots, ∃ slot, w.device.slotAt c.slotIndex = some slot
        ∧ compileSlot (buildCompilerInput family []) slot = some c) →
      (∀ j, j ∉ slots.map CompiledSlot.slotIndex →
          (pushSlots family s slots r w).2.device.slotAt j = w.device.slotAt j)
        ∧ ∃ more, (pushSlots family s slots r w).1.errors = r.errors ++ more
          ∧ (more = [] → ∀ c ∈ slots, ∃ slot,
            (pushSlots family s slots r w).2.device.slotAt c.slotIndex = some slot
              ∧ Settled family slot) := by
  induction slots with
  | nil =>
    intro r w _
    exact ⟨fun _ _ => rfl, [], by simp [pushSlots], by simp⟩
  | cons c slots ih =>
    intro r w hslots
    rw [List.map_cons, List.nodup_cons] at hdistinct
    obtain ⟨slot, hslot, hc⟩ := hslots c List.mem_cons_self
    obtain ⟨hothers, first, hfirst, hsettled⟩ := pushSlot_settles (r := r) hquiet hslot hc
    have hrest : ∀ c' ∈ slots, ∃ slot,
        (pushSlot family s c r w).2.device.slotAt c'.slotIndex = some slot
          ∧ compileSlot (buildCompilerInput family []) slot = some c' := by
      intro c' hc'
      have hne : c'.slotIndex ≠ c.slotIndex := fun heq =>
        hdistinct.1 (heq ▸ List.mem_map_of_mem hc')
      rw [hothers c'.slotIndex hne]
      exact hslots c' (List.mem_cons_of_mem _ hc')
    obtain ⟨hkept, more, hmore, hall⟩ := ih hdistinct.2 (r := (pushSlot family s c r w).1) hrest
    have hloop : pushSlots family s (c :: slots) r w
        = pushSlots family s slots (pushSlot family s c r w).1 (pushSlot family s c r w).2 := rfl
    rw [hloop]
    refine ⟨?_, first ++ more, by rw [hmore, hfirst, List.append_assoc], ?_⟩
    · intro j hj
      rw [List.map_cons, List.mem_cons, not_or] at hj
      exact (hkept j hj.2).trans (hothers j hj.1)
    · intro hnil
      obtain ⟨rfl, rfl⟩ := List.append_eq_nil_iff.mp hnil
      intro c' hc'
      cases List.mem_cons.mp hc' with
      | inl heq =>
        rw [heq, hkept _ hdistinct.1]
        exact hsettled rfl
      | inr hmem => exact hall rfl c' hmem

theorem pushSlots_unchanged {slots : List CompiledSlot}
    (h : ∀ c ∈ slots, c.changed = false) : ∀ {r : PolicyPushResult} {w : World},
      (pushSlots family s slots r w).1.pushed = r.pushed
        ∧ (pushSlots family s slots r w).2.sent = w.sent := by
  induction slots with
  | nil => exact fun {_ _} => ⟨rfl, rfl⟩
  | cons c slots ih =>
    intro r w
    have hc : pushSlot family s c r w = ({ r with unchanged := r.unchanged + 1 }, w) := by
      unfold pushSlot
      rw [h c List.mem_cons_self]
      rfl
    have hloop : pushSlots family s (c :: slots) r w
        = pushSlots family s slots (pushSlot family s c r w).1 (pushSlot family s c r w).2 := rfl
    rw [hloop, hc]
    exact ih fun c' hc' => h c' (List.mem_cons_of_mem _ hc')

theorem runPolicyPush_of_settled (hquiet : s.Quiet) (h : ∀ slot ∈ device.slots, Settled family slot) :
    (runPolicyPush family s { device }).1.pushed = 0
      ∧ (runPolicyPush family s { device }).2.sent = [] := by
  unfold runPolicyPush
  obtain ⟨message, hcompile⟩ | hcompile := compile_cases family s { device }
  · rw [hcompile]
    exact ⟨rfl, rfl⟩
  · have hdevice : (World.next { device } s).device = device := hquiet _ _
    rw [hcompile, hdevice]
    have hunchanged : ∀ c ∈ (compileSlotPolicies (buildCompilerInput family device.slots)).slots,
        c.changed = false := by
      intro c hc
      obtain ⟨slot, hslot, hcompiled⟩ := List.mem_filterMap.mp hc
      exact h slot hslot c hcompiled
    exact pushSlots_unchanged hunchanged

theorem compiled_at
    (hc : c ∈ (compileSlotPolicies (buildCompilerInput family device.slots)).slots) :
    ∃ slot, device.slotAt c.slotIndex = some slot
      ∧ compileSlot (buildCompilerInput family []) slot = some c := by
  obtain ⟨slot, hslot, hcompiled⟩ := List.mem_filterMap.mp hc
  exact ⟨slot, Device.slotAt_eq_some_iff.mpr ⟨hslot, (compileSlot_cases hcompiled).1.symm⟩,
    hcompiled⟩

theorem mem_compiled_index :
    i ∈ (compileSlotPolicies (buildCompilerInput family device.slots)).slots.map
        CompiledSlot.slotIndex ↔
      ∃ slot, device.slotAt i = some slot
        ∧ ∃ c, compileSlot (buildCompilerInput family []) slot = some c := by
  rw [List.mem_map]
  constructor
  · intro ⟨c, hc, hindex⟩
    obtain ⟨slot, hat, hcompiled⟩ := compiled_at hc
    exact ⟨slot, hindex ▸ hat, c, hcompiled⟩
  · intro ⟨slot, hslot, c, hcompiled⟩
    obtain ⟨hmem, hindex⟩ := Device.slotAt_eq_some_iff.mp hslot
    exact ⟨c, List.mem_filterMap.mpr ⟨slot, hmem, hcompiled⟩,
      (compileSlot_cases hcompiled).1.trans hindex⟩

/-- A run without an error leaves the family as compiled and the other slots as they were. -/
theorem runPolicyPush_settles (hquiet : s.Quiet) (herrors : (runPolicyPush family s { device }).1.errors = []) :
    (∀ slot ∈ (runPolicyPush family s { device }).2.device.slots, Settled family slot)
      ∧ ∀ slot ∈ device.slots, compileSlot (buildCompilerInput family []) slot = none →
        slot ∈ (runPolicyPush family s { device }).2.device.slots := by
  unfold runPolicyPush at herrors ⊢
  obtain ⟨message, hcompile⟩ | hcompile := compile_cases family s { device }
  · rw [hcompile] at herrors
    cases herrors
  · have hdevice : (World.next { device } s).device = device := hquiet _ _
    have hread : (World.read { device } s).device = device := hquiet _ _
    rw [hcompile, hdevice] at herrors ⊢
    dsimp only at herrors ⊢
    have hdistinct : ((compileSlotPolicies (buildCompilerInput family device.slots)).slots.map
        CompiledSlot.slotIndex).Nodup := (compiled_index_sublist _ _).nodup device.distinct
    obtain ⟨hkept, more, hmore, hall⟩ := pushSlots_settles hquiet hdistinct
      (fun c hc => hread.symm ▸ compiled_at hc)
    rw [hread] at hkept
    rw [hmore] at herrors
    constructor
    · intro slot hslot c hc
      have hat := Device.slotAt_eq_some_iff.mpr ⟨hslot, rfl⟩
      by_cases hindex : slot.slotIndex
          ∈ (compileSlotPolicies (buildCompilerInput family device.slots)).slots.map
            CompiledSlot.slotIndex
      · obtain ⟨before, hbefore, heq⟩ := List.mem_map.mp hindex
        obtain ⟨settled, hsettled, hdone⟩ := hall herrors before hbefore
        rw [heq, hat] at hsettled
        obtain rfl := Option.some.inj hsettled
        exact hdone c hc
      · -- At an index that was not compiled the old slot stands, and it is not the family's.
        rw [hkept _ hindex] at hat
        exact absurd (mem_compiled_index.mpr ⟨slot, hat, c, hc⟩) hindex
    · intro slot hslot hnone
      have hat := Device.slotAt_eq_some_iff.mpr ⟨hslot, rfl⟩
      have hindex : slot.slotIndex
          ∉ (compileSlotPolicies (buildCompilerInput family device.slots)).slots.map
            CompiledSlot.slotIndex := by
        intro hmem
        obtain ⟨other, hother, c, hc⟩ := mem_compiled_index.mp hmem
        obtain rfl : slot = other := Option.some.inj (hat.symm.trans hother)
        rw [hnone] at hc
        cases hc
      rw [← hkept _ hindex] at hat
      exact (Device.slotAt_eq_some_iff.mp hat).1

/-- A push settles, and accounts for what it sends and for each slot of the family. -/
theorem push_settles (family : FamilyState) :
    (∀ (s s' : Surroundings) (device : Device), s.Quiet → s'.Quiet →
        (runPolicyPush family s { device }).1.errors = [] →
        (runPolicyPush family s'
            { device := (runPolicyPush family s { device }).2.device }).1.pushed = 0
          ∧ (runPolicyPush family s'
            { device := (runPolicyPush family s { device }).2.device }).2.sent = []
          ∧ ∀ slot ∈ device.slots,
            compileSlot (buildCompilerInput family device.slots) slot = none →
              slot ∈ (runPolicyPush family s { device }).2.device.slots)
      ∧ ∀ (s : Surroundings) (device : Device),
        Accounted family (runPolicyPush family s { device }).1
          (runPolicyPush family s { device }).2 := by
  refine ⟨?_, runPolicyPush_accounted family⟩
  intro s s' device hquiet hquiet' herrors
  obtain ⟨hsettled, hothers⟩ := runPolicyPush_settles hquiet herrors
  obtain ⟨hpushed, hsent⟩ := runPolicyPush_of_settled hquiet' hsettled
  exact ⟨hpushed, hsent, hothers⟩

/-- A family of a guardian alone. -/
def guardianOnly : FamilyState where
  dependants := []
  grants := []
  guardianClientPubkey := some (lit "ab")
  nowSeconds := 0

/-- The slot of the guardian's phone, before the first push. -/
def phoneSlot : DeviceClientSlot where
  slotIndex := 1
  label := lit "MySignet"
  secretFingerprint := lit "f"
  autoApprove := false
  signingApproved := false
  strictPermissions := true
  currentPubkey := some (lit "ab")
  authorizedPubkeys := []
  allowedKinds := []
  allowedMethods := []
  escalate := false
  petitionOnDeny := false
  auditChildWrap := false
  boundIdentity := none

def phoneDevice : Device := ⟨[phoneSlot], List.nodup_singleton _⟩

def undisturbed : Surroundings where
  interfere := fun _ device => device
  refuse := fun _ => none
  lost := fun _ => false

theorem push_settles_phone :
    (runPolicyPush guardianOnly undisturbed { device := phoneDevice }).1.errors = []
      ∧ (runPolicyPush guardianOnly undisturbed { device :=
          (runPolicyPush guardianOnly undisturbed { device := phoneDevice }).2.device }).1.pushed
        = 0 := by
  have herrors :
      (runPolicyPush guardianOnly undisturbed { device := phoneDevice }).1.errors = [] := by decide
  have hquiet : undisturbed.Quiet := fun _ _ => rfl
  exact ⟨herrors,
    ((push_settles guardianOnly).1 undisturbed undisturbed phoneDevice hquiet hquiet herrors).1⟩

/-- Before the second request another manager mints the slot anew, for a stranger. -/
def minted : Surroundings where
  interfere := fun n device =>
    if n = 1 then
      ⟨[{ phoneSlot with secretFingerprint := lit "e", currentPubkey := some (lit "cd") }],
        List.nodup_singleton _⟩
    else device
  refuse := fun _ => none
  lost := fun _ => false

/-- A policy can be sent to an index that meanwhile is not the family's. -/
theorem sent_to_stranger :
    ¬ ∀ (family : FamilyState) (s : Surroundings) (device : Device),
      ∀ u ∈ (runPolicyPush family s { device }).2.sent, ∀ slot ∈ u.occupant,
        (compileSlot (buildCompilerInput family []) slot).isSome = true := by
  intro hall
  have hsent := hall guardianOnly minted phoneDevice
  revert hsent
  decide

end SignetApp.Family
