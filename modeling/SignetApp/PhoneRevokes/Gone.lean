import SignetApp.PhoneRevokes.Device

/-!
# Revoked only when it is gone

A call returns, and a record is removed, on a sign that the slot is gone: a confirmed revocation, an empty index, or a
list that does not show the credential. Where each sign is true, so is what is made of it; and a record whose slot is
gone goes in the next run.
-/

namespace SignetApp.PhoneRevokes

open SignetApp.Js
open SignetApp.Family (DeviceClientSlot)
open SignetApp.ChildPhone (SlotRef)

/-! ## Credentials -/

theorem same_iff {s ref : SlotRef} :
    s.same ref = true ↔ s.slotIndex = ref.slotIndex ∧ sameFingerprint s.secretFingerprint ref = true := by
  simp [SlotRef.same, sameFingerprint]

theorem same_comm (s ref : SlotRef) : s.same ref = ref.same s := by
  have hboth : ∀ s ref : SlotRef, s.same ref = true → ref.same s = true := by
    intro s ref h
    obtain ⟨hindex, hfp⟩ := same_iff.1 h
    exact same_iff.2 ⟨hindex.symm, decide_eq_true (of_decide_eq_true hfp).symm⟩
  exact Bool.eq_iff_iff.2 ⟨hboth s ref, hboth ref s⟩

theorem not_carries_iff {slots : List SlotRef} {ref : SlotRef} :
    carries slots ref = false ↔ ∀ s ∈ slots, sameFingerprint s.secretFingerprint ref = false := by
  simp [carries]

/-- A reply that is taken as the sign that the slot is gone. -/
def tellsGone (ref : SlotRef) : Stage → Reply → Bool
  | .revoking, reply => confirms ref reply || saysEmpty reply
  | .listing _, reply =>
    match listClients reply with
    | .error _ => false
    | .ok slots => !shown slots ref

section

variable {ref : SlotRef} {stage : Stage} {reply : Reply} {rest : List SlotRef} {cleared : ℕ}

theorem confirms_iff : confirms ref reply = true ↔ revokeClient ref reply = .ok () := by
  unfold confirms
  cases h : revokeClient ref reply with
  | ok u => cases u; simp
  | error m => simp

theorem revokeClient_error {message : JsString} (h : revokeClient ref reply = .error message) :
    reply = .error message ∨ isNoSuchSlotError message = false ∧ isStaleClientSlotMessage message = false := by
  cases reply with
  | error m =>
    cases h
    exact .inl rfl
  | ok result =>
    refine .inr ?_
    unfold revokeClient at h
    dsimp only at h
    by_cases hrevoked : (JsValue.obj result).get "revoked" ≠ .bool true
    · rw [if_pos hrevoked] at h
      obtain rfl := Except.error.inj h
      exact ⟨by decide, by decide⟩
    · rw [if_neg hrevoked] at h
      by_cases hindex : (JsValue.obj result).get "slot_index" ≠ .ofNat ref.slotIndex
      · rw [if_pos hindex] at h
        obtain rfl := Except.error.inj h
        exact ⟨by decide, by decide⟩
      · rw [if_neg hindex] at h
        cases h

theorem saysEmpty_iff {message : JsString} (h : revokeClient ref reply = .error message) :
    saysEmpty reply = true ↔ isNoSuchSlotError message = true := by
  obtain rfl | ⟨hempty, -⟩ := revokeClient_error h
  · rfl
  · cases reply with
    | error m =>
      cases h
      rfl
    | ok result =>
      rw [hempty]
      rfl

theorem returned_iff : revokeChildDeviceSlot ref stage reply = .returned ref ↔ tellsGone ref stage reply = true := by
  cases stage with
  | revoking =>
    unfold revokeChildDeviceSlot tellsGone
    rw [Bool.or_eq_true, confirms_iff]
    dsimp only
    cases h : revokeClient ref reply with
    | ok u => simp
    | error message =>
      rw [saysEmpty_iff h]
      by_cases hempty : isNoSuchSlotError message = true <;> simp [hempty]
  | listing thrown =>
    unfold revokeChildDeviceSlot tellsGone
    dsimp only
    cases listClients reply with
    | error message => simp
    | ok slots => by_cases hshown : shown slots ref = true <;> simp [hshown]

theorem revoke_cases :
    tellsGone ref stage reply = true ∧ revokeChildDeviceSlot ref stage reply = .returned ref ∨
      (∃ message, revokeChildDeviceSlot ref stage reply = .asking ⟨ref, .listing message, none⟩) ∨
      ∃ message, revokeChildDeviceSlot ref stage reply = .threw message := by
  by_cases h : tellsGone ref stage reply = true
  · exact .inl ⟨h, returned_iff.2 h⟩
  · have hnot := mt returned_iff.1 h
    revert hnot
    unfold revokeChildDeviceSlot
    cases stage with
    | revoking =>
      dsimp only
      split
      · exact fun hnot => absurd rfl hnot
      · split
        · exact fun hnot => absurd rfl hnot
        · exact fun _ => .inr (.inl ⟨_, rfl⟩)
    | listing thrown =>
      dsimp only
      split
      · exact fun _ => .inr (.inr ⟨_, rfl⟩)
      · split
        · exact fun _ => .inr (.inr ⟨_, rfl⟩)
        · exact fun hnot => absurd rfl hnot

/-- A run removes a record on such a sign, or goes on. -/
theorem retry_cases :
    tellsGone ref stage reply = true ∧
        retryPendingChildRevokes ref stage rest cleared reply = .removing ref rest cleared ∨
      tellsGone ref stage reply = false ∧
        ((∃ message, reply = .error message ∧ isStaleClientSlotMessage message = true ∧
          retryPendingChildRevokes ref stage rest cleared reply = .asking ⟨ref, .listing message, none⟩ rest cleared) ∨
        retryPendingChildRevokes ref stage rest cleared reply = goOn cleared rest) := by
  unfold retryPendingChildRevokes tellsGone
  cases stage with
  | revoking =>
    dsimp only
    cases h : revokeClient ref reply with
    | ok u => exact .inl ⟨by rw [confirms_iff.2 h]; rfl, rfl⟩
    | error message =>
      have hconfirms : confirms ref reply = false := by
        rw [← Bool.not_eq_true, confirms_iff, h]
        exact fun heq => by cases heq
      dsimp only
      rw [hconfirms, Bool.false_or]
      by_cases hempty : isNoSuchSlotError message = true
      · rw [if_pos hempty]
        exact .inl ⟨(saysEmpty_iff h).2 hempty, rfl⟩
      · have hnot : saysEmpty reply = false := by
          rw [← Bool.not_eq_true, saysEmpty_iff h]
          exact hempty
        rw [if_neg hempty]
        refine .inr ⟨hnot, ?_⟩
        by_cases hstale : isStaleClientSlotMessage message = true
        · rw [if_pos hstale]
          obtain hreply | ⟨-, hnot⟩ := revokeClient_error h
          · exact .inl ⟨message, hreply, hstale, rfl⟩
          · rw [hnot] at hstale
            cases hstale
        · rw [if_neg hstale]
          exact .inr rfl
  | listing thrown =>
    dsimp only
    cases listClients reply with
    | error message => exact .inr ⟨rfl, .inr rfl⟩
    | ok slots =>
      dsimp only
      by_cases hshown : shown slots ref = true
      · rw [if_pos hshown, hshown]
        exact .inr ⟨rfl, .inr rfl⟩
      · rw [if_neg hshown]
        exact .inl ⟨by simpa using hshown, rfl⟩

/-! ## One sign -/

/-- **A sign is true exactly where it is telling.** -/
theorem telling_iff {w : World} {who : Who} {a : Asking} {slots : List SlotRef} (hwaits : w.waits who = some a)
    (hdoc : Documented w (.serve who reply slots)) (htells : tellsGone a.ref a.stage reply = true) :
    carries slots a.ref = false ↔ Telling w (.serve who reply slots) := by
  have hdoc := hdoc a hwaits
  obtain ⟨ref, stage, reply'⟩ := a
  rw [not_carries_iff]
  cases stage with
  | revoking =>
    dsimp only at hdoc htells ⊢
    have honly : Telling w (.serve who reply slots) ↔ (confirms ref reply = true ∨ saysEmpty reply = true →
        ∀ s ∈ w.slots, sameFingerprint s.secretFingerprint ref = true → s.slotIndex = ref.slotIndex) := by
      constructor
      · exact fun h => h _ hwaits
      · intro h b hb
        cases hwaits.symm.trans hb
        exact h
    rw [honly]
    have hsign : confirms ref reply = true ∨ saysEmpty reply = true := by
      rwa [tellsGone, Bool.or_eq_true] at htells
    split at hdoc
    · -- the slot that was named went, and no other
      constructor
      · intro hnone _ s hs hfp
        by_contra hindex
        have hkept : s ∈ slots := (hdoc s).2 ⟨hs, by
          rw [← Bool.not_eq_true, same_iff]
          exact fun h => hindex h.1⟩
        rw [hnone s hkept] at hfp
        cases hfp
      · intro htelling s hs
        obtain ⟨hold, hother⟩ := (hdoc s).1 hs
        rw [← Bool.not_eq_true] at hother ⊢
        exact fun hfp => hother (same_iff.2 ⟨htelling hsign s hold hfp, hfp⟩)
    · rename_i hconfirms
      obtain ⟨rfl, hempty⟩ := hdoc
      have hnone := hempty (hsign.resolve_left hconfirms)
      constructor
      · intro hgone _ s hs hfp
        rw [hgone s hs] at hfp
        cases hfp
      · intro htelling s hs
        rw [← Bool.not_eq_true]
        exact fun hfp => hnone s hs (htelling hsign s hs hfp)
  | listing thrown =>
    dsimp only at hdoc htells ⊢
    subst hdoc
    have honly : Telling w (.serve who reply w.slots) ↔
        ∀ slots, listClients reply = .ok slots → carries w.slots ref = true → shown slots ref = true := by
      constructor
      · exact fun h => h _ hwaits
      · intro h b hb
        cases hwaits.symm.trans hb
        exact h
    rw [honly]
    unfold tellsGone at htells
    dsimp only at htells
    split at htells
    · cases htells
    · rename_i shownSlots hlist
      rw [Bool.not_eq_true'] at htells
      rw [← not_carries_iff, hlist]
      constructor
      · intro hgone _ _ hcarries
        rw [hgone] at hcarries
        cases hcarries
      · intro htelling
        rw [← Bool.not_eq_true]
        intro hcarries
        rw [htelling shownSlots rfl hcarries] at htells
        cases htells

end

/-! ## Runs -/

/-- A recorded credential that no slot carries. -/
def Settled (w : World) (ref : SlotRef) : Prop := ref ∈ w.recorded ∧ carries w.slots ref = false

/-- A reply that has come is a true sign, if it is one. -/
def Right (w : World) (a : Asking) : Prop :=
  a.ref ∈ w.recorded ∧ ∀ reply ∈ a.reply, tellsGone a.ref a.stage reply = true → carries w.slots a.ref = false

def CallRight (w : World) : CallState → Prop
  | .idle => True
  | .asking a => Right w a
  | .returned ref => Settled w ref
  | .threw _ => True

def RunRight (w : World) : RunState → Prop
  | .idle => True
  | .asking a rest _ => Right w a ∧ ∀ r ∈ rest, r ∈ w.recorded
  | .removing ref rest _ => Settled w ref ∧ ∀ r ∈ rest, r ∈ w.recorded
  | .done _ => True

structure Inv (w : World) : Prop where
  records : ∀ r ∈ w.records, r ∈ w.recorded
  calls : ∀ i, CallRight w (w.calls i)
  run : RunRight w w.run
  dropped : ∀ r ∈ w.dropped, Settled w r

/-- Nothing recorded is forgotten, and nothing that is gone comes back. -/
structure Later (w w' : World) : Prop where
  recorded : ∀ r ∈ w.recorded, r ∈ w'.recorded
  gone : ∀ r ∈ w.recorded, carries w.slots r = false → carries w'.slots r = false

section

variable {w w' : World} {i : ℕ} {a : Asking} {state : CallState} {reply : Reply} {slots : List SlotRef} {who : Who}

theorem Settled.later (h : Later w w') {ref : SlotRef} (hs : Settled w ref) : Settled w' ref :=
  ⟨h.recorded ref hs.1, h.gone ref hs.1 hs.2⟩

theorem Right.later (h : Later w w') (ha : Right w a) : Right w' a :=
  ⟨h.recorded _ ha.1, fun reply hreply htells => h.gone _ ha.1 (ha.2 reply hreply htells)⟩

theorem CallRight.later (h : Later w w') (hs : CallRight w state) : CallRight w' state := by
  cases state with
  | idle => trivial
  | asking a => exact Right.later h hs
  | returned ref => exact Settled.later h hs
  | threw message => trivial

theorem RunRight.later (h : Later w w') {state : RunState} (hs : RunRight w state) : RunRight w' state := by
  cases state with
  | idle => trivial
  | asking a rest cleared => exact ⟨hs.1.later h, fun r hr => h.recorded r (hs.2 r hr)⟩
  | removing ref rest cleared => exact ⟨hs.1.later h, fun r hr => h.recorded r (hs.2 r hr)⟩
  | done cleared => trivial

theorem Right.unasked {ref : SlotRef} {stage : Stage} (h : ref ∈ w.recorded) : Right w ⟨ref, stage, none⟩ :=
  ⟨h, fun _ hreply => by cases hreply⟩

theorem RunRight.goOn {rest : List SlotRef} (h : ∀ r ∈ rest, r ∈ w.recorded) (cleared : ℕ) :
    RunRight w (goOn cleared rest) := by
  cases rest with
  | nil => trivial
  | cons ref rest =>
    exact ⟨Right.unasked (h ref List.mem_cons_self), fun r hr => h r (List.mem_cons_of_mem _ hr)⟩

theorem Inv.later (h : Inv w) (hlater : Later w w') (hcalls : w'.calls = w.calls) (hrun : w'.run = w.run)
    (hdropped : w'.dropped = w.dropped) (hrecords : ∀ r ∈ w'.records, r ∈ w'.recorded) : Inv w' where
  records := hrecords
  calls i := by
    rw [hcalls]
    exact (h.calls i).later hlater
  run := by
    rw [hrun]
    exact h.run.later hlater
  dropped r hr := by
    rw [hdropped] at hr
    exact (h.dropped r hr).later hlater

theorem Inv.setCall (h : Inv w) (hstate : CallRight w state) : Inv (w.setCall i state) where
  records := h.records
  calls j := by
    show CallRight _ (if j = i then state else w.calls j)
    split
    · exact hstate.later ⟨fun _ h => h, fun _ _ h => h⟩
    · exact (h.calls j).later ⟨fun _ h => h, fun _ _ h => h⟩
  run := h.run.later ⟨fun _ h => h, fun _ _ h => h⟩
  dropped r hr := (h.dropped r hr).later ⟨fun _ h => h, fun _ _ h => h⟩

theorem Inv.setRun (h : Inv w) {run : RunState} (hrun : RunRight w run) : Inv { w with run } where
  records := h.records
  calls j := (h.calls j).later ⟨fun _ h => h, fun _ _ h => h⟩
  run := hrun.later ⟨fun _ h => h, fun _ _ h => h⟩
  dropped r hr := (h.dropped r hr).later ⟨fun _ h => h, fun _ _ h => h⟩

theorem Inv.waits (h : Inv w) (hwaits : w.waits who = some a) : Right w a := by
  cases who with
  | some i =>
    have hcall := h.calls i
    unfold World.waits at hwaits
    dsimp only at hwaits
    split at hwaits
    · rename_i b hb
      cases hwaits
      rwa [hb] at hcall
    · cases hwaits
  | none =>
    have hrun := h.run
    unfold World.waits at hwaits
    dsimp only at hwaits
    split at hwaits
    · rename_i b rest cleared hb
      cases hwaits
      rw [hb] at hrun
      exact hrun.1
    · cases hwaits

/-- A reply comes. -/
theorem Inv.receive (h : Inv w)
    (hreply : ∀ a, w.waits who = some a → tellsGone a.ref a.stage reply = true → carries w.slots a.ref = false) :
    Inv (w.receive who reply) := by
  unfold World.receive
  cases who with
  | some i =>
    dsimp only
    split
    · rename_i b hb
      have hwaits : w.waits (some i) = some b := by
        unfold World.waits
        dsimp only
        rw [hb]
      refine h.setCall ⟨(h.waits hwaits).1, fun r hr => ?_⟩
      cases hr
      exact hreply b hwaits
    · exact h
  | none =>
    dsimp only
    split
    · rename_i b rest cleared hb
      have hwaits : w.waits none = some b := by
        unfold World.waits
        dsimp only
        rw [hb]
      have hrun := h.run
      rw [hb] at hrun
      refine h.setRun ⟨⟨(h.waits hwaits).1, fun r hr => ?_⟩, hrun.2⟩
      cases hr
      exact hreply b hwaits
    · exact h

theorem Documented.later_serve (hwaits : w.waits who = some a) (h : Documented w (.serve who reply slots)) :
    Later w { w with slots } := by
  have hsub : ∀ s ∈ slots, s ∈ w.slots := by
    have h := h a hwaits
    intro s hs
    split at h
    · split at h
      · exact ((h s).1 hs).1
      · rwa [h.1] at hs
    · rwa [h] at hs
  exact ⟨fun _ h => h, fun r _ hgone => not_carries_iff.2 fun s hs => not_carries_iff.1 hgone s (hsub s hs)⟩

/-- **Each step keeps what has been taken as gone.** -/
theorem Inv.next (h : Inv w) (b : Happening) (hdoc : Documented w b) (htelling : Telling w b) : Inv (next w b) := by
  cases b with
  | manage slots =>
    refine h.later ⟨fun _ h => h, fun r hr hgone => ?_⟩ rfl rfl rfl h.records
    rw [← Bool.not_eq_true] at hgone ⊢
    exact fun hcarries => hgone (hdoc r hr hcarries)
  | remember ref =>
    unfold PhoneRevokes.next
    dsimp only
    split
    · exact h
    · refine h.later ⟨fun _ h => List.mem_cons_of_mem _ h, fun _ _ h => h⟩ rfl rfl rfl fun r hr => ?_
      rcases List.mem_append.1 hr with hold | hnew
      · exact List.mem_cons_of_mem _ (h.records r hold)
      · exact List.mem_singleton.1 hnew ▸ List.mem_cons_self
  | call i ref =>
    unfold PhoneRevokes.next
    dsimp only
    split
    · have hrecorded : Inv { w with recorded := ref :: w.recorded } :=
        h.later ⟨fun _ h => List.mem_cons_of_mem _ h, fun _ _ h => h⟩ rfl rfl rfl fun r hr =>
          List.mem_cons_of_mem _ (h.records r hr)
      refine hrecorded.setCall ?_
      unfold startRevoke
      split <;> exact Right.unasked List.mem_cons_self
    · exact h
  | retry =>
    have hbegun : Inv { w with run := goOn 0 w.records, gone := w.records.filter fun r => !carries w.slots r } :=
      (h.setRun (RunRight.goOn h.records 0)).later ⟨fun _ h => h, fun _ _ h => h⟩ rfl rfl rfl h.records
    unfold PhoneRevokes.next
    dsimp only
    split
    · exact hbegun
    · exact hbegun
    · exact h
  | serve who reply slots =>
    unfold PhoneRevokes.next
    dsimp only
    split
    · rename_i ref stage hwaits
      have hlater := hdoc.later_serve hwaits
      have hserved : Inv { w with slots } := h.later hlater rfl rfl rfl h.records
      refine hserved.receive fun a ha htells => ?_
      have hsame : ({ w with slots } : World).waits who = w.waits who := rfl
      rw [hsame] at ha
      exact (telling_iff ha hdoc htells).2 htelling
    · exact h
  | lose who message =>
    refine h.receive fun a _ htells => ?_
    have hnot : tellsGone a.ref a.stage (.error message) = false := by
      unfold tellsGone
      cases a.stage with
      | revoking =>
        show (false || isNoSuchSlotError message) = false
        exact htelling
      | listing thrown => rfl
    rw [hnot] at htells
    cases htells
  | resume who =>
    cases who with
    | some i =>
      have hcall := h.calls i
      unfold PhoneRevokes.next
      dsimp only
      split
      · rename_i ref stage reply hasking
        rw [hasking] at hcall
        obtain ⟨hrecorded, hright⟩ := hcall
        refine h.setCall ?_
        obtain ⟨htells, heq⟩ | ⟨message, heq⟩ | ⟨message, heq⟩ := @revoke_cases ref stage reply <;> rw [heq]
        · exact ⟨hrecorded, hright reply rfl htells⟩
        · exact Right.unasked hrecorded
        · trivial
      · exact h
    | none =>
      have hrun := h.run
      unfold PhoneRevokes.next
      dsimp only
      split
      · rename_i ref stage reply rest cleared hasking
        rw [hasking] at hrun
        obtain ⟨⟨hrecorded, hright⟩, hrest⟩ := hrun
        refine h.setRun ?_
        obtain ⟨htells, heq⟩ | ⟨-, ⟨message, -, -, heq⟩ | heq⟩ := @retry_cases ref stage reply rest cleared <;>
          rw [heq]
        · exact ⟨⟨hrecorded, hright reply rfl htells⟩, hrest⟩
        · exact ⟨Right.unasked hrecorded, hrest⟩
        · exact RunRight.goOn hrest cleared
      · exact h
  | remove ok =>
    have hrun := h.run
    unfold PhoneRevokes.next
    dsimp only
    split
    · rename_i ref rest cleared hremoving
      rw [hremoving] at hrun
      obtain ⟨hsettled, hrest⟩ := hrun
      split
      · have hgone := h.setRun (RunRight.goOn hrest (cleared + 1))
        refine ⟨fun r hr => h.records r (List.mem_of_mem_filter hr), hgone.calls, hgone.run, fun r hr => ?_⟩
        rcases List.mem_cons.1 hr with rfl | hold
        · exact hsettled
        · exact h.dropped r hold
      · exact h.setRun (RunRight.goOn hrest cleared)
    · exact h

/-! ## A run that is answered -/

/-- The records that a run has still to go through. -/
def RunState.left : RunState → List SlotRef
  | .idle | .done _ => []
  | .asking a rest _ => a.ref :: rest
  | .removing ref rest _ => ref :: rest

theorem left_goOn (cleared : ℕ) (rest : List SlotRef) : (goOn cleared rest).left = rest := by
  cases rest <;> rfl

/-- A reply in the documented form, for a slot that is gone. -/
def Formed (ref : SlotRef) : Stage → Reply → Prop
  | .revoking, reply => ∃ message, reply = .error message ∧
      (isNoSuchSlotError message = true ∨ isStaleClientSlotMessage message = true)
  | .listing _, reply => ∃ slots, listClients reply = .ok slots ∧ shown slots ref = false

/-- The records whose slot was gone are removed or still to come. -/
structure Sweeping (w : World) : Prop where
  settled : ∀ r ∈ w.gone, Settled w r
  swept : ∀ r ∈ w.gone, r ∈ w.run.left ∨ ∀ held ∈ w.records, held.same r = false
  formed : ∀ a rest cleared, w.run = .asking a rest cleared → a.ref ∈ w.gone → ∀ reply ∈ a.reply,
    Formed a.ref a.stage reply

/-- A formed reply leads to the record's removal, or to the list. -/
theorem retry_of_formed {ref : SlotRef} {stage : Stage} {rest : List SlotRef} {cleared : ℕ}
    (h : Formed ref stage reply) :
    retryPendingChildRevokes ref stage rest cleared reply = .removing ref rest cleared ∨
      ∃ message, retryPendingChildRevokes ref stage rest cleared reply =
        .asking ⟨ref, .listing message, none⟩ rest cleared := by
  cases stage with
  | revoking =>
    obtain ⟨message, rfl, hempty | hstale⟩ := h
    · left
      show (if isNoSuchSlotError message = true then _ else _) = _
      rw [if_pos hempty]
    · by_cases hempty : isNoSuchSlotError message = true
      · left
        show (if isNoSuchSlotError message = true then _ else _) = _
        rw [if_pos hempty]
      · right
        refine ⟨message, ?_⟩
        show (if isNoSuchSlotError message = true then _ else if isStaleClientSlotMessage message = true then _ else _) = _
        rw [if_neg hempty, if_pos hstale]
  | listing thrown =>
    obtain ⟨slots, hlist, hshown⟩ := h
    left
    unfold retryPendingChildRevokes
    dsimp only
    rw [hlist]
    dsimp only
    rw [if_neg (by rw [hshown]; decide)]

theorem Sweeping.later (h : Sweeping w) (hlater : Later w w') (hgone : w'.gone = w.gone) (hrun : w'.run = w.run)
    (hrecords : w'.records = w.records) : Sweeping w' where
  settled r hr := (h.settled r (hgone ▸ hr)).later hlater
  swept r hr := by
    rw [hrun, hrecords]
    exact h.swept r (hgone ▸ hr)
  formed a rest cleared ha hin := by
    rw [hrun] at ha
    rw [hgone] at hin
    exact h.formed a rest cleared ha hin

theorem Sweeping.setRun (h : Sweeping w) {run : RunState} (hleft : ∀ r ∈ w.gone, r ∈ w.run.left →
      r ∈ run.left ∨ ∀ held ∈ w.records, held.same r = false)
    (hreply : ∀ a rest cleared, run = .asking a rest cleared → a.ref ∈ w.gone → ∀ reply ∈ a.reply,
      Formed a.ref a.stage reply) : Sweeping { w with run } where
  settled r hr := (h.settled r hr).later ⟨fun _ h => h, fun _ _ h => h⟩
  swept r hr := (h.swept r hr).elim (hleft r hr) .inr
  formed := hreply

theorem unasked_goOn {cleared n : ℕ} {rest rest' : List SlotRef} (h : goOn cleared rest = .asking a rest' n) :
    a.reply = none := by
  cases rest with
  | nil => cases h
  | cons ref rest =>
    cases h
    rfl

/-- **Each step sweeps on.** -/
theorem Sweeping.next (h : Sweeping w) (hinv : ∀ r ∈ w.records, r ∈ w.recorded) (b : Happening) (hdoc : Documented w b)
    (hform : InForm w b) : Sweeping (next w b) := by
  cases b with
  | manage slots =>
    refine h.later ⟨fun _ h => h, fun r hr hgone => ?_⟩ rfl rfl rfl
    rw [← Bool.not_eq_true] at hgone ⊢
    exact fun hcarries => hgone (hdoc r hr hcarries)
  | remember ref =>
    unfold PhoneRevokes.next
    dsimp only
    split
    · exact h
    · -- what is recorded again is a new record
      refine ⟨fun r hr => ?_, fun r hr => ?_, fun a rest cleared ha hin => ?_⟩
      · obtain ⟨hrecorded, hgone⟩ := h.settled r (List.mem_of_mem_filter hr)
        exact ⟨List.mem_cons_of_mem _ hrecorded, hgone⟩
      · obtain ⟨hold, hother⟩ := List.mem_filter.1 hr
        rw [Bool.not_eq_true'] at hother
        refine (h.swept r hold).imp_right fun hnone held hheld => ?_
        rcases List.mem_append.1 hheld with hkept | hnew
        · exact hnone held hkept
        · rw [List.mem_singleton.1 hnew, same_comm]
          exact hother
      · exact h.formed a rest cleared ha (List.mem_of_mem_filter hin)
  | call i ref =>
    unfold PhoneRevokes.next
    dsimp only
    split
    · exact h.later ⟨fun _ h => List.mem_cons_of_mem _ h, fun _ _ h => h⟩ rfl rfl rfl
    · exact h
  | retry =>
    have hbegun : Sweeping { w with run := goOn 0 w.records, gone := w.records.filter fun r => !carries w.slots r } := by
      refine ⟨fun r hr => ?_, fun r hr => .inl ?_, fun a rest cleared ha _ reply hreply => ?_⟩
      · obtain ⟨hin, hgone⟩ := List.mem_filter.1 hr
        exact ⟨hinv r hin, by rwa [Bool.not_eq_true'] at hgone⟩
      · show r ∈ (goOn 0 w.records).left
        rw [left_goOn]
        exact List.mem_of_mem_filter hr
      · rw [unasked_goOn ha] at hreply
        cases hreply
    unfold PhoneRevokes.next
    dsimp only
    split
    · exact hbegun
    · exact hbegun
    · exact h
  | serve who reply slots =>
    unfold PhoneRevokes.next
    dsimp only
    split
    · rename_i ref stage hwaits
      have hserved : Sweeping { w with slots } := h.later (hdoc.later_serve hwaits) rfl rfl rfl
      unfold World.receive
      cases who with
      | some i =>
        dsimp only
        split
        · exact hserved.later ⟨fun _ h => h, fun _ _ h => h⟩ rfl rfl rfl
        · exact hserved
      | none =>
        dsimp only
        split
        · rename_i a rest cleared ha
          have ha : w.run = .asking a rest cleared := ha
          have hasked : w.waits none = some a := by
            unfold World.waits
            dsimp only
            rw [ha]
          refine hserved.setRun (fun r _ hleft => .inl ?_) fun b rest' cleared' hb hin reply' hreply => ?_
          · show r ∈ a.ref :: rest
            have hleft : r ∈ w.run.left := hleft
            rwa [ha] at hleft
          · cases hb
            cases hreply
            have hin : a.ref ∈ w.gone := hin
            have hanswered := hform a hasked (h.settled _ hin).2
            revert hanswered
            unfold Formed
            cases a.stage <;> exact id
        · exact hserved
    · exact h
  | lose who message =>
    cases who with
    | some i =>
      show Sweeping (w.receive (some i) _)
      unfold World.receive
      dsimp only
      split
      · exact h.later ⟨fun _ h => h, fun _ _ h => h⟩ rfl rfl rfl
      · exact h
    | none => exact hform.elim
  | resume who =>
    cases who with
    | some i =>
      unfold PhoneRevokes.next
      dsimp only
      split
      · exact h.later ⟨fun _ h => h, fun _ _ h => h⟩ rfl rfl rfl
      · exact h
    | none =>
      unfold PhoneRevokes.next
      dsimp only
      split
      · rename_i ref stage reply rest cleared hasking
        by_cases hin : ref ∈ w.gone
        · have hformed : Formed ref stage reply := h.formed _ _ _ hasking hin reply rfl
          refine h.setRun (fun r _ hleft => .inl ?_) fun a rest' cleared' ha _ reply' hreply => ?_
          · rw [hasking] at hleft
            obtain heq | ⟨message, heq⟩ := @retry_of_formed reply ref stage rest cleared hformed <;> rw [heq] <;>
              exact hleft
          · obtain heq | ⟨message, heq⟩ := @retry_of_formed reply ref stage rest cleared hformed <;> rw [heq] at ha <;>
              cases ha
            cases hreply
        · obtain ⟨-, heq⟩ | ⟨-, ⟨message, -, -, heq⟩ | heq⟩ := @retry_cases ref stage reply rest cleared <;> rw [heq]
          · refine h.setRun (fun r _ hleft => .inl ?_) fun a rest' cleared' ha => by cases ha
            rwa [hasking] at hleft
          · refine h.setRun (fun r _ hleft => .inl ?_) fun a rest' cleared' ha _ reply' hreply => ?_
            · rwa [hasking] at hleft
            · cases ha
              cases hreply
          · refine h.setRun (fun r hr hleft => .inl ?_) fun a rest' cleared' ha _ reply' hreply => ?_
            · rw [hasking] at hleft
              rw [left_goOn]
              refine (List.mem_cons.1 hleft).resolve_left fun heq => hin ?_
              rwa [heq] at hr
            · rw [unasked_goOn ha] at hreply
              cases hreply
      · exact h
  | remove ok =>
    have hok : ok = true := hform
    subst hok
    unfold PhoneRevokes.next
    dsimp only
    split
    · rename_i ref rest cleared hremoving
      rw [if_pos rfl]
      refine ⟨fun r hr => h.settled r hr, fun r hr => ?_, fun a rest' cleared' ha _ reply' hreply => ?_⟩
      · show r ∈ (goOn (cleared + 1) rest).left ∨ _
        rw [left_goOn]
        by_cases href : r = ref
        · refine .inr fun held hheld => ?_
          rw [href]
          have hother := (List.mem_filter.1 hheld).2
          rwa [Bool.not_eq_true'] at hother
        · refine (h.swept r hr).imp (fun hleft => ?_) fun hnone held hheld => hnone held (List.mem_of_mem_filter hheld)
          rw [hremoving] at hleft
          exact (List.mem_cons.1 hleft).resolve_left href
      · rw [unasked_goOn ha] at hreply
        cases hreply
    · exact h

end

/-- Nothing has been asked yet. -/
structure Started (w : World) : Prop where
  calls : ∀ i, w.calls i = .idle
  run : w.run = .idle
  records : ∀ r ∈ w.records, r ∈ w.recorded
  dropped : w.dropped = []
  gone : w.gone = []

variable {start : World}

theorem Started.inv (h : Started start) : Inv start where
  records := h.records
  calls i := by
    rw [h.calls i]
    trivial
  run := by
    rw [h.run]
    trivial
  dropped r hr := by
    rw [h.dropped] at hr
    cases hr

theorem Started.sweeping (h : Started start) : Sweeping start where
  settled r hr := by
    rw [h.gone] at hr
    cases hr
  swept r hr := by
    rw [h.gone] at hr
    cases hr
  formed a rest cleared ha := by
    rw [h.run] at ha
    cases ha

/-- What is stored was recorded, whatever is answered. -/
theorem records_next {w : World} (h : ∀ r ∈ w.records, r ∈ w.recorded) (b : Happening) :
    ∀ r ∈ (next w b).records, r ∈ (next w b).recorded := by
  have hreceive : ∀ (v : World) (who : Who) (reply : Reply),
      (v.receive who reply).records = v.records ∧ (v.receive who reply).recorded = v.recorded := by
    intro v who reply
    unfold World.receive
    cases who <;> dsimp only <;> split <;> exact ⟨rfl, rfl⟩
  intro r hr
  cases b with
  | manage slots => exact h r hr
  | remember ref =>
    unfold next at hr ⊢
    dsimp only at hr ⊢
    split at hr
    · rename_i hheld
      rw [if_pos hheld]
      exact h r hr
    · rename_i hheld
      rw [if_neg hheld]
      rcases List.mem_append.1 hr with hold | hnew
      · exact List.mem_cons_of_mem _ (h r hold)
      · exact List.mem_singleton.1 hnew ▸ List.mem_cons_self
  | call i ref =>
    unfold next at hr ⊢
    dsimp only at hr ⊢
    split at hr
    · exact List.mem_cons_of_mem _ (h r hr)
    · exact h r hr
  | retry =>
    unfold next at hr ⊢
    dsimp only at hr ⊢
    split at hr <;> exact h r hr
  | serve who reply slots =>
    unfold next at hr ⊢
    dsimp only at hr ⊢
    split at hr
    · rw [(hreceive _ who reply).1] at hr
      rw [(hreceive _ who reply).2]
      exact h r hr
    · exact h r hr
  | lose who message =>
    rw [next, (hreceive w who (.error message)).1] at hr
    rw [next, (hreceive w who (.error message)).2]
    exact h r hr
  | resume who =>
    cases who <;> unfold next at hr ⊢ <;> dsimp only at hr ⊢ <;> split at hr <;> exact h r hr
  | remove ok =>
    unfold next at hr ⊢
    dsimp only at hr ⊢
    split at hr
    · split at hr
      · rename_i hok
        rw [if_pos hok]
        exact h r (List.mem_of_mem_filter hr)
      · rename_i hok
        rw [if_neg hok]
        exact h r hr
    · exact h r hr

theorem Sweeping.done {w : World} (h : Sweeping w) {cleared : ℕ} (hdone : w.run = .done cleared) :
    ∀ ref ∈ w.gone, ∀ r ∈ w.records, r.same ref = false := by
  intro ref href
  refine (h.swept ref href).resolve_left fun hleft => ?_
  rw [hdone] at hleft
  cases hleft

/-- **Revoked means gone, where the signs are true.** Where the Heartwood's signs are true, a call that has returned and
a record that a run has removed are of credentials that no slot carries; whatever else it replies, a record whose slot
was gone when a run began is removed when that run is done, where the run is answered in the documented form. And at
every reply on which a call returns or a record is removed, the credential is gone exactly where the sign is true. -/
theorem revoked_when_gone (hstart : Started start) :
    (∀ t, Reaches next (fun w b => Documented w b ∧ Telling w b) start t →
      (∀ i ref, t.calls i = .returned ref → carries t.slots ref = false) ∧
        ∀ ref ∈ t.dropped, carries t.slots ref = false) ∧
    (∀ t, Reaches next (fun w b => Documented w b ∧ InForm w b) start t → ∀ cleared, t.run = .done cleared →
      ∀ ref ∈ t.gone, ∀ r ∈ t.records, r.same ref = false) ∧
    ∀ (w : World) (who : Who) (a : Asking) (reply : Reply) (slots : List SlotRef) (rest : List SlotRef) (cleared : ℕ),
      w.waits who = some a → Documented w (.serve who reply slots) →
      (revokeChildDeviceSlot a.ref a.stage reply = .returned a.ref ∨
        retryPendingChildRevokes a.ref a.stage rest cleared reply = .removing a.ref rest cleared) →
      (carries slots a.ref = false ↔ Telling w (.serve who reply slots)) := by
  refine ⟨fun t h => ?_, fun t h => ?_, fun w who a reply slots rest cleared hwaits hdoc hends => ?_⟩
  · have hinv : Inv t := Reaches.invariant hstart.inv (fun w b hw hb => hw.next b hb.1 hb.2) h
    refine ⟨fun i ref hreturned => ?_, fun ref href => (hinv.dropped ref href).2⟩
    have hcall := hinv.calls i
    rw [hreturned] at hcall
    exact hcall.2
  · have hsweep : Sweeping t ∧ ∀ r ∈ t.records, r ∈ t.recorded :=
      Reaches.invariant (I := fun w => Sweeping w ∧ ∀ r ∈ w.records, r ∈ w.recorded) ⟨hstart.sweeping, hstart.records⟩
        (fun w b hw hb => ⟨hw.1.next hw.2 b hb.1 hb.2, records_next hw.2 b⟩) h
    exact fun cleared hdone => hsweep.1.done hdone
  · refine telling_iff hwaits hdoc ?_
    rcases hends with hreturned | hremoving
    · exact returned_iff.1 hreturned
    · obtain ⟨htells, -⟩ | ⟨-, ⟨message, -, -, heq⟩ | heq⟩ := @retry_cases a.ref a.stage reply rest cleared
      · exact htells
      · rw [heq] at hremoving
        cases hremoving
      · rw [heq] at hremoving
        cases rest <;> cases hremoving

/-! ## A child's phone -/

/-- A child's phone, recorded at index 6. -/
def pairedWorld : World where
  slots := [⟨6, lit "ab"⟩]
  records := [⟨6, lit "ab"⟩]
  calls _ := .idle
  run := .idle
  recorded := [⟨6, lit "ab"⟩]
  dropped := []
  gone := []

theorem pairedWorld_started : Started pairedWorld := ⟨fun _ => rfl, rfl, fun _ h => h, rfl, rfl⟩

/-- The slot is emptied, and the run is told so. -/
def emptiedRun : List Happening :=
  [.manage [], .retry, .serve none (.error (lit "no such slot: 6")) [], .resume none, .remove true]

theorem allowed_emptiedRun :
    Reaches next (fun w b => Documented w b ∧ Telling w b ∧ InForm w b) pairedWorld (emptiedRun.foldl next pairedWorld) := by
  refine Reaches.run fun n b hb => ?_
  rcases n with _ | _ | _ | _ | _ | n <;> cases hb
  · refine ⟨fun ref _ hcarries => ?_, trivial, trivial⟩
    cases hcarries
  · exact ⟨trivial, trivial, trivial⟩
  · refine ⟨?_, ?_, ?_⟩ <;> rintro a ⟨⟩
    · exact ⟨rfl, fun _ s hs => by cases hs⟩
    · exact fun _ s hs => by cases hs
    · exact fun _ => ⟨lit "no such slot: 6", rfl, .inl (by decide)⟩
  · exact ⟨trivial, trivial, trivial⟩
  · exact ⟨trivial, trivial, rfl⟩

theorem revoked_when_gone_emptied :
    (∀ ref ∈ (emptiedRun.foldl next pairedWorld).dropped, carries (emptiedRun.foldl next pairedWorld).slots ref = false) ∧
      (∀ ref ∈ (emptiedRun.foldl next pairedWorld).gone, ∀ r ∈ (emptiedRun.foldl next pairedWorld).records,
        r.same ref = false) ∧
      (carries [] ⟨6, lit "ab"⟩ = false ↔
        Telling ((emptiedRun.take 2).foldl next pairedWorld) (.serve none (.error (lit "no such slot: 6")) [])) := by
  obtain ⟨hreturned, hswept, hexact⟩ := revoked_when_gone pairedWorld_started
  refine ⟨(hreturned _ (allowed_emptiedRun.mono fun _ _ h => ⟨h.1, h.2.1⟩)).2,
    hswept _ (allowed_emptiedRun.mono fun _ _ h => ⟨h.1, h.2.2⟩) 1 rfl,
    hexact _ none ⟨⟨6, lit "ab"⟩, .revoking, none⟩ _ _ [] 0 rfl ?_ (.inr rfl)⟩
  rintro a ⟨⟩
  exact ⟨rfl, fun _ s hs => by cases hs⟩

/-! ## A credential that moved -/

/-- Another manager moves the slot; the Heartwood says that index 6 is empty, to the call and to the run. -/
def movedRun : List Happening :=
  [.manage [⟨9, lit "ab"⟩], .call 0 ⟨6, lit "ab"⟩, .serve (some 0) (.error (lit "no such slot: 6")) [⟨9, lit "ab"⟩],
    .resume (some 0), .retry, .serve none (.error (lit "no such slot: 6")) [⟨9, lit "ab"⟩], .resume none, .remove true]

theorem documented_movedRun :
    Reaches next Documented pairedWorld (movedRun.foldl next pairedWorld) := by
  have hindex : ∀ s ∈ [(⟨9, lit "ab"⟩ : SlotRef)], s.slotIndex ≠ 6 := by decide
  refine Reaches.run fun n b hb => ?_
  rcases n with _ | _ | _ | _ | _ | _ | _ | _ | n <;> cases hb
  · exact fun ref href _ => by cases href with | head => decide | tail _ h => cases h
  · trivial
  · rintro a ⟨⟩
    exact ⟨rfl, fun _ => hindex⟩
  · trivial
  · trivial
  · rintro a ⟨⟩
    exact ⟨rfl, fun _ => hindex⟩
  · trivial
  · trivial

/-- Index 6 was filled again as well; the Heartwood says so, and its list is in a form that is not understood. -/
def unlistedRun : List Happening :=
  [.manage [⟨6, lit "cd"⟩, ⟨9, lit "ab"⟩], .call 0 ⟨6, lit "ab"⟩,
    .serve (some 0) (.error (lit "stale_client_slot: slot credential changed")) [⟨6, lit "cd"⟩, ⟨9, lit "ab"⟩],
    .resume (some 0), .serve (some 0) (.ok [("clients", .null)]) [⟨6, lit "cd"⟩, ⟨9, lit "ab"⟩], .resume (some 0)]

theorem documented_unlistedRun :
    Reaches next Documented pairedWorld (unlistedRun.foldl next pairedWorld) := by
  refine Reaches.run fun n b hb => ?_
  rcases n with _ | _ | _ | _ | _ | _ | n <;> cases hb
  · exact fun ref href _ => by cases href with | head => decide | tail _ h => cases h
  · trivial
  · rintro a ⟨⟩
    exact ⟨rfl, fun hempty => absurd hempty (by decide)⟩
  · trivial
  · rintro a ⟨⟩
    rfl
  · trivial

/-- **A phone is reported revoked while a slot carries its credential.** Whether the device says that an index is empty
or lists its slots in another form, a call returns; and the record of it is removed. -/
theorem revoked_while_carried :
    (¬ ∀ start t : World, Started start → Reaches next Documented start t →
      (∀ i ref, t.calls i = .returned ref → carries t.slots ref = false) ∧
        ∀ ref ∈ t.dropped, carries t.slots ref = false) ∧
    (unlistedRun.foldl next pairedWorld).calls 0 = .returned ⟨6, lit "ab"⟩ ∧
    carries (unlistedRun.foldl next pairedWorld).slots ⟨6, lit "ab"⟩ = true ∧
    Reaches next Documented pairedWorld (unlistedRun.foldl next pairedWorld) := by
  refine ⟨fun h => ?_, rfl, by decide +kernel, documented_unlistedRun⟩
  have hcarried : carries (movedRun.foldl next pairedWorld).slots ⟨6, lit "ab"⟩ = true := by decide +kernel
  have hdropped : (⟨6, lit "ab"⟩ : SlotRef) ∈ (movedRun.foldl next pairedWorld).dropped := List.mem_singleton.2 rfl
  rw [(h pairedWorld _ pairedWorld_started documented_movedRun).2 _ hdropped] at hcarried
  cases hcarried

end SignetApp.PhoneRevokes
