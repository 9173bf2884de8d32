import SignetApp.Js.Json
import SignetApp.Migration.EnrolmentPlan

/-!
# An enrolment

`MigrateToHeartwood.tsx` asks the device for the key of one slot of the plan after another. A slot that fails
can be tried again; the wizard can be left at any time. The rows it shows are not part of this: the row that
offers to try again is the current one, and it is offered while the loop stands at it.
-/

namespace SignetApp.Migration

open Js

/-! ## The device -/

/-- What a request to the device comes to. -/
inductive DeviceAnswer where
  | result (raw : JsString)
  | rejected (message : JsString)
  | timedOut

/-- `bytesToHex(decodeNpub(npub))`, `none` where that raises. -/
class Npubs where
  decodeNpub : JsString → Option JsString

export Npubs (decodeNpub)

structure DeriveResult where
  npub : JsString
  purpose : JsString
  index : JsNumber
  personaName : JsString

inductive DeriveTokenOutcome where
  | ok (pubkeyHex : JsString) (index : JsNumber) (purpose : JsString)
  | storageFull (message : JsString)
  | error (message : JsString)

inductive EnrolOutcome where
  | verified (pubkeyHex : JsString)
  | mismatch (gotPubkeyHex : JsString)
  | storageFull (message : JsString)
  | error (message : JsString)

def isStorageFull (message : JsString) : Bool := lit "identity storage full" <:+: message

section

variable [Numerals] [Npubs]

omit [Npubs] in
def parseDerivePersonaResult (raw : JsString) : Option DeriveResult :=
  match parse raw with
  | some (.obj props) =>
    let obj := JsValue.obj props
    match obj.get "npub", obj.get "purpose", obj.get "index", obj.get "personaName" with
    | .str npub, .str purpose, .num index, .str personaName => some ⟨npub, purpose, index, personaName⟩
    | _, _, _, _ => none
  | _ => none

def derivePersonaToken (answer : DeviceAnswer) : DeriveTokenOutcome :=
  match answer with
  | .timedOut => .error (lit "Timed out waiting for the signer — check the device and try again")
  | .rejected message => if isStorageFull message then .storageFull message else .error message
  | .result raw =>
    match parseDerivePersonaResult raw with
    | none => .error (lit "Unexpected response from signer")
    | some parsed =>
      match decodeNpub parsed.npub with
      | none => .error (lit "Unexpected response from signer")
      | some pubkeyHex => .ok (toLowerCase pubkeyHex) parsed.index parsed.purpose

def enrolSlot (slot : EnrolmentSlot) (answer : DeviceAnswer) : EnrolOutcome :=
  match derivePersonaToken answer with
  | .ok pubkeyHex _ _ =>
    if pubkeyHex = slot.expectedPubkeyHex then .verified pubkeyHex else .mismatch pubkeyHex
  | .storageFull message => .storageFull message
  | .error message => .error message

end

/-- The key that the device returned, if it did. -/
def EnrolOutcome.returned : EnrolOutcome → Option JsString
  | .verified pubkeyHex | .mismatch pubkeyHex => some pubkeyHex
  | .storageFull _ | .error _ => none

/-! ## The wizard -/

inductive Stage where
  /-- It is asked what the device can do. -/
  | checking
  | attempting (index : ℕ)
  /-- A slot has failed, and can be tried again. -/
  | paused (index : ℕ)
  /-- The wizard was left. -/
  | dropped
  | verifyFailed (failures : List (EnrolmentSlot × JsString))
  | verified
  | error (message : JsString)
  deriving DecidableEq

structure Enrolment where
  stage : Stage
  mismatches : List (EnrolmentSlot × JsString)
  /-- The tokens that were tried again, one entry each time. -/
  retried : List JsString
  cancelled : Bool
  /-- The keys that the device has returned. -/
  returned : List JsString

inductive EnrolmentAction where
  /-- Does the device offer `heartwood_derive_persona`? -/
  | capabilities (supported : Bool)
  | answer (answer : DeviceAnswer)
  | retry
  | cancel

def maxSlotRetries : ℕ := 2

def truncateDeviceMessage (message : JsString) : JsString :=
  if 200 < message.length then message.take 200 ++ lit "…" else message

namespace Enrolment

variable (slots : List EnrolmentSlot)

def start : Enrolment where
  stage :=
    if slots = [] then
      .error (lit "Nothing to migrate — no identities on this phone can be enrolled.")
    else .checking
  mismatches := []
  retried := []
  cancelled := false
  returned := []

def finishLoop (e : Enrolment) : Enrolment :=
  if e.mismatches ≠ [] then { e with stage := .verifyFailed e.mismatches } else { e with stage := .verified }

def advance (e : Enrolment) (index : ℕ) : Enrolment :=
  if slots.length ≤ index + 1 then e.finishLoop else { e with stage := .attempting (index + 1) }

/-- What a slot's answer leads to. -/
def settle (e : Enrolment) (index : ℕ) (slot : EnrolmentSlot) (outcome : EnrolOutcome) : Enrolment :=
  if e.cancelled then { e with stage := .dropped }
  else match outcome with
    | .verified _ => e.advance slots index
    | .mismatch got => { e with mismatches := e.mismatches ++ [(slot, got)] }.advance slots index
    | .storageFull message =>
      { e with stage := .error (truncateDeviceMessage message ++ lit
        " Remove unused personas on the device (Sapwood → identities) and run migration again — nothing was changed on this phone.") }
    | .error message =>
      if maxSlotRetries ≤ e.retried.count slot.token then
        { e with stage := .error (truncateDeviceMessage message) }
      else { e with stage := .paused index }

variable [Numerals] [Npubs]

def step (e : Enrolment) (action : EnrolmentAction) : Enrolment :=
  match action, e.stage with
  | .capabilities supported, .checking =>
    if e.cancelled then { e with stage := .dropped }
    else if supported then { e with stage := .attempting 0 }
    else { e with stage := .error (lit
      "This signer doesn't support family enrolment — a full Heartwood (firmware 0.16+) is required. Nothing was changed on this phone.") }
  | .answer answer, .attempting index =>
    match slots[index]? with
    | none => e
    | some slot =>
      let outcome := enrolSlot slot answer
      { e with returned := e.returned ++ outcome.returned.toList }.settle slots index slot outcome
  | .retry, .paused index =>
    match slots[index]? with
    | none => e
    | some slot =>
      { e with cancelled := false, retried := e.retried ++ [slot.token], stage := .attempting index }
  | .cancel, _ => { e with cancelled := true }
  | _, _ => e

def run (actions : List EnrolmentAction) : Enrolment := actions.foldl (step slots) (start slots)

end Enrolment

/-! ## What is verified -/

/-- Unless a key was another, the slots before the index have had theirs, and no other key has come. -/
def Passed (slots : List EnrolmentSlot) (e : Enrolment) (index : ℕ) : Prop :=
  e.mismatches = [] → (∀ slot ∈ slots.take index, slot.expectedPubkeyHex ∈ e.returned) ∧
    ∀ k ∈ e.returned, ∃ slot ∈ slots, slot.expectedPubkeyHex = k

def Invariant (slots : List EnrolmentSlot) (e : Enrolment) : Prop :=
  match e.stage with
  | .checking => Passed slots e 0
  | .attempting index | .paused index => Passed slots e index
  | .verified => Passed slots e slots.length ∧ e.mismatches = []
  | .dropped | .verifyFailed _ | .error _ => True

section

variable {slots : List EnrolmentSlot} {e : Enrolment} {index : ℕ}

theorem invariant_advance (h : Passed slots e (index + 1)) : Invariant slots (e.advance slots index) := by
  unfold Enrolment.advance
  split
  · next hlast =>
    unfold Enrolment.finishLoop
    split
    · exact trivial
    · next hnone =>
      refine ⟨fun hmismatches => ?_, not_not.1 hnone⟩
      obtain ⟨hslots, hkeys⟩ := h hmismatches
      rw [List.take_of_length_le hlast] at hslots
      exact ⟨fun slot hslot => hslots slot (List.mem_of_mem_take hslot), hkeys⟩
  · exact h

variable [Numerals] [Npubs]

variable {k : JsString} {slot : EnrolmentSlot}

theorem enrolSlot_verified {answer : DeviceAnswer}
    (h : enrolSlot slot answer = .verified k) : k = slot.expectedPubkeyHex := by
  unfold enrolSlot at h
  split at h
  · split at h
    · next heq =>
      cases h
      exact heq
    · cases h
  · cases h
  · cases h

/-- An answer is for the slot at the index. -/
theorem invariant_settle (h : Passed slots e index) (hslot : slots[index]? = some slot)
    (answer : DeviceAnswer) :
    Invariant slots ({ e with returned := e.returned ++ (enrolSlot slot answer).returned.toList }.settle slots
      index slot (enrolSlot slot answer)) := by
  unfold Enrolment.settle
  split
  · exact trivial
  · cases houtcome : enrolSlot slot answer with
    | verified k =>
      have hk := enrolSlot_verified houtcome
      apply invariant_advance
      intro hmismatches
      obtain ⟨hslots, hkeys⟩ := h hmismatches
      constructor
      · intro slot' hslot'
        rw [List.take_add_one, hslot, List.mem_append] at hslot'
        rcases hslot' with hslot' | hslot'
        · exact List.mem_append_left _ (hslots slot' hslot')
        · obtain rfl := List.mem_singleton.1 hslot'
          apply List.mem_append_right
          rw [← hk]
          exact List.mem_singleton_self k
      · intro k' hk'
        rcases List.mem_append.1 hk' with hk' | hk'
        · exact hkeys k' hk'
        · rw [List.mem_singleton.1 hk', hk]
          exact ⟨slot, List.mem_of_getElem? hslot, rfl⟩
    | mismatch got =>
      apply invariant_advance
      intro hmismatches
      exact absurd hmismatches (List.append_ne_nil_of_right_ne_nil _ (List.cons_ne_nil _ _))
    | storageFull message => exact trivial
    | error message =>
      show Invariant slots (if _ then _ else _)
      have hsame : e.returned ++ (EnrolOutcome.error message).returned.toList = e.returned :=
        List.append_nil _
      rw [hsame]
      split
      · exact trivial
      · exact h

theorem invariant_step (h : Invariant slots e) (action : EnrolmentAction) :
    Invariant slots (e.step slots action) := by
  obtain ⟨stage, mismatches, retried, cancelled, returned⟩ := e
  cases action with
  | capabilities supported =>
    cases stage with
    | checking =>
      show Invariant slots (if _ then _ else if _ then _ else _)
      split
      · exact trivial
      · split
        · exact h
        · exact trivial
    | _ => exact h
  | answer answer =>
    cases stage with
    | attempting index =>
      cases hslot : slots[index]? with
      | none =>
        simp only [Enrolment.step, hslot]
        exact h
      | some slot =>
        simp only [Enrolment.step, hslot]
        exact invariant_settle h hslot answer
    | _ => exact h
  | retry =>
    cases stage with
    | paused index =>
      cases hslot : slots[index]? with
      | none =>
        simp only [Enrolment.step, hslot]
        exact h
      | some slot =>
        simp only [Enrolment.step, hslot]
        exact h
    | _ => exact h
  | cancel => cases stage <;> exact h

theorem invariant_run (actions : List EnrolmentAction) : Invariant slots (Enrolment.run slots actions) := by
  induction actions using List.reverseRecOn with
  | nil =>
    show Invariant slots (Enrolment.start slots)
    unfold Invariant Enrolment.start
    split_ifs
    · exact trivial
    · exact fun _ => ⟨fun slot hslot => (by cases hslot), fun k hk => (by cases hk)⟩
  | append_singleton actions action ih =>
    show Invariant slots ((actions ++ [action]).foldl _ _)
    rw [List.foldl_append]
    exact invariant_step ih action

variable {actions : List EnrolmentAction}

theorem returned_of_verified (h : (Enrolment.run slots actions).stage = .verified) :
    k ∈ (Enrolment.run slots actions).returned ↔ ∃ slot ∈ slots, slot.expectedPubkeyHex = k := by
  have hinvariant : Invariant slots (Enrolment.run slots actions) := invariant_run actions
  unfold Invariant at hinvariant
  rw [h] at hinvariant
  obtain ⟨hpassed, hmismatches⟩ := hinvariant
  obtain ⟨hslots, hkeys⟩ := hpassed hmismatches
  rw [List.take_length] at hslots
  constructor
  · exact hkeys k
  · rintro ⟨slot, hslot, rfl⟩
    exact hslots slot hslot

theorem slots_ne_nil_of_verified
    (h : (Enrolment.run slots actions).stage = .verified) : slots ≠ [] := by
  rintro rfl
  have herror : ∀ actions, ∃ message, (Enrolment.run [] actions).stage = .error message := by
    intro actions
    induction actions using List.reverseRecOn with
    | nil => exact ⟨_, rfl⟩
    | append_singleton actions action ih =>
      obtain ⟨message, hmessage⟩ := ih
      refine ⟨message, ?_⟩
      unfold Enrolment.run
      rw [List.foldl_append]
      show (Enrolment.step [] (Enrolment.run [] actions) action).stage = _
      cases action <;> simp [Enrolment.step, hmessage]
  obtain ⟨message, hmessage⟩ := herror actions
  cases hmessage.symm.trans h

end

end SignetApp.Migration
