import SignetApp.Family.PolicyCompiler

/-!
# Pushing policies

`policy-push.ts`: one run reads the device's slots, compiles their policies and sends those that
changed. Between two requests other managers may change the device, and any request may fail.
-/

namespace SignetApp.Family

open SignetApp.Js

/-! ## The device -/

/-- A Heartwood: its slots, each under an index of its own. -/
structure Device where
  slots : List DeviceClientSlot
  distinct : (slots.map DeviceClientSlot.slotIndex).Nodup

/-- The slot after an update. The device derives `signingApproved` from the methods. -/
def DeviceClientSlot.store (slot : DeviceClientSlot) (policy : SlotPolicyUpdate) :
    DeviceClientSlot :=
  { slot with
    allowedMethods := policy.allowedMethods
    allowedKinds := policy.allowedKinds
    autoApprove := policy.autoApprove
    escalate := policy.escalate
    petitionOnDeny := policy.petitionOnDeny
    auditChildWrap := policy.auditChildWrap
    signingApproved := lit "sign_event" ∈ policy.allowedMethods
    -- `policyWireFields` sends the identity in lower case, or leaves it out.
    boundIdentity := (policy.boundIdentity.map toLowerCase).or slot.boundIdentity }

def Device.slotAt (device : Device) (slotIndex : ℕ) : Option DeviceClientSlot :=
  device.slots.find? (·.slotIndex = slotIndex)

def Device.store (device : Device) (slotIndex : ℕ) (policy : SlotPolicyUpdate) : Device where
  slots := device.slots.map fun slot =>
    if slot.slotIndex = slotIndex then slot.store policy else slot
  distinct := by
    have hindex : (device.slots.map fun slot =>
        if slot.slotIndex = slotIndex then slot.store policy else slot).map
          DeviceClientSlot.slotIndex = device.slots.map DeviceClientSlot.slotIndex := by
      rw [List.map_map]
      apply List.map_congr_left
      intro slot _
      show DeviceClientSlot.slotIndex (if _ then _ else _) = _
      split <;> rfl
    rw [hindex]
    exact device.distinct

/-! ## A run and its surroundings -/

/-- What happens around the requests of a run, which are numbered. -/
structure Surroundings where
  /-- What other managers do to the device before a request. -/
  interfere : ℕ → Device → Device
  /-- Why a request fails, when it does. -/
  refuse : ℕ → Option JsString
  /-- Is a failed update carried out nevertheless, its answer lost? -/
  lost : ℕ → Bool

structure SentUpdate where
  slotIndex : ℕ
  secretFingerprint : JsString
  policy : SlotPolicyUpdate
  /-- The slot at this index when the device reads the update. -/
  occupant : Option DeviceClientSlot
  taken : Bool

structure World where
  device : Device
  requests : ℕ := 0
  /-- What the run has read of the device, oldest first. -/
  listed : List (List DeviceClientSlot) := []
  sent : List SentUpdate := []

def World.next (w : World) (s : Surroundings) : World :=
  { w with device := s.interfere w.requests w.device, requests := w.requests + 1 }

/-- After the device's slots were read. -/
def World.read (w : World) (s : Surroundings) : World :=
  { w.next s with listed := w.listed ++ [(w.next s).device.slots] }

def listClients (s : Surroundings) (w : World) :
    Except JsString (List DeviceClientSlot) × World :=
  match s.refuse w.requests with
  | some message => (.error message, w.next s)
  | none => (.ok (w.next s).device.slots, w.read s)

/-- `updateClientPolicy`. The device takes an update that names the fingerprint of the slot. -/
def updateClientPolicy (s : Surroundings) (slot : CompiledSlot) (w : World) :
    Except JsString Unit × World :=
  if slot.secretFingerprint = [] then (.error (lit "secretFingerprint is required"), w)
  else
    let next := w.next s
    let occupant := next.device.slotAt slot.slotIndex
    let accepted := occupant.any (·.secretFingerprint = slot.secretFingerprint)
    let taken := accepted && ((s.refuse w.requests).isNone || s.lost w.requests)
    let next :=
      { next with
        device := if taken then next.device.store slot.slotIndex slot.policy else next.device
        sent := next.sent ++
          [{ slotIndex := slot.slotIndex
             secretFingerprint := slot.secretFingerprint
             policy := slot.policy
             occupant
             taken }] }
    match s.refuse w.requests with
    | some message => (.error message, next)
    | none => (if accepted then .ok () else .error (lit "stale_client_slot"), next)

/-! ## The run -/

structure PolicyPushResult where
  pushed : ℕ := 0
  unchanged : ℕ := 0
  untouched : ℕ := 0
  errors : List JsString := []
  warnings : List JsString := []

def PolicyPushResult.fail (r : PolicyPushResult) (line : JsString) : PolicyPushResult :=
  { r with errors := r.errors ++ [line] }

/-- Does a pattern of lower-case letters occur in a text, in any case? -/
def occursIn (pattern text : JsString) : Bool :=
  (toLowerCase text).tails.any pattern.isPrefixOf

def isStaleChallengeError (message : JsString) : Bool :=
  occursIn (lit "stale_management_challenge") message

def isStaleClientSlotError (message : JsString) : Bool :=
  occursIn (lit "stale_client_slot") message

/-- Nothing was applied: refresh and try again. -/
def isRefreshAndRetryError (message : JsString) : Bool :=
  isStaleChallengeError message || isStaleClientSlotError message

def slotLine (slotIndex : ℕ) (message : JsString) : JsString :=
  lit "slot " ++ lit (Nat.repr slotIndex) ++ lit ": " ++ message

def compile (family : FamilyState) (s : Surroundings) (w : World) :
    Except JsString CompileResult × World :=
  match listClients s w with
  | (.error message, w) => (.error message, w)
  | (.ok deviceSlots, w) => (.ok (compileSlotPolicies (buildCompilerInput family deviceSlots)), w)

/-- The second try for a slot, after the refusal `message`. -/
def retrySlot (family : FamilyState) (s : Surroundings) (slot : CompiledSlot) (message : JsString)
    (r : PolicyPushResult) (w : World) : PolicyPushResult × World :=
  match compile family s w with
  | (.error refresh, w) =>
    (r.fail (slotLine slot.slotIndex (message ++ lit "; refresh failed: " ++ refresh)), w)
  | (.ok again, w) =>
    match again.slots.find? (·.slotIndex = slot.slotIndex) with
    -- Minted anew or unbound since, so no longer the family's.
    | none => ({ r with untouched := r.untouched + 1 }, w)
    | some fresh =>
      if !fresh.changed then ({ r with unchanged := r.unchanged + 1 }, w)
      else
        match updateClientPolicy s fresh w with
        | (.ok (), w) => ({ r with pushed := r.pushed + 1 }, w)
        | (.error message, w) => (r.fail (slotLine slot.slotIndex message), w)

/-- One slot of the loop of `runPolicyPush`. -/
def pushSlot (family : FamilyState) (s : Surroundings) (slot : CompiledSlot)
    (r : PolicyPushResult) (w : World) : PolicyPushResult × World :=
  if !slot.changed then ({ r with unchanged := r.unchanged + 1 }, w)
  else
    match updateClientPolicy s slot w with
    | (.ok (), w) => ({ r with pushed := r.pushed + 1 }, w)
    | (.error message, w) =>
      if isRefreshAndRetryError message then retrySlot family s slot message r w
      else (r.fail (slotLine slot.slotIndex message), w)

def pushSlots (family : FamilyState) (s : Surroundings) :
    List CompiledSlot → PolicyPushResult → World → PolicyPushResult × World
  | [], r, w => (r, w)
  | slot :: slots, r, w =>
    let (r, w) := pushSlot family s slot r w
    pushSlots family s slots r w

def runPolicyPush (family : FamilyState) (s : Surroundings) (w : World) :
    PolicyPushResult × World :=
  match compile family s w with
  | (.error message, w) =>
    (({} : PolicyPushResult).fail
      (lit "could not read the device's client list: " ++ message), w)
  | (.ok compiled, w) =>
    pushSlots family s compiled.slots
      { untouched := compiled.untouched, warnings := compiled.warnings } w

/-! ## One ceiling -/

inductive CeilingResult
  | ok | failed
  deriving DecidableEq

/-- The slot a ceiling is for. -/
structure CeilingTarget where
  slotIndex : ℕ
  secretFingerprint : JsString

/-- One attempt of `pushChildDirectCeiling`. -/
def attemptCeiling (family : FamilyState) (s : Surroundings) (target : CeilingTarget) (w : World) :
    Except JsString CeilingResult × World :=
  match compile family s w with
  | (.error message, w) => (.error message, w)
  | (.ok compiled, w) =>
    match compiled.slots.find? fun slot => slot.slotIndex = target.slotIndex
        && toLowerCase slot.secretFingerprint = toLowerCase target.secretFingerprint with
    | none => (.ok .failed, w)
    | some slot =>
      if !slot.changed then (.ok .ok, w)
      else
        match updateClientPolicy s slot w with
        | (.ok (), w) => (.ok .ok, w)
        | (.error message, w) => (.error message, w)

/-- Widen the ceiling of one slot, with one more attempt after a refusal that applied nothing. -/
def pushChildDirectCeiling (family : FamilyState) (s : Surroundings) (target : CeilingTarget)
    (w : World) : CeilingResult × World :=
  match attemptCeiling family s target w with
  | (.ok result, w) => (result, w)
  | (.error message, w) =>
    if isRefreshAndRetryError message then
      match attemptCeiling family s target w with
      | (.ok result, w) => (result, w)
      | (.error _, w) => (.failed, w)
    else (.failed, w)

end SignetApp.Family
