import SignetApp.Family.PolicyCompiler

/-!
# Slots of a child's phone

The slot a Heartwood makes for a child's phone: how the app asks for it, what it checks of it, and
which slots it takes back. The device itself is not part of the app; `Heartwood` says what the app
relies on of it.
-/

namespace SignetApp.ChildPhone

open SignetApp.Js
open SignetApp.Family (DeviceClientSlot SlotPolicyUpdate isChildDirectSlot)

/-! ## The device -/

/-- A slot as it is named to the device. -/
structure SlotRef where
  slotIndex : ℕ
  secretFingerprint : JsString
  deriving DecidableEq

/-- Both index and fingerprint agree, the fingerprint in any case. -/
def SlotRef.same (s other : SlotRef) : Bool :=
  s.slotIndex = other.slotIndex && toLowerCase s.secretFingerprint = toLowerCase other.secretFingerprint

def isSameSlot (s : SlotRef) (other : Option SlotRef) : Bool := other.any s.same

def refOf (s : DeviceClientSlot) : SlotRef := ⟨s.slotIndex, s.secretFingerprint⟩

def fingerprintOf (s : DeviceClientSlot) : JsString := toLowerCase s.secretFingerprint

/-- What `nostrconnect_v2` asks for. -/
structure MintRequest where
  clientPubkey : JsString
  secret : JsString
  createdAt : ℤ
  relay : JsString
  identity : JsString
  label : JsString
  policy : SlotPolicyUpdate

/-- The reply to `nostrconnect_v2`. A field is `none` where it is not of its kind. -/
structure MintReply where
  slotIndex : Option ℕ
  secretFingerprint : Option JsString
  identity : Option JsString
  policyVersion : Option ℕ
  allowedMethods : Option (List JsString)
  allowedKinds : Option (List ℕ)
  autoApprove : Option Bool

structure RevokeReply where
  revoked : Bool
  slotIndex : Option ℕ

structure Device where
  slots : List DeviceClientSlot
  /-- The fingerprints of all secrets it ever drew, in lower case. -/
  issued : List JsString

structure MadeFor (req : MintRequest) (d : Device) (s : DeviceClientSlot) : Prop where
  fresh : fingerprintOf s ∉ d.issued
  label : s.label = req.label
  client : s.currentPubkey = some (toLowerCase req.clientPubkey)

/-- The reply names the slot, where it names one. -/
def MintReply.Names (r : MintReply) (s : DeviceClientSlot) : Prop :=
  (∀ i ∈ r.slotIndex, i = s.slotIndex) ∧ ∀ f ∈ r.secretFingerprint, toLowerCase f = fingerprintOf s

/-- What the app relies on of a Heartwood. It may fail, or its reply be lost, at any request. -/
structure Heartwood where
  Choice : Type
  mint : Choice → MintRequest → Device → Except Unit MintReply × Device
  revoke : Choice → SlotRef → Device → Except Unit RevokeReply × Device
  list : Choice → Device → Except Unit (List DeviceClientSlot)
  /-- What phones and other managers do on it. -/
  move : Choice → Device → Device
  /-- A mint makes one slot, under a fresh secret and for the client that asked, or it fails. -/
  mint_spec : ∀ c req d, ((mint c req d).2 = d ∧ ∃ e, (mint c req d).1 = .error e) ∨
    ∃ s, MadeFor req d s ∧ (mint c req d).2 = ⟨d.slots ++ [s], fingerprintOf s :: d.issued⟩ ∧
      ∀ r, (mint c req d).1 = .ok r → r.Names s
  /-- A revocation makes no slot, and one that is confirmed leaves none under its name. -/
  revoke_spec : ∀ c ref d, (revoke c ref d).2.issued = d.issued ∧
    (∀ s ∈ (revoke c ref d).2.slots, s ∈ d.slots) ∧
    ∀ r, (revoke c ref d).1 = .ok r → r.revoked = true →
      ∀ s ∈ (revoke c ref d).2.slots, (refOf s).same ref = false
  list_spec : ∀ c d slots, list c d = .ok slots → slots = d.slots
  /-- A slot keeps its name, its label and its client, and one that went does not come back. -/
  move_spec : ∀ c d, (∀ f ∈ d.issued, f ∈ (move c d).issued) ∧
    ∀ s ∈ (move c d).slots, fingerprintOf s ∈ (move c d).issued ∧
      (fingerprintOf s ∈ d.issued → ∃ s₀ ∈ d.slots, (refOf s).same (refOf s₀) = true ∧
        s.label = s₀.label ∧ s.currentPubkey = s₀.currentPubkey)

/-! ## What the app makes of the replies -/

/-- Why `nostrconnectV2` sends nothing. -/
def MintRequest.wellFormed (req : MintRequest) : Bool :=
  isHexOf 64 (toLowerCase req.clientPubkey) && isHexOf 64 (toLowerCase req.identity)
    && !req.secret.isEmpty && decide (0 < req.createdAt) && !req.relay.isEmpty && !req.label.isEmpty
    && toLowerCase (req.policy.boundIdentity.getD []) = toLowerCase req.identity

def sameSet {α : Type} [DecidableEq α] (a b : List α) : Bool :=
  let x := distinct a
  let y := distinct b
  x.length = y.length && x.all (· ∈ y)

/-- The index of a reply, if it can be one. -/
def MintReply.validSlot (r : MintReply) : Option ℕ := r.slotIndex.filter (· ≤ 255)

def MintReply.fingerprint (r : MintReply) : JsString := toLowerCase (r.secretFingerprint.getD [])

/-- The reply says what was asked for. -/
def MintReply.echoOk (r : MintReply) (req : MintRequest) : Bool :=
  r.policyVersion = some 2 && toLowerCase (r.identity.getD []) = toLowerCase req.identity
    && r.allowedMethods.any (sameSet · req.policy.allowedMethods)
    && r.allowedKinds.any (sameSet · req.policy.allowedKinds)
    && r.autoApprove = some req.policy.autoApprove

/-! ## Slots to keep and slots to take back -/

/-- What `verifyMintedSlot` expects. -/
structure Expected where
  slot : SlotRef
  label : JsString
  persona : JsString
  clientPubkey : JsString
  policy : SlotPolicyUpdate

def verifyMintedSlot (slots : List DeviceClientSlot) (expect : Expected) : Option DeviceClientSlot :=
  (slots.find? fun s => (refOf s).same expect.slot).filter fun s =>
    s.label = expect.label && s.boundIdentity.getD [] = toLowerCase expect.persona
      && toLowerCase (s.currentPubkey.getD []) = toLowerCase expect.clientPubkey
      && s.autoApprove = expect.policy.autoApprove && s.escalate = expect.policy.escalate
      && s.petitionOnDeny = expect.policy.petitionOnDeny
      && sameSet s.allowedMethods expect.policy.allowedMethods
      && sameSet s.allowedKinds expect.policy.allowedKinds

/-- The slots a mint that failed may have left. -/
def unconfirmedMintSlots (slots : List DeviceClientSlot) (label clientPubkey : JsString)
    (slotIndex : Option ℕ) (current : Option SlotRef) : List DeviceClientSlot :=
  slots.filter fun s => s.label = label && !isSameSlot (refOf s) current
    && (toLowerCase (s.currentPubkey.getD []) = toLowerCase clientPubkey
      || slotIndex = some s.slotIndex && (s.currentPubkey.getD []).isEmpty)

def clientKeyInUse (slots : List DeviceClientSlot) (clientPubkey : JsString) : Bool :=
  slots.any fun s => toLowerCase (s.currentPubkey.getD []) = toLowerCase clientPubkey
    || s.authorizedPubkeys.any fun p => toLowerCase p = toLowerCase clientPubkey

/-- The slots of the phone that was paired before. -/
def supersededSlots (slots : List DeviceClientSlot) (label : JsString) (keep : SlotRef) :
    List DeviceClientSlot :=
  slots.filter fun s => s.label = label && isChildDirectSlot s.label && !(refOf s).same keep

variable {s : DeviceClientSlot} {current : Option SlotRef} {slotIndex : Option ℕ}
variable {clientPubkey label : JsString} {slots : List DeviceClientSlot}

theorem mem_unconfirmedMintSlots (hs : s ∈ slots)
    (hlabel : s.label = label) (hcurrent : isSameSlot (refOf s) current = false)
    (hclient : toLowerCase (s.currentPubkey.getD []) = toLowerCase clientPubkey) :
    s ∈ unconfirmedMintSlots slots label clientPubkey slotIndex current := by
  apply List.mem_filter.2
  simp [hs, hlabel, hcurrent, hclient]

theorem not_same_of_mem_unconfirmed
    (hs : s ∈ unconfirmedMintSlots slots label clientPubkey slotIndex current) :
    isSameSlot (refOf s) current = false := by
  have hcheck := (List.mem_filter.1 hs).2
  simp only [Bool.and_eq_true, Bool.not_eq_true'] at hcheck
  exact hcheck.1.2

end SignetApp.ChildPhone
