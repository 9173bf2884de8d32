import SignetApp.ChildPhone.Slots
import SignetApp.Apps.Registry
import SignetApp.Concurrency.Tasks

/-!
# Pairing a child's phone

`useChildDevicePairing` on the guardian's side, as asynchronous tasks: an offer is shown, the first
phone that answers it is confirmed by its words, and a slot is made for it on the Heartwood. What
goes to the child's phone and the radios of a tap are left out.
-/

namespace SignetApp.ChildPhone

open SignetApp.Js
open SignetApp.Apps (isValidRelayUrl)
open SignetApp.Family (DeviceClientSlot SlotPolicyUpdate CompilerDependant compileChildDirectPolicy
  childDirectLabelPrefix)

/-! ## What is shown -/

inductive Message where
  | noDependant | badRelay | generic | noOperatorKey | stale | clientReused | mint | mintUnconfirmed
  | verify | save
  deriving DecidableEq

inductive PairBlockReason where
  | noOperatorKey | deviceUnsupported | slotsFull | noPersona | offline
  deriving DecidableEq

inductive AbortReason where
  | mismatch | twoRequests
  deriving DecidableEq

inductive ChildPairingState where
  | idle
  | checking
  | blocked (reason : PairBlockReason)
  | offer (expiresAt : ℕ)
  | confirm (words : List JsString) (clientPubkey : JsString)
  | minting
  | paired (clientPubkey : JsString) (warning : Bool)
  | aborted (reason : AbortReason)
  | expired
  | error (message : Message)
  deriving DecidableEq

/-! ## Records -/

structure BunkerEndpoint where
  publicKey : JsString
  privateKey : JsString

structure ChildDevice where
  slot : SlotRef
  slotLabel : JsString
  clientPubkey : JsString
  boundPersona : JsString
  pairedAt : ℕ
  seedPending : Bool

structure DependantIdentity where
  id : JsString
  /-- `persona?.publicKey ?? ''` -/
  personaKey : JsString
  bunkerEndpoint : Option BunkerEndpoint
  childDevice : Option ChildDevice

def DependantIdentity.current (dep : DependantIdentity) : Option SlotRef :=
  dep.childDevice.map ChildDevice.slot

/-- A request of a child's phone. -/
structure ChildPairRequest where
  code : JsString
  nostrconnect : JsString
  clientPubkey : JsString
  createdAt : ℤ

/-- What the phone's `nostrconnect` link says. -/
structure NostrConnectRequest where
  clientPubkey : JsString
  secret : JsString

/-- The words a code and a key stand for, and the reading of a `nostrconnect` link. -/
class PairSdk where
  pairCheckWords : JsString → JsString → List JsString
  parseNostrConnectURI : JsString → Option NostrConnectRequest

/-- An offer that is open. When it is used, it is no longer the current one. -/
structure Session where
  gen : ℕ
  code : JsString
  expiresAtMs : ℕ
  persona : JsString
  label : JsString
  relay : JsString
  dep : DependantIdentity
  request : Option ChildPairRequest

/-- The guardian's word that the two phones match: for which request, and when. -/
structure Confirmation where
  session : Session
  request : ChildPairRequest
  at_ : ℕ

/-! ## State -/

/-- Words that were on the screen. -/
structure Displayed where
  gen : ℕ
  words : List JsString
  clientPubkey : JsString

/-- A slot that was made, and for whom. -/
structure Made where
  gen : ℕ
  slotIndex : ℕ
  fingerprint : JsString
  label : JsString
  clientPubkey : JsString

/-- The hook, the clock in milliseconds and the device, and what has happened: which offers were made,
who answered them, what was shown and confirmed, and which slots were made. -/
structure World where
  clock : ℕ
  gen : ℕ
  session : Option Session
  screen : ChildPairingState
  device : Device
  offers : List (ℕ × JsString)
  heard : List (ℕ × JsString)
  displayed : List Displayed
  confirmed : List Confirmation
  /-- The attempts that looked for a cancellation for the last time, and found none. -/
  passed : List ℕ
  /-- The attempts that were cancelled before that. -/
  cancelled : List ℕ
  minted : ℕ → ℕ
  made : List Made
  saved : List ℕ
  /-- The attempts that are over. -/
  ended : List ℕ

/-- What a call of `nostrconnectV2` is for. -/
structure MintCall where
  confirmation : Confirmation
  request : MintRequest

/-- A change of the dependant, and what it rests on. -/
structure Save where
  gen : ℕ
  dep : DependantIdentity
  /-- `none` for the save of a rail key, which leaves the child's device as it is. -/
  minted : Option (List DeviceClientSlot × Expected)

structure Revocation where
  gen : ℕ
  slot : SlotRef
  /-- The slot of the phone that is paired. -/
  current : Option SlotRef

inductive Action where
  | outside
  | hook
  | mint (call : MintCall)
  | save (s : Save)
  | revoke (r : Revocation)
  /-- What the attempt ended with. -/
  | ends (gen : ℕ) (state : ChildPairingState)

/-- The call of `nostrconnectV2`, where it is one. -/
def Action.mintCall : Action → Option MintCall
  | .mint call => some call
  | _ => none

abbrev Op := Async Unit Action World

/-- A new `setState`, for an attempt that is still the current one. -/
def World.setState (w : World) (gen : ℕ) (state : ChildPairingState) : World :=
  if w.gen = gen then { w with screen := state } else w

variable (w : World) (gen : ℕ) (state : ChildPairingState)

@[simp]
theorem World.ended_setState : (w.setState gen state).ended = w.ended := by
  unfold World.setState
  split <;> rfl

@[simp]
theorem World.made_setState : (w.setState gen state).made = w.made := by
  unfold World.setState
  split <;> rfl

@[simp]
theorem World.saved_setState : (w.setState gen state).saved = w.saved := by
  unfold World.setState
  split <;> rfl

@[simp]
theorem World.device_setState : (w.setState gen state).device = w.device := by
  unfold World.setState
  split <;> rfl

/-- What the surroundings answer, or throw. -/
def outside (β : Type) : Op β :=
  .once .outside fun (answer : Except Unit β) (w : World) => (answer, w)

/-- A record of a dependant. A device it names is one this Heartwood made a slot for. -/
def record : Op DependantIdentity :=
  .once .outside fun (dep : DependantIdentity) (w : World) =>
    if dep.current.all fun c => toLowerCase c.secretFingerprint ∈ w.device.issued then (.ok dep, w)
    else (.error (), w)

def now : Op ℕ := .once .outside fun (_ : Unit) (w : World) => (.ok w.clock, w)

def setState (gen : ℕ) (state : ChildPairingState) : Op Unit :=
  .once .hook fun (_ : Unit) (w : World) => (.ok (), w.setState gen state)

/-- The last `setState` of an attempt. -/
def ends (gen : ℕ) (state : ChildPairingState) : Op Unit :=
  .once (.ends gen state) fun (_ : Unit) (w : World) =>
    (.ok (), { w with ended := gen :: w.ended }.setState gen state)

/-- `if (genRef.current !== gen) return`. -/
def isCurrent (gen : ℕ) : Op Unit :=
  .once .hook fun (_ : Unit) (w : World) => if w.gen = gen then (.ok (), w) else (.error (), w)

/-! ## Requests to the device -/

section

variable (H : Heartwood)

/-- `none` when it fails. -/
def listClients : Op (Option (List DeviceClientSlot)) :=
  .once .outside fun (c : H.Choice) (w : World) =>
    match H.list c w.device with
    | .ok slots => (.ok (some slots), w)
    | .error _ => (.ok none, w)

/-- `false` when it fails. -/
def revokeClient (gen : ℕ) (current : Option SlotRef) (slot : SlotRef) : Op Bool :=
  if slot.secretFingerprint = [] then pure false
  else .once (.revoke ⟨gen, slot, current⟩) fun (c : H.Choice) (w : World) =>
    let answer := H.revoke c slot w.device
    let ok := match answer.1 with
      | .ok r => r.revoked && r.slotIndex = some slot.slotIndex
      | .error _ => false
    (.ok ok, { w with device := answer.2 })

/-- Does every revocation succeed? -/
def revokeAll (gen : ℕ) (current : Option SlotRef) : List DeviceClientSlot → Op Bool
  | [] => pure true
  | s :: rest => do
    let ok ← revokeClient H gen current (refOf s)
    let clean ← revokeAll gen current rest
    pure (ok && clean)

/-- The call itself. -/
def World.mint (w : World) (call : MintCall) (c : H.Choice) : Except Unit (Option MintReply) × World :=
  let gen := call.confirmation.session.gen
  let called := { w with minted := w.minted + Pi.single gen 1 }
  if call.request.wellFormed = false then (.ok none, called)
  else
    let answer := H.mint c call.request w.device
    let made := (answer.2.slots.filter fun s => fingerprintOf s ∉ w.device.issued).map fun s =>
      ⟨gen, s.slotIndex, fingerprintOf s, call.request.label, call.request.clientPubkey⟩
    let w' := { called with device := answer.2, made := w.made ++ made }
    match answer.1 with
    | .ok r => (.ok (some r), w')
    | .error _ => (.ok none, w')

/-- The slot, or the index its failure names. -/
def nostrconnectV2 (call : MintCall) (current : Option SlotRef) : Op (Except (Option ℕ) SlotRef) := do
  let reply ← Async.once (.mint call) fun (c : H.Choice) (w : World) => w.mint H call c
  match reply with
  | none => pure (.error none)
  | some r =>
    match r.validSlot with
    | none => pure (.error none)
    | some slotIndex =>
      if r.fingerprint = [] then pure (.error (some slotIndex))
      else if r.echoOk call.request then pure (.ok ⟨slotIndex, r.fingerprint⟩)
      else
        let revoked ← revokeClient H call.confirmation.session.gen current ⟨slotIndex, r.fingerprint⟩
        pure (.error (if revoked then none else some slotIndex))

end

/-! ## The offer -/

def maxConnectSlots : ℕ := 16
def childPairTtl : ℕ := 600
def pairRequestMaxAge : ℤ := 240

def childDirectSlotLabel (depId : JsString) : JsString := childDirectLabelPrefix ++ depId.take 16

def childDirectPersona (dep : DependantIdentity) : Option JsString :=
  let pub := toLowerCase dep.personaKey
  if isHexOf 64 pub then some pub else none

/-- `status` says whether the device can do it, where it says so. -/
def staticPairBlock (dep : DependantIdentity) (hasOperator : Bool) (status : Option (Option Bool)) :
    Option PairBlockReason :=
  if !hasOperator then some .noOperatorKey
  else match status with
    | none => some .offline
    | some supported =>
      if supported = some false then some .deviceUnsupported
      else if (childDirectPersona dep).isNone then some .noPersona
      else none

/-- The hook's options as they are read. -/
structure Options where
  hasOperator : Bool
  status : Option (Option Bool)
  guardianNpPubkey : JsString
  railRelay : JsString
  hwRelays : List JsString

def Options.relaysOk (o : Options) : Bool :=
  isValidRelayUrl o.railRelay && !o.hwRelays.isEmpty && decide (o.hwRelays.length ≤ 8)
    && o.hwRelays.all isValidRelayUrl && isHexOf 64 o.guardianNpPubkey

/-- `++genRef.current; teardown(); setState(...)`: what was under way is cancelled. -/
def World.restart (w : World) (state : ChildPairingState) : World :=
  { w with
    gen := w.gen + 1
    session := none
    screen := state
    cancelled := if w.gen ∈ w.passed then w.cancelled else w.gen :: w.cancelled }

@[simp]
theorem World.made_restart : (w.restart state).made = w.made := rfl

/-- The offer becomes the current one, under a code that was never used. -/
def World.openSession (w : World) (s : Session) : Except Unit Unit × World :=
  if w.gen ≠ s.gen ∨ s.code ∈ w.offers.map Prod.snd then (.error (), w)
  else (.ok (), { w with session := some s, offers := (s.gen, s.code) :: w.offers })

@[simp]
theorem World.made_openSession (s : Session) : (w.openSession s).2.made = w.made := by
  unfold World.openSession
  split <;> rfl

/-- The dependant with a rail key; `none` if it cannot be used or saved. -/
def ensureRailKey (gen : ℕ) (dep : DependantIdentity) : Op (Option DependantIdentity) := do
  match dep.bunkerEndpoint with
  | some ep =>
    if ep.privateKey ≠ [] ∧ isHexOf 64 ep.privateKey = false then return none
    else if ep.privateKey ≠ [] ∧ isHexOf 64 ep.publicKey = true then return some dep
    else mintKey
  | none => mintKey
where
  mintKey : Op (Option DependantIdentity) := do
    let endpoint ← outside BunkerEndpoint
    let working := { dep with bunkerEndpoint := some endpoint }
    let ok ← Async.once (.save ⟨gen, working, none⟩) fun (ok : Bool) (w : World) => (.ok ok, w)
    if !ok then return none
    isCurrent gen
    return some working

def start (H : Heartwood) : Op Unit := do
  let gen ← Async.once .hook fun (_ : Unit) (w : World) => (.ok (w.gen + 1), w.restart .checking)
  let known ← outside Bool
  if !known then setState gen (.error .noDependant)
  else
    let dep ← record
    isCurrent gen
    let o ← outside Options
    match staticPairBlock dep o.hasOperator o.status with
    | some block => setState gen (.blocked block)
    | none =>
      let persona := toLowerCase dep.personaKey
      if !o.relaysOk then setState gen (.error .badRelay)
      else
        match ← listClients H with
        | none => setState gen (.blocked .offline)
        | some slots =>
          isCurrent gen
          if maxConnectSlots ≤ slots.length then setState gen (.blocked .slotsFull)
          else
            match ← ensureRailKey gen dep with
            | none => setState gen (.error .generic)
            | some working =>
              let code ← outside JsString
              let offerMs ← now
              let expiresAtMs := offerMs + childPairTtl * 1000
              let session : Session :=
                { gen, code, expiresAtMs, persona, label := childDirectSlotLabel (toLowerCase dep.id)
                  relay := o.hwRelays.headD [], dep := working, request := none }
              Async.once .hook fun (_ : Unit) (w : World) => w.openSession session
              -- A tap is armed first; meanwhile the offer may be over.
              let _ ← outside Bool
              isCurrent gen
              setState gen (.offer expiresAtMs)

def cancel : Op Unit :=
  .once .hook fun (_ : Unit) (w : World) => (.ok (), w.restart .idle)

/-- The timer of an offer. -/
def expire (gen : ℕ) : Op Unit :=
  .once .hook fun (_ : Unit) (w : World) =>
    match w.session with
    | some s =>
      if s.gen = gen then (.ok (), { w with session := none }.setState gen .expired) else (.ok (), w)
    | none => (.ok (), w)

def rejectMatch : Op Unit :=
  .once .hook fun (_ : Unit) (w : World) =>
    match w.session with
    | some s =>
      if s.request.isNone then (.ok (), w)
      else (.ok (), { w with session := none }.setState s.gen (.aborted .mismatch))
    | none => (.ok (), w)

section

variable [PairSdk]

/-- A request that was opened, for the offer it was opened for. -/
def World.hear (w : World) (s : Session) (req : ChildPairRequest) : World :=
  match w.session with
  | none => w
  | some s' =>
    if s'.gen ≠ s.gen then w
    else
      let w' := { w with heard := (s'.gen, req.clientPubkey) :: w.heard }
      match s'.request with
      | none =>
        let words := PairSdk.pairCheckWords s'.code req.clientPubkey
        { w' with
          session := some { s' with request := some req }
          displayed := ⟨s'.gen, words, req.clientPubkey⟩ :: w.displayed }.setState s'.gen
            (.confirm words req.clientPubkey)
      | some first =>
        if req.clientPubkey = first.clientPubkey then w'
        -- A second, different author: the code is burned.
        else { w' with session := none }.setState s'.gen (.aborted .twoRequests)

@[simp]
theorem World.made_hear (w : World) (s : Session) (req : ChildPairRequest) :
    (w.hear s req).made = w.made := by
  unfold World.hear
  cases w.session with
  | none => rfl
  | some s' =>
    dsimp only
    split
    · rfl
    split
    · simp
    split
    · rfl
    · simp

def onRequestEvent (gen : ℕ) : Op Unit := do
  let s ← Async.once .hook fun (_ : Unit) (w : World) =>
    match w.session with
    | some s => if s.gen ≠ gen ∨ s.expiresAtMs < w.clock then (.error (), w) else (.ok s, w)
    | none => (.error (), w)
  match ← outside (Option ChildPairRequest) with
  | none => pure ()
  | some req =>
    -- `openChildPairRequestEvent` opens a request of this code only.
    if req.code ≠ s.code ∨ isHexOf 64 req.clientPubkey = false then pure ()
    else Async.once .hook fun (_ : Unit) (w : World) => (.ok (), w.hear s req)

/-! ## The mint -/

/-- How `confirmMatch` begins: the code is burned. -/
def confirm : Op Confirmation :=
  .once .hook fun (_ : Unit) (w : World) =>
    match w.session with
    | none => (.error (), w)
    | some s =>
      match s.request with
      | none => (.error (), w)
      | some req =>
        (.ok ⟨s, req, w.clock⟩,
          { w with session := none, confirmed := ⟨s, req, w.clock⟩ :: w.confirmed })

/-- What is minted for a confirmation. -/
structure Prepared where
  dep : DependantIdentity
  seedPending : Bool
  call : MintCall

/-- The last look for a cancellation. -/
def lastLook (gen : ℕ) : Op Unit :=
  .once .hook fun (_ : Unit) (w : World) =>
    if w.gen = gen then (.ok (), { w with passed := gen :: w.passed }) else (.error (), w)

/-- The end of an attempt. -/
def stop {α : Type} (gen : ℕ) (state : ChildPairingState) : Op α := do
  ends gen state
  throw ()

/-- The dependant, read afresh; where it cannot be, the offer's stands in. -/
def readDependant (s : Session) : Op DependantIdentity := do
  let readable ← outside Bool
  if readable then
    let fresh ← record
    return { fresh with bunkerEndpoint := s.dep.bunkerEndpoint }
  else return s.dep

/-- `confirmInner`, up to the operator's lock. -/
def prepare (H : Heartwood) (c : Confirmation) : Op Prepared := do
  let s := c.session
  let req := c.request
  if s.expiresAtMs < c.at_ then stop s.gen .expired
  else if pairRequestMaxAge < (c.at_ / 1000 : ℕ) - req.createdAt then stop s.gen (.error .stale)
  else
    let hasOperator ← outside Bool
    let hasKey ← outside Bool
    match (PairSdk.parseNostrConnectURI req.nostrconnect).filter fun nc =>
        hasOperator && hasKey && toLowerCase nc.clientPubkey = req.clientPubkey with
    | none => stop s.gen (.error (if hasOperator then .generic else .noOperatorKey))
    | some nc =>
      setState s.gen .minting
      let dep ← readDependant s
      isCurrent s.gen
      match ← listClients H with
      | none => stop s.gen (.blocked .offline)
      | some before =>
        if clientKeyInUse before req.clientPubkey then stop s.gen (.error .clientReused)
        else
          let seedPending ← outside Bool
          lastLook s.gen
          let nowMs ← now
          -- The child's rules are read, and seeded where there are none.
          let rules ← outside (Option CompilerDependant)
          match rules with
          | none => stop s.gen (.error .generic)
          | some rules =>
            let policy := compileChildDirectPolicy rules s.persona ((nowMs / 1000 : ℕ) : ℚ)
            pure { dep, seedPending
                   call :=
                    { confirmation := c
                      request :=
                        { clientPubkey := req.clientPubkey, secret := nc.secret, createdAt := req.createdAt
                          relay := s.relay, identity := s.persona, label := s.label, policy } } }

/-- `revokeMinted`: never the slot of the phone that is paired. -/
def revokeMinted (H : Heartwood) (gen : ℕ) (current : Option SlotRef) (minted : SlotRef) : Op Bool :=
  if isSameSlot minted current then pure false else revokeClient H gen current minted

/-- What is under the operator's lock. -/
def mintSequence (H : Heartwood) (p : Prepared) : Op Unit := do
  let c := p.call.confirmation
  let s := c.session
  let key := c.request.clientPubkey
  let current := p.dep.current
  match ← nostrconnectV2 H p.call current with
  | .error errIndex =>
    -- The device may have made the slot before the reply was lost.
    match ← listClients H with
    | none => ends s.gen (.error .mintUnconfirmed)
    | some slots =>
      let clean ← revokeAll H s.gen current (unconfirmedMintSlots slots s.label key errIndex current)
      ends s.gen (.error (if clean then .mint else .mintUnconfirmed))
  | .ok minted =>
    let slots ← listClients H
    let expect : Expected :=
      { slot := minted, label := s.label, persona := s.persona, clientPubkey := key
        policy := p.call.request.policy }
    match slots.filter fun slots => (verifyMintedSlot slots expect).isSome with
    | none =>
      let ok ← revokeMinted H s.gen current minted
      ends s.gen (.error (if ok then .verify else .mintUnconfirmed))
    | some slots =>
      let pairedAt ← now
      let childDevice : ChildDevice :=
        { slot := minted, slotLabel := s.label, clientPubkey := key, boundPersona := s.persona, pairedAt
          seedPending := p.seedPending }
      let updated := { p.dep with childDevice := some childDevice }
      let ok ← Async.once (.save ⟨s.gen, updated, some (slots, expect)⟩) fun (ok : Bool) (w : World) =>
        (.ok ok, if ok then { w with saved := s.gen :: w.saved } else w)
      if !ok then
        let ok ← revokeMinted H s.gen current minted
        ends s.gen (.error (if ok then .save else .mintUnconfirmed))
      else
        -- The old phone's slot goes only now the new one has answered.
        let clean ← revokeAll H s.gen current (supersededSlots slots s.label minted)
        ends s.gen (.paired key !clean)

def confirmMatch (H : Heartwood) : Op Unit := do
  let c ← confirm
  let p ← prepare H c
  mintSequence H p

/-! ## Runs -/

/-- What may be started at any time. -/
inductive Starts (H : Heartwood) : Op Unit → Prop where
  | start : Starts H (start H)
  | cancel : Starts H cancel
  | expire (gen : ℕ) : Starts H (expire gen)
  | reject : Starts H rejectMatch
  | request (gen : ℕ) : Starts H (onRequestEvent gen)
  | confirm : Starts H (confirmMatch H)
  /-- Other managers and phones. -/
  | move : Starts H (.once .outside fun (c : H.Choice) (w : World) =>
      (.ok (), { w with device := H.move c w.device }))
  | tick (elapsed : ℕ) : Starts H (.once .outside fun (_ : Unit) (w : World) =>
      (.ok (), { w with clock := w.clock + elapsed }))

end

def World.initial (device : Device) (clock : ℕ) : World where
  clock := clock
  gen := 0
  session := none
  screen := .idle
  device := device
  offers := []
  heard := []
  displayed := []
  confirmed := []
  passed := []
  cancelled := []
  minted _ := 0
  made := []
  saved := []
  ended := []

end SignetApp.ChildPhone
