import SignetApp.Nearby.Frames

/-!
# `NearbyLink`

One link's state. The first frame each way is HELLO, the second AUTH; anything else, a session other
than the one expected, or a MAC that fails, drops the link. After both AUTHs only EVENT and ACK
frames are accepted, and OFFER under `childPair`, where every frame after AUTH is sealed.
-/

namespace SignetApp.Nearby

open Js

/-- A phone's session: its key is advertised, its secret keys the links. -/
structure Session where
  secret : Bytes
  publicKey : Hex 64

/-- The keys of sealed frames, one for each direction. -/
structure FrameKeys where
  sendKey : Bytes
  recvKey : Bytes
  deriving DecidableEq

/-- How far a link has come, with the keys it holds there: `wipe` clears them on the way out. -/
inductive NearbyPhase where
  | hello
  | auth (key : Bytes)
  | trusted (key : Bytes) (frames : Option FrameKeys)
  | dropped
  deriving DecidableEq

structure NearbyLink where
  role : NearbyRole
  ownNonce : Nonce
  session : Session
  expected : Option JsString
  profile : NearbyProfile
  peerNonce : Option Nonce
  peerSession : Option JsString
  state : NearbyPhase
  sendCounter : ℕ
  recvCounter : ℕ

/-- What a frame makes the carrier do. -/
inductive NearbyStep where
  | send (frame : Bytes)
  | trusted
  | event (event : NostrEvent)
  | offer (uri id : JsString)
  | ack (id : JsString) (stored : Bool)
  | drop
  deriving DecidableEq

namespace NearbyLink

/-- The constructor. It raises when a connector dials no known session. -/
def create (role : NearbyRole) (nonce : Nonce) (session : Session) (expected : Option JsString)
    (profile : NearbyProfile) : Option NearbyLink :=
  if role = .connector ∧ ¬ expected.any (isHexOf 64) then none
  else some ⟨role, nonce, session, expected, profile, none, none, .hello, 0, 0⟩

def trusted (l : NearbyLink) : Bool :=
  match l.state with
  | .trusted _ _ => true
  | _ => false

def dropped (l : NearbyLink) : Bool := l.state = .dropped

def seals (l : NearbyLink) : Bool := l.profile = .childPair

/-- `drop` and `close`: the keys go with the state. -/
def drop (l : NearbyLink) : NearbyLink := { l with state := .dropped }

/-- The first frame this side sends. -/
def hello (l : NearbyLink) : Bytes :=
  nearbyHello l.ownNonce (if l.role = .connector then some l.session.publicKey else none)

/-- The session this phone read from its peer's screen: no other may join. -/
def expect (l : NearbyLink) (peerSession : JsString) : NearbyLink × Bool :=
  let l := { l with expected := some peerSession }
  if l.peerSession.any (· ≠ peerSession) then (l.drop, false) else (l, !l.dropped)

/-- `nonces`: the advertiser's, then the connector's. -/
def nonces (l : NearbyLink) (peerNonce : Nonce) : Nonce × Nonce :=
  match l.role with
  | .advertiser => (l.ownNonce, peerNonce)
  | .connector => (peerNonce, l.ownNonce)

section
variable [LinkCrypto]

/-- The AUTH frame this side sends. -/
def authFrame (l : NearbyLink) (key : Bytes) (peerNonce : Nonce) : Bytes :=
  authType :: authMac key l.role (l.nonces peerNonce).1 (l.nonces peerNonce).2

/-- The key of the frames `sender` seals. -/
def frameKey (l : NearbyLink) (key : Bytes) (peerNonce : Nonce) (sender : NearbyRole) : Bytes :=
  LinkCrypto.hkdf key ((l.nonces peerNonce).1.val ++ (l.nonces peerNonce).2.val)
    (frameKeyInfo sender)

def deriveFrameKeys (l : NearbyLink) (key : Bytes) (peerNonce : Nonce) : FrameKeys :=
  ⟨l.frameKey key peerNonce l.role, l.frameKey key peerNonce l.role.other⟩

/-- The types a sealed frame may have. -/
def isSealedType (type : UInt8) : Bool :=
  type = eventType || type = offerType || type = ackType

/-- The sealed frame with the given counter. -/
def sealFrame (sendKey : Bytes) (counter : ℕ) (type : UInt8) (body : Bytes) : Bytes :=
  type :: counterBytes counter ++ LinkCrypto.encrypt sendKey (sealNonce (counterBytes counter))
    (sealAad type (counterBytes counter)) body

/-- A plaintext frame ready for the wire: as it is under `handshake`, sealed under `childPair`,
where it takes a counter. -/
def wire (l : NearbyLink) (frame : Bytes) : Option (Bytes × NearbyLink) :=
  match l.state, frame with
  | .trusted _ frames, type :: body =>
    if !l.seals then some (frame, l)
    else match frames with
      | none => none
      | some keys =>
        if isSealedType type ∧ frame.length + nearbySealOverhead ≤ nearbyMaxFrame
            ∧ l.sendCounter < nearbyMaxSealedFrames then
          some (sealFrame keys.sendKey l.sendCounter type body,
            { l with sendCounter := l.sendCounter + 1 })
        else none
  | _, _ => none

/-- The plaintext frame inside a sealed one. -/
def openFrame (l : NearbyLink) (keys : FrameKeys) (frame : Bytes) : Option (Bytes × NearbyLink) :=
  match frame with
  | [] => none
  | type :: rest => do
    guard (1 + nearbySealOverhead ≤ frame.length ∧ frame.length ≤ nearbyMaxFrame)
    guard (isSealedType type)
    guard (l.recvCounter < nearbyMaxSealedFrames)
    guard (rest.take sealCounterBytes = counterBytes l.recvCounter)
    let body ← LinkCrypto.decrypt keys.recvKey (sealNonce (counterBytes l.recvCounter))
      (sealAad type (counterBytes l.recvCounter)) (rest.drop sealCounterBytes)
    some (type :: body, { l with recvCounter := l.recvCounter + 1 })

/-- The receipt an ACK frame holds, and its MAC. -/
def readAck (frame : Bytes) : Option (Bytes × Bool × Bytes) := do
  guard (frame.head? = some ackType ∧ frame.length = ackSize)
  let stored ← frame[33]?
  guard (stored = 0 ∨ stored = 1)
  some ((frame.drop 1).take 32, stored = 1, frame.drop 34)

/-- A plaintext frame after AUTH. -/
def readFrame [Numerals] (l : NearbyLink) (key : Bytes) (peerNonce : Nonce) (frame : Bytes) :
    Option NearbyStep :=
  if frame.head? = some eventType then (readNearbyEvent frame l.profile).map .event
  else if frame.head? = some offerType ∧ l.profile = .childPair then
    (readNearbyOffer frame).map fun uri => .offer uri (nearbyOfferId frame)
  else do
    let (id, stored, mac) ← readAck frame
    guard (mac = ackMac key l.role.other (l.nonces peerNonce).1 (l.nonces peerNonce).2 id stored)
    some (.ack (bytesToHex id) stored)

/-- The session in a HELLO: a connector's names it, and an advertiser's is the one dialled. -/
def helloSession (l : NearbyLink) (frame : Bytes) : JsString :=
  match l.role with
  | .advertiser => bytesToHex (frame.drop (1 + nearbyNonceBytes))
  | .connector => l.expected.getD []

def helloNonce (frame : Bytes) (h : 1 + nearbyNonceBytes ≤ frame.length) : Nonce :=
  ⟨(frame.drop 1).take nearbyNonceBytes, by
    rw [List.length_take, List.length_drop]
    omega⟩

omit [LinkCrypto] in
theorem size_le_helloSize (r : NearbyRole) : 1 + nearbyNonceBytes ≤ helloSize r := by
  cases r <;> decide

/-- `receive`, in the state `hello`. -/
def receiveHello (l : NearbyLink) (frame : Bytes) : NearbyLink × List NearbyStep :=
  if h : frame.length = helloSize l.role.other ∧ frame.head? = some helloType then
    let peerNonce := helloNonce frame (h.1 ▸ size_le_helloSize _)
    let peer := l.helloSession frame
    let l := { l with peerNonce := some peerNonce }
    if peerNonce = l.ownNonce ∨ peer = l.session.publicKey.val ∨ l.expected.any (· ≠ peer) then
      (l.drop, [.drop])
    else
      let l := { l with peerSession := some peer }
      match nearbyLinkKey l.session.secret peer l.profile with
      | none => (l.drop, [.drop])
      | some key => ({ l with state := .auth key }, [.send (l.authFrame key peerNonce)])
  else (l.drop, [.drop])

/-- `receive`, in the state `auth`. -/
def receiveAuth (l : NearbyLink) (key : Bytes) (peerNonce : Nonce) (frame : Bytes) :
    NearbyLink × List NearbyStep :=
  if frame.length = authSize ∧ frame.head? = some authType ∧ frame.tail
      = authMac key l.role.other (l.nonces peerNonce).1 (l.nonces peerNonce).2 then
    let frames := if l.seals then some (l.deriveFrameKeys key peerNonce) else none
    ({ l with state := .trusted key frames }, [.trusted])
  else (l.drop, [.drop])

/-- `receive`, in the state `trusted`: the frame inside, under `childPair`, and what it says. -/
def receiveTrusted [Numerals] (l : NearbyLink) (key : Bytes) (frames : Option FrameKeys)
    (peerNonce : Nonce) (frame : Bytes) : NearbyLink × List NearbyStep :=
  match if l.seals then frames.bind (l.openFrame · frame) else some (frame, l) with
  | none => (l.drop, [.drop])
  | some (plain, l) =>
    match l.readFrame key peerNonce plain with
    | none => (l.drop, [.drop])
    | some step => (l, [step])

def receive [Numerals] (l : NearbyLink) (frame : Bytes) : NearbyLink × List NearbyStep :=
  match l.state, l.peerNonce with
  | .dropped, _ => (l, [])
  | .hello, _ => l.receiveHello frame
  | .auth key, some peerNonce => l.receiveAuth key peerNonce frame
  | .trusted key frames, some peerNonce => l.receiveTrusted key frames peerNonce frame
  | _, none => (l.drop, [.drop])

/-- The plaintext of a receipt. -/
def ackFrame (l : NearbyLink) (key : Bytes) (peerNonce : Nonce) (id : Bytes) (stored : Bool) :
    Bytes :=
  ackType :: id ++ [storedByte stored]
    ++ ackMac key l.role (l.nonces peerNonce).1 (l.nonces peerNonce).2 id stored

/-- The receipt for an event, ready for the wire. It raises when the link is not ready. -/
def ack (l : NearbyLink) (eventId : JsString) (stored : Bool) : Option (Bytes × NearbyLink) :=
  match l.state, l.peerNonce with
  | .trusted key _, some peerNonce => do
    guard (isHexOf 64 eventId)
    l.wire (l.ackFrame key peerNonce (hexToBytes eventId) stored)
  | _, _ => none

end

/-! ## What `receive` does -/

/-- What a link keeps for as long as it exists. -/
structure SameLink (l l' : NearbyLink) : Prop where
  role : l'.role = l.role
  ownNonce : l'.ownNonce = l.ownNonce
  session : l'.session = l.session
  profile : l'.profile = l.profile

theorem SameLink.refl (l : NearbyLink) : SameLink l l := ⟨rfl, rfl, rfl, rfl⟩

theorem nonces_congr {l l' : NearbyLink} (h : SameLink l l') (n : Nonce) :
    l'.nonces n = l.nonces n := by
  simp only [nonces, h.role, h.ownNonce]

section
variable [LinkCrypto]

/-- The plaintext of a frame that came over a trusted link, and the link with it counted. -/
def plainOf (l : NearbyLink) (frames : Option FrameKeys) (frame : Bytes) :
    Option (Bytes × NearbyLink) :=
  if l.seals then frames.bind (l.openFrame · frame) else some (frame, l)

/-- Everything `receive` can do. -/
inductive Received [Numerals] (l : NearbyLink) (frame : Bytes) :
    NearbyLink → List NearbyStep → Prop where
  /-- A dropped link hears nothing. -/
  | ignored (h : l.state = .dropped) : Received l frame l []
  | refused {l' : NearbyLink} (hsame : SameLink l l') (hdropped : l'.state = .dropped)
      (hcounter : l'.sendCounter = l.sendCounter)
      (hpeer : l.state ≠ .hello → l'.peerNonce = l.peerNonce ∧ l'.peerSession = l.peerSession) :
      Received l frame l' [.drop]
  | greeted {n : Nonce} {s : JsString} {key : Bytes} (hstate : l.state = .hello)
      (hown : s ≠ l.session.publicKey.val)
      (hkey : nearbyLinkKey l.session.secret s l.profile = some key) :
      Received l frame { l with peerNonce := some n, peerSession := some s, state := .auth key }
        [.send (l.authFrame key n)]
  | authenticated {key : Bytes} {n : Nonce} (hstate : l.state = .auth key)
      (hnonce : l.peerNonce = some n)
      (hmac : frame = authType
        :: authMac key l.role.other (l.nonces n).1 (l.nonces n).2) :
      Received l frame
        { l with
          state := .trusted key (if l.seals then some (l.deriveFrameKeys key n) else none) }
        [.trusted]
  | read {key plain : Bytes} {frames : Option FrameKeys} {n : Nonce} {l' : NearbyLink}
      {step : NearbyStep} (hstate : l.state = .trusted key frames) (hnonce : l.peerNonce = some n)
      (hplain : l.plainOf frames frame = some (plain, l'))
      (hread : l'.readFrame key n plain = some step) : Received l frame l' [step]

variable {frame : Bytes} {l l' : NearbyLink}

theorem openFrame_eq {keys : FrameKeys} {plain : Bytes}
    (h : l.openFrame keys frame = some (plain, l')) :
    ∃ type sealed body, frame = type :: counterBytes l.recvCounter ++ sealed
      ∧ LinkCrypto.decrypt keys.recvKey (sealNonce (counterBytes l.recvCounter))
        (sealAad type (counterBytes l.recvCounter)) sealed = some body
      ∧ l.recvCounter < nearbyMaxSealedFrames
      ∧ plain = type :: body ∧ l' = { l with recvCounter := l.recvCounter + 1 } := by
  cases frame with
  | nil => simp [openFrame] at h
  | cons type rest =>
    simp only [openFrame, Option.bind_eq_bind, Option.bind_eq_some_iff, Option.guard_eq_some',
      exists_const] at h
    obtain ⟨-, -, hcounter, hbytes, body, hbody, h⟩ := h
    obtain ⟨rfl, rfl⟩ := Prod.mk.inj (Option.some.inj h)
    refine ⟨type, rest.drop sealCounterBytes, body, ?_, hbody, hcounter, rfl, rfl⟩
    rw [List.cons_append, ← hbytes, List.take_append_drop]

theorem plainOf_eq {frames : Option FrameKeys} {plain : Bytes}
    (h : l.plainOf frames frame = some (plain, l')) :
    SameLink l l' ∧ l'.state = l.state ∧ l'.peerNonce = l.peerNonce
      ∧ l'.peerSession = l.peerSession ∧ l'.sendCounter = l.sendCounter := by
  rw [plainOf] at h
  split at h
  · obtain ⟨keys, -, h⟩ := Option.bind_eq_some_iff.1 h
    obtain ⟨_, _, _, -, -, -, -, rfl⟩ := openFrame_eq h
    exact ⟨⟨rfl, rfl, rfl, rfl⟩, rfl, rfl, rfl, rfl⟩
  · obtain ⟨rfl, rfl⟩ := Prod.mk.inj (Option.some.inj h)
    exact ⟨.refl l, rfl, rfl, rfl, rfl⟩

theorem receiveHello_received [Numerals] (hstate : l.state = .hello) :
    Received l frame (l.receiveHello frame).1 (l.receiveHello frame).2 := by
  have hpeer : ∀ {l' : NearbyLink}, l.state ≠ .hello →
      l'.peerNonce = l.peerNonce ∧ l'.peerSession = l.peerSession :=
    fun h => absurd hstate h
  rw [receiveHello]
  split
  · next h =>
    dsimp only
    split
    · exact .refused ⟨rfl, rfl, rfl, rfl⟩ rfl rfl hpeer
    · next hgood =>
      push Not at hgood
      split
      · exact .refused ⟨rfl, rfl, rfl, rfl⟩ rfl rfl hpeer
      · next key hkey => exact .greeted hstate hgood.2.1 hkey
  · exact .refused ⟨rfl, rfl, rfl, rfl⟩ rfl rfl hpeer

theorem received [Numerals] (l : NearbyLink) (frame : Bytes) :
    Received l frame (l.receive frame).1 (l.receive frame).2 := by
  have hrefused : Received l frame l.drop [.drop] :=
    .refused ⟨rfl, rfl, rfl, rfl⟩ rfl rfl fun _ => ⟨rfl, rfl⟩
  rw [receive]
  split
  · next h => exact .ignored h
  · next h => exact receiveHello_received h
  · next key n hstate hnonce =>
    rw [receiveAuth]
    split
    · next h =>
      refine .authenticated hstate hnonce ?_
      rw [← h.2.2]
      exact List.eq_cons_of_mem_head? h.2.1
    · exact hrefused
  · next key frames n hstate hnonce =>
    rw [receiveTrusted, ← plainOf]
    split
    · exact hrefused
    · next plain l' hplain =>
      obtain ⟨hsame, -, hn, hs, hsend⟩ := plainOf_eq hplain
      split
      · exact .refused ⟨hsame.role, hsame.ownNonce, hsame.session, hsame.profile⟩ rfl hsend
          fun _ => ⟨hn, hs⟩
      · next step hread => exact .read hstate hnonce hplain hread
  · exact hrefused

theorem wire_eq {out : Bytes} (h : l.wire frame = some (out, l')) :
    ∃ key frames type body, l.state = .trusted key frames ∧ frame = type :: body
      ∧ (l.seals = false ∧ out = frame ∧ l' = l ∨
        ∃ keys, l.seals = true ∧ frames = some keys ∧ l.sendCounter < nearbyMaxSealedFrames
          ∧ out = sealFrame keys.sendKey l.sendCounter type body
          ∧ l' = { l with sendCounter := l.sendCounter + 1 }) := by
  unfold wire at h
  split at h
  · next key frames type body hstate =>
    refine ⟨key, frames, type, body, hstate, rfl, ?_⟩
    split at h
    · next hseals =>
      obtain ⟨rfl, rfl⟩ := Prod.mk.inj (Option.some.inj h)
      exact .inl ⟨by simpa using hseals, rfl, rfl⟩
    · next hseals =>
      split at h
      · cases h
      · next keys =>
        split at h
        · next hfits =>
          obtain ⟨rfl, rfl⟩ := Prod.mk.inj (Option.some.inj h)
          exact .inr ⟨keys, by simpa using hseals, rfl, hfits.2.2, rfl, rfl⟩
        · cases h
  · cases h

theorem ack_eq {id : JsString} {stored : Bool} {out : Bytes}
    (h : l.ack id stored = some (out, l')) :
    ∃ key frames n, l.state = .trusted key frames ∧ l.peerNonce = some n ∧ isHexOf 64 id = true
      ∧ l.wire (l.ackFrame key n (hexToBytes id) stored) = some (out, l') := by
  unfold ack at h
  split at h
  · next key frames n hstate hnonce =>
    simp only [Option.bind_eq_bind, Option.bind_eq_some_iff, Option.guard_eq_some',
      exists_const] at h
    exact ⟨key, frames, n, hstate, hnonce, h.1, h.2⟩
  · cases h

/-! ## The frames a link waits for -/

variable {key : Bytes} {n : Nonce}

theorem receive_hello [Numerals] {s : JsString} (hstate : l.state = .hello) (hsize : frame.length = helloSize l.role.other)
    (htype : frame.head? = some helloType) (hnonce : (frame.drop 1).take nearbyNonceBytes = n.val)
    (hsession : l.helloSession frame = s) (hn : n ≠ l.ownNonce) (hs : s ≠ l.session.publicKey.val)
    (hexpected : l.expected.any (· ≠ s) = false)
    (hkey : nearbyLinkKey l.session.secret s l.profile = some key) :
    l.receive frame = ({ l with peerNonce := some n, peerSession := some s, state := .auth key },
      [.send (l.authFrame key n)]) := by
  have hhello : helloNonce frame (hsize ▸ size_le_helloSize _) = n := Subtype.ext hnonce
  have hgood : ¬ (n = l.ownNonce ∨ s = l.session.publicKey.val
      ∨ l.expected.any (· ≠ s) = true) := by
    rw [hexpected]
    simp [hn, hs]
  unfold receive
  simp only [hstate, receiveHello, hsize, htype, and_self, dif_pos, hhello, hsession, if_neg hgood,
    hkey]
  rfl

/-- An advertiser hears a connector's HELLO. -/
theorem receive_hello_advertiser [Numerals] {s : Hex 64}
    (hstate : l.state = .hello) (hrole : l.role = .advertiser) (hn : n ≠ l.ownNonce)
    (hs : s.val ≠ l.session.publicKey.val) (hexpected : l.expected.any (· ≠ s.val) = false)
    (hkey : nearbyLinkKey l.session.secret s.val l.profile = some key) :
    l.receive (nearbyHello n (some s))
      = ({ l with peerNonce := some n, peerSession := some s.val, state := .auth key },
        [.send (l.authFrame key n)]) := by
  have hlen : (hexToBytes s.val).length = 32 := length_hexToBytes (by
    have hhex := s.property
    simp only [isHexOf, Bool.and_eq_true, beq_iff_eq] at hhex
    exact hhex.1)
  have htail : (nearbyHello n (some s)).drop (1 + nearbyNonceBytes) = hexToBytes s.val := by
    show (n.val ++ hexToBytes s.val).drop nearbyNonceBytes = hexToBytes s.val
    exact List.drop_left' n.property
  apply receive_hello hstate
  · show ((helloType :: n.val ++ hexToBytes s.val).length) = _
    rw [hrole, List.length_append, List.length_cons, n.property, hlen]
    rfl
  · rfl
  · show (n.val ++ _).take nearbyNonceBytes = n.val
    exact List.take_left' n.property
  · rw [helloSession, hrole]
    show bytesToHex ((nearbyHello n (some s)).drop (1 + nearbyNonceBytes)) = s.val
    rw [htail]
    exact bytesToHex_hexToBytes (n := 32) s.property
  · exact hn
  · exact hs
  · exact hexpected
  · exact hkey

theorem receive_hello_connector [Numerals] {s : JsString}
    (hstate : l.state = .hello) (hrole : l.role = .connector) (hn : n ≠ l.ownNonce)
    (hs : s ≠ l.session.publicKey.val) (hexpected : l.expected = some s)
    (hkey : nearbyLinkKey l.session.secret s l.profile = some key) :
    l.receive (nearbyHello n none)
      = ({ l with peerNonce := some n, peerSession := some s, state := .auth key },
        [.send (l.authFrame key n)]) := by
  apply receive_hello hstate
  · show ((helloType :: n.val ++ []).length) = _
    rw [hrole, List.append_nil, List.length_cons, n.property]
    rfl
  · rfl
  · show (n.val ++ []).take nearbyNonceBytes = n.val
    exact List.take_left' n.property
  · rw [helloSession, hrole, hexpected]
    rfl
  · exact hn
  · exact hs
  · rw [hexpected]
    simp
  · exact hkey

theorem receive_auth [Numerals] (hstate : l.state = .auth key) (hnonce : l.peerNonce = some n)
    (hlen : (authMac key l.role.other (l.nonces n).1 (l.nonces n).2).length = 32) :
    l.receive (authType :: authMac key l.role.other (l.nonces n).1 (l.nonces n).2)
      = ({ l with
          state := .trusted key (if l.seals then some (l.deriveFrameKeys key n) else none) },
        [.trusted]) := by
  have hframe : (authType :: authMac key l.role.other (l.nonces n).1 (l.nonces n).2).length
      = authSize := by rw [List.length_cons, hlen]
  unfold receive
  simp only [hstate, hnonce, receiveAuth, hframe, List.head?_cons, List.tail_cons, and_self,
    if_true]

end

end NearbyLink

end SignetApp.Nearby
