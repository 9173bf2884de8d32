import SignetApp.Js.Bytes
import SignetApp.Js.Json

/-!
# The frames of a nearby link

Bluetooth is an untrusted carrier. Two phones authenticate a link with the session keys they showed
each other on their screens, in the frames this module lays out: HELLO, AUTH, EVENT, ACK and OFFER.

The primitives come from libraries. `LinkCrypto` names them, and no result depends on more of them
than it says.
-/

namespace SignetApp.Nearby

open Js

/-- The cryptographic primitives a link uses. -/
class LinkCrypto where
  sha256 : Bytes → Bytes
  /-- `hmac(sha256, key, message)`. -/
  hmac : Bytes → Bytes → Bytes
  /-- `hkdf(sha256, key, salt, info, 32)`. -/
  hkdf : Bytes → Bytes → Bytes → Bytes
  /-- `nip44.v2.utils.getConversationKey(secret, peer)`: the ECDH of the two. It raises on a key
  that is not on the curve. -/
  getConversationKey : Bytes → JsString → Option Bytes
  /-- `chacha20poly1305(key, nonce, aad).encrypt(plain)`. -/
  encrypt : Bytes → Bytes → Bytes → Bytes → Bytes
  /-- `chacha20poly1305(key, nonce, aad).decrypt(sealed)`. It raises when the tag is wrong. -/
  decrypt : Bytes → Bytes → Bytes → Bytes → Option Bytes

/-! ## Constants -/

/-- What a link carries. -/
inductive NearbyProfile where
  | handshake
  | childPair
  deriving DecidableEq

inductive NearbyRole where
  | advertiser
  | connector
  deriving DecidableEq

def NearbyRole.other : NearbyRole → NearbyRole
  | advertiser => connector
  | connector => advertiser

theorem NearbyRole.other_ne (r : NearbyRole) : r.other ≠ r := by
  cases r <;> decide

/-- `TEXT.encode(s)`, of a literal. -/
def text (s : String) : Bytes := encodeUtf8 (lit s)

/-- `KEY_TAGS`. -/
def keyTag : NearbyProfile → Bytes
  | .handshake => text "signet:handshake:nearby:link:v1"
  | .childPair => text "signet:child-pair:nearby:link:v1"

def authTag : Bytes := text "auth"

def frameAadTag : Bytes := text "signet:child-pair:nearby:frame:v1"

def frameKeyInfo : NearbyRole → Bytes
  | .advertiser => text "signet:child-pair:nearby:frame:v1:adv"
  | .connector => text "signet:child-pair:nearby:frame:v1:conn"

def ackTag : Bytes := text "ack"

abbrev sealCounterBytes : ℕ := 8

/-- `NEARBY_SEAL_OVERHEAD`: the counter and the tag. -/
abbrev nearbySealOverhead : ℕ := sealCounterBytes + 16

abbrev nearbyMaxSealedFrames : ℕ := 1024

abbrev nearbyNonceBytes : ℕ := 16

abbrev nearbyMaxFrame : ℕ := 48 * 1024

abbrev childPairMaxContent : ℕ := 20000

abbrev childPairMaxOffer : ℕ := 8192

def childPairOfferPrefix : JsString := lit "signet-child:"

abbrev childPairKind : ℕ := 30078

/-- `HELLO`. -/
abbrev helloType : UInt8 := 1
/-- `AUTH`. -/
abbrev authType : UInt8 := 2
/-- `EVENT`. -/
abbrev eventType : UInt8 := 3
/-- `ACK`. -/
abbrev ackType : UInt8 := 4
/-- `OFFER`. -/
abbrev offerType : UInt8 := 5

/-- `ADVERTISER_HELLO_SIZE` and `CONNECTOR_HELLO_SIZE`: the size of the sender's HELLO. -/
def helloSize : NearbyRole → ℕ
  | .advertiser => 1 + nearbyNonceBytes
  | .connector => 1 + nearbyNonceBytes + 32

abbrev authSize : ℕ := 33

abbrev ackSize : ℕ := 1 + 32 + 1 + 16

def roleByte : NearbyRole → UInt8
  | .advertiser => 0x41
  | .connector => 0x43

variable {r r' : NearbyRole}

theorem roleByte_inj (h : roleByte r = roleByte r') : r = r' := by
  cases r <;> cases r' <;> first | rfl | exact absurd h (by decide)

/-- A nonce: the sixteen bytes a link draws when it is made. -/
def Nonce := { bytes : Bytes // bytes.length = nearbyNonceBytes }

instance : DecidableEq Nonce :=
  inferInstanceAs (DecidableEq { bytes : Bytes // bytes.length = nearbyNonceBytes })

/-! ## Keys and receipts -/

section
variable [LinkCrypto]

def tagged (tag bytes : Bytes) : Bytes := LinkCrypto.sha256 (tag ++ bytes)

/-- The link key: the ECDH of the two session keys. It raises on a key that is no session key. -/
def nearbyLinkKey (ownSecret : Bytes) (peerSession : JsString) (profile : NearbyProfile) :
    Option Bytes := do
  guard (isHexOf 64 peerSession)
  let shared ← LinkCrypto.getConversationKey ownSecret peerSession
  some (tagged (keyTag profile) shared)

/-- A connector's HELLO carries its session key; an advertiser's does not. -/
def nearbyHello (nonce : Nonce) (session : Option (Hex 64)) : Bytes :=
  helloType :: nonce.val ++ (session.map fun s => hexToBytes s.val).getD []

/-- What the MAC of an AUTH frame is of. -/
def authMessage (sender : NearbyRole) (advertiserNonce connectorNonce : Nonce) : Bytes :=
  authTag ++ [roleByte sender] ++ advertiserNonce.val ++ connectorNonce.val

def authMac (key : Bytes) (sender : NearbyRole) (advertiserNonce connectorNonce : Nonce) : Bytes :=
  LinkCrypto.hmac key (authMessage sender advertiserNonce connectorNonce)

/-- `stored ? 1 : 0`. -/
def storedByte (stored : Bool) : UInt8 := if stored then 1 else 0

/-- What the MAC of an ACK frame is of. -/
def ackMessage (sender : NearbyRole) (advertiserNonce connectorNonce : Nonce) (id : Bytes)
    (stored : Bool) : Bytes :=
  ackTag ++ [roleByte sender] ++ advertiserNonce.val ++ connectorNonce.val ++ id
    ++ [storedByte stored]

def ackMac (key : Bytes) (sender : NearbyRole) (advertiserNonce connectorNonce : Nonce) (id : Bytes)
    (stored : Bool) : Bytes :=
  (LinkCrypto.hmac key (ackMessage sender advertiserNonce connectorNonce id stored)).take 16

/-! ## Events and offers -/

/-- A Nostr event as a link carries it. -/
structure NostrEvent where
  id : Hex 64
  pubkey : Hex 64
  sig : Hex 128
  content : JsString
  createdAt : BoundedNat maxSafeInteger
  kind : ℕ
  tags : List (List JsString)

deriving instance DecidableEq for NostrEvent

/-- The event as a JSON object. -/
def NostrEvent.toJs (e : NostrEvent) : JsValue :=
  .obj [("id", e.id.toJs), ("pubkey", e.pubkey.toJs), ("sig", e.sig.toJs), ("kind", .ofNat e.kind),
    ("created_at", e.createdAt.toJs), ("tags", .arr (e.tags.map fun t => .arr (t.map .str))),
    ("content", .str e.content)]

def nearbyEventFrame [Platform] (event : NostrEvent) : Option Bytes :=
  let body := encodeUtf8 ((stringify event.toJs).getD [])
  if body.length + 1 > nearbyMaxFrame then none else some (eventType :: body)

/-- `[name, value]` of two strings, the second a key or an id. -/
def pair (t : JsValue) (name : String) : Option (Hex 64) :=
  match t with
  | .arr [tag, value] => if tag = .ofLit name then isHex 64 value else none
  | _ => none

/-- The tags of a pairing event: exactly one `d` and one `p`, in either order. -/
def childPairTags (tags : List JsValue) : Option (List (List JsString)) :=
  match tags with
  | [first, second] => do
    let d ← (pair first "d").or (pair second "d")
    let p ← (pair first "p").or (pair second "p")
    some (if (pair first "d").isSome then [[lit "d", d.val], [lit "p", p.val]]
      else [[lit "p", p.val], [lit "d", d.val]])
  | _ => none

/-- The tags of a gift wrap: exactly one `p`. -/
def wrapTags (tags : List JsValue) : Option (List (List JsString)) :=
  match tags with
  | [only] => (pair only "p").map fun p => [[lit "p", p.val]]
  | _ => none

/-- The shape of an event; whoever receives it verifies everything inside. -/
def readNearbyEvent [Numerals] (frame : Bytes) (profile : NearbyProfile) : Option NostrEvent := do
  guard (2 ≤ frame.length ∧ frame.length ≤ nearbyMaxFrame ∧ frame.head? = some eventType)
  let e ← (decodeUtf8 frame.tail).bind parse
  guard (isObj e)
  let id ← isHex 64 (e.get "id")
  let pubkey ← isHex 64 (e.get "pubkey")
  let sig ← isHex 128 (e.get "sig")
  let content ← match e.get "content" with | .str s => some s | _ => none
  let createdAt ← isBoundedNat maxSafeInteger (e.get "created_at")
  let tags ← match e.get "tags" with | .arr elems => some elems | _ => none
  match profile with
  | .childPair =>
    guard (e.get "kind" = .ofNat childPairKind ∧ content.length ≤ childPairMaxContent)
    let tags ← childPairTags tags
    some ⟨id, pubkey, sig, content, createdAt, childPairKind, tags⟩
  | .handshake =>
    guard (e.get "kind" = .ofNat 1059)
    let tags ← wrapTags tags
    some ⟨id, pubkey, sig, content, createdAt, 1059, tags⟩

/-- The guardian's `signet-child:` URI as a frame, when it is one and short enough. -/
def nearbyOfferFrame (uri : JsString) : Option Bytes :=
  if childPairOfferPrefix.isPrefixOf uri ∧ (encodeUtf8 uri).length ≤ childPairMaxOffer then
    some (offerType :: encodeUtf8 uri)
  else none

def readNearbyOffer (frame : Bytes) : Option JsString := do
  guard (2 ≤ frame.length ∧ frame.length ≤ 1 + childPairMaxOffer
    ∧ frame.head? = some offerType)
  let uri ← decodeUtf8 frame.tail
  guard (childPairOfferPrefix.isPrefixOf uri)
  some uri

/-- What an ACK names for a frame that has no event id. -/
def nearbyOfferId (frame : Bytes) : JsString := bytesToHex (LinkCrypto.sha256 frame)

end

/-! ## Sealing -/

/-- `counterBytes`: eight bytes, the most significant first. -/
def counterBytes (n : ℕ) : Bytes :=
  (List.range sealCounterBytes).map fun i => UInt8.ofNat (n / 256 ^ (sealCounterBytes - 1 - i))

def sealNonce (counter : Bytes) : Bytes := List.replicate 4 0 ++ counter

def sealAad (type : UInt8) (counter : Bytes) : Bytes := frameAadTag ++ [type] ++ counter

/-! ## What the layouts tell apart -/

variable {a a' : Nonce}

theorem nonces_inj {c c' : Nonce} (h : a.val ++ c.val = a'.val ++ c'.val) : a = a' ∧ c = c' := by
  obtain ⟨ha, hc⟩ := List.append_inj h (a.property.trans a'.property.symm)
  exact ⟨Subtype.ext ha, Subtype.ext hc⟩

theorem authMessage_inj {c c' : Nonce}
    (h : authMessage r a c = authMessage r' a' c') : r = r' ∧ a = a' ∧ c = c' := by
  simp only [authMessage, List.append_assoc] at h
  obtain ⟨-, h⟩ := List.append_inj h rfl
  obtain ⟨hr, h⟩ := List.append_inj h rfl
  obtain ⟨ha, hc⟩ := nonces_inj h
  exact ⟨roleByte_inj (List.singleton_inj.1 hr), ha, hc⟩

variable {s s' : Bool}

theorem storedByte_inj (h : storedByte s = storedByte s') : s = s' := by
  revert s s'
  decide

variable {id : Bytes}

theorem ackMessage_inj {c c' : Nonce} {id' : Bytes}
    (h : ackMessage r a c id s = ackMessage r' a' c' id' s') :
    r = r' ∧ a = a' ∧ c = c' ∧ id = id' ∧ s = s' := by
  simp only [ackMessage, List.append_assoc] at h
  obtain ⟨-, h⟩ := List.append_inj h rfl
  obtain ⟨hr, h⟩ := List.append_inj h rfl
  obtain ⟨ha, h⟩ := List.append_inj h (a.property.trans a'.property.symm)
  obtain ⟨hc, h⟩ := List.append_inj h (c.property.trans c'.property.symm)
  obtain ⟨hid, hs⟩ := List.append_inj' h rfl
  exact ⟨roleByte_inj (List.singleton_inj.1 hr), Subtype.ext ha, Subtype.ext hc, hid,
    storedByte_inj (List.singleton_inj.1 hs)⟩

theorem authMessage_ne_ackMessage {c c' : Nonce} :
    authMessage r a c ≠ ackMessage r' a' c' id s := by
  intro h
  simp only [authMessage, ackMessage, List.append_assoc] at h
  have htake := congrArg (List.take 3) h
  rw [List.take_append_of_le_length (by decide), List.take_append_of_le_length (by decide)] at htake
  exact absurd htake (by decide)

theorem length_counterBytes (n : ℕ) : (counterBytes n).length = sealCounterBytes := by
  simp [counterBytes]

theorem counterBytes_inj {n m : ℕ} (hn : n < nearbyMaxSealedFrames) (hm : m < nearbyMaxSealedFrames)
    (h : counterBytes n = counterBytes m) : n = m := by
  have hlow : UInt8.ofNat (n / 1) = UInt8.ofNat (m / 1) :=
    Option.some.inj (congrArg (fun l : Bytes => l[7]?) h)
  have hhigh : UInt8.ofNat (n / 256) = UInt8.ofNat (m / 256) :=
    Option.some.inj (congrArg (fun l : Bytes => l[6]?) h)
  have hlow' := congrArg UInt8.toNat hlow
  have hhigh' := congrArg UInt8.toNat hhigh
  simp only [UInt8.toNat_ofNat'] at hlow' hhigh'
  have hn' : n < 1024 := hn
  have hm' : m < 1024 := hm
  omega

theorem sealNonce_inj {c c' : Bytes} (h : sealNonce c = sealNonce c') : c = c' :=
  List.append_cancel_left h

theorem sealAad_inj {t t' : UInt8} {c c' : Bytes} (h : sealAad t c = sealAad t' c') :
    t = t' ∧ c = c' := by
  simp only [sealAad, List.append_assoc] at h
  obtain ⟨ht, hc⟩ := List.append_inj (List.append_cancel_left h) rfl
  exact ⟨List.singleton_inj.1 ht, hc⟩

end SignetApp.Nearby
