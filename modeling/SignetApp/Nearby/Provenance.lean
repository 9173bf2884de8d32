import SignetApp.Concurrency.Reach
import SignetApp.Nearby.Link

/-!
# Phones, links and the carrier between them

Any number of phones run any number of links. What is on the air belongs to an attacker: any frame
may reach any link at any time, and what a link sends may reach none. The attacker is bounded by
`Unforged` alone: a MAC or a sealed frame that a link accepts under a key of two phones' sessions
was made by a link of one of them.
-/

namespace SignetApp.Nearby

open Js NearbyLink

/-- A link, whose it is, and what has passed over it. -/
structure Endpoint (ι : Type) where
  owner : ι
  link : NearbyLink
  /-- The plaintext frames `wire` and `ack` took. -/
  sent : List Bytes
  /-- What they put on the wire for them. -/
  wired : List Bytes
  /-- The receipts made. -/
  acked : List (JsString × Bool)
  /-- The events, offers and receipts `receive` yielded. -/
  yielded : List NearbyStep

/-- One use of the AEAD by a sender. -/
structure Seal where
  key : Bytes
  nonce : Bytes
  aad : Bytes
  body : Bytes
  sealed : Bytes

structure World (ι : Type) where
  links : List (Endpoint ι)
  /-- The MACs links have sent, each a key and a message. -/
  macs : List (Bytes × Bytes)
  /-- The frames links have sealed. -/
  seals : List Seal

/-- No link yet. -/
def World.initial (ι : Type) : World ι := ⟨[], [], []⟩

inductive Action (ι : Type) where
  | start (owner : ι) (role : NearbyRole) (nonce : Nonce) (expected : Option JsString)
      (profile : NearbyProfile)
  | expect (i : ℕ) (session : JsString)
  | deliver (i : ℕ) (frame : Bytes)
  | wire (i : ℕ) (frame : Bytes)
  | ack (i : ℕ) (id : JsString) (stored : Bool)
  | close (i : ℕ)

/-- What `receive` hands on: events, offers and receipts. -/
def NearbyStep.isYield : NearbyStep → Bool
  | .event _ | .offer _ _ | .ack _ _ => true
  | _ => false

section
variable [LinkCrypto]

/-- The MAC in the frame `receive` answers with. -/
def authMacsOf (l l' : NearbyLink) : List (Bytes × Bytes) :=
  match l.state, l'.state, l'.peerNonce with
  | .hello, .auth key, some n => [(key, authMessage l'.role (l'.nonces n).1 (l'.nonces n).2)]
  | _, _, _ => []

/-- The MAC in a receipt. -/
def ackMacsOf (l : NearbyLink) (id : JsString) (stored : Bool) : List (Bytes × Bytes) :=
  match l.state, l.peerNonce with
  | .trusted key _, some n =>
    [(key, ackMessage l.role (l.nonces n).1 (l.nonces n).2 (hexToBytes id) stored)]
  | _, _ => []

/-- What `wire` seals. -/
def sealsOf (l : NearbyLink) (frame : Bytes) : List Seal :=
  match l.state, frame with
  | .trusted _ (some keys), type :: body =>
    let counter := counterBytes l.sendCounter
    [⟨keys.sendKey, sealNonce counter, sealAad type counter, body,
      LinkCrypto.encrypt keys.sendKey (sealNonce counter) (sealAad type counter) body⟩]
  | _, _ => []

/-- The plaintext of the receipt a trusted link makes. -/
def ackPlain (l : NearbyLink) (id : JsString) (stored : Bool) : Bytes :=
  match l.state, l.peerNonce with
  | .trusted key _, some n => l.ackFrame key n (hexToBytes id) stored
  | _, _ => []

variable {ι : Type}

/-- One link hears a frame. -/
def Endpoint.deliver [Numerals] (e : Endpoint ι) (frame : Bytes) : Endpoint ι :=
  { e with
    link := (e.link.receive frame).1
    yielded := e.yielded ++ (e.link.receive frame).2.filter (·.isYield) }

/-- A frame was put on the wire. -/
def Endpoint.send (e : Endpoint ι) (frame out : Bytes) (l : NearbyLink) : Endpoint ι :=
  { e with link := l, sent := e.sent ++ [frame], wired := e.wired ++ [out] }

/-- One step of the whole. An action on a link that is not there, or that raises, changes nothing. -/
def World.step [Numerals] (phones : ι → Session) (w : World ι) : Action ι → World ι
  | .start owner role nonce expected profile =>
    match NearbyLink.create role nonce (phones owner) expected profile with
    | none => w
    | some l => { w with links := w.links ++ [⟨owner, l, [], [], [], []⟩] }
  | .expect i session =>
    match w.links[i]? with
    | none => w
    | some e => { w with links := w.links.set i { e with link := (e.link.expect session).1 } }
  | .deliver i frame =>
    match w.links[i]? with
    | none => w
    | some e =>
      { w with
        links := w.links.set i (e.deliver frame)
        macs := w.macs ++ authMacsOf e.link (e.deliver frame).link }
  | .wire i frame =>
    match w.links[i]? with
    | none => w
    | some e =>
      match e.link.wire frame with
      | none => w
      | some (out, l) =>
        { w with
          links := w.links.set i (e.send frame out l)
          seals := w.seals ++ sealsOf e.link frame }
  | .ack i id stored =>
    match w.links[i]? with
    | none => w
    | some e =>
      match e.link.ack id stored with
      | none => w
      | some (out, l) =>
        { links := w.links.set i
            { e.send (ackPlain e.link id stored) out l with acked := e.acked ++ [(id, stored)] }
          macs := w.macs ++ ackMacsOf e.link id stored
          seals := w.seals ++ sealsOf e.link (ackPlain e.link id stored) }
  | .close i =>
    match w.links[i]? with
    | none => w
    | some e => { w with links := w.links.set i { e with link := e.link.drop } }

/-- The session is one of the phones'. -/
def IsPhone (phones : ι → Session) (s : Option JsString) : Prop :=
  ∃ q, s = some (phones q).publicKey.val

/-- What the ideal primitives let an attacker bring to a link whose peer is one of the phones. -/
structure Unforged [Numerals] (w : World ι) (l : NearbyLink) (frame : Bytes) : Prop where
  /-- A MAC verifies only if a link sent it. -/
  auth : ∀ {key n}, l.state = .auth key → l.peerNonce = some n →
    frame.tail = authMac key l.role.other (l.nonces n).1 (l.nonces n).2 →
    (key, authMessage l.role.other (l.nonces n).1 (l.nonces n).2) ∈ w.macs
  ack : ∀ {key frames n plain l' id stored mac}, l.state = .trusted key frames →
    l.peerNonce = some n → l.plainOf frames frame = some (plain, l') →
    readAck plain = some (id, stored, mac) →
    mac = ackMac key l.role.other (l.nonces n).1 (l.nonces n).2 id stored →
    (key, ackMessage l.role.other (l.nonces n).1 (l.nonces n).2 id stored) ∈ w.macs
  /-- A sealed frame opens only if a link sealed it. -/
  opened : ∀ {key keys type sealed body}, l.state = .trusted key (some keys) →
    frame = type :: counterBytes l.recvCounter ++ sealed →
    LinkCrypto.decrypt keys.recvKey (sealNonce (counterBytes l.recvCounter))
      (sealAad type (counterBytes l.recvCounter)) sealed = some body →
    ⟨keys.recvKey, sealNonce (counterBytes l.recvCounter),
      sealAad type (counterBytes l.recvCounter), body, sealed⟩ ∈ w.seals

omit [LinkCrypto] in
/-- Every link draws a nonce no other link has drawn. -/
def FreshNonce (w : World ι) : Action ι → Prop
  | .start _ _ nonce _ _ => ∀ e ∈ w.links, e.link.ownNonce ≠ nonce
  | _ => True

/-! ## What a step does -/

/-- What an action does to the link it is on, and the MACs and seals it makes. -/
inductive Moved [Numerals] (i : ℕ) (e : Endpoint ι) :
    Action ι → Endpoint ι → List (Bytes × Bytes) → List Seal → Prop where
  | heard (frame : Bytes) :
      Moved i e (.deliver i frame) (e.deliver frame) (authMacsOf e.link (e.deliver frame).link) []
  | wired {frame out : Bytes} {l : NearbyLink} (h : e.link.wire frame = some (out, l)) :
      Moved i e (.wire i frame) (e.send frame out l) [] (sealsOf e.link frame)
  | acked {id : JsString} {stored : Bool} {out : Bytes} {l : NearbyLink}
      (h : e.link.ack id stored = some (out, l)) :
      Moved i e (.ack i id stored)
        { e.send (ackPlain e.link id stored) out l with acked := e.acked ++ [(id, stored)] }
        (ackMacsOf e.link id stored) (sealsOf e.link (ackPlain e.link id stored))
  | expected (session : JsString) :
      Moved i e (.expect i session) { e with link := (e.link.expect session).1 } [] []
  | closed : Moved i e (.close i) { e with link := e.link.drop } [] []

/-- Everything a step can do. -/
inductive Stepped [Numerals] (phones : ι → Session) (w : World ι) : Action ι → World ι → Prop where
  | same (a : Action ι) : Stepped phones w a w
  | started {owner : ι} {role : NearbyRole} {nonce : Nonce} {expected : Option JsString}
      {profile : NearbyProfile} {l : NearbyLink}
      (h : NearbyLink.create role nonce (phones owner) expected profile = some l) :
      Stepped phones w (.start owner role nonce expected profile)
        { w with links := w.links ++ [⟨owner, l, [], [], [], []⟩] }
  | moved {i : ℕ} {a : Action ι} {e e' : Endpoint ι} {macs : List (Bytes × Bytes)}
      {seals : List Seal} (he : w.links[i]? = some e) (h : Moved i e a e' macs seals) :
      Stepped phones w a ⟨w.links.set i e', w.macs ++ macs, w.seals ++ seals⟩

variable {a : Action ι} {w : World ι} {phones : ι → Session}

theorem stepped_eq [Numerals] {u v : World ι}
    (h : Stepped phones w a u) (huv : u = v) : Stepped phones w a v := huv ▸ h

theorem stepped [Numerals] (phones : ι → Session) (w : World ι) (a : Action ι) :
    Stepped phones w a (w.step phones a) := by
  cases a with
  | start owner role nonce expected profile =>
    rw [World.step]
    split
    · exact .same _
    · next l h => exact .started h
  | expect i session =>
    rw [World.step]
    split
    · exact .same _
    · next e he => exact stepped_eq (.moved he (.expected session)) (by simp)
  | deliver i frame =>
    rw [World.step]
    split
    · exact .same _
    · next e he => exact stepped_eq (.moved he (.heard frame)) (by simp)
  | wire i frame =>
    rw [World.step]
    split
    · exact .same _
    · next e he =>
      split
      · exact .same _
      · next out l h => exact stepped_eq (.moved he (.wired h)) (by simp)
  | ack i id stored =>
    rw [World.step]
    split
    · exact .same _
    · next e he =>
      split
      · exact .same _
      · next out l h => exact .moved he (.acked h)
  | close i =>
    rw [World.step]
    split
    · exact .same _
    · next e he => exact stepped_eq (.moved he .closed) (by simp)

/-! ## What a link keeps -/

/-- How a link may change: what it has done stays done. -/
structure Grows (e e' : Endpoint ι) : Prop where
  owner : e'.owner = e.owner
  same : SameLink e.link e'.link
  peer : e.link.state ≠ .hello → e'.link.peerNonce = e.link.peerNonce
    ∧ e'.link.peerSession = e.link.peerSession ∧ e'.link.state ≠ .hello
  sent : e.sent <+: e'.sent
  wired : e.wired <+: e'.wired
  acked : e.acked <+: e'.acked
  yielded : e.yielded <+: e'.yielded
  dropped : e.link.state = .dropped →
    e'.link.state = .dropped ∧ e'.sent = e.sent ∧ e'.yielded = e.yielded

omit [LinkCrypto] in
theorem Grows.refl (e : Endpoint ι) : Grows e e where
  owner := rfl
  same := .refl _
  peer h := ⟨rfl, rfl, h⟩
  sent := List.prefix_refl _
  wired := List.prefix_refl _
  acked := List.prefix_refl _
  yielded := List.prefix_refl _
  dropped h := ⟨h, rfl, rfl⟩

omit [LinkCrypto] in

variable {l : NearbyLink}

omit [LinkCrypto] in
theorem Grows.of_link (e : Endpoint ι) (hsame : SameLink e.link l)
    (hnonce : l.peerNonce = e.link.peerNonce) (hsession : l.peerSession = e.link.peerSession)
    (hstate : l.state = e.link.state ∨ l.state = .dropped) : Grows e { e with link := l } where
  owner := rfl
  same := hsame
  peer hs := ⟨hnonce, hsession, by
    rcases hstate with h | h
    · exact fun hl => hs (h.symm.trans hl)
    · exact fun hl => NearbyPhase.noConfusion (h.symm.trans hl)⟩
  sent := List.prefix_refl _
  wired := List.prefix_refl _
  acked := List.prefix_refl _
  yielded := List.prefix_refl _
  dropped hd := ⟨hstate.elim (·.trans hd) id, rfl, rfl⟩

omit [LinkCrypto] in
theorem expect_cases (l : NearbyLink) (s : JsString) :
    SameLink l (l.expect s).1 ∧ (l.expect s).1.peerNonce = l.peerNonce
      ∧ (l.expect s).1.peerSession = l.peerSession
      ∧ (l.expect s).1.sendCounter = l.sendCounter ∧ (l.expect s).1.recvCounter = l.recvCounter
      ∧ ((l.expect s).1.state = l.state ∨ (l.expect s).1.state = .dropped) := by
  rw [expect]
  dsimp only
  split
  · exact ⟨⟨rfl, rfl, rfl, rfl⟩, rfl, rfl, rfl, rfl, .inr rfl⟩
  · exact ⟨⟨rfl, rfl, rfl, rfl⟩, rfl, rfl, rfl, rfl, .inl rfl⟩

variable {out : Bytes}

theorem wire_keeps {l' : NearbyLink} {frame : Bytes} (h : l.wire frame = some (out, l')) :
    SameLink l l' ∧ l'.peerNonce = l.peerNonce ∧ l'.peerSession = l.peerSession
      ∧ l'.state = l.state ∧ l.state ≠ .hello ∧ l.state ≠ .dropped := by
  obtain ⟨key, frames, type, body, hstate, -, hcase⟩ := wire_eq h
  have hne : l.state ≠ .hello ∧ l.state ≠ .dropped := by
    rw [hstate]
    exact ⟨NearbyPhase.noConfusion, NearbyPhase.noConfusion⟩
  rcases hcase with ⟨-, -, rfl⟩ | ⟨keys, -, -, -, -, rfl⟩
  · exact ⟨.refl _, rfl, rfl, rfl, hne⟩
  · exact ⟨⟨rfl, rfl, rfl, rfl⟩, rfl, rfl, rfl, hne⟩

theorem ack_sends {l' : NearbyLink} {id : JsString} {stored : Bool}
    (h : l.ack id stored = some (out, l')) :
    l.wire (ackPlain l id stored) = some (out, l') ∧ isHexOf 64 id = true
      ∧ ∃ key frames n, l.state = .trusted key frames ∧ l.peerNonce = some n
        ∧ ackMacsOf l id stored
          = [(key, ackMessage l.role (l.nonces n).1 (l.nonces n).2 (hexToBytes id) stored)] := by
  obtain ⟨key, frames, n, hstate, hnonce, hid, hwire⟩ := ack_eq h
  have hplain : ackPlain l id stored = l.ackFrame key n (hexToBytes id) stored := by
    rw [ackPlain, hstate, hnonce]
  have hmacs : ackMacsOf l id stored
      = [(key, ackMessage l.role (l.nonces n).1 (l.nonces n).2 (hexToBytes id) stored)] := by
    rw [ackMacsOf, hstate, hnonce]
  exact ⟨hplain ▸ hwire, hid, key, frames, n, hstate, hnonce, hmacs⟩

theorem Grows.send (e : Endpoint ι) {frame : Bytes}
    (h : e.link.wire frame = some (out, l)) : Grows e (e.send frame out l) := by
  obtain ⟨hsame, hn, hs, hstate, hhello, hdropped⟩ := wire_keeps h
  exact ⟨rfl, hsame, fun _ => ⟨hn, hs, by rw [Endpoint.send, hstate]; exact hhello⟩,
    List.prefix_append _ _, List.prefix_append _ _, List.prefix_refl _, List.prefix_refl _,
    fun hd => absurd hd hdropped⟩

theorem Grows.deliver [Numerals] (e : Endpoint ι) (frame : Bytes) : Grows e (e.deliver frame) := by
  have hsteps := received e.link frame
  have hy : e.yielded <+: (e.deliver frame).yielded := List.prefix_append _ _
  have key : ∀ {l steps}, Received e.link frame l steps → SameLink e.link l
      ∧ (e.link.state ≠ .hello → l.peerNonce = e.link.peerNonce
        ∧ l.peerSession = e.link.peerSession ∧ l.state ≠ .hello)
      ∧ (e.link.state = .dropped → l.state = .dropped ∧ steps.filter (·.isYield) = []) := by
    intro l steps h
    cases h with
    | ignored h => exact ⟨.refl _, fun _ => ⟨rfl, rfl, by rw [h]; exact NearbyPhase.noConfusion⟩,
        fun hd => ⟨hd, rfl⟩⟩
    | refused hsame hdropped hcounter hpeer =>
      exact ⟨hsame, fun hs => ⟨(hpeer hs).1, (hpeer hs).2,
        by rw [hdropped]; exact NearbyPhase.noConfusion⟩, fun _ => ⟨hdropped, rfl⟩⟩
    | greeted hstate =>
      exact ⟨⟨rfl, rfl, rfl, rfl⟩, fun hs => absurd hstate hs,
        fun hd => NearbyPhase.noConfusion (hd.symm.trans hstate)⟩
    | authenticated hstate =>
      exact ⟨⟨rfl, rfl, rfl, rfl⟩, fun _ => ⟨rfl, rfl, NearbyPhase.noConfusion⟩,
        fun hd => NearbyPhase.noConfusion (hd.symm.trans hstate)⟩
    | read hstate hnonce hplain hread =>
      obtain ⟨hsame, hs, hn, hp, -⟩ := plainOf_eq hplain
      exact ⟨hsame, fun hne => ⟨hn, hp, fun hl => hne (hs.symm.trans hl)⟩,
        fun hd => NearbyPhase.noConfusion (hd.symm.trans hstate)⟩
  obtain ⟨hsame, hpeer, hdropped⟩ := key hsteps
  refine ⟨rfl, hsame, hpeer, List.prefix_refl _, List.prefix_refl _, List.prefix_refl _, hy, ?_⟩
  intro hd
  obtain ⟨hd', hnone⟩ := hdropped hd
  exact ⟨hd', rfl, by rw [Endpoint.deliver, hnone, List.append_nil]⟩

variable {e : Endpoint ι} {i : ℕ}

theorem Moved.grows [Numerals] {e' : Endpoint ι}
    {macs : List (Bytes × Bytes)} {seals : List Seal} (h : Moved i e a e' macs seals) :
    Grows e e' := by
  cases h with
  | heard frame => exact .deliver e frame
  | wired h => exact .send e h
  | acked h =>
    have hsend := Grows.send e (ack_sends h).1
    exact ⟨rfl, hsend.same, hsend.peer, hsend.sent, hsend.wired, List.prefix_append _ _,
      hsend.yielded, hsend.dropped⟩
  | expected s =>
    obtain ⟨hsame, hn, hs, -, -, hstate⟩ := expect_cases e.link s
    exact .of_link e hsame hn hs hstate
  | closed => exact .of_link e ⟨rfl, rfl, rfl, rfl⟩ rfl rfl (.inr rfl)

variable {w' : World ι}

theorem Stepped.grows [Numerals] (h : Stepped phones w a w') (he : w.links[i]? = some e) :
    ∃ e', w'.links[i]? = some e' ∧ Grows e e' := by
  cases h with
  | same => exact ⟨e, he, .refl e⟩
  | started h =>
    refine ⟨e, ?_, .refl e⟩
    rw [List.getElem?_append_left (List.getElem?_eq_some_iff.1 he).1]
    exact he
  | @moved j _ e₀ e₁ _ _ he₀ h =>
    by_cases hij : j = i
    · subst hij
      obtain rfl : e₀ = e := Option.some.inj (he₀.symm.trans he)
      exact ⟨e₁, List.getElem?_set_self (List.getElem?_eq_some_iff.1 he).1, h.grows⟩
    · exact ⟨e, by rw [List.getElem?_set_ne hij]; exact he, .refl e⟩

theorem Stepped.grows_mem [Numerals] (h : Stepped phones w a w') (he : e ∈ w.links) :
    ∃ e' ∈ w'.links, Grows e e' := by
  obtain ⟨i, hi⟩ := List.mem_iff_getElem?.1 he
  obtain ⟨e', he', hgrows⟩ := h.grows hi
  exact ⟨e', List.mem_of_getElem? he', hgrows⟩

/-- A link of the new state is new, was there, or has moved. -/
theorem Stepped.origin [Numerals]
    (h : Stepped phones w a w') {e' : Endpoint ι} (he' : w'.links[i]? = some e') :
    w.links[i]? = some e'
      ∨ (∃ owner role nonce expected profile l,
        a = .start owner role nonce expected profile
          ∧ NearbyLink.create role nonce (phones owner) expected profile = some l
          ∧ i = w.links.length ∧ e' = ⟨owner, l, [], [], [], []⟩)
      ∨ ∃ e macs seals, w.links[i]? = some e ∧ Moved i e a e' macs seals := by
  cases h with
  | same => exact .inl he'
  | started h =>
    rcases lt_trichotomy i w.links.length with hi | hi | hi
    · rw [List.getElem?_append_left hi] at he'
      exact .inl he'
    · subst hi
      rw [List.getElem?_concat_length] at he'
      exact .inr (.inl ⟨_, _, _, _, _, _, rfl, h, rfl, (Option.some.inj he').symm⟩)
    · rw [List.getElem?_eq_none (by simp; omega)] at he'
      cases he'
  | @moved j _ e₀ e₁ _ _ he₀ h =>
    by_cases hij : j = i
    · subst hij
      rw [List.getElem?_set_self (List.getElem?_eq_some_iff.1 he₀).1] at he'
      obtain rfl := Option.some.inj he'
      exact .inr (.inr ⟨e₀, _, _, he₀, h⟩)
    · rw [List.getElem?_set_ne hij] at he'
      exact .inl he'

end

/-!
## Who made what

Every MAC and every sealed frame in the world was made by one of its links, which still shows it:
it holds the key's peer and nonces, the receipt or the frame it was made of.
-/

section
variable [LinkCrypto]

/-- The key and the peer nonce of a link that has heard its HELLO. -/
def NearbyLink.HasKey (l : NearbyLink) (key : Bytes) (n : Nonce) : Prop :=
  ∃ s, l.peerNonce = some n ∧ l.peerSession = some s ∧ s ≠ l.session.publicKey.val
    ∧ nearbyLinkKey l.session.secret s l.profile = some key

variable {ι : Type}

/-- What holds of a link and what it has sent. -/
structure Sound (phones : ι → Session) (e : Endpoint ι) : Prop where
  session : e.link.session = phones e.owner
  fresh : e.link.state = .hello → e.link.peerNonce = none
  auth : ∀ {key}, e.link.state = .auth key → ∃ n, e.link.HasKey key n
  trusted : ∀ {key frames}, e.link.state = .trusted key frames → ∃ n, e.link.HasKey key n
    ∧ frames = if e.link.seals then some (e.link.deriveFrameKeys key n) else none
  counted : e.link.seals = true → e.link.sendCounter = e.sent.length
  paired : e.wired.length = e.sent.length

variable {n : Nonce} {key : Bytes} {l l' : NearbyLink}

theorem NearbyLink.HasKey.congr (h : l.HasKey key n)
    (hsame : SameLink l l') (hnonce : l'.peerNonce = l.peerNonce)
    (hsession : l'.peerSession = l.peerSession) : l'.HasKey key n := by
  obtain ⟨s, hn, hs, hne, hkey⟩ := h
  exact ⟨s, hnonce.trans hn, hsession.trans hs, by rwa [hsame.session],
    by rwa [hsame.session, hsame.profile]⟩

variable {e : Endpoint ι} {phones : ι → Session}

theorem Sound.not_hello (h : Sound phones e) (hkey : e.link.HasKey key n) : e.link.state ≠ .hello := by
  intro hstate
  obtain ⟨s, hn, -⟩ := hkey
  rw [h.fresh hstate] at hn
  cases hn

theorem NearbyLink.HasKey.nonce_eq {n' : Nonce}
    (h : l.HasKey key n) (hnonce : l.peerNonce = some n') : n = n' := by
  obtain ⟨s, hn, -⟩ := h
  exact Option.some.inj (hn.symm.trans hnonce)

theorem Sound.auth_key (h : Sound phones e) (hstate : e.link.state = .auth key) (hnonce : e.link.peerNonce = some n) :
    e.link.HasKey key n := by
  obtain ⟨n', hkey⟩ := h.auth hstate
  obtain rfl := hkey.nonce_eq hnonce
  exact hkey

theorem Sound.trusted_key (h : Sound phones e) {frames : Option FrameKeys}
    (hstate : e.link.state = .trusted key frames) (hnonce : e.link.peerNonce = some n) :
    e.link.HasKey key n
      ∧ frames = if e.link.seals then some (e.link.deriveFrameKeys key n) else none := by
  obtain ⟨n', hkey, hframes⟩ := h.trusted hstate
  obtain rfl := hkey.nonce_eq hnonce
  exact ⟨hkey, hframes⟩

variable {e' : Endpoint ι}

theorem NearbyLink.HasKey.grows
    (h : e.link.HasKey key n) (hsound : Sound phones e) (hgrows : Grows e e') :
    e'.link.HasKey key n := by
  obtain ⟨hn, hs, -⟩ := hgrows.peer (hsound.not_hello h)
  exact h.congr hgrows.same hn hs

theorem frameKey_congr (h : SameLink l l') (key : Bytes) (n : Nonce)
    (r : NearbyRole) : l'.frameKey key n r = l.frameKey key n r := by
  rw [frameKey, frameKey, nonces_congr h]

theorem deriveFrameKeys_congr (h : SameLink l l') (key : Bytes) (n : Nonce) :
    l'.deriveFrameKeys key n = l.deriveFrameKeys key n := by
  rw [deriveFrameKeys, deriveFrameKeys, frameKey_congr h, frameKey_congr h, h.role]

omit [LinkCrypto] in
theorem seals_congr (h : SameLink l l') : l'.seals = l.seals := by
  rw [seals, seals, h.profile]

/-! ## Sound links stay sound -/

theorem Sound.of_link (h : Sound phones e) {y : List NearbyStep} (hsame : SameLink e.link l)
    (hcounter : l.sendCounter = e.link.sendCounter)
    (hstate : l.state = .dropped ∨ l.state = e.link.state ∧ l.peerNonce = e.link.peerNonce
      ∧ l.peerSession = e.link.peerSession) :
    Sound phones { e with link := l, yielded := y } where
  session := hsame.session.trans h.session
  fresh hl := by
    rcases hstate with hd | ⟨hs, hn, -⟩
    · exact NearbyPhase.noConfusion (hd.symm.trans hl)
    · exact hn.trans (h.fresh (hs.symm.trans hl))
  auth hl := by
    rcases hstate with hd | ⟨hs, hn, hp⟩
    · exact NearbyPhase.noConfusion (hd.symm.trans hl)
    · obtain ⟨n, hkey⟩ := h.auth (hs.symm.trans hl)
      exact ⟨n, hkey.congr hsame hn hp⟩
  trusted hl := by
    rcases hstate with hd | ⟨hs, hn, hp⟩
    · exact NearbyPhase.noConfusion (hd.symm.trans hl)
    · obtain ⟨n, hkey, hframes⟩ := h.trusted (hs.symm.trans hl)
      exact ⟨n, hkey.congr hsame hn hp,
        by rw [hframes, seals_congr hsame, deriveFrameKeys_congr hsame]⟩
  counted hs := hcounter.trans (h.counted ((seals_congr hsame).symm.trans hs))
  paired := h.paired

theorem Sound.deliver [Numerals] (h : Sound phones e)
    (frame : Bytes) : Sound phones (e.deliver frame) := by
  have key : ∀ {l steps} (ys : List NearbyStep), Received e.link frame l steps →
      Sound phones { e with link := l, yielded := ys } := by
    intro l steps ys hr
    cases hr with
    | ignored _ => exact h.of_link (.refl _) rfl (.inr ⟨rfl, rfl, rfl⟩)
    | refused hsame hdropped hcounter _ => exact h.of_link hsame hcounter (.inl hdropped)
    | @greeted n s key _ hown hkey =>
      refine ⟨h.session, fun hl => NearbyPhase.noConfusion hl, ?_, fun hl => NearbyPhase.noConfusion hl,
        h.counted, h.paired⟩
      intro key' hl
      obtain rfl : key = key' := NearbyPhase.auth.inj hl
      exact ⟨n, s, rfl, rfl, hown, hkey⟩
    | @authenticated key n hstate hnonce _ =>
      refine ⟨h.session, fun hl => NearbyPhase.noConfusion hl, fun hl => NearbyPhase.noConfusion hl, ?_,
        h.counted, h.paired⟩
      intro key' frames hl
      obtain ⟨rfl, hframes⟩ := NearbyPhase.trusted.inj hl
      exact ⟨n, h.auth_key hstate hnonce, hframes.symm⟩
    | read hstate _ hplain _ =>
      obtain ⟨hsame, hs, hn, hp, hcounter⟩ := plainOf_eq hplain
      exact h.of_link hsame hcounter (.inr ⟨hs, hn, hp⟩)
  exact key _ (received e.link frame)

variable {frame out : Bytes}

theorem Sound.send (h : Sound phones e) (hwire : e.link.wire frame = some (out, l)) :
    Sound phones (e.send frame out l) := by
  obtain ⟨hsame, hn, hp, hs, -, -⟩ := wire_keeps hwire
  have hl : Sound phones { e with link := { l with sendCounter := e.link.sendCounter } } :=
    h.of_link (y := e.yielded) ⟨hsame.role, hsame.ownNonce, hsame.session, hsame.profile⟩ rfl
      (.inr ⟨hs, hn, hp⟩)
  refine ⟨hl.session, hl.fresh, hl.auth, hl.trusted, ?_, ?_⟩
  · intro hseals
    obtain ⟨_, _, _, _, -, -, hcase⟩ := wire_eq hwire
    rcases hcase with ⟨hno, -, rfl⟩ | ⟨_, -, -, -, -, rfl⟩
    · exact absurd (hno.symm.trans hseals) Bool.false_ne_true
    · show e.link.sendCounter + 1 = (e.sent ++ [frame]).length
      rw [List.length_append, h.counted hseals, List.length_singleton]
  · show (e.wired ++ [out]).length = (e.sent ++ [frame]).length
    rw [List.length_append, List.length_append, h.paired, List.length_singleton,
      List.length_singleton]

variable {a : Action ι} {i : ℕ}

theorem Sound.moved [Numerals]
    {macs : List (Bytes × Bytes)} {seals : List Seal} (h : Sound phones e)
    (hm : Moved i e a e' macs seals) : Sound phones e' := by
  cases hm with
  | heard frame => exact h.deliver frame
  | wired hwire => exact h.send hwire
  | acked hack =>
    have hsend := h.send (ack_sends hack).1
    exact ⟨hsend.session, hsend.fresh, hsend.auth, hsend.trusted, hsend.counted, hsend.paired⟩
  | expected s =>
    obtain ⟨hsame, hn, hp, hcounter, -, hstate⟩ := expect_cases e.link s
    exact h.of_link hsame hcounter (hstate.symm.imp id fun hs => ⟨hs, hn, hp⟩)
  | closed => exact h.of_link ⟨rfl, rfl, rfl, rfl⟩ rfl (.inl rfl)

theorem Sound.start {owner : ι} {role : NearbyRole} {nonce : Nonce}
    {expected : Option JsString} {profile : NearbyProfile}
    (h : NearbyLink.create role nonce (phones owner) expected profile = some l) :
    Sound phones ⟨owner, l, [], [], [], []⟩ := by
  rw [create] at h
  split at h
  · cases h
  · obtain rfl := Option.some.inj h
    exact ⟨rfl, fun _ => rfl, fun hl => NearbyPhase.noConfusion hl,
      fun hl => NearbyPhase.noConfusion hl, fun _ => rfl, rfl⟩

/-! ## The MACs -/

/-- The link has sent this MAC: of its AUTH, or of a receipt it made. -/
def MadeMac (e : Endpoint ι) (m : Bytes × Bytes) : Prop :=
  ∃ n, e.link.HasKey m.1 n
    ∧ (m.2 = authMessage e.link.role (e.link.nonces n).1 (e.link.nonces n).2
      ∨ ∃ id stored, (id, stored) ∈ e.acked ∧ isHexOf 64 id = true
        ∧ m.2 = ackMessage e.link.role (e.link.nonces n).1 (e.link.nonces n).2 (hexToBytes id)
          stored)

variable {m : Bytes × Bytes}

theorem MadeMac.grows
    (h : MadeMac e m) (hsound : Sound phones e) (hgrows : Grows e e') : MadeMac e' m := by
  obtain ⟨n, hkey, hm⟩ := h
  refine ⟨n, hkey.grows hsound hgrows, ?_⟩
  rw [nonces_congr hgrows.same, hgrows.same.role]
  rcases hm with hm | ⟨id, stored, hmem, hid, hm⟩
  · exact .inl hm
  · exact .inr ⟨id, stored, hgrows.acked.subset hmem, hid, hm⟩

theorem madeMac_deliver [Numerals] (h : Sound phones e) (hm : m ∈ authMacsOf e.link (e.deliver frame).link) :
    MadeMac (e.deliver frame) m := by
  rw [authMacsOf] at hm
  split at hm
  · next key n _ hstate hnonce =>
    obtain rfl := List.mem_singleton.1 hm
    exact ⟨n, (h.deliver frame).auth_key hstate hnonce, .inl rfl⟩
  · cases hm

theorem madeMac_ack (h : Sound phones e) {id : JsString}
    {stored : Bool} (hack : e.link.ack id stored = some (out, l)) (hm : m ∈ ackMacsOf e.link id stored) (sent wired : List Bytes)
    (yielded : List NearbyStep) :
    MadeMac ⟨e.owner, l, sent, wired, e.acked ++ [(id, stored)], yielded⟩ m := by
  obtain ⟨hwire, hid, key, frames, n, hstate, hnonce, hmacs⟩ := ack_sends hack
  obtain ⟨hsame, hn, hp, -⟩ := wire_keeps hwire
  rw [hmacs] at hm
  obtain rfl := List.mem_singleton.1 hm
  obtain ⟨hkey, -⟩ := h.trusted_key hstate hnonce
  refine ⟨n, hkey.congr hsame hn hp, .inr ⟨id, stored, List.mem_append_right _ (by simp), hid, ?_⟩⟩
  rw [nonces_congr hsame, hsame.role]

/-! ## The sealed frames -/

/-- The link has sealed this: the frame it took and the one it put on the wire are its own. -/
def MadeSeal (e : Endpoint ι) (s : Seal) : Prop :=
  ∃ key n c type, e.link.HasKey key n ∧ s.key = e.link.frameKey key n e.link.role
    ∧ c < nearbyMaxSealedFrames ∧ s.nonce = sealNonce (counterBytes c)
    ∧ s.aad = sealAad type (counterBytes c) ∧ e.sent[c]? = some (type :: s.body)
    ∧ e.wired[c]? = some (type :: counterBytes c ++ s.sealed)

omit [LinkCrypto] in
theorem getElem?_of_prefix {α : Type} {xs ys : List α} (h : xs <+: ys) {x : α}
    (hx : xs[i]? = some x) : ys[i]? = some x := by
  obtain ⟨zs, rfl⟩ := h
  rw [List.getElem?_append_left (List.getElem?_eq_some_iff.1 hx).1]
  exact hx

theorem MadeSeal.grows {s : Seal} (h : MadeSeal e s)
    (hsound : Sound phones e) (hgrows : Grows e e') : MadeSeal e' s := by
  obtain ⟨key, n, c, type, hkey, hs, hc, hnonce, haad, hsent, hwired⟩ := h
  refine ⟨key, n, c, type, hkey.grows hsound hgrows, ?_, hc, hnonce, haad,
    getElem?_of_prefix hgrows.sent hsent, getElem?_of_prefix hgrows.wired hwired⟩
  rw [frameKey_congr hgrows.same, hgrows.same.role, hs]

theorem madeSeal_send (h : Sound phones e) (hwire : e.link.wire frame = some (out, l)) {s : Seal}
    (hs : s ∈ sealsOf e.link frame) : MadeSeal (e.send frame out l) s := by
  obtain ⟨hsame, hn, hp, -, -, -⟩ := wire_keeps hwire
  obtain ⟨key, frames, type, body, hstate, rfl, hcase⟩ := wire_eq hwire
  obtain ⟨n, hkey, hframes⟩ := h.trusted hstate
  rcases hcase with ⟨hno, -, -⟩ | ⟨keys, hseals, hkeys, hc, rfl, -⟩
  · rw [hno, if_neg Bool.false_ne_true] at hframes
    simp only [sealsOf, hstate, hframes] at hs
    cases hs
  · rw [hseals, if_pos rfl] at hframes
    obtain rfl : keys = e.link.deriveFrameKeys key n := Option.some.inj (hkeys.symm.trans hframes)
    simp only [sealsOf, hstate, hkeys] at hs
    obtain rfl := List.mem_singleton.1 hs
    have hlen : e.link.sendCounter = e.sent.length := h.counted hseals
    refine ⟨key, n, e.link.sendCounter, type, hkey.congr hsame hn hp, ?_, hc, rfl, rfl, ?_, ?_⟩
    · show _ = l.frameKey key n l.role
      rw [frameKey_congr hsame, hsame.role]
      rfl
    · show (e.sent ++ [_])[e.link.sendCounter]? = _
      rw [hlen, List.getElem?_concat_length]
    · show (e.wired ++ [_])[e.link.sendCounter]? = _
      rw [hlen, ← h.paired, List.getElem?_concat_length, sealFrame]

/-! ## The world -/

/-- What holds of every world. -/
structure Invariant (phones : ι → Session) (w : World ι) : Prop where
  sound : ∀ e ∈ w.links, Sound phones e
  macs : ∀ m ∈ w.macs, ∃ e ∈ w.links, MadeMac e m
  seals : ∀ s ∈ w.seals, ∃ e ∈ w.links, MadeSeal e s

theorem Invariant.initial (phones : ι → Session) : Invariant phones (.initial ι) :=
  ⟨fun _ h => (List.not_mem_nil h).elim, fun _ h => (List.not_mem_nil h).elim,
    fun _ h => (List.not_mem_nil h).elim⟩

theorem Moved.made [Numerals]
    {macs : List (Bytes × Bytes)} {seals : List Seal} (hm : Moved i e a e' macs seals)
    (h : Sound phones e) : (∀ m ∈ macs, MadeMac e' m) ∧ ∀ s ∈ seals, MadeSeal e' s := by
  have hnone : ∀ {α : Type} {p : α → Prop}, ∀ x ∈ ([] : List α), p x :=
    fun _ hx => (List.not_mem_nil hx).elim
  cases hm with
  | heard frame => exact ⟨fun m hm => madeMac_deliver h hm, hnone⟩
  | wired hwire => exact ⟨hnone, fun s hs => madeSeal_send h hwire hs⟩
  | acked hack => exact ⟨fun m hm => madeMac_ack h hack hm _ _ _,
      fun s hs => madeSeal_send h (ack_sends hack).1 hs⟩
  | expected s => exact ⟨hnone, hnone⟩
  | closed => exact ⟨hnone, hnone⟩

theorem Invariant.step [Numerals] {w w' : World ι}
    (h : Invariant phones w) (hstep : Stepped phones w a w') : Invariant phones w' := by
  have hold : ∀ {p : Endpoint ι → Prop}, (∀ {e e'}, p e → Sound phones e → Grows e e' → p e') →
      (∃ e ∈ w.links, p e) → ∃ e ∈ w'.links, p e := by
    rintro p hp ⟨e, he, hpe⟩
    obtain ⟨e', he', hgrows⟩ := hstep.grows_mem he
    exact ⟨e', he', hp hpe (h.sound e he) hgrows⟩
  refine ⟨?_, ?_, ?_⟩
  · intro e' he'
    obtain ⟨i, hi⟩ := List.mem_iff_getElem?.1 he'
    obtain hi | ⟨_, _, _, _, _, _, -, hl, -, rfl⟩ | ⟨e, _, _, hi, hm⟩ := hstep.origin hi
    · exact h.sound e' (List.mem_of_getElem? hi)
    · exact .start hl
    · exact (h.sound e (List.mem_of_getElem? hi)).moved hm
  · intro m hmem
    have holdmac := fun hm => hold (fun hp hs hg => hp.grows hs hg) (h.macs m hm)
    cases hstep with
    | same => exact holdmac hmem
    | started hl => exact holdmac hmem
    | moved he hm =>
      rcases List.mem_append.1 hmem with hmem | hmem
      · exact holdmac hmem
      · exact ⟨_, List.mem_set (List.getElem?_eq_some_iff.1 he).1 _,
          (hm.made (h.sound _ (List.mem_of_getElem? he))).1 m hmem⟩
  · intro s hmem
    have holdseal := fun hs => hold (fun hp hs hg => hp.grows hs hg) (h.seals s hs)
    cases hstep with
    | same => exact holdseal hmem
    | started hl => exact holdseal hmem
    | moved he hm =>
      rcases List.mem_append.1 hmem with hmem | hmem
      · exact holdseal hmem
      · exact ⟨_, List.mem_set (List.getElem?_eq_some_iff.1 he).1 _,
          (hm.made (h.sound _ (List.mem_of_getElem? he))).2 s hmem⟩

end

end SignetApp.Nearby
