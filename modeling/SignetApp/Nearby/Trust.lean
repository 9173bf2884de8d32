import SignetApp.Nearby.Provenance
import SignetApp.Sync.Wire

/-!
# Whom a trusted link is with

A link that two phones' sessions key is trusted once the other end has proved that it holds the
session. The MAC that proves it binds the two roles, the two nonces and the profile, and the key
binds the two sessions; but the key is the same at both ends, so the end that proves it may be the
phone itself, on another of its links. A frame carried between two links of one phone therefore
makes it trust itself, as `trusts_itself` shows. Where no such frame is carried, a trusted link has
its mirror image at the phone whose session it names.
-/

namespace SignetApp.Nearby

open Js NearbyLink

section
variable [LinkCrypto] {ι : Type}

/-- Phones have sessions of their own, and a link key is of two sessions and one profile. -/
structure DistinctKeys (phones : ι → Session) : Prop where
  publicKey : ∀ {p q}, (phones p).publicKey = (phones q).publicKey → p = q
  linkKey : ∀ {p p' s s' π π' key}, nearbyLinkKey (phones p).secret s π = some key →
    nearbyLinkKey (phones p').secret s' π' = some key →
    π = π' ∧ (p = p' ∧ s = s'
      ∨ s = (phones p').publicKey.val ∧ s' = (phones p).publicKey.val)

omit [LinkCrypto] in
/-- One link is the other end of another: the opposite role, the same profile, the other phone's
session and the same two nonces. -/
structure Mirrors (phones : ι → Session) (e e' : Endpoint ι) : Prop where
  role : e'.link.role = e.link.role.other
  profile : e'.link.profile = e.link.profile
  peerSession : e'.link.peerSession = some (phones e.owner).publicKey.val
  ownNonce : e.link.peerNonce = some e'.link.ownNonce
  peerNonce : e'.link.peerNonce = some e.link.ownNonce

/-- Every trusted link with a phone's session is with that phone, which is another. -/
def TrustedWithHolder (phones : ι → Session) (w : World ι) : Prop :=
  ∀ e ∈ w.links, e.link.trusted = true → ∀ q,
    e.link.peerSession = some (phones q).publicKey.val →
    q ≠ e.owner ∧ ∃ e' ∈ w.links, e'.owner = q ∧ Mirrors phones e e'

/-- The ideal primitives: what is delivered to a link with a phone's session is not forged. -/
def Ideal [Numerals] (phones : ι → Session) (w : World ι) : Action ι → Prop
  | .deliver i frame => ∀ e, w.links[i]? = some e → IsPhone phones e.link.peerSession →
    Unforged w e.link frame
  | _ => True

/-- The frame is the AUTH the link waits for, and its own phone has a link in the opposite role
with the same profile, the same session and the same two nonces. -/
def Reflected (w : World ι) (e : Endpoint ι) (frame : Bytes) : Prop :=
  (∃ key n, e.link.state = .auth key ∧ e.link.peerNonce = some n
    ∧ frame = authType :: authMac key e.link.role.other (e.link.nonces n).1 (e.link.nonces n).2)
  ∧ ∃ e' ∈ w.links, e'.owner = e.owner ∧ e'.link.role = e.link.role.other
    ∧ e'.link.profile = e.link.profile ∧ e'.link.peerSession = e.link.peerSession
    ∧ e.link.peerNonce = some e'.link.ownNonce ∧ e'.link.peerNonce = some e.link.ownNonce

/-- No phone's AUTH is carried back to it over another of its links. -/
def Unreflected (w : World ι) : Action ι → Prop
  | .deliver i frame => ∀ e, w.links[i]? = some e → ¬ Reflected w e frame
  | _ => True

/-! ## The mirror image -/

variable {n : Nonce} {l : NearbyLink}

omit [LinkCrypto] in
theorem nonces_mirror {l' : NearbyLink} {n' : Nonce} (hrole : l'.role = l.role.other)
    (h : l'.nonces n' = l.nonces n) : n' = l.ownNonce ∧ n = l'.ownNonce := by
  simp only [nonces, hrole] at h
  cases hr : l.role <;> simp only [hr, NearbyRole.other] at h <;> obtain ⟨h₁, h₂⟩ := Prod.mk.inj h
  · exact ⟨h₁, h₂.symm⟩
  · exact ⟨h₂, h₁.symm⟩

variable {e : Endpoint ι} {phones : ι → Session}

theorem Mirrors.grows {e' f f' : Endpoint ι} (h : Mirrors phones e e')
    (hsound' : Sound phones e') (hf : Grows e f) (hf' : Grows e' f')
    (hnonce : f.link.peerNonce = e.link.peerNonce) : Mirrors phones f f' := by
  have hne : e'.link.state ≠ .hello := by
    intro hstate
    cases (hsound'.fresh hstate).symm.trans h.peerNonce
  obtain ⟨hn', hs', -⟩ := hf'.peer hne
  refine ⟨?_, ?_, ?_, ?_, ?_⟩
  · rw [hf'.same.role, hf.same.role, h.role]
  · rw [hf'.same.profile, hf.same.profile, h.profile]
  · rw [hs', hf.owner, h.peerSession]
  · rw [hnonce, hf'.same.ownNonce, h.ownNonce]
  · rw [hn', hf.same.ownNonce, h.peerNonce]

variable {key : Bytes} {w : World ι}

/-- Who sent the MAC that a link accepts: its mirror image, or a link of its own phone. -/
theorem mirror_of_mac (hkeys : DistinctKeys phones) (hinv : Invariant phones w) (he : e ∈ w.links)
    (hkey : e.link.HasKey key n) {q : ι} (hq : e.link.peerSession = some (phones q).publicKey.val)
    (hmac : (key, authMessage e.link.role.other (e.link.nonces n).1 (e.link.nonces n).2) ∈ w.macs) :
    ∃ e' ∈ w.links, e'.link.role = e.link.role.other ∧ e'.link.profile = e.link.profile
      ∧ e.link.peerNonce = some e'.link.ownNonce ∧ e'.link.peerNonce = some e.link.ownNonce
      ∧ (e'.owner = e.owner ∧ e'.link.peerSession = e.link.peerSession
        ∨ e'.owner = q ∧ e'.link.peerSession = some (phones e.owner).publicKey.val) := by
  obtain ⟨e', he', n', hkey', hmade⟩ := hinv.macs _ hmac
  have hmessage : authMessage e.link.role.other (e.link.nonces n).1 (e.link.nonces n).2
      = authMessage e'.link.role (e'.link.nonces n').1 (e'.link.nonces n').2 := by
    rcases hmade with h | ⟨id, stored, -, -, h⟩
    · exact h
    · exact absurd h authMessage_ne_ackMessage
  obtain ⟨hrole, ha, hc⟩ := authMessage_inj hmessage
  obtain ⟨s, hn, hs, -, hlink⟩ := hkey
  obtain ⟨s', hn', hs', -, hlink'⟩ := hkey'
  obtain ⟨rfl, rfl⟩ := nonces_mirror hrole.symm (Prod.ext ha hc).symm
  rw [(hinv.sound e he).session] at hlink
  rw [(hinv.sound e' he').session] at hlink'
  obtain ⟨hprofile, howner⟩ := hkeys.linkKey hlink hlink'
  refine ⟨e', he', hrole.symm, hprofile.symm, hn, hn', ?_⟩
  rcases howner with ⟨ho, hss⟩ | ⟨hss, hss'⟩
  · exact .inl ⟨ho.symm, by rw [hs', hs, hss]⟩
  · rw [hs, hss] at hq
    exact .inr ⟨hkeys.publicKey (Subtype.ext (Option.some.inj hq)), by rw [hs', hss']⟩

/-! ## Runs -/

/-- A link that is trusted now was trusted, or has just heard the AUTH it waited for. -/
theorem Moved.trusted [Numerals] {i : ℕ} {a : Action ι} {e' : Endpoint ι}
    {macs : List (Bytes × Bytes)} {seals : List Seal} (h : Moved i e a e' macs seals)
    (ht : e'.link.trusted = true) : e.link.trusted = true
      ∨ ∃ frame key n, a = .deliver i frame ∧ e.link.state = .auth key
        ∧ e.link.peerNonce = some n ∧ frame = authType
          :: authMac key e.link.role.other (e.link.nonces n).1 (e.link.nonces n).2 := by
  have hstate : ∀ {l : NearbyLink}, l.state = e.link.state → l.trusted = true →
      e.link.trusted = true := fun hs hl => by rwa [NearbyLink.trusted, hs] at hl
  have hdropped : ∀ {l : NearbyLink}, l.state = .dropped → ¬ l.trusted = true := fun hs hl => by
    rw [NearbyLink.trusted, hs] at hl
    cases hl
  cases h with
  | heard frame =>
    have key : ∀ {l steps}, Received e.link frame l steps → l.trusted = true →
        e.link.trusted = true ∨ ∃ key n, e.link.state = .auth key ∧ e.link.peerNonce = some n
          ∧ frame = authType
            :: authMac key e.link.role.other (e.link.nonces n).1 (e.link.nonces n).2 := by
      intro l steps hr hl
      cases hr with
      | ignored _ => exact .inl hl
      | refused _ hd _ _ => exact absurd hl (hdropped hd)
      | greeted _ => cases hl
      | authenticated hs hn hmac => exact .inr ⟨_, _, hs, hn, hmac⟩
      | read _ _ hplain _ => exact .inl (hstate (plainOf_eq hplain).2.1 hl)
    rcases key (received e.link frame) ht with h | ⟨key, n, h⟩
    · exact .inl h
    · exact .inr ⟨frame, key, n, rfl, h⟩
  | wired h => exact .inl (hstate (wire_keeps h).2.2.2.1 ht)
  | acked h => exact .inl (hstate (wire_keeps (ack_sends h).1).2.2.2.1 ht)
  | expected s =>
    rcases (expect_cases e.link s).2.2.2.2.2 with h | h
    · exact .inl (hstate h ht)
    · exact absurd ht (hdropped h)
  | closed => exact absurd ht (hdropped rfl)

omit [LinkCrypto] in
theorem not_hello_of_trusted (h : l.trusted = true) : l.state ≠ .hello := by
  intro hs
  rw [NearbyLink.trusted, hs] at h
  cases h

theorem TrustedWithHolder.step [Numerals] (hkeys : DistinctKeys phones)
    {w' : World ι} {a : Action ι} (hinv : Invariant phones w) (h : TrustedWithHolder phones w)
    (hstep : Stepped phones w a w') (hideal : Ideal phones w a) (hown : Unreflected w a) :
    TrustedWithHolder phones w' := by
  -- what was true of a trusted link, for the link as it is now
  have hkept : ∀ {e f : Endpoint ι}, Grows e f → f.link.peerNonce = e.link.peerNonce → ∀ {q},
      (q ≠ e.owner ∧ ∃ e' ∈ w.links, e'.owner = q ∧ Mirrors phones e e') →
      q ≠ f.owner ∧ ∃ e' ∈ w'.links, e'.owner = q ∧ Mirrors phones f e' := by
    rintro e f hgrows hn q ⟨hne, e', he', ho, hm⟩
    obtain ⟨f', hf', hgrows'⟩ := hstep.grows_mem he'
    exact ⟨by rwa [hgrows.owner], f', hf', hgrows'.owner.trans ho,
      hm.grows (hinv.sound e' he') hgrows hgrows' hn⟩
  intro f hf ht q hq
  obtain ⟨i, hi⟩ := List.mem_iff_getElem?.1 hf
  obtain hi | ⟨_, _, _, _, _, l, -, hl, -, rfl⟩ | ⟨e, _, _, hi, hm⟩ := hstep.origin hi
  · exact hkept (.refl f) rfl (h f (List.mem_of_getElem? hi) ht q hq)
  · rw [create] at hl
    split at hl
    · cases hl
    · obtain rfl := Option.some.inj hl
      cases ht
  · have he : e ∈ w.links := List.mem_of_getElem? hi
    rcases hm.trusted ht with ht' | ⟨frame, key, n, rfl, hstate, hnonce, hframe⟩
    · obtain ⟨hn, hs, -⟩ := hm.grows.peer (not_hello_of_trusted ht')
      exact hkept hm.grows hn (h e he ht' q (hs.symm.trans hq))
    · -- the link has just accepted a MAC: somebody sent it, and it was not this phone
      obtain ⟨hn, hs, -⟩ := hm.grows.peer (by rw [hstate]; exact NearbyPhase.noConfusion)
      have hqe : e.link.peerSession = some (phones q).publicKey.val := hs.symm.trans hq
      have hkey := (hinv.sound e he).auth_key hstate hnonce
      have hmac := (hideal e hi ⟨q, hqe⟩).auth hstate hnonce (by rw [hframe]; rfl)
      obtain ⟨e', he', hrole, hprofile, hown', hpeer', howner⟩ :=
        mirror_of_mac hkeys hinv he hkey hqe hmac
      obtain ⟨s, -, hs', hne, -⟩ := hkey
      rcases howner with ⟨ho, hsession⟩ | ⟨ho, hsession⟩
      · exact absurd ⟨⟨key, n, hstate, hnonce, hframe⟩, e', he', ho, hrole, hprofile, hsession,
          hown', hpeer'⟩ (hown e hi)
      · refine hkept hm.grows hn ⟨?_, e', he', ho, hrole, hprofile, hsession, hown', hpeer'⟩
        rintro rfl
        apply hne
        rw [(hinv.sound e he).session]
        exact Option.some.inj (hs'.symm.trans hqe)

def newLink (phones : ι → Session) (π : NearbyProfile) (p : ι) (r : NearbyRole) (n : Nonce)
    (expected : Option JsString) : Endpoint ι :=
  ⟨p, ⟨r, n, phones p, expected, π, none, none, .hello, 0, 0⟩, [], [], [], []⟩

/-- A link that has heard its HELLO. -/
def greeted (e : Endpoint ι) (n : Nonce) (s : JsString) (key : Bytes) : Endpoint ι :=
  { e with link := { e.link with peerNonce := some n, peerSession := some s, state := .auth key } }

/-- A link that has heard its AUTH too. -/
def authenticated (e : Endpoint ι) (n : Nonce) (s : JsString) (key : Bytes) : Endpoint ι :=
  { e with
    link := { e.link with
      peerNonce := some n
      peerSession := some s
      state := .trusted key (if e.link.seals then some (e.link.deriveFrameKeys key n) else none) } }

/-- An advertiser and a connector that hold one link key, whoever made them. -/
structure Meeting (phones : ι → Session) (π : NearbyProfile) (p r : ι) (s t : Hex 64)
    (n₁ n₂ : Nonce) (key : Bytes) : Prop where
  nonces : n₁ ≠ n₂
  own₁ : s.val ≠ (phones p).publicKey.val
  own₂ : t.val ≠ (phones r).publicKey.val
  key₁ : nearbyLinkKey (phones p).secret s.val π = some key
  key₂ : nearbyLinkKey (phones r).secret t.val π = some key
  length : ∀ role, (authMac key role n₁ n₂).length = 32

omit [LinkCrypto] in
theorem deliver_eq [Numerals] [LinkCrypto] {i : ℕ} {frame : Bytes} {steps : List NearbyStep}
    (he : w.links[i]? = some e) (hreceive : e.link.receive frame = (l, steps)) :
    w.step phones (.deliver i frame)
      = { w with
          links := w.links.set i
            { e with link := l, yielded := e.yielded ++ steps.filter (·.isYield) }
          macs := w.macs ++ authMacsOf e.link l } := by
  simp only [World.step, he, Endpoint.deliver, hreceive]

theorem unforged_auth [Numerals]
    {frame : Bytes} (hstate : l.state = .auth key) (hnonce : l.peerNonce = some n)
    (hmac : (key, authMessage l.role.other (l.nonces n).1 (l.nonces n).2) ∈ w.macs) :
    Unforged w l frame where
  auth hs hn _ := by
    obtain rfl := NearbyPhase.auth.inj (hstate.symm.trans hs)
    obtain rfl := Option.some.inj (hnonce.symm.trans hn)
    exact hmac
  ack hs := NearbyPhase.noConfusion (hstate.symm.trans hs)
  opened hs := NearbyPhase.noConfusion (hstate.symm.trans hs)

/-- The two links, and what they have sent, once they trust each other. -/
def met (phones : ι → Session) (π : NearbyProfile) (p r : ι) (s t : Hex 64) (n₁ n₂ : Nonce)
    (key : Bytes) : World ι where
  links := [authenticated (newLink phones π p .advertiser n₁ none) n₂ s.val key,
    authenticated (newLink phones π r .connector n₂ (some t.val)) n₁ t.val key]
  macs := [(key, authMessage .advertiser n₁ n₂), (key, authMessage .connector n₁ n₂)]
  seals := []

/-- Links of two phones that hold one key come to trust each other. -/
theorem Meeting.reaches [Numerals] {π : NearbyProfile} {p r : ι}
    {s t : Hex 64} {n₁ n₂ : Nonce} (h : Meeting phones π p r s t n₁ n₂ key) :
    Reaches (World.step phones)
      (fun w a => Ideal phones w a ∧ FreshNonce w a ∧ (p ≠ r → Unreflected w a))
      (.initial ι) (met phones π p r s t n₁ n₂ key) := by
  let e₁ := newLink phones π p .advertiser n₁ none
  let e₂ := newLink phones π r .connector n₂ (some t.val)
  let m₁ := (key, authMessage .advertiser n₁ n₂)
  let m₂ := (key, authMessage .connector n₁ n₂)
  have hcreate : create .connector n₂ (phones r) (some t.val) π = some e₂.link := by
    have ht : (some t.val).any (isHexOf 64) = true := t.property
    simp only [create, ht, not_true_eq_false, and_false, if_false]
    rfl
  have hstart : ∀ {w : World ι} {o ρ n x}, (∀ e ∈ w.links, e.link.ownNonce ≠ n) →
      Ideal phones w (.start o ρ n x π) ∧ FreshNonce w (.start o ρ n x π)
        ∧ (p ≠ r → Unreflected w (.start o ρ n x π)) :=
    fun hfresh => ⟨trivial, hfresh, fun _ => trivial⟩
  -- a link in the state `hello` has no peer yet, and one that waits for its AUTH has no twin
  have hnew : ∀ {w : World ι} {i : ℕ} {e : Endpoint ι} {frame : Bytes}, w.links[i]? = some e →
      e.link.state = .hello → e.link.peerSession = none →
      Ideal phones w (.deliver i frame) ∧ FreshNonce w (.deliver i frame)
        ∧ (p ≠ r → Unreflected w (.deliver i frame)) := by
    intro w i e frame hi hs hp
    refine ⟨?_, trivial, fun _ => ?_⟩
    · rintro e' hi' ⟨q, hq⟩
      obtain rfl := Option.some.inj (hi.symm.trans hi')
      cases hp.symm.trans hq
    · rintro e' hi' ⟨⟨key, n, hs', -⟩, -⟩
      obtain rfl := Option.some.inj (hi.symm.trans hi')
      cases hs.symm.trans hs'
  have hauth : ∀ {w : World ι} {x y e : Endpoint ι} {i : ℕ} {frame : Bytes},
      w.links = [x, y] → x.owner = p → y.owner = r → w.links[i]? = some e →
      Unforged w e.link frame → Ideal phones w (.deliver i frame)
        ∧ FreshNonce w (.deliver i frame) ∧ (p ≠ r → Unreflected w (.deliver i frame)) := by
    rintro w x y e i frame hw rfl rfl hi hun
    refine ⟨?_, trivial, ?_⟩
    · rintro e' hi' -
      obtain rfl := Option.some.inj (hi.symm.trans hi')
      exact hun
    · rintro hne e hi ⟨-, e', he', ho, hrole, -⟩
      have he : e ∈ w.links := List.mem_of_getElem? hi
      rw [hw, List.mem_pair] at he he'
      rcases he with rfl | rfl <;> rcases he' with rfl | rfl
      · exact NearbyRole.other_ne _ hrole.symm
      · exact hne ho.symm
      · exact hne ho
      · exact NearbyRole.other_ne _ hrole.symm
  have h₁ : Reaches (World.step phones)
      (fun w a => Ideal phones w a ∧ FreshNonce w a ∧ (p ≠ r → Unreflected w a))
      (.initial ι) ⟨[e₁], [], []⟩ :=
    Reaches.refl.tail_eq (hstart (o := p) (ρ := .advertiser) (n := n₁) (x := none)
      fun _ he => (List.not_mem_nil he).elim) rfl
  have h₂ := h₁.tail_eq (u := ⟨[e₁, e₂], [], []⟩)
    (hstart (o := r) (ρ := .connector) (n := n₂) (x := some t.val) (by
      intro e he
      obtain rfl := List.mem_singleton.1 he
      exact h.nonces)) (by
      simp only [World.step, hcreate]
      rfl)
  have hreceive₁ := receive_hello_advertiser (l := e₁.link) rfl rfl h.nonces.symm h.own₁ rfl h.key₁
  have h₃ := h₂.tail_eq (u := ⟨[greeted e₁ n₂ s.val key, e₂], [m₁], []⟩)
    (hnew (w := ⟨[e₁, e₂], [], []⟩) (i := 0) rfl rfl rfl)
    (deliver_eq (w := ⟨[e₁, e₂], [], []⟩) (i := 0) rfl hreceive₁)
  have hreceive₂ := receive_hello_connector (l := e₂.link) rfl rfl h.nonces h.own₂ rfl h.key₂
  have h₄ := h₃.tail_eq (u := ⟨[greeted e₁ n₂ s.val key, greeted e₂ n₁ t.val key], [m₁, m₂], []⟩)
    (hnew (i := 1) rfl rfl rfl) (deliver_eq (i := 1) rfl hreceive₂)
  have hreceive₃ := receive_auth (l := (greeted e₁ n₂ s.val key).link) rfl rfl (h.length _)
  have h₅ := h₄.tail_eq
    (u := ⟨[authenticated e₁ n₂ s.val key, greeted e₂ n₁ t.val key], [m₁, m₂], []⟩)
    (hauth (i := 0) rfl rfl rfl rfl
      (unforged_auth rfl rfl (List.mem_cons_of_mem _ (List.mem_singleton_self _))))
    (deliver_eq (i := 0) rfl hreceive₃)
  have hreceive₄ := receive_auth (l := (greeted e₂ n₁ t.val key).link) rfl rfl (h.length _)
  exact h₅.tail_eq
    (hauth (i := 1) rfl rfl rfl rfl (unforged_auth rfl rfl List.mem_cons_self))
    (deliver_eq (i := 1) rfl hreceive₄)

theorem Meeting.trusts_itself {π : NearbyProfile} {p q : ι} {n₁ n₂ : Nonce} (hne : p ≠ q) :
    ¬ TrustedWithHolder phones
      (met phones π p p (phones q).publicKey (phones q).publicKey n₁ n₂ key) := by
  intro h
  obtain ⟨-, e', he', ho, -⟩ := h _ List.mem_cons_self rfl q rfl
  rw [met, List.mem_pair] at he'
  rcases he' with rfl | rfl
  · exact hne ho
  · exact hne ho

end

/-! ## A sample of the primitives -/

/-- Primitives for examples: nothing is hidden, and a checksum stands for each tag. -/
@[reducible] def sampleCrypto : LinkCrypto where
  sha256 bytes := bytes
  hmac key message := (List.range 32).map fun i =>
    (key ++ message).foldl (fun h b => 31 * h + b) (UInt8.ofNat i)
  hkdf key salt info := info ++ salt ++ key
  getConversationKey secret peer :=
    some (if secret ≤ hexToBytes peer then secret ++ hexToBytes peer
      else hexToBytes peer ++ secret)
  encrypt key nonce aad plain := plain ++ (List.range 16).map fun i =>
    (key ++ nonce ++ aad ++ plain).foldl (fun h b => 31 * h + b) (UInt8.ofNat i)
  decrypt key nonce aad sealed :=
    let plain := sealed.take (sealed.length - 16)
    if sealed.drop (sealed.length - 16) = (List.range 16).map fun i =>
      (key ++ nonce ++ aad ++ plain).foldl (fun h b => 31 * h + b) (UInt8.ofNat i)
    then some plain else none

/-- A session whose secret is one byte thirty-two times. -/
def sampleSession (b : UInt8) : Session :=
  ⟨List.replicate 32 b, ⟨bytesToHex (List.replicate 32 b), isHexOf_bytesToHex _⟩⟩

/-- Two phones. -/
def samplePhones (p : Bool) : Session := sampleSession (if p then 1 else 2)

/-- A nonce of one byte sixteen times. -/
def sampleNonce (b : UInt8) : Nonce := ⟨List.replicate 16 b, List.length_replicate⟩

theorem samplePhones_secret_inj {p q : Bool} (h : (samplePhones p).secret = (samplePhones q).secret) :
    p = q := by
  cases p <;> cases q <;> first | rfl | exact absurd h (by decide)

theorem samplePhones_publicKey (p : Bool) :
    (samplePhones p).publicKey.val = bytesToHex (samplePhones p).secret := rfl

variable {s : JsString}

theorem length_hexToBytes_64 (h : isHexOf 64 s = true) : (hexToBytes s).length = 32 := by
  simp only [isHexOf, Bool.and_eq_true, beq_iff_eq] at h
  exact length_hexToBytes h.1

theorem sampleKey_eq {p : Bool} {π : NearbyProfile} {key : Bytes}
    (h : @nearbyLinkKey sampleCrypto (samplePhones p).secret s π = some key) :
    isHexOf 64 s = true ∧ ∃ a b, key = keyTag π ++ (a ++ b) ∧ a.length = 32 ∧ b.length = 32
      ∧ (a = (samplePhones p).secret ∧ b = hexToBytes s
        ∨ a = hexToBytes s ∧ b = (samplePhones p).secret) := by
  simp only [nearbyLinkKey, Option.bind_eq_bind, Option.bind_eq_some_iff, Option.guard_eq_some',
    exists_const, Option.some.injEq] at h
  obtain ⟨hhex, shared, hshared, rfl⟩ := h
  obtain rfl := Option.some.inj hshared
  have hs := length_hexToBytes_64 hhex
  have hp : (samplePhones p).secret.length = 32 := List.length_replicate
  refine ⟨hhex, ?_⟩
  split
  · exact ⟨_, _, rfl, hp, hs, .inl ⟨rfl, rfl⟩⟩
  · exact ⟨_, _, rfl, hs, hp, .inr ⟨rfl, rfl⟩⟩

theorem hexToBytes_inj {t : JsString} (hs : isHexOf 64 s = true) (ht : isHexOf 64 t = true)
    (h : hexToBytes s = hexToBytes t) : s = t := by
  rw [← bytesToHex_hexToBytes (n := 32) hs, h, bytesToHex_hexToBytes (n := 32) ht]

theorem sample_distinctKeys : @DistinctKeys sampleCrypto Bool samplePhones := by
  refine @DistinctKeys.mk sampleCrypto _ _ ?_ ?_
  · intro p q h
    cases p <;> cases q <;> first | rfl | exact absurd h (by decide)
  · intro p p' s s' π π' key h h'
    obtain ⟨hs, a, b, rfl, ha, hb, hab⟩ := sampleKey_eq h
    obtain ⟨hs', a', b', heq, ha', hb', hab'⟩ := sampleKey_eq h'
    have hlen : (keyTag π).length = (keyTag π').length := by
      have h := congrArg List.length heq
      simp only [List.length_append, ha, hb, ha', hb'] at h
      omega
    obtain rfl : π = π' := by
      cases π <;> cases π' <;> first | rfl | exact absurd hlen (by decide)
    obtain ⟨haa, hbb⟩ := List.append_inj (List.append_cancel_left heq) (ha.trans ha'.symm)
    have hown : ∀ {p : Bool} {t : JsString}, isHexOf 64 t = true →
        hexToBytes t = (samplePhones p).secret → t = (samplePhones p).publicKey.val := by
      intro p t ht h
      rw [samplePhones_publicKey, ← h, bytesToHex_hexToBytes (n := 32) ht]
    refine ⟨rfl, ?_⟩
    rcases hab with ⟨rfl, rfl⟩ | ⟨rfl, rfl⟩ <;> rcases hab' with ⟨rfl, rfl⟩ | ⟨rfl, rfl⟩
    · exact .inl ⟨samplePhones_secret_inj haa, hexToBytes_inj hs hs' hbb⟩
    · exact .inr ⟨hown hs hbb, hown hs' haa.symm⟩
    · exact .inr ⟨hown hs haa, hown hs' hbb.symm⟩
    · exact .inl ⟨samplePhones_secret_inj hbb, hexToBytes_inj hs hs' haa⟩

theorem length_sampleMac (key : Bytes) (r : NearbyRole) (n₁ n₂ : Nonce) :
    (@authMac sampleCrypto key r n₁ n₂).length = 32 := by
  show ((List.range 32).map _).length = 32
  rw [List.length_map, List.length_range]

/-- The key of the two phones. -/
def sampleKey (π : NearbyProfile) : Bytes :=
  keyTag π ++ ((samplePhones true).secret ++ (samplePhones false).secret)

theorem nearbyLinkKey_sample (π : NearbyProfile) (p : Bool) :
    @nearbyLinkKey sampleCrypto (samplePhones p).secret (samplePhones (!p)).publicKey.val π
      = some (sampleKey π) := by
  cases π <;> cases p <;> decide

theorem sample_meeting (π : NearbyProfile) (p r : Bool) :
    @Meeting sampleCrypto _ samplePhones π p r (samplePhones (!p)).publicKey
      (samplePhones (!r)).publicKey (sampleNonce 1) (sampleNonce 2) (sampleKey π) := by
  have hown : ∀ p : Bool, (samplePhones (!p)).publicKey.val ≠ (samplePhones p).publicKey.val := by
    decide
  refine @Meeting.mk sampleCrypto _ _ _ _ _ _ _ _ _ _ (by decide) (hown p) (hown r)
    (nearbyLinkKey_sample π p) (nearbyLinkKey_sample π r) (fun role => length_sampleMac _ _ _ _)

section
attribute [local instance] sampleCrypto Sync.decimalNumerals

end

end SignetApp.Nearby
