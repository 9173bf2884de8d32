import SignetApp.Nearby.Trust

/-!
# What a sealed link reads

Under the child-pair profile every frame after AUTH is sealed under a key of its direction and a
counter. A link's nonce is its own, so a frame that opens was sealed by the one link at the other
end, for the very place in the order at which it is read.
-/

namespace SignetApp.Nearby

open Js NearbyLink

section
variable [LinkCrypto] {ι : Type}

/-- Frame keys tell link keys, nonces and directions apart. -/
structure DistinctFrameKeys (phones : ι → Session) : Prop where
  frameKey : ∀ {p p' s s' π π' key key' r r'} {a c a' c' : Nonce},
    nearbyLinkKey (phones p).secret s π = some key →
    nearbyLinkKey (phones p').secret s' π' = some key' →
    LinkCrypto.hkdf key (a.val ++ c.val) (frameKeyInfo r)
      = LinkCrypto.hkdf key' (a'.val ++ c'.val) (frameKeyInfo r') →
    key = key' ∧ a = a' ∧ c = c' ∧ r = r'

/-- What a plaintext frame says, whoever wrote it. -/
def meaning [Numerals] (frame : Bytes) : Option NearbyStep :=
  if frame.head? = some eventType then (readNearbyEvent frame .childPair).map .event
  else if frame.head? = some offerType then
    (readNearbyOffer frame).map fun uri => .offer uri (nearbyOfferId frame)
  else (readAck frame).map fun r => .ack (bytesToHex r.1) r.2.1

omit [LinkCrypto] in
/-- Two links that are each the other's other end. -/
def Matched (phones : ι → Session) (e e' : Endpoint ι) : Prop :=
  Mirrors phones e e' ∧ Mirrors phones e' e

/-- What a link has read is what its other end sent, in order and from the start. -/
structure ReadsPrefix [Numerals] (w : World ι) (e e' : Endpoint ι) : Prop where
  order : e.yielded.map some = (e'.sent.take e.yielded.length).map meaning
  acks : ∀ id stored, NearbyStep.ack id stored ∈ e.yielded → (id, stored) ∈ e'.acked
  /-- Any other frame than the next one drops the link and is not read. -/
  next : e.link.trusted = true → ∀ frame, Unforged w e.link frame →
    e'.wired[e.yielded.length]? ≠ some frame →
    (e.deliver frame).link.state = .dropped ∧ (e.deliver frame).yielded = e.yielded

/-! ## Nonces -/

/-- The nonces links have drawn. -/
def ownNonces (w : World ι) : List Nonce := w.links.map (·.link.ownNonce)

variable {a : Action ι} {w w' : World ι} {phones : ι → Session}

theorem Stepped.ownNonces [Numerals]
    (h : Stepped phones w a w') (hfresh : FreshNonce w a) (hnodup : (ownNonces w).Nodup) :
    (Nearby.ownNonces w').Nodup := by
  cases h with
  | same => exact hnodup
  | started h =>
    rw [create] at h
    split at h
    · cases h
    · obtain rfl := Option.some.inj h
      rw [Nearby.ownNonces, List.map_append, List.map_singleton]
      refine List.Nodup.append hnodup (List.nodup_singleton _) ?_
      rintro n hn hn'
      obtain rfl := List.mem_singleton.1 hn'
      obtain ⟨e, he, hen⟩ := List.mem_map.1 hn
      exact hfresh e he hen
  | @moved i _ e e' _ _ he h =>
    have hsame : (w.links.set i e').map (·.link.ownNonce) = w.links.map (·.link.ownNonce) := by
      obtain ⟨hi, rfl⟩ := List.getElem?_eq_some_iff.1 he
      have hself := List.set_getElem_self
        (show i < (w.links.map (·.link.ownNonce)).length by rwa [List.length_map])
      rw [List.getElem_map] at hself
      rw [List.map_set, h.grows.same.ownNonce, hself]
    rw [Nearby.ownNonces, hsame]
    exact hnodup

variable {e e' : Endpoint ι}

omit [LinkCrypto] in
theorem eq_of_ownNonce (h : (ownNonces w).Nodup)
    (he : e ∈ w.links) (he' : e' ∈ w.links) (hn : e.link.ownNonce = e'.link.ownNonce) : e = e' :=
  List.inj_on_of_nodup_map h he he' hn

variable {n : Nonce} {f : Endpoint ι}

variable {n' : Nonce}

omit [LinkCrypto] in
theorem eq_of_nonces (h : (ownNonces w).Nodup)
    (hf : f ∈ w.links) (he' : e' ∈ w.links) (hn : e.link.peerNonce = some n)
    (he : e.link.peerNonce = some e'.link.ownNonce) (hrole : f.link.role = e.link.role.other)
    (hnonces : f.link.nonces n' = e.link.nonces n) : f = e' := by
  obtain ⟨-, hown⟩ := nonces_mirror hrole hnonces
  apply eq_of_ownNonce h hf he'
  rw [← hown]
  exact Option.some.inj (hn.symm.trans he)

/-! ## What was read -/

/-- What each link has read was sealed, at its place, for its direction. -/
structure Heard [Numerals] (phones : ι → Session) (w : World ι) (e : Endpoint ι) : Prop where
  early : e.link.state = .hello → e.yielded = []
  counted : e.link.seals = true → e.link.state ≠ .dropped → e.link.recvCounter = e.yielded.length
  opened : e.link.seals = true → IsPhone phones e.link.peerSession → ∀ {m y},
    e.yielded[m]? = some y → ∃ key n s type, e.link.HasKey key n ∧ s ∈ w.seals
      ∧ s.key = e.link.frameKey key n e.link.role.other ∧ m < nearbyMaxSealedFrames
      ∧ s.nonce = sealNonce (counterBytes m) ∧ s.aad = sealAad type (counterBytes m)
      ∧ meaning (type :: s.body) = some y
      ∧ ∀ id stored, y = .ack id stored → ∃ bytes, id = bytesToHex bytes
        ∧ (key, ackMessage e.link.role.other (e.link.nonces n).1 (e.link.nonces n).2 bytes stored)
          ∈ w.macs

variable {frame key : Bytes} {l : NearbyLink}

variable {y : NearbyStep}

theorem readFrame_meaning [Numerals] (hprofile : l.profile = .childPair)
    (h : l.readFrame key n frame = some y) : y.isYield = true ∧ meaning frame = some y
      ∧ ∀ id stored, y = .ack id stored → ∃ bytes mac, id = bytesToHex bytes
        ∧ readAck frame = some (bytes, stored, mac)
        ∧ mac = ackMac key l.role.other (l.nonces n).1 (l.nonces n).2 bytes stored := by
  rw [readFrame] at h
  rw [meaning]
  split at h
  · next hevent =>
    rw [if_pos hevent]
    rw [hprofile] at h
    obtain ⟨event, -, rfl⟩ := Option.map_eq_some_iff.1 h
    exact ⟨rfl, h, fun id stored hy => by cases hy⟩
  · next hevent =>
    rw [if_neg hevent]
    split at h
    · next hoffer =>
      rw [if_pos hoffer.1]
      obtain ⟨uri, -, rfl⟩ := Option.map_eq_some_iff.1 h
      exact ⟨rfl, h, fun id stored hy => by cases hy⟩
    · next hoffer =>
      rw [if_neg fun ho => hoffer ⟨ho, hprofile⟩]
      obtain ⟨⟨id, stored, mac⟩, hack, h⟩ := Option.bind_eq_some_iff.1 h
      simp only [Option.bind_eq_bind, Option.bind_eq_some_iff, Option.guard_eq_some',
        exists_const] at h
      obtain ⟨hmac, h⟩ := h
      obtain rfl := Option.some.inj h
      refine ⟨rfl, by rw [hack]; rfl, ?_⟩
      intro id' stored' hy
      obtain ⟨rfl, rfl⟩ := NearbyStep.ack.inj hy
      exact ⟨id, mac, rfl, hack, hmac⟩

variable {plain : Bytes} {frames : Option FrameKeys}

theorem read_sealed [Numerals] (hsound : Sound phones e) (hseals : e.link.seals = true)
    (hstate : e.link.state = .trusted key frames) (hnonce : e.link.peerNonce = some n)
    (hplain : e.link.plainOf frames frame = some (plain, l)) (hun : Unforged w e.link frame) :
    ∃ s ∈ w.seals, ∃ type, s.key = e.link.frameKey key n e.link.role.other
      ∧ e.link.recvCounter < nearbyMaxSealedFrames
      ∧ s.nonce = sealNonce (counterBytes e.link.recvCounter)
      ∧ s.aad = sealAad type (counterBytes e.link.recvCounter) ∧ plain = type :: s.body
      ∧ frame = type :: counterBytes e.link.recvCounter ++ s.sealed
      ∧ l = { e.link with recvCounter := e.link.recvCounter + 1 } := by
  obtain ⟨-, hframes⟩ := hsound.trusted_key hstate hnonce
  rw [hseals, if_pos rfl] at hframes
  subst hframes
  rw [plainOf, hseals, if_pos rfl] at hplain
  obtain ⟨type, sealed, body, hframe, hdecrypt, hcounter, hbody, hl⟩ := openFrame_eq hplain
  exact ⟨_, hun.opened hstate hframe hdecrypt, type, rfl, hcounter, rfl, rfl, hbody, hframe, hl⟩

theorem Heard.grows_world [Numerals]
    (h : Heard phones w e) (hmacs : w.macs ⊆ w'.macs) (hseals : w.seals ⊆ w'.seals) :
    Heard phones w' e where
  early := h.early
  counted := h.counted
  opened hs hphone m y hy := by
    obtain ⟨key, n, s, type, hkey, hmem, hsk, hm, hnonce, haad, hmeaning, hack⟩ :=
      h.opened hs hphone hy
    refine ⟨key, n, s, type, hkey, hseals hmem, hsk, hm, hnonce, haad, hmeaning, ?_⟩
    intro id stored hid
    obtain ⟨bytes, hb, hmac⟩ := hack id stored hid
    exact ⟨bytes, hb, hmacs hmac⟩

theorem Heard.quiet [Numerals] (h : Heard phones w e) (hsound : Sound phones e) (hgrows : Grows e f)
    (hyielded : f.yielded = e.yielded) (hcounter : f.link.state ≠ .dropped → e.link.state ≠ .dropped
      ∧ f.link.recvCounter = e.link.recvCounter) : Heard phones w f where
  early hl := by
    rw [hyielded]
    by_cases hstate : e.link.state = .hello
    · exact h.early hstate
    · exact absurd hl (hgrows.peer hstate).2.2
  counted hs hne := by
    obtain ⟨hne', hc⟩ := hcounter hne
    rw [hc, hyielded]
    exact h.counted ((seals_congr hgrows.same).symm.trans hs) hne'
  opened hs hphone m y hy := by
    rw [hyielded] at hy
    have hstate : e.link.state ≠ .hello := by
      intro hl
      rw [h.early hl] at hy
      cases hy
    obtain ⟨-, hp, -⟩ := hgrows.peer hstate
    obtain ⟨key, n, s, type, hkey, hrest⟩ := h.opened ((seals_congr hgrows.same).symm.trans hs)
      (hp ▸ hphone) hy
    refine ⟨key, n, s, type, hkey.grows hsound hgrows, ?_⟩
    rw [frameKey_congr hgrows.same, nonces_congr hgrows.same, hgrows.same.role]
    exact hrest

theorem Heard.deliver [Numerals] (h : Heard phones w e) (hsound : Sound phones e)
    (hun : IsPhone phones e.link.peerSession → Unforged w e.link frame) :
    Heard phones w (e.deliver frame) := by
  have hgrows := Grows.deliver e frame
  have hrec := received e.link frame
  unfold Endpoint.deliver at hgrows ⊢
  generalize (e.link.receive frame).1 = l, (e.link.receive frame).2 = steps at hgrows hrec ⊢
  cases hrec with
  | ignored _ => exact h.quiet hsound hgrows (List.append_nil _) fun hne => ⟨hne, rfl⟩
  | refused _ hdropped _ _ =>
    exact h.quiet hsound hgrows (List.append_nil _) fun hne => absurd hdropped hne
  | greeted hstate _ _ =>
    refine h.quiet hsound hgrows (List.append_nil _) fun _ => ⟨?_, rfl⟩
    rw [hstate]
    exact NearbyPhase.noConfusion
  | authenticated hstate _ _ =>
    refine h.quiet hsound hgrows (List.append_nil _) fun _ => ⟨?_, rfl⟩
    rw [hstate]
    exact NearbyPhase.noConfusion
  | @read key plain frames n _ y hstate hnonce hplain hread =>
    obtain ⟨hsame, hl, -⟩ := plainOf_eq hplain
    have hne : e.link.state ≠ .dropped ∧ e.link.state ≠ .hello := by
      rw [hstate]
      exact ⟨NearbyPhase.noConfusion, NearbyPhase.noConfusion⟩
    have hyield : e.link.seals = true → [y].filter (·.isYield) = [y] ∧ l.profile = .childPair := by
      intro hs
      have hprofile : l.profile = .childPair := by
        rw [hsame.profile]
        simpa [seals] using hs
      exact ⟨by rw [List.filter_singleton, (readFrame_meaning hprofile hread).1]; rfl, hprofile⟩
    have hseals : l.seals = e.link.seals := seals_congr hsame
    refine ⟨fun hhello => absurd (hl.symm.trans hhello) hne.2, ?_, ?_⟩
    · intro hs hdropped
      have hs' : e.link.seals = true := hseals.symm.trans hs
      obtain ⟨_, keys, -, hopen⟩ : ∃ k keys, frames = some keys ∧
          e.link.openFrame keys frame = some (plain, l) := by
        rw [plainOf, if_pos hs'] at hplain
        obtain ⟨keys, hkeys, hopen⟩ := Option.bind_eq_some_iff.1 hplain
        exact ⟨keys, keys, hkeys, hopen⟩
      obtain ⟨_, _, _, -, -, -, -, hcount⟩ := openFrame_eq hopen
      show l.recvCounter = (e.yielded ++ _).length
      rw [(hyield hs').1, List.length_append, List.length_singleton, hcount, h.counted hs' hne.1]
    · intro hs hphone m y' hy'
      have hs' : e.link.seals = true := hseals.symm.trans hs
      obtain ⟨hfilter, hprofile⟩ := hyield hs'
      have hpeer : e.link.peerSession = l.peerSession := (hgrows.peer hne.2).2.1.symm
      have hun' := hun (hpeer ▸ hphone)
      change (e.yielded ++ [y].filter (·.isYield))[m]? = some y' at hy'
      rw [hfilter] at hy'
      rcases lt_or_ge m e.yielded.length with hm | hm
      · -- read before
        rw [List.getElem?_append_left hm] at hy'
        obtain ⟨key', n', s, type, hkey, hrest⟩ := h.opened hs' (hpeer ▸ hphone) hy'
        refine ⟨key', n', s, type, hkey.grows hsound hgrows, ?_⟩
        show s ∈ w.seals ∧ s.key = l.frameKey key' n' l.role.other ∧ _
        rw [frameKey_congr hsame, nonces_congr hsame, hsame.role]
        exact hrest
      · -- read now
        obtain ⟨rfl, rfl⟩ : m = e.yielded.length ∧ y = y' := by
          rw [List.getElem?_append_right hm, List.getElem?_singleton] at hy'
          split at hy'
          · exact ⟨by omega, Option.some.inj hy'⟩
          · cases hy'
        obtain ⟨s, hmem, type, hsk, hcount, hsn, haad, hbody, -, -⟩ :=
          read_sealed hsound hs' hstate hnonce hplain hun'
        rw [h.counted hs' hne.1] at hcount hsn haad
        obtain ⟨hkey, -⟩ := hsound.trusted_key hstate hnonce
        obtain ⟨-, hmeaning, hack⟩ := readFrame_meaning hprofile hread
        refine ⟨key, n, s, type, hkey.grows hsound hgrows, hmem, ?_, hcount, hsn, haad,
          hbody ▸ hmeaning, ?_⟩
        · show s.key = l.frameKey key n l.role.other
          rw [frameKey_congr hsame, hsame.role, hsk]
        · intro id stored hid
          obtain ⟨bytes, mac, hbytes, hreadAck, hmac⟩ := hack id stored hid
          refine ⟨bytes, hbytes, ?_⟩
          show (key, ackMessage l.role.other (l.nonces n).1 (l.nonces n).2 bytes stored) ∈ w.macs
          rw [nonces_congr hsame, hsame.role] at hmac ⊢
          exact hun'.ack hstate hnonce hplain hreadAck hmac

variable {l' : NearbyLink}

theorem wire_recvCounter {out : Bytes}
    (h : l.wire frame = some (out, l')) : l'.recvCounter = l.recvCounter := by
  obtain ⟨_, _, _, _, -, -, hcase⟩ := wire_eq h
  rcases hcase with ⟨-, -, rfl⟩ | ⟨_, -, -, -, -, rfl⟩
  · rfl
  · rfl

theorem Heard.moved [Numerals] {i : ℕ} {macs : List (Bytes × Bytes)} {seals : List Seal}
    (h : Heard phones w e) (hsound : Sound phones e) (hi : w.links[i]? = some e)
    (hm : Moved i e a e' macs seals) (hideal : Ideal phones w a) : Heard phones w e' := by
  have hgrows := hm.grows
  cases hm with
  | heard frame => exact h.deliver hsound (hideal e hi)
  | wired hwire =>
    obtain ⟨-, -, -, hs, -, -⟩ := wire_keeps hwire
    exact h.quiet hsound hgrows rfl fun hne => ⟨fun hd => hne (hs.trans hd), wire_recvCounter hwire⟩
  | acked hack =>
    have hwire := (ack_sends hack).1
    obtain ⟨-, -, -, hs, -, -⟩ := wire_keeps hwire
    exact h.quiet hsound hgrows rfl fun hne => ⟨fun hd => hne (hs.trans hd), wire_recvCounter hwire⟩
  | expected s =>
    obtain ⟨-, -, -, -, hc, hs⟩ := expect_cases e.link s
    exact h.quiet hsound hgrows rfl fun hne =>
      ⟨fun hd => hne (hs.elim (·.trans hd) id), hc⟩
  | closed => exact h.quiet hsound hgrows rfl fun hne => absurd rfl hne

/-- What holds of every world whose links draw nonces of their own. -/
structure SealedInvariant [Numerals] (phones : ι → Session) (w : World ι) : Prop where
  base : Invariant phones w
  nonces : (ownNonces w).Nodup
  heard : ∀ e ∈ w.links, Heard phones w e

theorem SealedInvariant.step [Numerals]
    (h : SealedInvariant phones w) (hstep : Stepped phones w a w') (hideal : Ideal phones w a)
    (hfresh : FreshNonce w a) : SealedInvariant phones w' where
  base := h.base.step hstep
  nonces := hstep.ownNonces hfresh h.nonces
  heard e' he' := by
    have hmore : w.macs ⊆ w'.macs ∧ w.seals ⊆ w'.seals := by
      cases hstep with
      | same => exact ⟨List.Subset.refl _, List.Subset.refl _⟩
      | started _ => exact ⟨List.Subset.refl _, List.Subset.refl _⟩
      | moved _ _ => exact ⟨List.subset_append_left _ _, List.subset_append_left _ _⟩
    refine Heard.grows_world (w := w) ?_ hmore.1 hmore.2
    obtain ⟨i, hi⟩ := List.mem_iff_getElem?.1 he'
    obtain hi | ⟨_, _, _, _, _, _, -, hl, -, rfl⟩ | ⟨e, _, _, hi, hm⟩ := hstep.origin hi
    · exact h.heard e' (List.mem_of_getElem? hi)
    · rw [create] at hl
      split at hl
      · cases hl
      · obtain rfl := Option.some.inj hl
        exact ⟨fun _ => rfl, fun _ _ => rfl, fun _ _ _ _ hy => by cases hy⟩
    · exact (h.heard e (List.mem_of_getElem? hi)).moved (h.base.sound e (List.mem_of_getElem? hi))
        hi hm hideal

theorem sealedInvariant [Numerals]
    (h : Reaches (World.step phones) (fun w a => Ideal phones w a ∧ FreshNonce w a)
      (.initial ι) w) : SealedInvariant phones w := by
  refine h.invariant (I := SealedInvariant phones) ?_ ?_
  · exact ⟨.initial phones, List.nodup_nil, fun _ he => (List.not_mem_nil he).elim⟩
  · rintro w a hinv ⟨hideal, hfresh⟩
    exact hinv.step (stepped phones w a) hideal hfresh

/-! ## The other end -/

theorem madeSeal_unique (hframes : DistinctFrameKeys phones) (hinv : Invariant phones w) (he : e ∈ w.links)
    (hf : f ∈ w.links) {key' : Bytes} {r r' : NearbyRole}
    (hkey : e.link.HasKey key n) (hkey' : f.link.HasKey key' n')
    (h : e.link.frameKey key n r = f.link.frameKey key' n' r') :
    key = key' ∧ e.link.nonces n = f.link.nonces n' ∧ r = r' := by
  obtain ⟨s, -, -, -, hlink⟩ := hkey
  obtain ⟨s', -, -, -, hlink'⟩ := hkey'
  rw [(hinv.sound e he).session] at hlink
  rw [(hinv.sound f hf).session] at hlink'
  obtain ⟨hk, ha, hc, hr⟩ := hframes.frameKey hlink hlink' h
  exact ⟨hk, Prod.ext ha hc, hr⟩

variable {s : Seal}

theorem seal_eq [Numerals] (hframes : DistinctFrameKeys phones) (h : SealedInvariant phones w) {s' : Seal} (hs : s ∈ w.seals)
    (hs' : s' ∈ w.seals) (hkey : s.key = s'.key) (hnonce : s.nonce = s'.nonce) : s = s' := by
  obtain ⟨e, he, key, n, c, type, hk, hsk, hc, hsn, haad, hsent, hwired⟩ := h.base.seals s hs
  obtain ⟨e', he', key', n', c', type', hk', hsk', hc', hsn', haad', hsent', hwired'⟩ :=
    h.base.seals s' hs'
  obtain ⟨-, hnonces, hrole⟩ := madeSeal_unique hframes h.base he he' hk hk'
    (hsk.symm.trans (hkey.trans hsk'))
  have hown : e.link.ownNonce = e'.link.ownNonce := by
    simp only [nonces, hrole] at hnonces
    cases hr : e'.link.role <;> simp only [hr] at hnonces
    · exact (Prod.mk.inj hnonces).1
    · exact (Prod.mk.inj hnonces).2
  obtain rfl := eq_of_ownNonce h.nonces he he' hown
  obtain rfl : c = c' :=
    counterBytes_inj hc hc' (sealNonce_inj (hsn.symm.trans (hnonce.trans hsn')))
  obtain ⟨rfl, hbody⟩ := List.cons.inj (Option.some.inj (hsent.symm.trans hsent'))
  have hsealed : s.sealed = s'.sealed :=
    List.append_cancel_left (Option.some.inj (hwired.symm.trans hwired'))
  have haads : s.aad = s'.aad := haad.trans haad'.symm
  cases s
  cases s'
  simp only at hkey hnonce haads hbody hsealed
  subst hkey hnonce haads hbody hsealed
  rfl

variable {type : UInt8}

theorem made_by_match [Numerals] (hframes : DistinctFrameKeys phones) (h : SealedInvariant phones w) (he : e ∈ w.links)
    (he' : e' ∈ w.links) (hmatch : e.link.peerNonce = some e'.link.ownNonce) (hkey : e.link.HasKey key n) (hs : s ∈ w.seals)
    (hsk : s.key = e.link.frameKey key n e.link.role.other) {m : ℕ}
    (hm : m < nearbyMaxSealedFrames) (hsn : s.nonce = sealNonce (counterBytes m))
    (haad : s.aad = sealAad type (counterBytes m)) :
    e'.sent[m]? = some (type :: s.body)
      ∧ e'.wired[m]? = some (type :: counterBytes m ++ s.sealed) := by
  obtain ⟨f, hf, key', n', c, type', hk', hsk', hc, hsn', haad', hsent, hwired⟩ :=
    h.base.seals s hs
  obtain ⟨-, hnonces, hrole⟩ := madeSeal_unique hframes h.base he hf hkey hk'
    (hsk.symm.trans hsk')
  obtain ⟨_, hn, -⟩ := hkey
  obtain rfl := eq_of_nonces h.nonces hf he' hn hmatch hrole.symm hnonces.symm
  obtain rfl : c = m := counterBytes_inj hc hm (sealNonce_inj (hsn'.symm.trans hsn))
  obtain ⟨rfl, -⟩ := sealAad_inj (haad'.symm.trans haad)
  exact ⟨hsent, hwired⟩

theorem acked_by_match [Numerals]
    (h : SealedInvariant phones w) (he' : e' ∈ w.links) (hmatch : e.link.peerNonce = some e'.link.ownNonce) (hkey : e.link.HasKey key n) {bytes : Bytes} {stored : Bool}
    (hmac : (key, ackMessage e.link.role.other (e.link.nonces n).1 (e.link.nonces n).2 bytes stored)
      ∈ w.macs) : (bytesToHex bytes, stored) ∈ e'.acked := by
  obtain ⟨f, hf, n', hkey', hmade⟩ := h.base.macs _ hmac
  rcases hmade with hm | ⟨id, stored', hmem, hid, hm⟩
  · exact absurd hm.symm authMessage_ne_ackMessage
  obtain ⟨hrole, ha, hc, hbytes, hstored⟩ := ackMessage_inj hm
  obtain ⟨_, hn, -⟩ := hkey
  obtain rfl := eq_of_nonces h.nonces hf he' hn hmatch hrole.symm (Prod.ext ha hc).symm
  rw [hbytes, bytesToHex_hexToBytes (n := 32) hid, hstored]
  exact hmem

theorem readsPrefix [Numerals] (hframes : DistinctFrameKeys phones) (h : SealedInvariant phones w) (he : e ∈ w.links)
    (he' : e' ∈ w.links) (hprofile : e.link.profile = .childPair) (hmatch : Matched phones e e') :
    ReadsPrefix w e e' := by
  have hseals : e.link.seals = true := by simpa [seals] using hprofile
  have hphone : IsPhone phones e.link.peerSession := ⟨e'.owner, hmatch.2.peerSession⟩
  have hpeer := hmatch.1.ownNonce
  have hheard := h.heard e he
  have hplace : ∀ {m : ℕ} {y : NearbyStep}, e.yielded[m]? = some y → ∃ frame, e'.sent[m]? = some frame
      ∧ meaning frame = some y ∧ ∀ id stored, y = .ack id stored → (id, stored) ∈ e'.acked := by
    intro m y hy
    obtain ⟨key, n, s, type, hkey, hmem, hsk, hm, hsn, haad, hmeaning, hack⟩ :=
      hheard.opened hseals hphone hy
    refine ⟨_, (made_by_match hframes h he he' hpeer hkey hmem hsk hm hsn haad).1, hmeaning, ?_⟩
    intro id stored hid
    obtain ⟨bytes, rfl, hmac⟩ := hack id stored hid
    exact acked_by_match h he' hpeer hkey hmac
  refine ⟨?_, ?_, ?_⟩
  · apply List.ext_getElem?
    intro m
    rw [List.getElem?_map, List.getElem?_map]
    cases hy : e.yielded[m]? with
    | none =>
      rw [List.getElem?_take_eq_none (List.getElem?_eq_none_iff.1 hy)]
      rfl
    | some y =>
      obtain ⟨frame, hframe, hmeaning, -⟩ := hplace hy
      rw [List.getElem?_take_of_lt (List.getElem?_eq_some_iff.1 hy).1, hframe]
      exact congrArg some hmeaning.symm
  · intro id stored hmem
    obtain ⟨m, hm⟩ := List.mem_iff_getElem?.1 hmem
    obtain ⟨_, -, -, hack⟩ := hplace hm
    exact hack id stored rfl
  · intro htrusted frame hun hnext
    have hrec := received e.link frame
    unfold Endpoint.deliver
    generalize (e.link.receive frame).1 = l, (e.link.receive frame).2 = steps at hrec ⊢
    have hstate : ∃ key frames, e.link.state = .trusted key frames := by
      rw [NearbyLink.trusted] at htrusted
      split at htrusted
      · next key frames hs => exact ⟨key, frames, hs⟩
      · cases htrusted
    obtain ⟨key, frames, hstate⟩ := hstate
    cases hrec with
    | ignored hs => cases hs.symm.trans hstate
    | refused _ hdropped _ _ => exact ⟨hdropped, List.append_nil _⟩
    | greeted hs _ _ => cases hs.symm.trans hstate
    | authenticated hs _ _ => cases hs.symm.trans hstate
    | read hs hnonce hplain hread =>
      -- what opens was sealed by the other end for this very place
      obtain ⟨s, hmem, type, hsk, hcount, hsn, haad, -, hframe, -⟩ :=
        read_sealed (h.base.sound e he) hseals hs hnonce hplain hun
      obtain ⟨hkey, -⟩ := (h.base.sound e he).trusted_key hs hnonce
      have hwired := (made_by_match hframes h he he' hpeer hkey hmem hsk hcount hsn haad).2
      have hlen : e.link.recvCounter = e.yielded.length := by
        apply hheard.counted hseals
        rw [hstate]
        exact NearbyPhase.noConfusion
      rw [← hframe, hlen] at hwired
      exact absurd hwired hnext

variable {keys : FrameKeys} {body : Bytes}

theorem wire_sealed (hstate : l.state = .trusted key (some keys)) (hseals : l.seals = true)
    (hfits : isSealedType type = true ∧ (type :: body).length + nearbySealOverhead ≤ nearbyMaxFrame
      ∧ l.sendCounter < nearbyMaxSealedFrames) :
    l.wire (type :: body) = some (sealFrame keys.sendKey l.sendCounter type body,
      { l with sendCounter := l.sendCounter + 1 }) := by
  unfold wire
  simp only [hstate, hseals, Bool.not_true, Bool.false_eq_true, if_false, hfits, and_self, if_true]

theorem plainOf_sealed (hseals : l.seals = true)
    (hfits : isSealedType type = true ∧ l.recvCounter < nearbyMaxSealedFrames
      ∧ 1 + nearbySealOverhead ≤ (sealFrame keys.recvKey l.recvCounter type body).length
      ∧ (sealFrame keys.recvKey l.recvCounter type body).length ≤ nearbyMaxFrame)
    (hopens : LinkCrypto.decrypt keys.recvKey (sealNonce (counterBytes l.recvCounter))
      (sealAad type (counterBytes l.recvCounter))
      (LinkCrypto.encrypt keys.recvKey (sealNonce (counterBytes l.recvCounter))
        (sealAad type (counterBytes l.recvCounter)) body) = some body) :
    l.plainOf (some keys) (sealFrame keys.recvKey l.recvCounter type body)
      = some (type :: body, { l with recvCounter := l.recvCounter + 1 }) := by
  obtain ⟨htype, hcount, hmin, hmax⟩ := hfits
  have htake : (counterBytes l.recvCounter ++ LinkCrypto.encrypt keys.recvKey
      (sealNonce (counterBytes l.recvCounter)) (sealAad type (counterBytes l.recvCounter))
      body).take sealCounterBytes = counterBytes l.recvCounter :=
    List.take_left' (length_counterBytes _)
  have hdrop : (counterBytes l.recvCounter ++ LinkCrypto.encrypt keys.recvKey
      (sealNonce (counterBytes l.recvCounter)) (sealAad type (counterBytes l.recvCounter))
      body).drop sealCounterBytes = LinkCrypto.encrypt keys.recvKey
      (sealNonce (counterBytes l.recvCounter)) (sealAad type (counterBytes l.recvCounter)) body :=
    List.drop_left' (length_counterBytes _)
  rw [plainOf, hseals, if_pos rfl, Option.bind_some]
  rw [sealFrame, List.cons_append] at hmin hmax ⊢
  simp only [openFrame, Option.bind_eq_bind, Option.bind_eq_some_iff, Option.guard_eq_some',
    exists_const]
  exact ⟨⟨hmin, hmax⟩, htype, hcount, htake, body, by rw [hdrop]; exact hopens, rfl⟩

theorem receive_plain [Numerals]
    (hstate : l.state = .trusted key frames) (hnonce : l.peerNonce = some n)
    (hplain : l.plainOf frames frame = some (plain, l')) (hread : l'.readFrame key n plain = some y) :
    l.receive frame = (l', [y]) := by
  unfold receive
  rw [plainOf] at hplain
  simp only [hstate, hnonce, receiveTrusted, hplain, hread]

/-- A frame the other end has sealed is not forged. -/
theorem unforged_sealed [Numerals] (hstate : l.state = .trusted key (some keys))
    (hplain : l.plainOf (some keys) (sealFrame keys.recvKey l.recvCounter type body)
      = some (type :: body, { l with recvCounter := l.recvCounter + 1 })) (htype : type ≠ ackType)
    (hsealed : (⟨keys.recvKey, sealNonce (counterBytes l.recvCounter),
      sealAad type (counterBytes l.recvCounter), body, LinkCrypto.encrypt keys.recvKey
        (sealNonce (counterBytes l.recvCounter)) (sealAad type (counterBytes l.recvCounter)) body⟩
      : Seal) ∈ w.seals)
    (hopens : LinkCrypto.decrypt keys.recvKey (sealNonce (counterBytes l.recvCounter))
      (sealAad type (counterBytes l.recvCounter))
      (LinkCrypto.encrypt keys.recvKey (sealNonce (counterBytes l.recvCounter))
        (sealAad type (counterBytes l.recvCounter)) body) = some body) :
    Unforged w l (sealFrame keys.recvKey l.recvCounter type body) where
  auth hs := NearbyPhase.noConfusion (hstate.symm.trans hs)
  ack hs _ hp hack _ := by
    obtain ⟨-, rfl⟩ := NearbyPhase.trusted.inj (hstate.symm.trans hs)
    obtain ⟨rfl, -⟩ := Prod.mk.inj (Option.some.inj (hplain.symm.trans hp))
    simp only [readAck, Option.bind_eq_bind, Option.bind_eq_some_iff, Option.guard_eq_some',
      exists_const, List.head?_cons, Option.some.injEq] at hack
    exact absurd hack.1.1 htype
  opened hs hframe hdecrypt := by
    obtain ⟨-, hk⟩ := NearbyPhase.trusted.inj (hstate.symm.trans hs)
    obtain rfl := Option.some.inj hk
    rw [sealFrame, List.cons_append, List.cons_append] at hframe
    obtain ⟨rfl, hrest⟩ := List.cons.inj hframe
    obtain rfl := List.append_cancel_left hrest
    obtain rfl := Option.some.inj (hopens.symm.trans hdecrypt)
    exact hsealed

end

theorem sample_opens (key nonce aad body : Bytes) :
    @LinkCrypto.decrypt sampleCrypto key nonce aad
      (@LinkCrypto.encrypt sampleCrypto key nonce aad body) = some body := by
  let tag := (List.range 16).map fun i =>
    (key ++ nonce ++ aad ++ body).foldl (fun h b => 31 * h + b) (UInt8.ofNat i)
  have hlen : (body ++ tag).length - 16 = body.length := by
    simp [tag]
  have htake : (body ++ tag).take ((body ++ tag).length - 16) = body := by
    rw [hlen, List.take_left]
  have hdrop : (body ++ tag).drop ((body ++ tag).length - 16) = tag := by
    rw [hlen, List.drop_left]
  show (if (body ++ tag).drop ((body ++ tag).length - 16) = (List.range 16).map (fun i =>
      (key ++ nonce ++ aad ++ (body ++ tag).take ((body ++ tag).length - 16)).foldl
        (fun h b => 31 * h + b) (UInt8.ofNat i))
    then some ((body ++ tag).take ((body ++ tag).length - 16)) else none) = some body
  rw [htake, hdrop, if_pos rfl]

theorem sample_distinctFrameKeys : @DistinctFrameKeys sampleCrypto Bool samplePhones := by
  refine @DistinctFrameKeys.mk sampleCrypto _ _ ?_
  intro p p' s s' π π' key key' r r' a c a' c' _ _ h
  change frameKeyInfo r ++ (a.val ++ c.val) ++ key = frameKeyInfo r' ++ (a'.val ++ c'.val) ++ key'
    at h
  obtain rfl : r = r' := by
    have h35 := congrArg (fun l : Bytes => l[34]?) h
    simp only [List.append_assoc] at h35
    cases r <;> cases r' <;> first
      | rfl
      | (rw [List.getElem?_append_left (by decide), List.getElem?_append_left (by decide)] at h35
         exact absurd h35 (by decide))
  rw [List.append_assoc, List.append_assoc (frameKeyInfo r)] at h
  have hrest := List.append_cancel_left h
  have hlen : (a.val ++ c.val).length = (a'.val ++ c'.val).length := by
    rw [List.length_append, List.length_append, a.property, c.property, a'.property, c'.property]
  obtain ⟨hnonces, hkey⟩ := List.append_inj hrest hlen
  obtain ⟨ha, hc⟩ := nonces_inj hnonces
  exact ⟨hkey, ha, hc, rfl⟩

section
attribute [local instance] sampleCrypto Sync.decimalNumerals

/-- The offer `signet-child:x`. -/
def sampleOffer : Bytes := offerType :: text "signet-child:x"

/-- A guardian's phone and a child's, over a link that seals. -/
def pairedWorld : World Bool :=
  met samplePhones .childPair true false (samplePhones false).publicKey
    (samplePhones true).publicKey (sampleNonce 1) (sampleNonce 2) (sampleKey .childPair)

end

end SignetApp.Nearby
