import SignetApp.Concurrency.Reach
import SignetApp.Nearby.Heirs
import SignetApp.Nearby.Trust

/-!
# Two phones keep one link

The dedupe hands everything the dropped link had earned to the link that stays. It loses something
only where it does not come to run in time: a link that leaves before its twin is trusted hands
nothing over, and the store of an event that came over a link is acknowledged by that link's own
heir, not by the heir's heir.
-/

namespace SignetApp.Nearby

open Js NearbyLink

namespace Carrier

/-- What link `i` has for the link that outlives it. -/
def Owes (c : Carrier) (i : ℕ) : Prop :=
  ∃ s, c.links[i]? = some s ∧ (s.peer ≠ none ∨ s.delivered ≠ [] ∨ s.queue ≠ []
    ∨ ∃ x ∈ c.links, x.successor = some i ∧ x.queue ≠ [])

/-- A link to this session, or one that may yet become one. -/
def MayReach (l : NearbyLink) (session : Option JsString) : Prop :=
  l.state = .hello ∨ l.peerSession = session

/-- Nothing is lost by this action. -/
structure Careful [LinkCrypto] [Numerals] (c : Carrier) (a : Happening) : Prop where
  /-- A link that owes something does not leave while a link that may become its twin is open. -/
  lost : ∀ (i : ℕ) (s : LinkState), c.Loses a i → c.links[i]? = some s → s.present = true →
    c.Owes i → ∀ (j : ℕ) (t : LinkState), j ≠ i → c.links[j]? = some t → t.present = true →
      t.authenticated = false → ¬ MayReach t.link s.link.peerSession
  /-- The dedupe does not take away the heir of a link that still has a store under way, nor, under
  `childPair`, a link that has. -/
  replaced : ∀ (i j : ℕ) (t : LinkState), c.Replaces a i j → c.links[j]? = some t →
    (c.profile = .childPair → t.queue = []) ∧ ∀ x ∈ c.links, x.successor = some j → x.queue = []

/-- What the dedupe has made of the links. -/
structure Kin (c : Carrier) : Prop where
  hop : ∀ (i : ℕ) (s : LinkState) (k : ℕ), c.links[i]? = some s → s.successor = some k →
    ∃ t, c.links[k]? = some t ∧ Carries s t
      ∧ (∀ peer, s.link.peerSession = some peer →
        s.outgoing = sessionDialler c.session.publicKey.val peer →
        t.outgoing = sessionDialler c.session.publicKey.val peer)
      ∧ (t.present = false → s.closedAt ≤ t.closedAt)
  gone : ∀ s ∈ c.links, s.present = false → s.closedAt ≤ c.links.length
  /-- No link takes over from itself, directly or through others. -/
  rank : ∃ r : ℕ → ℕ, ∀ (i : ℕ) (s : LinkState) (k : ℕ), c.links[i]? = some s →
    s.successor = some k → r k < r i

/-- What a link that left owes has been handed over. -/
structure Handed (c : Carrier) : Prop where
  lost : ∀ (i : ℕ) (s : LinkState), c.links[i]? = some s → s.present = false →
    s.successor = none → s.authenticated = true → c.Owes i → ∀ (j : ℕ) (t : LinkState),
      c.links[j]? = some t → t.present = true → j < s.closedAt →
        ¬ MayReach t.link s.link.peerSession
  waits : ∀ (i : ℕ) (s : LinkState) (k : ℕ), c.links[i]? = some s → s.successor = some k →
    s.queue ≠ [] → c.profile = .handshake ∧ ∀ t, c.links[k]? = some t → t.successor = none

variable {c c' : Carrier} {lost : ℕ → Prop} {replaces : ℕ → ℕ → Prop}

theorem Follows.length (hf : Follows c lost replaces c') : c.links.length ≤ c'.links.length := by
  by_contra h
  obtain ⟨s', hs', -⟩ := hf.grown c'.links.length _ (List.getElem?_eq_getElem (by omega))
  cases (List.getElem?_eq_none le_rfl).symm.trans hs'

variable {s : LinkState}

theorem Tidy.gone_of_successor (htidy : c.Tidy) (hs : s ∈ c.links) {k : ℕ}
    (hk : s.successor = some k) : s.present = false := by
  by_contra hp
  cases ((htidy.link s hs).present (by simpa using hp)).symm.trans hk

theorem Kin.next (h : Kin c) (hf : Follows c lost replaces c') (hup : Upkeep c c')
    (htidy : c.Tidy) (htidy' : c'.Tidy) : Kin c' := by
  have hgone : ∀ s' ∈ c'.links, s'.present = false → s'.closedAt ≤ c'.links.length := by
    intro s' hs' hp'
    obtain ⟨i, hi⟩ := List.mem_iff_getElem?.1 hs'
    rcases hf.origin i s' hi with ⟨s, hs, hg⟩ | ⟨-, hp, -⟩
    · cases hp : s.present with
      | true =>
        rw [(hf.departs i s s' hs hi hp hp').1]
        exact hf.length
      | false =>
        rw [(hg.gone hp).1]
        exact (h.gone s (List.mem_of_getElem? hs) hp).trans hf.length
    · cases hp.symm.trans hp'
  refine ⟨?_, hgone, ?_⟩
  · intro i s' k hs' hk
    -- a hop that was there
    have hold : ∀ {s : LinkState}, c.links[i]? = some s → s.successor = some k →
        ∃ t', c'.links[k]? = some t' ∧ Carries s' t' ∧ (∀ peer, s'.link.peerSession = some peer →
          s'.outgoing = sessionDialler c'.session.publicKey.val peer →
          t'.outgoing = sessionDialler c'.session.publicKey.val peer)
          ∧ (t'.present = false → s'.closedAt ≤ t'.closedAt) := by
      intro s hs hsk
      obtain ⟨t, ht, hcarries, hdial, hclosed⟩ := h.hop i s k hs hsk
      obtain ⟨t', ht', hgt⟩ := hf.grown k t ht
      obtain ⟨s₁, hs₁, hgs⟩ := hf.grown i s hs
      obtain rfl := Option.some.inj (hs'.symm.trans hs₁)
      have hmem := List.mem_of_getElem? hs
      obtain ⟨_, _, _, hsa, _⟩ := htidy.heir s hmem k hsk
      obtain ⟨hat, hback, -, -, -⟩ := hgs.gone (htidy.gone_of_successor hmem hsk)
      refine ⟨t', ht', (hback.trans hcarries).trans hgt.carries, ?_, ?_⟩
      · intro peer hpeer ho
        rw [hgs.session (htidy.link s hmem) hsa] at hpeer
        rw [hup.session] at ho ⊢
        rw [hgt.outgoing]
        exact hdial peer hpeer (hgs.outgoing ▸ ho)
      · intro hp'
        rw [hat]
        cases hp : t.present with
        | true =>
          rw [(hf.departs k t t' ht ht' hp hp').1]
          exact h.gone s hmem (htidy.gone_of_successor hmem hsk)
        | false =>
          rw [(hgt.gone hp).1]
          exact hclosed hp
    rcases hf.heirs with hall | ⟨i₀, k₀, s₀, s₀', t₀', peer, hto, hall⟩
    · obtain ⟨s, hs, hsk⟩ := hall i s' k hs' hk
      exact hold hs hsk
    · rcases hall i s' k hs' hk with ⟨rfl, rfl⟩ | ⟨s, hs, hsk⟩
      · obtain rfl := Option.some.inj (hs'.symm.trans hto.after)
        refine ⟨t₀', hto.heir, hto.carries, ?_, ?_⟩
        · intro peer' hpeer' ho
          obtain rfl := Option.some.inj (hto.session'.symm.trans hpeer')
          rw [hup.session] at ho ⊢
          exact hto.dialled ho
        · intro hp'
          cases (LinkState.live_iff.1 hto.live).1.symm.trans hp'
      · exact hold hs hsk
  · obtain ⟨r, hr⟩ := h.rank
    rcases hf.heirs with hall | ⟨i₀, k₀, s₀, s₀', t₀', peer, hto, hall⟩
    · refine ⟨r, ?_⟩
      intro i s' k hs' hk
      obtain ⟨s, hs, hsk⟩ := hall i s' k hs' hk
      exact hr i s k hs hsk
    · -- the heir has none of its own, so it may come last
      refine ⟨fun i => if i = k₀ then 0 else r i + 1, ?_⟩
      intro i s' k hs' hk
      have hne : i ≠ k₀ := by
        rintro rfl
        obtain rfl := Option.some.inj (hs'.symm.trans hto.heir)
        have hlive := (LinkState.live_iff.1 hto.live).1
        cases ((htidy'.link s' (List.mem_of_getElem? hs')).present hlive).symm.trans hk
      have hlt : k ≠ k₀ → r k < r i := by
        intro hkk
        rcases hall i s' k hs' hk with ⟨-, rfl⟩ | ⟨s, hs, hsk⟩
        · exact absurd rfl hkk
        · exact hr i s k hs hsk
      dsimp only
      rw [if_neg hne]
      split
      · omega
      · next hkk => exact Nat.succ_lt_succ (hlt hkk)

variable {t : LinkState}

theorem Grown.mayReach {t' : LinkState} (h : Grown t t') {session : Option JsString}
    (hreach : MayReach t'.link session) : MayReach t.link session := by
  by_cases hs : t.link.state = .hello
  · exact .inl hs
  · obtain ⟨hs', -, hsession⟩ := h.onward.met hs
    rcases hreach with hh | hp
    · exact absurd hh hs'
    · exact .inr (hsession.symm.trans hp)

variable {i : ℕ}

/-- A link that has left owes only what it owed. -/
theorem Owes.back (hf : Follows c lost replaces c') (htidy : c.Tidy) {s' : LinkState}
    (hs : c.links[i]? = some s) (hs' : c'.links[i]? = some s') (hp' : s'.present = false)
    (hcarries : Carries s' s) (hqueue : s'.queue <:+ s.queue) (h : c'.Owes i) : c.Owes i := by
  obtain ⟨s₁, hs₁, h⟩ := h
  obtain rfl := Option.some.inj (hs'.symm.trans hs₁)
  refine ⟨s, hs, ?_⟩
  rcases h with hpeer | hd | hq | ⟨x', hx', hxi, hxq⟩
  · obtain ⟨p, hpeer⟩ := Option.ne_none_iff_exists'.1 hpeer
    left
    rw [hcarries.peer p hpeer]
    exact nofun
  · refine .inr (.inl ?_)
    intro hnil
    exact hd (List.subset_nil.1 (hnil ▸ hcarries.delivered))
  · refine .inr (.inr (.inl ?_))
    intro hnil
    exact hq (List.suffix_nil.1 (hnil ▸ hqueue))
  · obtain ⟨m, hm⟩ := List.mem_iff_getElem?.1 hx'
    have hold : ∃ x, c.links[m]? = some x ∧ x.successor = some i := by
      rcases hf.heirs with hall | ⟨i₀, k₀, s₀, s₀', t₀', peer, hto, hall⟩
      · exact hall m x' i hm hxi
      · rcases hall m x' i hm hxi with ⟨-, rfl⟩ | hx
        · obtain rfl := Option.some.inj (hs'.symm.trans hto.heir)
          cases (LinkState.live_iff.1 hto.live).1.symm.trans hp'
        · exact hx
    obtain ⟨x, hx, hxs⟩ := hold
    obtain ⟨x₁, hx₁, hg⟩ := hf.grown m x hx
    obtain rfl := Option.some.inj (hm.symm.trans hx₁)
    have hmem := List.mem_of_getElem? hx
    have hsuffix := (hg.gone (htidy.gone_of_successor hmem hxs)).2.2.1
    refine .inr (.inr (.inr ⟨x, hmem, hxs, ?_⟩))
    intro hnil
    exact hxq (List.suffix_nil.1 (hnil ▸ hsuffix))

theorem Handed.next [LinkCrypto] [Numerals] {a : Happening} (h : Handed c) (hkin : Kin c)
    (hf : Follows c (c.Loses a) (c.Replaces a) c') (hup : Upkeep c c') (htidy : c.Tidy)
    (htidy' : c'.Tidy) (ha : c.Careful a) : Handed c' := by
  refine ⟨?_, ?_⟩
  · intro i s' hs' hp' hsucc' hauth' howes' j t' ht' htp' hj
    rcases hf.origin i s' hs' with ⟨s, hs, hg⟩ | ⟨-, hp, -⟩
    swap
    · cases hp.symm.trans hp'
    have hmem := List.mem_of_getElem? hs
    have hlen : s'.closedAt ≤ c.links.length := by
      cases hp : s.present with
      | true => exact (hf.departs i s s' hs hs' hp hp').1.le
      | false => exact (hg.gone hp).1.le.trans (hkin.gone s hmem hp)
    rcases hf.origin j t' ht' with ⟨t, ht, hgt⟩ | ⟨hjl, -, -⟩
    swap
    · omega
    have htp := hgt.present htp'
    intro hreach
    have hreach := Grown.mayReach hgt hreach
    cases hp : s.present with
    | false =>
      obtain ⟨hat, hback, hq, hse, hae⟩ := hg.gone hp
      have hauth := hae.symm.trans hauth'
      have howes := Owes.back hf htidy hs hs' hp' hback hq howes'
      rw [hg.session (htidy.link s hmem) hauth] at hreach
      exact h.lost i s hs hp (hse.symm.trans hsucc') hauth howes j t ht htp (hat ▸ hj) hreach
    | true =>
      obtain ⟨-, hrest⟩ := hf.departs i s s' hs hs' hp hp'
      obtain ⟨hback, hq, hae, hlost | hall⟩ := hrest hsucc'
      · have hauth := hae.symm.trans hauth'
        have howes := Owes.back hf htidy hs hs' hp' hback hq howes'
        rw [hg.session (htidy.link s hmem) hauth] at hreach
        have hne : j ≠ i := by
          rintro rfl
          obtain rfl := Option.some.inj (hs'.symm.trans ht')
          cases hp'.symm.trans htp'
        cases hta : t.authenticated with
        | false => exact ha.lost i s hlost hs hp howes j t hne ht htp hta hreach
        | true =>
          have htt := htidy.link t (List.mem_of_getElem? ht)
          rcases hreach with hh | hsession
          · exact (htt.met hta).1 hh
          · exact hne (htidy.solo j i t s ht hs (htt.live htp hta)
              ((htidy.link s hmem).live hp hauth) hsession)
      · cases (hall t' (List.mem_of_getElem? ht')).symm.trans htp'
  · intro i s' k hs' hk hq'
    have hold : ∀ {s : LinkState}, c.links[i]? = some s → s.successor = some k →
        c'.profile = .handshake ∧ ∀ t, c'.links[k]? = some t → t.successor = none := by
      intro s hs hsk
      have hmem := List.mem_of_getElem? hs
      obtain ⟨s₁, hs₁, hg⟩ := hf.grown i s hs
      obtain rfl := Option.some.inj (hs'.symm.trans hs₁)
      have hsuffix := (hg.gone (htidy.gone_of_successor hmem hsk)).2.2.1
      have hq : s.queue ≠ [] := by
        intro hnil
        exact hq' (List.suffix_nil.1 (hnil ▸ hsuffix))
      obtain ⟨hprofile, hnone⟩ := h.waits i s k hs hsk hq
      refine ⟨hup.profile.trans hprofile, ?_⟩
      intro t' ht'
      by_contra hsucc
      obtain ⟨m, hm⟩ := Option.ne_none_iff_exists'.1 hsucc
      have hback : ∀ t, c.links[k]? = some t → t.successor ≠ some m := by
        intro t ht htm
        cases (hnone t ht).symm.trans htm
      rcases hf.heirs with hall | ⟨i₀, k₀, s₀, s₀', t₀', peer, hto, hall⟩
      · obtain ⟨t, ht, htm⟩ := hall k t' m ht' hm
        exact hback t ht htm
      · rcases hall k t' m ht' hm with ⟨rfl, rfl⟩ | ⟨t, ht, htm⟩
        · have hrep := hto.waiting s hmem hsk
          exact hq ((ha.replaced m k s₀ hrep hto.before).2 s hmem hsk)
        · exact hback t ht htm
    rcases hf.heirs with hall | ⟨i₀, k₀, s₀, s₀', t₀', peer, hto, hall⟩
    · obtain ⟨s, hs, hsk⟩ := hall i s' k hs' hk
      exact hold hs hsk
    · rcases hall i s' k hs' hk with ⟨rfl, rfl⟩ | ⟨s, hs, hsk⟩
      · obtain rfl := Option.some.inj (hs'.symm.trans hto.after)
        obtain ⟨hrep, hqe⟩ := hto.queue hq'
        refine ⟨?_, ?_⟩
        · rw [hup.profile]
          cases hprofile : c.profile with
          | handshake => rfl
          | childPair =>
            exact absurd (hqe.trans ((ha.replaced k i s₀ hrep hto.before).1 hprofile)) hq'
        · intro t ht
          obtain rfl := Option.some.inj (ht.symm.trans hto.heir)
          exact (htidy'.link t (List.mem_of_getElem? ht)).present (LinkState.live_iff.1 hto.live).1
      · exact hold hs hsk

/-! ## The survivor -/

/-- Link `i` itself, or a link that took over from it, directly or through others. -/
inductive Heir (c : Carrier) (i : ℕ) : ℕ → Prop where
  | self : Heir c i i
  | next {j k : ℕ} {s : LinkState} (h : Heir c i j) (hj : c.links[j]? = some s)
      (hk : s.successor = some k) : Heir c i k

/-- Link `i` has left, and link `j` is the trusted link to its session that is left: it was open
when `i`, or a link that took over from it, went. -/
structure Survives (c : Carrier) (i j : ℕ) (s t : LinkState) : Prop where
  dropped : c.links[i]? = some s
  gone : s.present = false
  survivor : c.links[j]? = some t
  live : t.live = true
  session : t.link.peerSession = s.link.peerSession
  open' : ∃ (k : ℕ) (u : LinkState), Heir c i k ∧ c.links[k]? = some u ∧ u.present = false
    ∧ j < u.closedAt

/-- Everything one phone keeps. -/
structure LosesNothing [LinkCrypto] [Numerals] (c : Carrier) : Prop where
  /-- At most one trusted link for each peer session. -/
  solo : ∀ (i j : ℕ) (s t : LinkState), c.links[i]? = some s → c.links[j]? = some t →
    s.live = true → t.live = true → s.link.peerSession = t.link.peerSession → i = j
  /-- No two links are bound to one persona. -/
  personas : ∀ (i j : ℕ) (s t : LinkState) (p : JsString), c.links[i]? = some s →
    c.links[j]? = some t → s.present = true → t.present = true → s.peer = some p →
    t.peer = some p → i = j
  /-- The survivor has the binding and the delivered ids of the link that left. -/
  carried : ∀ i j s t, Survives c i j s t → Carries s t
  /-- A store that finishes after its link has left is recorded and acknowledged on the survivor. -/
  acknowledged : ∀ i j s t event rest receipt, Survives c i j s t → s.queue = .event event :: rest →
    ∃ t', (c.next (.finish i receipt)).links[j]? = some t'
      ∧ t'.acked = t.acked ++ [(event.id.val, decide (receipt ≠ .rejected))]
      ∧ (receipt = .stored → event.id.val ∈ t'.delivered)
  /-- A promise that has resolved stays resolved, with its value. -/
  once : ∀ (a : Happening) (p : ℕ) (q : FramePromise) (b : Bool), c.promises[p]? = some q →
    q.result = some b → ∃ q', (c.next a).promises[p]? = some q' ∧ q'.result = some b
  /-- One whose send has settled waits only while its link is there, and at most for its timer. -/
  resolves : ∀ (p : ℕ) (q : FramePromise), c.promises[p]? = some q → q.sending ≠ .pending →
    (q.result = none → ∃ s, c.links[q.link]? = some s ∧ s.present = true)
      ∧ ∃ q' b, (c.next (.timeout p)).promises[p]? = some q' ∧ q'.result = some b
  /-- It resolves to `true` only if the peer said on that link that it stored that event. -/
  heard : ∀ (p : ℕ) (q : FramePromise), c.promises[p]? = some q → q.result = some true →
    ∃ s, c.links[q.link]? = some s ∧ (q.id, true) ∈ s.heard

variable {j : ℕ}

/-- Along the chain of heirs of a link that left, what it had earned is not lost. -/
theorem carried_from (htidy : c.Tidy) (hkin : Kin c) (hhanded : Handed c) (ht : c.links[j]? = some t) (hlive : t.live = true) {r : ℕ → ℕ}
    (hr : ∀ (i : ℕ) (s : LinkState) (k : ℕ), c.links[i]? = some s → s.successor = some k →
      r k < r i) (n : ℕ) : ∀ (k : ℕ) (u : LinkState), r k = n → c.links[k]? = some u →
      u.present = false → u.authenticated = true → Carries s u → j < u.closedAt →
      t.link.peerSession = u.link.peerSession → Carries s t := by
  induction n using Nat.strong_induction_on with
  | _ n ih =>
    intro k u hrk hu hgone hauth hcarries hj hsession
    cases hsucc : u.successor with
    | none =>
      -- `u` was lost, so it owed nothing
      have hnot : ¬ c.Owes k := fun howes => hhanded.lost k u hu hgone hsucc hauth howes j t ht
        (LinkState.live_iff.1 hlive).1 hj (.inr hsession)
      refine ⟨?_, ?_⟩
      · intro p hp
        refine absurd ⟨u, hu, .inl ?_⟩ hnot
        rw [hcarries.peer p hp]
        exact nofun
      · intro x hx
        refine absurd ⟨u, hu, .inr (.inl ?_)⟩ hnot
        exact List.ne_nil_of_mem (hcarries.delivered hx)
    | some m =>
      obtain ⟨v, hv, huv, -, hclosed⟩ := hkin.hop k u m hu hsucc
      obtain ⟨v', hv', hva, -, hvs⟩ := htidy.heir u (List.mem_of_getElem? hu) m hsucc
      obtain rfl := Option.some.inj (hv.symm.trans hv')
      cases hvp : v.present with
      | true =>
        have hvl := (htidy.link v (List.mem_of_getElem? hv)).live hvp hva
        obtain rfl := htidy.solo m j v t hv ht hvl hlive (hvs.trans hsession.symm)
        obtain rfl := Option.some.inj (hv.symm.trans ht)
        exact hcarries.trans huv
      | false =>
        exact ih (r m) (hrk ▸ hr k u m hu hsucc) m v rfl hv hvp hva (hcarries.trans huv)
          (hj.trans_le (hclosed hvp)) (hsession.trans hvs.symm)

theorem Heir.carries (htidy : c.Tidy) (hkin : Kin c) {k : ℕ} {u : LinkState}
    (h : Heir c i k) (hs : c.links[i]? = some s) (hauth : s.authenticated = true)
    (hu : c.links[k]? = some u) : Carries s u ∧ u.authenticated = true
      ∧ u.link.peerSession = s.link.peerSession := by
  induction h generalizing u with
  | self =>
    obtain rfl := Option.some.inj (hs.symm.trans hu)
    exact ⟨.refl s, hauth, rfl⟩
  | @next j k v h hj hk ih =>
    obtain ⟨hsv, hva, hvs⟩ := ih hj
    obtain ⟨w, hw, hvw, -, -⟩ := hkin.hop j v k hj hk
    obtain ⟨w', hw', hwa, -, hws⟩ := htidy.heir v (List.mem_of_getElem? hj) k hk
    obtain rfl := Option.some.inj (hw.symm.trans hw')
    obtain rfl := Option.some.inj (hu.symm.trans hw)
    exact ⟨hsv.trans hvw, hwa, hws.trans hvs⟩

theorem carried (htidy : c.Tidy) (hkin : Kin c) (hhanded : Handed c)
    (h : Survives c i j s t) : Carries s t := by
  cases hauth : s.authenticated with
  | false =>
    obtain ⟨hpeer, hd, -⟩ := (htidy.link s (List.mem_of_getElem? h.dropped)).unearned hauth
    refine ⟨?_, hd ▸ List.nil_subset _⟩
    intro p hp
    cases hpeer.symm.trans hp
  | true =>
    obtain ⟨k, u, hheir, hu, hgone, hj⟩ := h.open'
    obtain ⟨hsu, hua, hus⟩ := hheir.carries htidy hkin h.dropped hauth hu
    obtain ⟨r, hr⟩ := hkin.rank
    exact carried_from htidy hkin hhanded h.survivor h.live hr (r k) k u rfl hu hgone hua hsu hj
      (h.session.trans hus.symm)

theorem Heir.head {i k : ℕ} (h : Heir c i k) : k = i ∨ ∃ s m, c.links[i]? = some s
    ∧ s.successor = some m ∧ Heir c m k := by
  induction h with
  | self => exact .inl rfl
  | @next j k v h hj hk ih =>
    right
    rcases ih with rfl | ⟨s, m, hs, hm, hmj⟩
    · exact ⟨v, k, hj, hk, .self⟩
    · exact ⟨s, m, hs, hm, hmj.next hj hk⟩

/-- The heir of a link that has a store under way is the survivor. -/
theorem successor_of_waits (htidy : c.Tidy) (hkin : Kin c) (hhanded : Handed c) (h : Survives c i j s t) (hq : s.queue ≠ []) :
    s.successor = some j ∧ c.profile = .handshake := by
  have hmem := List.mem_of_getElem? h.dropped
  have hauth : s.authenticated = true := by
    by_contra hna
    exact hq ((htidy.link s hmem).unearned (by simpa using hna)).2.2
  have htp := (LinkState.live_iff.1 h.live).1
  obtain ⟨k, u, hheir, hu, hgone, hj⟩ := h.open'
  cases hsucc : s.successor with
  | none =>
    rcases hheir.head with rfl | ⟨s', m, hs', hm, -⟩
    · obtain rfl := Option.some.inj (h.dropped.symm.trans hu)
      exact absurd (.inr h.session) (hhanded.lost k s hu hgone hsucc hauth
        ⟨s, hu, .inr (.inr (.inl hq))⟩ j t h.survivor htp hj)
    · obtain rfl := Option.some.inj (h.dropped.symm.trans hs')
      cases hsucc.symm.trans hm
  | some m =>
    obtain ⟨hprofile, hnone⟩ := hhanded.waits i s m h.dropped hsucc hq
    obtain ⟨v, hv, -, -, hclosed⟩ := hkin.hop i s m h.dropped hsucc
    obtain ⟨v', hv', hva, -, hvs⟩ := htidy.heir s hmem m hsucc
    obtain rfl := Option.some.inj (hv.symm.trans hv')
    cases hvp : v.present with
    | true =>
      have hvl := (htidy.link v (List.mem_of_getElem? hv)).live hvp hva
      rw [htidy.solo m j v t hv h.survivor hvl h.live (hvs.trans h.session.symm)]
      exact ⟨rfl, hprofile⟩
    | false =>
      -- the heir was lost while this store was under way
      have hjv : j < v.closedAt := by
        rcases hheir.head with rfl | ⟨s', m', hs', hm', hmk⟩
        · obtain rfl := Option.some.inj (h.dropped.symm.trans hu)
          exact hj.trans_le (hclosed hvp)
        · obtain rfl := Option.some.inj (h.dropped.symm.trans hs')
          obtain rfl := Option.some.inj (hsucc.symm.trans hm')
          rcases hmk.head with rfl | ⟨w, m', hw, hm', -⟩
          · obtain rfl := Option.some.inj (hv.symm.trans hu)
            exact hj
          · cases (hnone w hw).symm.trans hm'
      exact absurd (.inr (h.session.trans hvs.symm)) (hhanded.lost m v hv hvp (hnone v hv) hva
        ⟨v, hv, .inr (.inr (.inr ⟨s, hmem, hsucc, hq⟩))⟩ j t h.survivor htp hjv)

section
variable [LinkCrypto]

theorem ack_some {l : NearbyLink} (htrusted : l.trusted = true) (hknown : l.Known)
    (hprofile : l.profile = .handshake) (event : NostrEvent) (stored : Bool) :
    ∃ out l', l.ack event.id.val stored = some (out, l') := by
  cases hstate : l.state with
  | trusted key frames =>
    obtain ⟨hn, -⟩ := hknown (by rw [hstate]; exact NearbyPhase.noConfusion)
    obtain ⟨n, hn⟩ := Option.isSome_iff_exists.1 hn
    refine ⟨l.ackFrame key n (hexToBytes event.id.val) stored, l, ?_⟩
    have hseals : l.seals = false := by
      rw [NearbyLink.seals, hprofile]
      rfl
    have hwire : l.wire (l.ackFrame key n (hexToBytes event.id.val) stored)
        = some (l.ackFrame key n (hexToBytes event.id.val) stored, l) := by
      unfold NearbyLink.wire
      rw [hstate]
      simp only [ackFrame, List.cons_append, hseals, Bool.not_false, if_true]
    unfold NearbyLink.ack
    simp only [hstate, hn, event.id.property, guard_true, Option.bind_eq_bind]
    exact hwire
  | _ => simp [NearbyLink.trusted, hstate] at htrusted

/-- A store finishes after its link has left. -/
theorem acknowledged [Numerals] (htidy : c.Tidy) (hkin : Kin c) (hhanded : Handed c) {i j : ℕ}
    {s t : LinkState} {event : NostrEvent} {rest : List Task} (receipt : NearbyReceipt)
    (h : Survives c i j s t) (hq : s.queue = .event event :: rest) :
    ∃ t', (c.next (.finish i receipt)).links[j]? = some t'
      ∧ t'.acked = t.acked ++ [(event.id.val, decide (receipt ≠ .rejected))]
      ∧ (receipt = .stored → event.id.val ∈ t'.delivered) := by
  obtain ⟨hsucc, hprofile⟩ := successor_of_waits htidy hkin hhanded h
    (hq ▸ List.cons_ne_nil _ _)
  have htt := htidy.link t (List.mem_of_getElem? h.survivor)
  obtain ⟨htp, htrusted⟩ := LinkState.live_iff.1 h.live
  have hne : j ≠ i := by
    rintro rfl
    obtain rfl := Option.some.inj (h.survivor.symm.trans h.dropped)
    cases htp.symm.trans h.gone
  have hput := put_get h.dropped { s with queue := rest }
  have hi : (c.put i { s with queue := rest }).links[i]? = some { s with queue := rest } :=
    (hput i).trans (if_pos rfl)
  have hj : (c.put i { s with queue := rest }).links[j]? = some t :=
    (hput j).trans ((if_neg hne).trans h.survivor)
  have hreceiver : (c.put i { s with queue := rest }).receiver i { s with queue := rest }
      = some j := by
    rw [receiver, if_neg (by rw [h.gone]; exact Bool.false_ne_true)]
    refine Option.filter_eq_some_iff.2 ⟨hsucc, ?_⟩
    rw [hj]
    exact htp
  obtain ⟨out, l, hack⟩ := ack_some htrusted (htt.known htp) (htt.profile.trans hprofile) event
    (decide (receipt ≠ .rejected))
  have hfinish : c.next (.finish i receipt) = (c.put i { s with queue := rest }).acknowledge i
      event.id.val receipt := by
    show c.finish i receipt = _
    rw [finish, h.dropped]
    simp only [hq]
    have hne : ¬ c.profile = .childPair := by
      rw [hprofile]
      exact NearbyProfile.noConfusion
    exact if_neg hne
  rw [hfinish, acknowledge, hi]
  simp only [hreceiver, hj, hack]
  refine ⟨_, (put_get hj _ j).trans (if_pos rfl), rfl, ?_⟩
  intro hstored
  show event.id.val ∈ if receipt = .stored then t.delivered ++ [event.id.val] else t.delivered
  rw [if_pos hstored]
  exact List.mem_append_right _ (List.mem_singleton_self _)

/-! ## Promises -/

variable {q : FramePromise} {p : ℕ}

omit [LinkCrypto] in
theorem timeout_settles (hpromised : Promised c)
    (hq : c.promises[p]? = some q) (hnone : q.receipt = none) :
    ∃ q', (c.timeout p).promises[p]? = some q' ∧ q'.sending = q.sending
      ∧ q'.receipt = some false := by
  obtain ⟨s, hs, -, hmem⟩ := hpromised.awaited p q hq hnone
  have htimeout : c.timeout p = c.release q.link s (· = (q.id, p)) false := by
    rw [timeout, hq]
    simp only [hs]
  refine ⟨q.settle false, ?_, rfl, ?_⟩
  · rw [htimeout, release, settle_promises]
    show (c.promises[p]?).map _ = _
    rw [hq, Option.map_some, if_pos]
    exact List.mem_map.2 ⟨(q.id, p), List.mem_filter.2 ⟨hmem, by simp⟩, rfl⟩
  · show q.receipt.or (some false) = some false
    rw [hnone]
    rfl

omit [LinkCrypto] in
theorem resolves (hpromised : Promised c)
    (hq : c.promises[p]? = some q) (hsent : q.sending ≠ .pending) :
    (q.result = none → ∃ s, c.links[q.link]? = some s ∧ s.present = true)
      ∧ ∃ q' b, (c.timeout p).promises[p]? = some q' ∧ q'.result = some b := by
  have hmoves : Moves Idle (fun _ => True) c (c.timeout p) := timeout_moves c p
  have hgoes := hmoves.goes
  have hresolved : ∀ b, q.result = some b →
      ∃ q' b, (c.timeout p).promises[p]? = some q' ∧ q'.result = some b := by
    intro b hb
    obtain ⟨q', hq', hg⟩ := hgoes p q hq
    exact ⟨q', b, hq', hg.result hb⟩
  rcases hsending : q.sending with _ | _ | _
  · exact absurd hsending hsent
  · have hresult : q.result = q.receipt := by rw [FramePromise.result, hsending]
    refine ⟨?_, ?_⟩
    · intro hnone
      obtain ⟨s, hs, hp, -⟩ := hpromised.awaited p q hq (hresult.symm.trans hnone)
      exact ⟨s, hs, hp⟩
    · cases hr : q.receipt with
      | some b => exact hresolved b (hresult.trans hr)
      | none =>
        obtain ⟨q', hq', hs', hr'⟩ := timeout_settles hpromised hq hr
        refine ⟨q', false, hq', ?_⟩
        rw [FramePromise.result, hs', hsending]
        exact hr'
  · have hresult : q.result = some false := by rw [FramePromise.result, hsending]
    refine ⟨?_, hresolved false hresult⟩
    intro hnone
    cases hresult.symm.trans hnone

omit [LinkCrypto] in
theorem heard (hpromised : Promised c)
    (hq : c.promises[p]? = some q) (htrue : q.result = some true) :
    ∃ s, c.links[q.link]? = some s ∧ (q.id, true) ∈ s.heard := by
  refine hpromised.heard p q hq ?_
  rcases hsending : q.sending with _ | _ | _ <;> rw [FramePromise.result, hsending] at htrue
  · cases htrue
  · exact htrue
  · cases htrue

/-! ## Runs -/

/-- What holds of every carrier of a careful run. -/
structure Running (c : Carrier) : Prop where
  tidy : c.Tidy
  kin : Kin c
  handed : Handed c
  promised : Promised c

omit [LinkCrypto] in
theorem running_start (session : Session) (profile : NearbyProfile) :
    Running (start session profile) := by
  have hmem : ∀ s, s ∉ (start session profile).links := fun _ => List.not_mem_nil
  have hget : ∀ (i : ℕ) (s : LinkState), (start session profile).links[i]? ≠ some s :=
    fun i s h => hmem s (List.mem_of_getElem? h)
  have hnone : ∀ (p : ℕ) (q : FramePromise), (start session profile).promises[p]? ≠ some q :=
    fun p q h => List.not_mem_nil (List.mem_of_getElem? h)
  refine ⟨⟨?_, ?_, ?_, ?_⟩, ⟨?_, ?_, ⟨fun _ => 0, ?_⟩⟩, ⟨?_, ?_⟩, ⟨?_, ?_, ?_⟩⟩
  · exact fun s hs => absurd hs (hmem s)
  · exact fun s hs => absurd hs (hmem s)
  · exact fun i j s t hs => absurd hs (hget i s)
  · exact fun i j s t p hs => absurd hs (hget i s)
  · exact fun i s k hs => absurd hs (hget i s)
  · exact fun s hs => absurd hs (hmem s)
  · exact fun i s k hs => absurd hs (hget i s)
  · exact fun i s hs => absurd hs (hget i s)
  · exact fun i s k hs => absurd hs (hget i s)
  · exact fun p q hq => absurd hq (hnone p q)
  · exact fun i s e hs => absurd hs (hget i s)
  · exact fun p q hq => absurd hq (hnone p q)

variable [Numerals]

theorem Running.next (h : Running c) {a : Happening} (ha : c.Careful a) :
    Running (c.next a) ∧ (c.next a).session = c.session := by
  obtain ⟨hup, hchange⟩ := next_change h.tidy a
  have htidy := hchange.tidy hup h.tidy
  have hf := hchange.follows h.tidy
  exact ⟨⟨htidy, h.kin.next hf hup h.tidy htidy,
    h.handed.next h.kin hf hup h.tidy htidy ha, hup.promised h.promised⟩, hup.session⟩

theorem running_of_reaches {session : Session} {profile : NearbyProfile}
    (h : Reaches Carrier.next Careful (.start session profile) c) :
    Running c ∧ c.session = session := by
  refine h.invariant (I := fun c => Running c ∧ c.session = session)
    ⟨running_start session profile, rfl⟩ ?_
  rintro c a ⟨hc, hsession⟩ ha
  obtain ⟨hc', hsession'⟩ := hc.next ha
  exact ⟨hc', hsession'.trans hsession⟩

theorem Running.losesNothing (h : Running c) : LosesNothing c where
  solo := h.tidy.solo
  personas := h.tidy.personas
  carried _ _ _ _ hs := carried h.tidy h.kin h.handed hs
  acknowledged _ _ _ _ _ _ receipt hs hq := acknowledged h.tidy h.kin h.handed receipt hs hq
  once a p q b hq hb := by
    obtain ⟨q', hq', hg⟩ := (next_change h.tidy a).1.goes p q hq
    exact ⟨q', hq', hg.result hb⟩
  resolves _ _ hq hsent := resolves h.promised hq hsent
  heard _ _ hq htrue := heard h.promised hq htrue

end

/-- A link that `dialler` dialled, trusted at both phones. -/
def BothEnds (phones : Bool → Session) (c : Bool → Carrier) (dialler : Bool) (i : Bool → ℕ)
    (s : Bool → LinkState) : Prop :=
  ∀ p, (c p).links[i p]? = some (s p) ∧ (s p).authenticated = true
    ∧ (s p).link.peerSession = some (phones !p).publicKey.val ∧ (s p).outgoing = (p == dialler)

/-- Of two links to one session, both once trusted, a phone lets go of the one that the higher
session dialled, unless the other one has left as well. -/
theorem Running.prefers (h : Running c) {own peer : JsString} (hown : c.session.publicKey.val = own)
    (hs : c.links[i]? = some s) (hsa : s.authenticated = true)
    (hsp : s.link.peerSession = some peer) (hso : s.outgoing = sessionDialler own peer)
    (ht : c.links[j]? = some t) (hta : t.authenticated = true)
    (htp : t.link.peerSession = some peer) (hto : t.outgoing ≠ sessionDialler own peer)
    (hleft : s.present = false → ∃ k u, s.successor = some k ∧ c.links[k]? = some u
      ∧ u.outgoing ≠ s.outgoing) : s.present = true ∧ t.present = false := by
  have hpresent : s.present = true := by
    by_contra hgone
    obtain ⟨k, u, hk, hu, hou⟩ := hleft (by simpa using hgone)
    obtain ⟨u', hu', -, hdialled, -⟩ := h.kin.hop i s k hs hk
    obtain rfl := Option.some.inj (hu.symm.trans hu')
    rw [hown] at hdialled
    exact hou ((hdialled peer hsp hso).trans hso.symm)
  refine ⟨hpresent, ?_⟩
  by_contra htpresent
  have hlive := (h.tidy.link s (List.mem_of_getElem? hs)).live hpresent hsa
  have htlive := (h.tidy.link t (List.mem_of_getElem? ht)).live (by simpa using htpresent) hta
  obtain rfl := h.tidy.solo i j s t hs ht hlive htlive (hsp.trans htp.symm)
  obtain rfl := Option.some.inj (hs.symm.trans ht)
  exact hto hso

/-- In careful runs of two phones neither loses anything. Of two links between them, both trusted at
both phones, both phones keep the one that the lower session key dialled, if it leaves at all only
for a link dialled the other way. -/
theorem keeps_one_link [LinkCrypto] [Numerals] {phones : Bool → Session} {profile : NearbyProfile}
    {c : Bool → Carrier}
    (hrun : ∀ p, Reaches Carrier.next Careful (.start (phones p) profile) (c p)) :
    (∀ p, LosesNothing (c p)) ∧
      ∀ (low : Bool) (i j : Bool → ℕ) (s t : Bool → LinkState),
        (phones low).publicKey.val < (phones !low).publicKey.val →
        BothEnds phones c low i s → BothEnds phones c (!low) j t →
        (∀ p, (s p).present = false → ∃ k u, (s p).successor = some k
          ∧ (c p).links[k]? = some u ∧ u.outgoing ≠ (s p).outgoing) →
        ∀ p, (s p).present = true ∧ (t p).present = false := by
  refine ⟨fun p => (running_of_reaches (hrun p)).1.losesNothing, ?_⟩
  intro low i j s t hlow hs ht hleft p
  obtain ⟨hc, hsession⟩ := running_of_reaches (hrun p)
  obtain ⟨hsi, hsa, hsp, hso⟩ := hs p
  obtain ⟨htj, hta, htp, hto⟩ := ht p
  -- the lower session dials, as both phones compute it
  have hdialler : sessionDialler (phones p).publicKey.val (phones !p).publicKey.val
      = (p == low) := by
    rw [sessionDialler, (phones p).publicKey.property, (phones !p).publicKey.property]
    by_cases hp : p = low
    · subst hp
      simp [hlow]
    · obtain rfl : p = !low := by
        cases p <;> cases low <;> simp_all
      rw [Bool.not_not]
      have hnot : ¬ (phones !low).publicKey.val < (phones low).publicKey.val := lt_asymm hlow
      simp [hnot]
  refine hc.prefers (congrArg (·.publicKey.val) hsession) hsi hsa hsp (hso.trans hdialler.symm) htj
    hta htp ?_ (hleft p)
  rw [hto, hdialler]
  cases p <;> cases low <;> decide

/-! ## Two dials -/

section
variable [LinkCrypto] [Numerals]

/-- Nothing waits, and hearing this takes no link away. -/
def calm (c : Carrier) (a : Happening) : Bool :=
  c.links.all (·.queue.isEmpty) && match a with
    | .frame i (some bytes) => (c.links[i]?).all fun s =>
      (s.link.receive bytes).2.all fun y => !(decide (y = .drop)) && !y.isTask
    | .connect _ => c.links.isEmpty
    | .link _ _ | .bindSession _ _ => true
    | _ => false

theorem careful_of_calm {a : Happening} (h : c.calm a = true) : c.Careful a := by
  obtain ⟨hqueue, ha⟩ := Bool.and_eq_true_iff.1 h
  have hempty : ∀ x ∈ c.links, x.queue = [] := fun x hx =>
    List.isEmpty_iff.1 (List.all_eq_true.1 hqueue x hx)
  refine ⟨?_, fun i j t _ ht => ⟨fun _ => hempty t (List.mem_of_getElem? ht),
    fun x hx _ => hempty x hx⟩⟩
  intro i s hlost hs
  exfalso
  cases a with
  | frame j data =>
    cases data with
    | none => cases ha
    | some bytes =>
      obtain ⟨rfl, s', hs', hcase⟩ := hlost
      dsimp only at ha
      rw [hs'] at ha
      have hall := List.all_eq_true.1 ha
      rcases hcase with hdrop | ⟨-, y, hy, htask⟩
      · simpa using hall _ hdrop
      · have hy := hall y hy
        rw [htask] at hy
        simp at hy
  | connect session =>
    have hnil := List.isEmpty_iff.1 ha
    rw [hnil] at hs
    cases hs
  | link _ _ => exact hlost
  | bindSession _ _ => exact hlost
  | closed _ | expect _ | bind _ _ | deliver _ _ | deliverSession _ _ | sendOffer _ _ | sent _ _
  | timeout _ | finish _ _ | close => cases ha

/-- Whether every action of a run is calm. -/
def calmRun (c : Carrier) : List Happening → Bool
  | [] => true
  | a :: as => c.calm a && calmRun (c.next a) as

theorem reaches_of_calmRun {as : List Happening} (h : c.calmRun as = true) :
    Reaches Carrier.next Careful c (as.foldl Carrier.next c) := by
  induction as generalizing c with
  | nil => exact .refl
  | cons a as ih =>
    obtain ⟨ha, has⟩ := Bool.and_eq_true_iff.1 h
    exact (Reaches.refl.tail (careful_of_calm ha)).trans (ih has)

/-- A phone of the sample dials the other, whose persona it learns, and is dialled before that link
has left. -/
def twoDials (p : Bool) : List Happening :=
  [.connect (samplePhones !p).publicKey, .link true (sampleNonce 1),
    .frame 0 (some (nearbyHello (sampleNonce 2) none)),
    .frame 0 (some (authType
      :: authMac (sampleKey .handshake) .advertiser (sampleNonce 2) (sampleNonce 1))),
    .bindSession (samplePhones !p).publicKey.val (lit "ada"), .link false (sampleNonce 3),
    .frame 1 (some (nearbyHello (sampleNonce 4) (some (samplePhones !p).publicKey)))]

/-- The other phone's AUTH on the second link. -/
def secondAuth : Happening :=
  .frame 1 (some (authType
    :: authMac (sampleKey .handshake) .connector (sampleNonce 3) (sampleNonce 4)))

end

section
attribute [local instance] sampleCrypto Sync.decimalNumerals

/-- The phone with the higher session, after the other phone closed the link it had dialled, and
before the second link was trusted. -/
def closedFirst : Carrier :=
  (twoDials false ++ [.closed 0, secondAuth]).foldl Carrier.next
    (.start (samplePhones false) .handshake)

/-- Both phones, when nothing goes wrong. -/
def bothTrusted (p : Bool) : Carrier :=
  (twoDials p ++ [secondAuth]).foldl Carrier.next (.start (samplePhones p) .handshake)

/-- Whether link `j` outlived link `i`, which was there when `j` was made and spoke for `ada`. -/
def outlived (c : Carrier) (i j : ℕ) : Bool :=
  (c.links[i]?).any fun s => (c.links[j]?).any fun t => !s.present && t.live
    && decide (t.link.peerSession = s.link.peerSession) && decide (s.peer = some (lit "ada"))
    && decide (j < s.closedAt)

theorem survives_of_outlived {c : Carrier} {i j : ℕ} (h : c.outlived i j = true) :
    ∃ s t, Survives c i j s t ∧ s.peer = some (lit "ada") := by
  obtain ⟨s, hs, h⟩ := (Option.any_eq_true ..).1 h
  obtain ⟨t, ht, h⟩ := (Option.any_eq_true ..).1 h
  simp only [Bool.and_eq_true, Bool.not_eq_true', decide_eq_true_eq] at h
  obtain ⟨⟨⟨⟨hgone, hlive⟩, hsession⟩, hpeer⟩, hj⟩ := h
  exact ⟨s, t, ⟨hs, hgone, ht, hlive, hsession, i, s, .self, hs, hgone, hj⟩, hpeer⟩

/-- The link that is left does not speak for the persona that the closed link spoke for. -/
theorem loses_binding : ¬ ∀ [LinkCrypto] [Numerals] {phones : Bool → Session}
    {profile : NearbyProfile} {c : Carrier} (p : Bool),
      Reaches Carrier.next (fun _ _ => True) (.start (phones p) profile) c → LosesNothing c := by
  intro h
  have hrun : ∀ (as : List Happening) (c : Carrier),
      Reaches Carrier.next (fun _ _ => True) c (as.foldl Carrier.next c) := by
    intro as
    induction as with
    | nil => exact fun c => .refl
    | cons a as ih => exact fun c => (Reaches.refl.tail trivial).trans (ih (c.next a))
  obtain ⟨s, t, hs, hpeer⟩ : ∃ s t, Survives closedFirst 0 1 s t ∧ s.peer = some (lit "ada") :=
    survives_of_outlived (by decide +kernel)
  have hloses : LosesNothing closedFirst := h false (hrun _ (.start (samplePhones false) .handshake))
  have hcarries := hloses.carried 0 1 s t hs
  have hnone : ((closedFirst.links[1]?).all fun t => t.peer.isNone) = true := by decide +kernel
  rw [hs.survivor] at hnone
  have hsome := hcarries.peer _ hpeer
  rw [Option.all_some, Option.isNone_iff_eq_none, hsome] at hnone
  cases hnone

/-- Both phones keep the link that the lower session dialled, with what the other had earned. -/
theorem keeps_one_link_met :
    (∀ p, LosesNothing (bothTrusted p))
      ∧ (∃ s t, Survives (bothTrusted false) 0 1 s t ∧ Carries s t
        ∧ s.peer = some (lit "ada"))
      ∧ ∃ s t, BothEnds samplePhones bothTrusted true (fun p => if p then 0 else 1) s
        ∧ BothEnds samplePhones bothTrusted false (fun p => if p then 1 else 0) t
        ∧ ∀ p, (s p).present = true ∧ (t p).present = false := by
  have hrun : ∀ p, Reaches Carrier.next Careful (.start (samplePhones p) .handshake)
      (bothTrusted p) := by
    intro p
    have hcalm : ((Carrier.start (samplePhones p) .handshake).calmRun
        (twoDials p ++ [secondAuth])) = true := by
      cases p <;> decide +kernel
    exact reaches_of_calmRun hcalm
  obtain ⟨hboth, hsame⟩ := keeps_one_link hrun
  obtain ⟨s₀, t₀, hs₀, hpeer⟩ : ∃ s t, Survives (bothTrusted false) 0 1 s t
      ∧ s.peer = some (lit "ada") := survives_of_outlived (by decide +kernel)
  refine ⟨hboth, ⟨s₀, t₀, hs₀, (hboth false).carried 0 1 s₀ t₀ hs₀, hpeer⟩, ?_⟩
  -- the ends of both links, at both phones
  have hend : ∀ (d p : Bool) (i : ℕ), i = (if p = d then 0 else 1) →
      ∃ s, (bothTrusted p).links[i]? = some s ∧ s.authenticated = true
        ∧ s.link.peerSession = some (samplePhones !p).publicKey.val ∧ s.outgoing = (p == d)
        ∧ (d = true → s.present = true) := by
    intro d p i hi
    have hany : ((bothTrusted p).links[i]?).any (fun s => s.authenticated
        && decide (s.link.peerSession = some (samplePhones !p).publicKey.val)
        && decide (s.outgoing = (p == d)) && (!d || s.present)) = true := by
      subst hi
      revert d p
      decide +kernel
    obtain ⟨s, hs, h⟩ := (Option.any_eq_true ..).1 hany
    simp only [Bool.and_eq_true, decide_eq_true_eq, Bool.or_eq_true, Bool.not_eq_true'] at h
    exact ⟨s, hs, h.1.1.1, h.1.1.2, h.1.2, fun hd => h.2.resolve_left (by simp [hd])⟩
  choose s hs using fun p => hend true p (if p then 0 else 1) (by cases p <;> rfl)
  choose t ht using fun p => hend false p (if p then 1 else 0) (by cases p <;> rfl)
  have hsb : BothEnds samplePhones bothTrusted true (fun p => if p then 0 else 1) s :=
    fun p => ⟨(hs p).1, (hs p).2.1, (hs p).2.2.1, (hs p).2.2.2.1⟩
  have htb : BothEnds samplePhones bothTrusted false (fun p => if p then 1 else 0) t :=
    fun p => ⟨(ht p).1, (ht p).2.1, (ht p).2.2.1, (ht p).2.2.2.1⟩
  refine ⟨s, t, hsb, htb, hsame true _ _ s t (by decide +kernel) hsb htb ?_⟩
  intro p hgone
  cases ((hs p).2.2.2.2 rfl).symm.trans hgone

end

end Carrier

end SignetApp.Nearby
