import SignetApp.Nearby.Happenings

/-!
# What every carrier keeps

One trusted link for each peer session and one link for each persona, over every run. A link that the
dedupe took away names the one that outlived it, which carries what it had earned.
-/

namespace SignetApp.Nearby

open Js NearbyLink

/-! ## One link -/

namespace LinkState

variable {π : NearbyProfile} {n : ℕ} {s s' t : LinkState}

theorem Tidy.kept (h : s.Tidy π) (hk : Kept s s') : s'.Tidy π := by
  obtain ⟨hp, -, hpeer, hsucc, ha, -⟩ := face_eq hk.face
  refine ⟨?_, ?_, hk.onward.profile.trans h.profile, ?_, ?_, ?_⟩
  · intro hp'
    rw [ha, hk.trusted]
    exact h.phase (hp ▸ hp')
  · exact fun hp' => hk.known (h.known (hp ▸ hp'))
  · intro ha'
    obtain ⟨hs, hsession⟩ := h.met (ha ▸ ha')
    obtain ⟨hs', -, hsession'⟩ := hk.onward.met hs
    exact ⟨hs', hsession' ▸ hsession⟩
  · intro ha'
    obtain ⟨hp₀, hd, hq⟩ := h.unearned (ha ▸ ha')
    obtain ⟨hd', hq'⟩ := hk.idle (by simp [ha ▸ ha'])
    exact ⟨hpeer.trans hp₀, hd'.trans hd, List.suffix_nil.1 (hq ▸ hq')⟩
  · exact fun hp' => hsucc.trans (h.present (hp ▸ hp'))

theorem left_eqs (h : Left n s s') : s'.present = false ∧ s'.outgoing = s.outgoing
    ∧ s'.peer = s.peer ∧ s'.successor = s.successor ∧ s'.authenticated = s.authenticated
    ∧ s'.closedAt = n := by
  have hface := h.face
  simp only [face, Face.mk.injEq] at hface
  exact hface

theorem Tidy.left (h : s.Tidy π) (hl : Left n s s') : s'.Tidy π := by
  obtain ⟨hp, -, hpeer, -, ha, -⟩ := left_eqs hl
  refine ⟨?_, ?_, hl.onward.profile.trans h.profile, ?_, ?_, ?_⟩
  · intro hp'
    cases hp.symm.trans hp'
  · intro hp'
    cases hp.symm.trans hp'
  · intro ha'
    obtain ⟨hs, hsession⟩ := h.met (ha ▸ ha')
    obtain ⟨hs', -, hsession'⟩ := hl.onward.met hs
    exact ⟨hs', hsession' ▸ hsession⟩
  · intro ha'
    obtain ⟨hp₀, hd, hq⟩ := h.unearned (ha ▸ ha')
    exact ⟨hpeer.trans hp₀, hl.delivered.trans hd, List.suffix_nil.1 (hq ▸ hl.queue)⟩
  · intro hp'
    cases hp.symm.trans hp'

theorem tidy_gone (h : s.Tidy π) (ha : s.authenticated = true) (k : Option ℕ) :
    LinkState.Tidy π ({ s with successor := k }.gone n) :=
  ⟨nofun, nofun, h.profile, fun _ => ⟨NearbyPhase.noConfusion, (h.met ha).2⟩,
    fun h => Bool.noConfusion (ha.symm.trans h), nofun⟩

theorem live_iff : s.live = true ↔ s.present = true ∧ s.link.trusted = true := by
  rw [live, Bool.and_eq_true]

theorem Tidy.authenticated (h : s.Tidy π) (hs : s.live = true) : s.authenticated = true :=
  (h.phase (live_iff.1 hs).1).trans (live_iff.1 hs).2

theorem Tidy.live (h : s.Tidy π) (hp : s.present = true) (ha : s.authenticated = true) :
    s.live = true :=
  live_iff.2 ⟨hp, (h.phase hp).symm.trans ha⟩

theorem Tidy.bound (h : s.Tidy π) (hs : s.live = true) (p : Option JsString) :
    LinkState.Tidy π { s with peer := p } :=
  ⟨h.phase, h.known, h.profile, h.met,
    fun ha => absurd ((h.authenticated hs).symm.trans ha) nofun, h.present⟩

theorem Authenticates.eqs (h : s.Authenticates s') (hs : s.Tidy π) : s'.Tidy π
    ∧ s'.authenticated = true ∧ s'.present = true ∧ s'.outgoing = s.outgoing ∧ s'.peer = none
    ∧ s'.delivered = [] ∧ s'.queue = [] ∧ s'.link.peerSession = s.link.peerSession
    ∧ s.present = true ∧ s.authenticated = false ∧ Onward s.link s'.link
    ∧ s'.successor = s.successor := by
  obtain ⟨hp, key, frames, hstate, rfl⟩ := h
  have hne : s.link.state ≠ .hello := by
    rw [hstate]
    exact NearbyPhase.noConfusion
  have hna : s.authenticated = false := by
    rw [hs.phase hp, NearbyLink.trusted, hstate]
  obtain ⟨hpeer, hd, hq⟩ := hs.unearned hna
  refine ⟨⟨fun _ => rfl, ?_, hs.profile, ?_, Bool.noConfusion, hs.present⟩, rfl, hp, rfl, hpeer,
    hd, hq, rfl,
    hp, hna, ⟨rfl, fun _ => ⟨NearbyPhase.noConfusion, rfl, rfl⟩⟩, rfl⟩
  · exact fun _ _ => hs.known hp hne
  · exact fun _ => ⟨NearbyPhase.noConfusion, (hs.known hp hne).2⟩

theorem tidy_inherit (h : s.Tidy π) (ha : s.authenticated = true) (l : LinkState) :
    (Carrier.inherit s l).Tidy π :=
  ⟨h.phase, h.known, h.profile, h.met, fun h => Bool.noConfusion (ha.symm.trans h), h.present⟩

end LinkState

/-- What one link has earned, the other has too. -/
structure Carries (s t : LinkState) : Prop where
  peer : ∀ p, s.peer = some p → t.peer = some p
  delivered : s.delivered ⊆ t.delivered

theorem Carries.refl (s : LinkState) : Carries s s := ⟨fun _ h => h, List.Subset.refl _⟩

theorem Carries.trans {s t u : LinkState} (h : Carries s t) (h' : Carries t u) : Carries s u :=
  ⟨fun p hp => h'.peer p (h.peer p hp), fun _ hx => h'.delivered (h.delivered hx)⟩

/-- What can become of a link: what it earned stays, and once gone it is done. -/
structure Grown (s s' : LinkState) : Prop where
  outgoing : s'.outgoing = s.outgoing
  onward : Onward s.link s'.link
  authenticated : s.authenticated = true → s'.authenticated = true
  carries : Carries s s'
  successor : ∀ k, s.successor = some k → s'.successor = some k
  present : s'.present = true → s.present = true
  gone : s.present = false → s'.closedAt = s.closedAt ∧ Carries s' s ∧ s'.queue <:+ s.queue
    ∧ s'.successor = s.successor ∧ s'.authenticated = s.authenticated

theorem Grown.refl (s : LinkState) : Grown s s :=
  ⟨rfl, .refl _, id, .refl s, fun _ h => h, id, fun _ => ⟨rfl, .refl s, List.suffix_rfl, rfl, rfl⟩⟩

theorem Kept.grown {s s' : LinkState} (h : Kept s s') : Grown s s' := by
  obtain ⟨hp, ho, hpeer, hsucc, ha, hc⟩ := LinkState.face_eq h.face
  refine ⟨ho, h.onward, fun h => ha.trans h, ⟨fun p hq => hpeer.trans hq, h.delivered⟩,
    fun k hk => hsucc.trans hk, fun h => hp.symm.trans h, ?_⟩
  intro hgone
  obtain ⟨hd, hq⟩ := h.idle (by simp [hgone])
  exact ⟨hc, ⟨fun p hq => hpeer.symm.trans hq, hd ▸ List.Subset.refl _⟩, hq, hsucc, ha⟩

theorem Left.grown {n : ℕ} {s s' : LinkState} (h : Left n s s') : Grown s s' := by
  obtain ⟨hp, ho, hpeer, hsucc, ha, -⟩ := LinkState.left_eqs h
  exact ⟨ho, h.onward, fun h => ha.trans h,
    ⟨fun p hq => hpeer.trans hq, h.delivered ▸ List.Subset.refl _⟩, fun k hk => hsucc.trans hk,
    fun h => Bool.noConfusion (hp.symm.trans h), fun hgone => absurd (h.present.symm.trans hgone) nofun⟩

theorem Grown.session {s s' : LinkState} (h : Grown s s') {π : NearbyProfile} (hs : s.Tidy π)
    (ha : s.authenticated = true) : s'.link.peerSession = s.link.peerSession :=
  (h.onward.met (hs.met ha).1).2.2

/-! ## One step -/

theorem set_get {ls : List LinkState} {i : ℕ} {s : LinkState} (h : ls[i]? = some s) (s' : LinkState)
    (j : ℕ) : (ls.set i s')[j]? = if j = i then some s' else ls[j]? := by
  rw [List.getElem?_set]
  obtain ⟨hi, -⟩ := List.getElem?_eq_some_iff.1 h
  by_cases hij : i = j
  · rw [if_pos hij, if_pos hij.symm, if_pos hi]
  · rw [if_neg hij, if_neg fun h => hij h.symm]

namespace Carrier

variable {c c' : Carrier} {lost : ℕ → Prop} {replaces : ℕ → ℕ → Prop}

/-- One link leaves, and another takes over from it. -/
structure TakesOver (replaces : ℕ → ℕ → Prop) (c c' : Carrier) (i k : ℕ) (s s' t' : LinkState)
    (peer : JsString) : Prop where
  ne : i ≠ k
  before : c.links[i]? = some s
  after : c'.links[i]? = some s'
  heir : c'.links[k]? = some t'
  present : s.present = true
  gone : s'.present = false
  successor : s'.successor = some k
  closedAt : s'.closedAt = c.links.length
  authenticated : s'.authenticated = true
  live : t'.live = true
  trusted : t'.authenticated = true
  carries : Carries s' t'
  session : s.link.peerSession = some peer
  session' : s'.link.peerSession = some peer
  heirSession : t'.link.peerSession = some peer
  dialled : s'.outgoing = sessionDialler c.session.publicKey.val peer →
    t'.outgoing = sessionDialler c.session.publicKey.val peer
  queue : s'.queue ≠ [] → replaces k i ∧ s'.queue = s.queue
  waiting : ∀ x ∈ c.links, x.successor = some i → replaces k i

/-- Where a link comes from, and what has become of it. -/
structure Follows (c : Carrier) (lost : ℕ → Prop) (replaces : ℕ → ℕ → Prop) (c' : Carrier) :
    Prop where
  grown : ∀ (i : ℕ) (s : LinkState), c.links[i]? = some s →
    ∃ s', c'.links[i]? = some s' ∧ Grown s s'
  origin : ∀ (i : ℕ) (s' : LinkState), c'.links[i]? = some s' →
    (∃ s, c.links[i]? = some s ∧ Grown s s')
      ∨ i = c.links.length ∧ s'.present = true ∧ s'.successor = none
  /-- A link that leaves without an heir is one of those lost, unless every link leaves. -/
  departs : ∀ (i : ℕ) (s s' : LinkState), c.links[i]? = some s → c'.links[i]? = some s' →
    s.present = true → s'.present = false → s'.closedAt = c.links.length
      ∧ (s'.successor = none → Carries s' s ∧ s'.queue <:+ s.queue
        ∧ s'.authenticated = s.authenticated
        ∧ (lost i ∨ ∀ t ∈ c'.links, t.present = false))
  /-- At most one link has a new heir. -/
  heirs : (∀ (i : ℕ) (s' : LinkState) (k : ℕ), c'.links[i]? = some s' → s'.successor = some k →
      ∃ s, c.links[i]? = some s ∧ s.successor = some k)
    ∨ ∃ (i₀ k₀ : ℕ) (s₀ s₀' t₀' : LinkState) (peer : JsString),
      TakesOver replaces c c' i₀ k₀ s₀ s₀' t₀' peer
      ∧ ∀ (i : ℕ) (s' : LinkState) (k : ℕ), c'.links[i]? = some s' → s'.successor = some k →
        i = i₀ ∧ k = k₀ ∨ ∃ s, c.links[i]? = some s ∧ s.successor = some k

theorem follows_moved (h : Moves Kept lost c c') : Follows c lost replaces c' := by
  have hgrown : ∀ {i : ℕ} {s s' : LinkState}, c.links[i]? = some s → c'.links[i]? = some s' →
      Grown s s' := by
    intro i s s' hs hs'
    rcases h.link i s s' hs hs' with hk | ⟨-, hl⟩
    · exact hk.grown
    · exact hl.grown
  have hback : ∀ {i : ℕ} {s' : LinkState}, c'.links[i]? = some s' → ∃ s, c.links[i]? = some s := by
    intro i s' hs'
    obtain ⟨hi, -⟩ := List.getElem?_eq_some_iff.1 hs'
    exact ⟨_, List.getElem?_eq_getElem (h.length ▸ hi)⟩
  refine ⟨?_, ?_, ?_, .inl ?_⟩
  · intro i s hs
    obtain ⟨hi, -⟩ := List.getElem?_eq_some_iff.1 hs
    have hs' := List.getElem?_eq_getElem (h.length.symm ▸ hi)
    exact ⟨_, hs', hgrown hs hs'⟩
  · intro i s' hs'
    obtain ⟨s, hs⟩ := hback hs'
    exact .inl ⟨s, hs, hgrown hs hs'⟩
  · intro i s s' hs hs' hp hp'
    rcases h.link i s s' hs hs' with hk | ⟨hlost, hl⟩
    · cases hp'.symm.trans ((LinkState.face_eq hk.face).1.trans hp)
    · obtain ⟨-, -, hpeer, -, ha, hc⟩ := LinkState.left_eqs hl
      exact ⟨hc, fun _ => ⟨⟨fun p hq => hpeer.symm.trans hq, hl.delivered ▸ List.Subset.refl _⟩,
        hl.queue, ha, .inl hlost⟩⟩
  · intro i s' k hs' hk
    obtain ⟨s, hs⟩ := hback hs'
    refine ⟨s, hs, ?_⟩
    rcases h.link i s s' hs hs' with hkept | ⟨-, hl⟩
    · exact (LinkState.face_eq hkept.face).2.2.2.1.symm.trans hk
    · exact (LinkState.left_eqs hl).2.2.2.1.symm.trans hk

theorem follows_opened {s : LinkState} (hlinks : c'.links = c.links ++ [s])
    (hp : s.present = true) (hsucc : s.successor = none) : Follows c lost replaces c' := by
  have hback : ∀ {i : ℕ} {s' : LinkState}, c'.links[i]? = some s' →
      c.links[i]? = some s' ∨ i = c.links.length ∧ s' = s := by
    intro i s' hs'
    rw [hlinks] at hs'
    exact concat_get hs'
  refine ⟨?_, ?_, ?_, .inl ?_⟩
  · intro i t ht
    exact ⟨t, by rw [hlinks]; exact get_concat ht s, .refl t⟩
  · intro i s' hs'
    rcases hback hs' with h | ⟨hi, rfl⟩
    · exact .inl ⟨s', h, .refl s'⟩
    · exact .inr ⟨hi, hp, hsucc⟩
  · intro i t t' ht ht' hpt hpt'
    have hget := (congrArg (·[i]?) hlinks).symm.trans ht'
    obtain rfl := Option.some.inj ((get_concat ht s).symm.trans hget)
    cases hpt.symm.trans hpt'
  · intro i s' k hs' hk
    rcases hback hs' with h | ⟨-, rfl⟩
    · exact ⟨s', h, hk⟩
    · cases hsucc.symm.trans hk

/-- One link changes, and nothing leaves. -/
theorem follows_set {i : ℕ} {s s' : LinkState} (hi : c.links[i]? = some s)
    (hlinks : c'.links = c.links.set i s') (hg : Grown s s') (hp : s'.present = s.present)
    (hsucc : s'.successor = s.successor) : Follows c lost replaces c' := by
  have hget : ∀ j, c'.links[j]? = if j = i then some s' else c.links[j]? := fun j => by
    rw [hlinks, set_get hi]
  have hcase : ∀ {j : ℕ} {t' : LinkState}, c'.links[j]? = some t' → ∃ t, c.links[j]? = some t
      ∧ Grown t t' ∧ t'.present = t.present ∧ t'.successor = t.successor := by
    intro j t' ht'
    rw [hget] at ht'
    split at ht'
    · next hj =>
      obtain rfl := Option.some.inj ht'
      exact ⟨s, hj ▸ hi, hg, hp, hsucc⟩
    · exact ⟨t', ht', .refl t', rfl, rfl⟩
  refine ⟨?_, ?_, ?_, .inl ?_⟩
  · intro j t ht
    rw [hget]
    by_cases hj : j = i
    · rw [hj, hi] at ht
      obtain rfl := Option.some.inj ht
      exact ⟨s', if_pos hj, hg⟩
    · exact ⟨t, (if_neg hj).trans ht, .refl t⟩
  · intro j t' ht'
    obtain ⟨t, ht, hgt, -⟩ := hcase ht'
    exact .inl ⟨t, ht, hgt⟩
  · intro j t t' ht ht' hpt hpt'
    obtain ⟨t₀, ht₀, -, hpe, -⟩ := hcase ht'
    obtain rfl := Option.some.inj (ht.symm.trans ht₀)
    cases (hpe.trans hpt).symm.trans hpt'
  · intro j t' k ht' hk
    obtain ⟨t, ht, -, -, hse⟩ := hcase ht'
    exact ⟨t, ht, hse.symm.trans hk⟩

/-- One link leaves for another, which may have grown. -/
theorem follows_takesOver (s : LinkState) (peer : JsString) {i k : ℕ} {s' t t' : LinkState}
    (hlinks : ∀ j : ℕ, c'.links[j]? = if j = i then some s' else if j = k then some t'
      else c.links[j]?) (hk : c.links[k]? = some t)
    (h : TakesOver replaces c c' i k s s' t' peer) (hgs : Grown s s') (hgt : Grown t t')
    (hsucc : t'.successor = t.successor) :
    Follows c lost replaces c' := by
  have hcase : ∀ {j : ℕ} {u' : LinkState}, c'.links[j]? = some u' → j = i ∧ u' = s'
      ∨ j ≠ i ∧ ∃ u, c.links[j]? = some u ∧ Grown u u' ∧ u'.successor = u.successor
        ∧ (u'.present = u.present ∨ u'.present = true) := by
    intro j u' hu'
    rw [hlinks] at hu'
    split at hu'
    · next hj => exact .inl ⟨hj, (Option.some.inj hu').symm⟩
    · next hj =>
      split at hu'
      · next hjk =>
        obtain rfl := Option.some.inj hu'
        exact .inr ⟨hj, t, hjk ▸ hk, hgt, hsucc, .inr (LinkState.live_iff.1 h.live).1⟩
      · exact .inr ⟨hj, u', hu', .refl u', rfl, .inl rfl⟩
  refine ⟨?_, ?_, ?_, .inr ⟨i, k, s, s', t', peer, h, ?_⟩⟩
  · intro j u hu
    rw [hlinks]
    by_cases hj : j = i
    · rw [hj, h.before] at hu
      obtain rfl := Option.some.inj hu
      exact ⟨s', if_pos hj, hgs⟩
    · by_cases hjk : j = k
      · rw [hjk, hk] at hu
        obtain rfl := Option.some.inj hu
        exact ⟨t', (if_neg hj).trans (if_pos hjk), hgt⟩
      · exact ⟨u, (if_neg hj).trans ((if_neg hjk).trans hu), .refl u⟩
  · intro j u' hu'
    rcases hcase hu' with ⟨rfl, rfl⟩ | ⟨-, u, hu, hg, -, -⟩
    · exact .inl ⟨s, h.before, hgs⟩
    · exact .inl ⟨u, hu, hg⟩
  · intro j u u' hu hu' hp hp'
    rcases hcase hu' with ⟨rfl, rfl⟩ | ⟨-, u₀, hu₀, -, -, hpresent⟩
    · exact ⟨h.closedAt, fun hnone => absurd (hnone.symm.trans h.successor) nofun⟩
    · obtain rfl := Option.some.inj (hu.symm.trans hu₀)
      rcases hpresent with he | he
      · cases (he.trans hp).symm.trans hp'
      · cases he.symm.trans hp'
  · intro j u' m hu' hm
    rcases hcase hu' with ⟨rfl, rfl⟩ | ⟨-, u, hu, -, hse, -⟩
    · exact .inl ⟨rfl, Option.some.inj (hm.symm.trans h.successor)⟩
    · exact .inr ⟨u, hu, hse.symm.trans hm⟩

theorem Change.follows (h : Change lost replaces c c') (htidy : c.Tidy) :
    Follows c lost replaces c' := by
  cases h with
  | moved h => exact follows_moved h
  | opened hlinks hs =>
    obtain ⟨l, outgoing, rfl, -, -⟩ := hs
    exact follows_opened hlinks rfl rfl
  | ended h hgone =>
    have hf : Follows c (fun _ => True) replaces c' := follows_moved h.kept
    refine ⟨hf.grown, hf.origin, ?_, hf.heirs⟩
    intro i s s' hs hs' hp hp'
    obtain ⟨hc, hrest⟩ := hf.departs i s s' hs hs' hp hp'
    exact ⟨hc, fun hn => ⟨(hrest hn).1, (hrest hn).2.1, (hrest hn).2.2.1, .inr hgone⟩⟩
  | @bound i s p hi hlive hpeer hfree hlinks =>
    have hp := (LinkState.live_iff.1 hlive).1
    refine follows_set hi hlinks ⟨rfl, .refl _, id, ⟨?_, List.Subset.refl _⟩, fun _ h => h, id,
      fun hgone => absurd (hp.symm.trans hgone) nofun⟩ rfl rfl
    intro q hq
    cases hpeer.symm.trans hq
  | @trusted i s s' hi hs halone hlinks =>
    obtain ⟨-, ha, hp', ho, -, -, -, -, hp, hna, hon, hsucc⟩ :=
      hs.eqs (htidy.link s (List.mem_of_getElem? hi))
    obtain ⟨hpeer, hd, -⟩ := (htidy.link s (List.mem_of_getElem? hi)).unearned hna
    refine follows_set hi hlinks ⟨ho, hon, fun _ => ha, ⟨?_, ?_⟩, fun k hk => hsucc.trans hk,
      fun _ => hp, fun hgone => absurd (hp.symm.trans hgone) nofun⟩ (hp'.trans hp.symm) hsucc
    · intro q hq
      cases hpeer.symm.trans hq
    · rw [hd]
      exact List.nil_subset _
  | @newer i j s s' t peer hi hs hj hlive hpeer hpeer' hdial hrep hlinks =>
    have hst := htidy.link s (List.mem_of_getElem? hi)
    have htt := htidy.link t (List.mem_of_getElem? hj)
    obtain ⟨hs't, ha, hp', ho, hpeer₁, hd₁, hq₁, hsession, hp, hna, hon, hsucc⟩ := hs.eqs hst
    obtain ⟨hpeer₀, hd₀, -⟩ := hst.unearned hna
    obtain ⟨htp, htt'⟩ := LinkState.live_iff.1 hlive
    have hat := htt.authenticated hlive
    have hne : j ≠ i := by
      rintro rfl
      obtain rfl := Option.some.inj (hi.symm.trans hj)
      cases hna.symm.trans hat
    have hset : (c.links.set i (inherit s' t))[j]? = some t := by
      rw [set_get hi, if_neg hne, hj]
    have hget : ∀ m : ℕ, c'.links[m]? = if m = j then
        some ({ t with successor := some i }.gone c.links.length)
        else if m = i then some (inherit s' t) else c.links[m]? := by
      intro m
      rw [hlinks, set_get hset, set_get hi]
    refine follows_takesOver t peer hget hi ?_ ?_ ?_ hsucc
    · refine ⟨hne, hj, (hget j).trans (if_pos rfl),
        (hget i).trans ((if_neg hne.symm).trans (if_pos rfl)), htp, rfl, rfl, rfl, hat, ?_, ha, ?_,
        hpeer', hpeer', hsession.trans hpeer, ?_, fun _ => ⟨hrep, rfl⟩, fun _ _ _ => hrep⟩
      · exact LinkState.live_iff.2 ⟨hp', (hs't.phase hp').symm.trans ha⟩
      · refine ⟨?_, List.subset_append_right _ _⟩
        intro p hq
        show s'.peer.or t.peer = some p
        rw [hpeer₁]
        exact hq
      · exact fun _ => ho.trans hdial
    · exact ⟨rfl, .drop _, id, ⟨fun _ h => h, List.Subset.refl _⟩,
        fun k hk => absurd ((htt.present htp).symm.trans hk) nofun, fun h => absurd h nofun,
        fun hgone => absurd (htp.symm.trans hgone) nofun⟩
    · refine ⟨ho, hon, fun _ => ha, ⟨?_, ?_⟩, fun k hk => hsucc.trans hk, fun _ => hp,
        fun hgone => absurd (hp.symm.trans hgone) nofun⟩
      · intro q hq
        cases hpeer₀.symm.trans hq
      · rw [hd₀]
        exact List.nil_subset _
  | @older i j s s' t peer hi hs hj hlive hpeer hpeer' hdial hlinks =>
    have hst := htidy.link s (List.mem_of_getElem? hi)
    have htt := htidy.link t (List.mem_of_getElem? hj)
    obtain ⟨hs't, ha, hp', ho, hpeer₁, hd₁, hq₁, hsession, hp, hna, hon, hsucc⟩ := hs.eqs hst
    obtain ⟨hpeer₀, hd₀, -⟩ := hst.unearned hna
    have hat := htt.authenticated hlive
    have hne : i ≠ j := by
      rintro rfl
      obtain rfl := Option.some.inj (hi.symm.trans hj)
      cases hna.symm.trans hat
    have hget : ∀ m : ℕ, c'.links[m]? = if m = i then
        some ({ s' with successor := some j }.gone c.links.length)
        else if m = j then some t else c.links[m]? := by
      intro m
      rw [hlinks, set_get hi]
      split
      · rfl
      · split
        · next hm => rw [hm, hj]
        · rfl
    refine follows_takesOver s peer hget hj ?_ ?_ (.refl t) rfl
    · refine ⟨hne, hi, (hget i).trans (if_pos rfl),
        (hget j).trans ((if_neg hne.symm).trans (if_pos rfl)), hp, rfl, rfl, rfl, ha, hlive, hat, ?_,
        hpeer, hsession.trans hpeer, hpeer', ?_, ?_, ?_⟩
      · refine ⟨?_, ?_⟩
        · intro p hq
          cases hpeer₁.symm.trans hq
        · show s'.delivered ⊆ t.delivered
          rw [hd₁]
          exact List.nil_subset _
      · exact fun h => absurd (ho.symm.trans h) hdial
      · exact fun hq => absurd hq₁ hq
      · intro x hx hxi
        obtain ⟨y, hy, hya, -⟩ := htidy.heir x hx i hxi
        obtain rfl := Option.some.inj (hi.symm.trans hy)
        cases hna.symm.trans hya
    · refine ⟨ho, hon.trans (.drop _), fun _ => ha, ⟨?_, ?_⟩, ?_, fun h => absurd h nofun,
        fun hgone => absurd (hp.symm.trans hgone) nofun⟩
      · intro q hq
        cases hpeer₀.symm.trans hq
      · rw [hd₀]
        exact List.nil_subset _
      · exact fun k hk => absurd ((hst.present hp).symm.trans hk) nofun

/-! ## Tidy -/

theorem heir_next (hf : Follows c lost replaces c') (htidy : c.Tidy) : ∀ s' ∈ c'.links,
    ∀ k, s'.successor = some k → ∃ t', c'.links[k]? = some t' ∧ t'.authenticated = true
      ∧ s'.authenticated = true ∧ t'.link.peerSession = s'.link.peerSession := by
  intro s' hs' k hk
  obtain ⟨i, hi⟩ := List.mem_iff_getElem?.1 hs'
  have hold : ∀ {s : LinkState}, c.links[i]? = some s → s.successor = some k →
      ∃ t', c'.links[k]? = some t' ∧ t'.authenticated = true ∧ s'.authenticated = true
        ∧ t'.link.peerSession = s'.link.peerSession := by
    intro s hs hsk
    obtain ⟨t, ht, hta, hsa, hsession⟩ := htidy.heir s (List.mem_of_getElem? hs) k hsk
    obtain ⟨t', ht', hgt⟩ := hf.grown k t ht
    obtain ⟨s₁, hs₁, hgs⟩ := hf.grown i s hs
    obtain rfl := Option.some.inj (hi.symm.trans hs₁)
    refine ⟨t', ht', hgt.authenticated hta, hgs.authenticated hsa, ?_⟩
    rw [hgt.session (htidy.link t (List.mem_of_getElem? ht)) hta,
      hgs.session (htidy.link s (List.mem_of_getElem? hs)) hsa, hsession]
  rcases hf.heirs with hall | ⟨i₀, k₀, s₀, s₀', t₀', peer, hto, hall⟩
  · obtain ⟨s, hs, hsk⟩ := hall i s' k hi hk
    exact hold hs hsk
  · rcases hall i s' k hi hk with ⟨rfl, rfl⟩ | ⟨s, hs, hsk⟩
    · obtain rfl := Option.some.inj (hi.symm.trans hto.after)
      exact ⟨t₀', hto.heir, hto.trusted, hto.authenticated, hto.heirSession.trans hto.session'.symm⟩
    · exact hold hs hsk

theorem solo_kept (htidy : c.Tidy) (hback : ∀ (i : ℕ) (s' : LinkState), c'.links[i]? = some s' →
      s'.live = true → ∃ s, c.links[i]? = some s ∧ s.live = true
        ∧ s'.link.peerSession = s.link.peerSession) (i j : ℕ) (s' t' : LinkState)
    (hi : c'.links[i]? = some s') (hj : c'.links[j]? = some t') (hs' : s'.live = true)
    (ht' : t'.live = true) (hsession : s'.link.peerSession = t'.link.peerSession) : i = j := by
  obtain ⟨s, hs, hsl, hss⟩ := hback i s' hi hs'
  obtain ⟨t, ht, htl, hts⟩ := hback j t' hj ht'
  exact htidy.solo i j s t hs ht hsl htl (by rw [← hss, hsession, hts])

theorem personas_kept (htidy : c.Tidy) (hback : ∀ (i : ℕ) (s' : LinkState) (p : JsString),
      c'.links[i]? = some s' → s'.present = true → s'.peer = some p → ∃ s, c.links[i]? = some s
        ∧ s.present = true ∧ s.peer = some p) (i j : ℕ) (s' t' : LinkState) (p : JsString)
    (hi : c'.links[i]? = some s') (hj : c'.links[j]? = some t') (hs' : s'.present = true)
    (ht' : t'.present = true) (hsp : s'.peer = some p) (htp : t'.peer = some p) : i = j := by
  obtain ⟨s, hs, hsl, hss⟩ := hback i s' p hi hs' hsp
  obtain ⟨t, ht, htl, hts⟩ := hback j t' p hj ht' htp
  exact htidy.personas i j s t p hs ht hsl htl hss hts

theorem Moves.tidy (h : Moves Kept lost c c') (htidy : c.Tidy) : c'.Tidy := by
  have hback : ∀ {i : ℕ} {s' : LinkState}, c'.links[i]? = some s' → ∃ s, c.links[i]? = some s
      ∧ (Kept s s' ∨ lost i ∧ Left c.links.length s s') := by
    intro i s' hs'
    obtain ⟨hi, -⟩ := List.getElem?_eq_some_iff.1 hs'
    have hs := List.getElem?_eq_getElem (h.length ▸ hi)
    exact ⟨_, hs, h.link i _ s' hs hs'⟩
  have hf : Follows c lost (fun _ _ => True) c' := follows_moved h
  refine ⟨?_, heir_next hf htidy, ?_, ?_⟩
  · intro s' hs'
    obtain ⟨i, hi⟩ := List.mem_iff_getElem?.1 hs'
    obtain ⟨s, hs, hk | ⟨-, hl⟩⟩ := hback hi
    · exact h.profile ▸ (htidy.link s (List.mem_of_getElem? hs)).kept hk
    · exact h.profile ▸ (htidy.link s (List.mem_of_getElem? hs)).left hl
  · refine solo_kept htidy ?_
    intro i s' hi hlive
    obtain ⟨hp', ht'⟩ := LinkState.live_iff.1 hlive
    obtain ⟨s, hs, hk | ⟨-, hl⟩⟩ := hback hi
    · have hlive : s.live = true := LinkState.live_iff.2
        ⟨(LinkState.face_eq hk.face).1.symm.trans hp', hk.trusted.symm.trans ht'⟩
      have hst := htidy.link s (List.mem_of_getElem? hs)
      exact ⟨s, hs, hlive, hk.grown.session hst (hst.authenticated hlive)⟩
    · cases hp'.symm.trans (LinkState.left_eqs hl).1
  · refine personas_kept htidy ?_
    intro i s' p hi hp' hpeer
    obtain ⟨s, hs, hk | ⟨-, hl⟩⟩ := hback hi
    · obtain ⟨hp, -, hpe, -⟩ := LinkState.face_eq hk.face
      exact ⟨s, hs, hp.symm.trans hp', hpe.symm.trans hpeer⟩
    · cases hp'.symm.trans (LinkState.left_eqs hl).1

theorem Change.tidy (h : Change lost replaces c c') (hup : Upkeep c c') (htidy : c.Tidy) :
    c'.Tidy := by
  have hf := h.follows htidy
  cases h with
  | moved h => exact h.tidy htidy
  | ended h hgone => exact h.kept.tidy htidy
  | opened hlinks hs =>
    obtain ⟨l, outgoing, rfl, hstate, hprofile⟩ := hs
    have hback : ∀ {i : ℕ} {s' : LinkState}, c'.links[i]? = some s' →
        c.links[i]? = some s' ∨ s' = .new l outgoing := by
      intro i s' hs'
      rw [hlinks] at hs'
      exact (concat_get hs').imp_right And.right
    have hnew : (LinkState.new l outgoing).Tidy c.profile := by
      refine ⟨fun _ => ?_, fun _ h => absurd hstate h, hprofile, nofun, fun _ => ⟨rfl, rfl, rfl⟩,
        fun _ => rfl⟩
      show false = l.trusted
      rw [NearbyLink.trusted, hstate]
    refine ⟨?_, heir_next hf htidy, solo_kept htidy ?_, personas_kept htidy ?_⟩
    · intro s' hs'
      obtain ⟨i, hi⟩ := List.mem_iff_getElem?.1 hs'
      rcases hback hi with hs | rfl
      · exact hup.profile ▸ htidy.link s' (List.mem_of_getElem? hs)
      · exact hup.profile ▸ hnew
    · intro i s' hi hlive
      rcases hback hi with hs | rfl
      · exact ⟨s', hs, hlive, rfl⟩
      · cases hnew.authenticated hlive
    · intro i s' p hi hp' hpeer
      rcases hback hi with hs | rfl
      · exact ⟨s', hs, hp', hpeer⟩
      · cases hpeer
  | @bound i s p hi hlive hpeer hfree hlinks =>
    have hcase : ∀ {j : ℕ} {t' : LinkState}, c'.links[j]? = some t' →
        j = i ∧ t' = { s with peer := some p } ∨ j ≠ i ∧ c.links[j]? = some t' := by
      intro j t' ht'
      rw [hlinks, set_get hi] at ht'
      split at ht'
      · next hj => exact .inl ⟨hj, (Option.some.inj ht').symm⟩
      · next hj => exact .inr ⟨hj, ht'⟩
    refine ⟨?_, heir_next hf htidy, solo_kept htidy ?_, ?_⟩
    · intro t' ht'
      obtain ⟨j, hj⟩ := List.mem_iff_getElem?.1 ht'
      rcases hcase hj with ⟨-, rfl⟩ | ⟨-, ht⟩
      · exact hup.profile ▸ (htidy.link s (List.mem_of_getElem? hi)).bound hlive (some p)
      · exact hup.profile ▸ htidy.link t' (List.mem_of_getElem? ht)
    · intro j t' ht' htl
      rcases hcase ht' with ⟨rfl, rfl⟩ | ⟨-, ht⟩
      · exact ⟨s, hi, hlive, rfl⟩
      · exact ⟨t', ht, htl, rfl⟩
    · intro j k t u q hj hk ht hu htq huq
      rcases hcase hj with ⟨rfl, rfl⟩ | ⟨-, htc⟩ <;> rcases hcase hk with ⟨rfl, rfl⟩ | ⟨-, huc⟩
      · rfl
      · obtain rfl := Option.some.inj htq
        exact absurd huq (hfree u (List.mem_of_getElem? huc) hu)
      · obtain rfl := Option.some.inj huq
        exact absurd htq (hfree t (List.mem_of_getElem? htc) ht)
      · exact htidy.personas j k t u q htc huc ht hu htq huq
  | @trusted i s s' hi hs halone hlinks =>
    obtain ⟨hs't, ha, hp', ho, hpeer₁, hd₁, hq₁, hsession, hp, hna, hon, hsucc⟩ :=
      hs.eqs (htidy.link s (List.mem_of_getElem? hi))
    have hcase : ∀ {j : ℕ} {t' : LinkState}, c'.links[j]? = some t' →
        j = i ∧ t' = s' ∨ j ≠ i ∧ c.links[j]? = some t' := by
      intro j t' ht'
      rw [hlinks, set_get hi] at ht'
      split at ht'
      · next hj => exact .inl ⟨hj, (Option.some.inj ht').symm⟩
      · next hj => exact .inr ⟨hj, ht'⟩
    refine ⟨?_, heir_next hf htidy, ?_, personas_kept htidy ?_⟩
    · intro t' ht'
      obtain ⟨j, hj⟩ := List.mem_iff_getElem?.1 ht'
      rcases hcase hj with ⟨-, rfl⟩ | ⟨-, ht⟩
      · exact hup.profile ▸ hs't
      · exact hup.profile ▸ htidy.link t' (List.mem_of_getElem? ht)
    · intro j k t u hj hk ht hu he
      rcases hcase hj with ⟨rfl, rfl⟩ | ⟨-, htc⟩ <;> rcases hcase hk with ⟨rfl, rfl⟩ | ⟨-, huc⟩
      · rfl
      · exact absurd (he.symm.trans hsession) (halone k u huc hu)
      · exact absurd (he.trans hsession) (halone j t htc ht)
      · exact htidy.solo j k t u htc huc ht hu he
    · intro j t' p ht' htp hpeer
      rcases hcase ht' with ⟨rfl, rfl⟩ | ⟨-, ht⟩
      · cases hpeer₁.symm.trans hpeer
      · exact ⟨t', ht, htp, hpeer⟩
  | @newer i j s s' t peer hi hs hj hlive hpeer hpeer' hdial hrep hlinks =>
    have htt := htidy.link t (List.mem_of_getElem? hj)
    obtain ⟨hs't, ha, hp', ho, hpeer₁, hd₁, hq₁, hsession, hp, hna, hon, hsucc⟩ :=
      hs.eqs (htidy.link s (List.mem_of_getElem? hi))
    have hat := htt.authenticated hlive
    have hne : j ≠ i := by
      rintro rfl
      obtain rfl := Option.some.inj (hi.symm.trans hj)
      cases hna.symm.trans hat
    have hcase : ∀ {m : ℕ} {u' : LinkState}, c'.links[m]? = some u' →
        m = j ∧ u' = { t with successor := some i }.gone c.links.length
          ∨ m = i ∧ u' = inherit s' t ∨ m ≠ j ∧ m ≠ i ∧ c.links[m]? = some u' := by
      intro m u' hu'
      have hset : (c.links.set i (inherit s' t))[j]? = some t := by
        rw [set_get hi, if_neg hne, hj]
      rw [hlinks, set_get hset, set_get hi] at hu'
      split at hu'
      · next hm => exact .inl ⟨hm, (Option.some.inj hu').symm⟩
      · next hm =>
        split at hu'
        · next hm' => exact .inr (.inl ⟨hm', (Option.some.inj hu').symm⟩)
        · next hm' => exact .inr (.inr ⟨hm, hm', hu'⟩)
    have hsession' : (inherit s' t).link.peerSession = t.link.peerSession :=
      (hsession.trans hpeer).trans hpeer'.symm
    refine ⟨?_, heir_next hf htidy, ?_, ?_⟩
    · intro u' hu'
      obtain ⟨m, hm⟩ := List.mem_iff_getElem?.1 hu'
      rcases hcase hm with ⟨-, rfl⟩ | ⟨-, rfl⟩ | ⟨-, -, hu⟩
      · exact hup.profile ▸ LinkState.tidy_gone htt hat (some i)
      · exact hup.profile ▸ LinkState.tidy_inherit hs't ha t
      · exact hup.profile ▸ htidy.link u' (List.mem_of_getElem? hu)
    · intro a b u v hu hv hul hvl he
      rcases hcase hu with ⟨-, rfl⟩ | ⟨rfl, rfl⟩ | ⟨haj, -, huc⟩
      · cases hul
      · rcases hcase hv with ⟨-, rfl⟩ | ⟨rfl, rfl⟩ | ⟨hbj, -, hvc⟩
        · cases hvl
        · rfl
        · exact absurd (htidy.solo b j v t hvc hj hvl hlive (he.symm.trans hsession')) hbj
      · rcases hcase hv with ⟨-, rfl⟩ | ⟨rfl, rfl⟩ | ⟨-, -, hvc⟩
        · cases hvl
        · exact absurd (htidy.solo a j u t huc hj hul hlive (he.trans hsession')) haj
        · exact htidy.solo a b u v huc hvc hul hvl he
    · -- what the newcomer speaks for, its twin spoke for
      have hspoke : ∀ p, (inherit s' t).peer = some p → t.peer = some p := by
        intro p hq
        have hq : s'.peer.or t.peer = some p := hq
        rw [hpeer₁] at hq
        exact hq
      have htp := (LinkState.live_iff.1 hlive).1
      intro a b u v p hu hv hup' hvp' hq hq'
      rcases hcase hu with ⟨-, rfl⟩ | ⟨rfl, rfl⟩ | ⟨haj, -, huc⟩
      · cases hup'
      · rcases hcase hv with ⟨-, rfl⟩ | ⟨rfl, rfl⟩ | ⟨hbj, -, hvc⟩
        · cases hvp'
        · rfl
        · exact absurd (htidy.personas b j v t p hvc hj hvp' htp hq' (hspoke p hq)) hbj
      · rcases hcase hv with ⟨-, rfl⟩ | ⟨rfl, rfl⟩ | ⟨-, -, hvc⟩
        · cases hvp'
        · exact absurd (htidy.personas a j u t p huc hj hup' htp hq (hspoke p hq')) haj
        · exact htidy.personas a b u v p huc hvc hup' hvp' hq hq'
  | @older i j s s' t peer hi hs hj hlive hpeer hpeer' hdial hlinks =>
    obtain ⟨hs't, ha, hp', ho, hpeer₁, hd₁, hq₁, hsession, hp, hna, hon, hsucc⟩ :=
      hs.eqs (htidy.link s (List.mem_of_getElem? hi))
    have hcase : ∀ {m : ℕ} {u' : LinkState}, c'.links[m]? = some u' →
        u' = { s' with successor := some j }.gone c.links.length ∨ c.links[m]? = some u' := by
      intro m u' hu'
      rw [hlinks, set_get hi] at hu'
      split at hu'
      · exact .inl (Option.some.inj hu').symm
      · exact .inr hu'
    refine ⟨?_, heir_next hf htidy, solo_kept htidy ?_, personas_kept htidy ?_⟩
    · intro u' hu'
      obtain ⟨m, hm⟩ := List.mem_iff_getElem?.1 hu'
      rcases hcase hm with rfl | hu
      · exact hup.profile ▸ LinkState.tidy_gone hs't ha (some j)
      · exact hup.profile ▸ htidy.link u' (List.mem_of_getElem? hu)
    · intro m u' hu' hul
      rcases hcase hu' with rfl | hu
      · cases hul
      · exact ⟨u', hu, hul, rfl⟩
    · intro m u' p hu' hup' hq
      rcases hcase hu' with rfl | hu
      · cases hup'
      · exact ⟨u', hu, hup', hq⟩

end Carrier

end SignetApp.Nearby
