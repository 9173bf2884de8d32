import SignetApp.Nearby.Changes

/-!
# What happens to a carrier

Every action, as one change of the links.
-/

namespace SignetApp.Nearby

open Js NearbyLink

/-- A link as it is once it has left. -/
def LinkState.gone (s : LinkState) (now : ℕ) : LinkState :=
  { s with present := false, link := s.link.drop, acks := [], closedAt := now }

/-- A link has heard the AUTH it waited for. -/
def LinkState.Authenticates (s s' : LinkState) : Prop :=
  s.present = true ∧ ∃ key frames, s.link.state = .auth key ∧ s' = { s with
    link := { s.link with state := .trusted key frames }
    authenticated := true }

/-- What is true of every link between two steps. -/
structure LinkState.Tidy (π : NearbyProfile) (s : LinkState) : Prop where
  phase : s.present = true → s.authenticated = s.link.trusted
  known : s.present = true → s.link.Known
  profile : s.link.profile = π
  met : s.authenticated = true → s.link.state ≠ .hello ∧ s.link.peerSession.isSome = true
  unearned : s.authenticated = false → s.peer = none ∧ s.delivered = [] ∧ s.queue = []
  present : s.present = true → s.successor = none

/-- The event id that a task acknowledges. -/
def Task.id : Task → JsString
  | .event e => e.id.val
  | .offer _ id => id

/-- An event or an offer, which the link's queue takes. -/
def NearbyStep.isTask : NearbyStep → Bool
  | .event _ | .offer _ _ => true
  | _ => false

namespace Carrier

/-- A link, or the session's budget, takes no more events. -/
def full (c : Carrier) (s : LinkState) : Prop :=
  maxEventsPerLink ≤ s.events ∨ maxEventsPerSession ≤ c.budget

/-- The links an action takes away, other than through the dedupe or `close`. -/
def Loses [LinkCrypto] [Numerals] (c : Carrier) : Happening → ℕ → Prop
  | .closed j, i => i = j
  | .frame j none, i => i = j
  | .frame j (some bytes), i => i = j ∧ ∃ s, c.links[j]? = some s
    ∧ (.drop ∈ (s.link.receive bytes).2
      ∨ c.full s ∧ ∃ y ∈ (s.link.receive bytes).2, y.isTask = true)
  | .expect session, i => ∃ s, c.links[i]? = some s ∧ (s.link.expect session).2 = false
  | .connect session, i => ∃ s, c.links[i]? = some s ∧ (s.link.expect session.val).2 = false
  | .sent p ok, i => ok = false ∧ c.profile = .childPair
    ∧ ∃ q, c.promises[p]? = some q ∧ q.link = i
  | .finish j _, i => i = j ∧ ∃ s task rest, c.links[j]? = some s ∧ s.queue = task :: rest
    ∧ s.link.ack task.id true = none
  | _, _ => False

/-- Hearing this, link `i` would become trusted in place of its trusted twin `j`. -/
def Replaces [LinkCrypto] [Numerals] (c : Carrier) (a : Happening) (i j : ℕ) : Prop :=
  ∃ bytes s t peer, a = .frame i (some bytes) ∧ c.links[i]? = some s ∧ s.present = true
    ∧ .trusted ∈ (s.link.receive bytes).2 ∧ c.links[j]? = some t ∧ t.live = true
    ∧ s.link.peerSession = some peer ∧ t.link.peerSession = some peer
    ∧ s.outgoing = sessionDialler c.session.publicKey.val peer

/-- What is true of every carrier between two steps. -/
structure Tidy (c : Carrier) : Prop where
  link : ∀ s ∈ c.links, s.Tidy c.profile
  heir : ∀ s ∈ c.links, ∀ k, s.successor = some k → ∃ t, c.links[k]? = some t
    ∧ t.authenticated = true ∧ s.authenticated = true
    ∧ t.link.peerSession = s.link.peerSession
  /-- One trusted link for each peer session. -/
  solo : ∀ (i j : ℕ) (s t : LinkState), c.links[i]? = some s → c.links[j]? = some t →
    s.live = true → t.live = true → s.link.peerSession = t.link.peerSession → i = j
  /-- One link for each persona. -/
  personas : ∀ (i j : ℕ) (s t : LinkState) (p : JsString), c.links[i]? = some s →
    c.links[j]? = some t → s.present = true → t.present = true → s.peer = some p →
    t.peer = some p → i = j

/-- How the links change when one thing happens. -/
inductive Change (lost : ℕ → Prop) (replaces : ℕ → ℕ → Prop) (c c' : Carrier) : Prop where
  | moved (h : Moves Kept lost c c')
  | opened {s : LinkState} (hlinks : c'.links = c.links ++ [s])
      (hs : ∃ l outgoing, s = .new l outgoing ∧ l.state = .hello ∧ l.profile = c.profile)
  | ended (h : Moves Idle (fun _ => True) c c') (hgone : ∀ s ∈ c'.links, s.present = false)
  | bound {i : ℕ} {s : LinkState} {p : JsString} (hi : c.links[i]? = some s)
      (hlive : s.live = true) (hpeer : s.peer = none)
      (hfree : ∀ t ∈ c.links, t.present = true → t.peer ≠ some p)
      (hlinks : c'.links = c.links.set i { s with peer := some p })
  | trusted {i : ℕ} {s s' : LinkState} (hi : c.links[i]? = some s) (hs : s.Authenticates s')
      (halone : ∀ (j : ℕ) (t : LinkState), c.links[j]? = some t → t.live = true →
        t.link.peerSession ≠ s.link.peerSession)
      (hlinks : c'.links = c.links.set i s')
  /-- The link just trusted stays, and its twin leaves. -/
  | newer {i j : ℕ} {s s' t : LinkState} {peer : JsString} (hi : c.links[i]? = some s)
      (hs : s.Authenticates s') (hj : c.links[j]? = some t) (hlive : t.live = true)
      (hpeer : s.link.peerSession = some peer) (hpeer' : t.link.peerSession = some peer)
      (hdial : s.outgoing = sessionDialler c.session.publicKey.val peer) (hreplaces : replaces i j)
      (hlinks : c'.links = (c.links.set i (inherit s' t)).set j
        ({ t with successor := some i }.gone c.links.length))
  /-- The link just trusted leaves, and its twin stays. -/
  | older {i j : ℕ} {s s' t : LinkState} {peer : JsString} (hi : c.links[i]? = some s)
      (hs : s.Authenticates s') (hj : c.links[j]? = some t) (hlive : t.live = true)
      (hpeer : s.link.peerSession = some peer) (hpeer' : t.link.peerSession = some peer)
      (hdial : s.outgoing ≠ sessionDialler c.session.publicKey.val peer)
      (hlinks : c'.links = c.links.set i ({ s' with successor := some j }.gone c.links.length))

/-! ## Opening and binding -/

section
variable {c : Carrier} {i j : ℕ} {s s' t : LinkState} {lost : ℕ → Prop}
  {replaces : ℕ → ℕ → Prop}

variable {l : NearbyLink}

theorem create_eq {r : NearbyRole} {nonce : Nonce} {session : Session} {expected : Option JsString}
    {π : NearbyProfile} (h : NearbyLink.create r nonce session expected π = some l) :
    l.state = .hello ∧ l.profile = π := by
  rw [NearbyLink.create] at h
  split at h
  · cases h
  · obtain rfl := Option.some.inj h
    exact ⟨rfl, rfl⟩

theorem Moves.same (c c' : Carrier) (hlinks : c'.links = c.links) (hsession : c'.session = c.session)
    (hprofile : c'.profile = c.profile) (hpromises : c'.promises = c.promises) :
    Moves Idle lost c c' := by
  refine ⟨⟨hsession, hprofile, hpromises ▸ .refl _, ?_⟩, hlinks ▸ rfl, ?_⟩
  · intro h
    refine ⟨?_, ?_, ?_⟩ <;> rw [hpromises] <;> rw [hlinks]
    · exact h.awaited
    · exact h.owned
    · exact h.heard
  · intro i s s' hs hs'
    rw [hlinks] at hs'
    obtain rfl := Option.some.inj (hs.symm.trans hs')
    exact .inl (.refl s)

theorem concat_get {α : Type*} {xs : List α} {x y : α} (h : (xs ++ [x])[j]? = some y) :
    xs[j]? = some y ∨ j = xs.length ∧ y = x := by
  rw [List.getElem?_append] at h
  split at h
  · exact .inl h
  · next hj =>
    obtain rfl := List.mem_singleton.1 (List.mem_of_getElem? h)
    obtain ⟨hlt, -⟩ := List.getElem?_eq_some_iff.1 h
    rw [List.length_singleton] at hlt
    exact .inr ⟨by omega, rfl⟩

theorem get_concat {α : Type*} {xs : List α} {y : α} (h : xs[j]? = some y) (x : α) :
    (xs ++ [x])[j]? = some y :=
  (List.getElem?_append_left (List.getElem?_eq_some_iff.1 h).1).trans h

theorem onLink_change (c : Carrier) (outgoing : Bool) (nonce : Nonce) :
    Upkeep c (c.onLink outgoing nonce) ∧ Change lost replaces c (c.onLink outgoing nonce) := by
  have hsame : Moves Idle lost c c := .refl c lost
  rw [onLink]
  split
  · exact ⟨hsame.toUpkeep, .moved hsame.kept⟩
  · split
    · exact ⟨hsame.toUpkeep, .moved hsame.kept⟩
    · next l hl =>
      obtain ⟨hstate, hprofile⟩ := create_eq hl
      refine ⟨⟨rfl, rfl, .refl _, ?_⟩, .opened rfl ⟨l, outgoing, rfl, hstate, hprofile⟩⟩
      intro h
      refine ⟨?_, ?_, ?_⟩
      · intro p q hq hr
        obtain ⟨t, ht, hp, hmem⟩ := h.awaited p q hq hr
        exact ⟨t, get_concat ht _, hp, hmem⟩
      · intro j t e ht he
        rcases concat_get ht with ht | ⟨-, rfl⟩
        · exact h.owned j t e ht he
        · cases he
      · intro p q hq hr
        obtain ⟨t, ht, hmem⟩ := h.heard p q hq hr
        exact ⟨t, get_concat ht _, hmem⟩

theorem bindFirst_change (c : Carrier) (peer : JsString) (fits : LinkState → Bool) :
    Upkeep c (c.bindFirst peer fits) ∧ Change lost replaces c (c.bindFirst peer fits) := by
  have hsame : Moves Idle lost c c := .refl c lost
  rw [bindFirst]
  split
  · exact ⟨hsame.toUpkeep, .moved hsame.kept⟩
  · next hfree =>
    split
    · exact ⟨hsame.toUpkeep, .moved hsame.kept⟩
    · next i hi =>
      split
      · exact ⟨hsame.toUpkeep, .moved hsame.kept⟩
      · next s hs =>
        obtain ⟨hlt, hfits, -⟩ := List.findIdx?_eq_some_iff_getElem.1 hi
        rw [(List.getElem?_eq_some_iff.1 hs).2] at hfits
        simp only [Bool.and_eq_true, Option.isNone_iff_eq_none] at hfits
        refine ⟨put_upkeep hs rfl (List.Subset.refl _) rfl,
          .bound hs hfits.1.1 hfits.1.2 ?_ rfl⟩
        intro t ht hp hpeer
        exact hfree (List.any_eq_true.2 ⟨t, ht, by simp [hp, hpeer]⟩)

/-! ## The dedupe -/

theorem drop_links (hi : c.links[i]? = some s) (hp : s.present = true) :
    (c.drop i).links = c.links.set i (s.gone c.links.length) := by
  have h : c.drop i = c.release i
      { s with present := false, link := s.link.drop, closedAt := c.links.length }
      (fun _ => true) false := by
    rw [drop, hi]
    exact if_pos hp
  rw [h, release, settle_links]
  show c.links.set i { s with
    present := false
    link := s.link.drop
    closedAt := c.links.length
    acks := s.acks.filter (!(fun _ => true) ·) } = _
  rw [LinkState.gone]
  simp

theorem supersede_change (hne : i ≠ j) (hi : c.links[i]? = some s) (hj : c.links[j]? = some t)
    (hp : t.present = true) : Upkeep c (c.supersede i j) ∧ (c.supersede i j).links
      = (c.links.set i (inherit s t)).set j ({ t with successor := some i }.gone c.links.length) := by
  have hput : (c.put i (inherit s t)).links[j]? = some t :=
    (put_get hi _ j).trans ((if_neg hne.symm).trans hj)
  have hput' : ((c.put i (inherit s t)).put j { t with successor := some i }).links[j]?
      = some { t with successor := some i } := (put_get hput _ j).trans (if_pos rfl)
  have heq : c.supersede i j
      = ((c.put i (inherit s t)).put j { t with successor := some i }).drop j := by
    rw [supersede, hi, hj]
  rw [heq]
  constructor
  · have hdrop : Moves Idle (fun _ => True)
        ((c.put i (inherit s t)).put j { t with successor := some i })
        (((c.put i (inherit s t)).put j { t with successor := some i }).drop j) :=
      drop_moves trivial
    have hk : Upkeep c (c.put i (inherit s t)) := put_upkeep hi rfl (List.Subset.refl _) rfl
    have hl : Upkeep (c.put i (inherit s t))
        ((c.put i (inherit s t)).put j { t with successor := some i }) :=
      put_upkeep hput rfl (List.Subset.refl _) rfl
    exact (hk.trans hl).trans hdrop.toUpkeep
  rw [drop_links hput' hp, put_length, put_length]
  show ((c.links.set i (inherit s t)).set j _).set j _ = _
  rw [List.set_set]

theorem twin_eq (h : c.twin i s = some j) : j ≠ i ∧ ∃ t, c.links[j]? = some t ∧ t.live = true
    ∧ t.link.peerSession = s.link.peerSession := by
  have h := List.find?_some h
  simp only [Bool.and_eq_true, Option.any_eq_true, decide_eq_true_eq] at h
  obtain ⟨hne, t, ht, hlive, hsession⟩ := h
  exact ⟨hne, t, ht, hlive, hsession⟩

theorem twin_none (h : c.twin i s = none) (hne : j ≠ i) (hj : c.links[j]? = some t)
    (hlive : t.live = true) : t.link.peerSession ≠ s.link.peerSession := by
  intro hsession
  have hlt := (List.getElem?_eq_some_iff.1 hj).1
  have h := List.find?_eq_none.1 h j (List.mem_range.2 hlt)
  simp [hne, hj, hlive, hsession] at h

/-- A link becomes trusted. -/
theorem trusted_change (hi : c.links[i]? = some s) (hs : s.Authenticates s')
    (hpeer : s.link.peerSession.isSome = true) (hun : s.peer = none ∧ s.delivered = [])
    (hreplaces : ∀ j t peer, c.links[j]? = some t → t.live = true →
      s.link.peerSession = some peer → t.link.peerSession = some peer →
      s.outgoing = sessionDialler c.session.publicKey.val peer → replaces i j) :
    Upkeep c ((c.put i s').dedupe i) ∧ Change lost replaces c ((c.put i s').dedupe i) := by
  obtain ⟨hp, key, frames, hstate, hs'⟩ := id hs
  obtain ⟨peer, hpeer⟩ := Option.isSome_iff_exists.1 hpeer
  have hput : (c.put i s').links[i]? = some s' := (put_get hi s' i).trans (if_pos rfl)
  have hp' : s'.present = true := by rw [hs', ← hp]
  have hpeer' : s'.link.peerSession = some peer := by rw [hs', ← hpeer]
  have hout : s'.outgoing = s.outgoing := by rw [hs']
  have hup : Upkeep c (c.put i s') :=
    put_upkeep hi (by rw [hs']) (by rw [hs']; exact List.Subset.refl _) (by rw [hs'])
  rw [dedupe, hput]
  dsimp only
  cases htwin : (c.put i s').twin i s' with
  | none =>
    refine ⟨hup, .trusted hi hs ?_ rfl⟩
    intro j t hj hlive
    by_cases hji : j = i
    · rw [hji, hi] at hj
      obtain rfl := Option.some.inj hj
      simp [LinkState.live, NearbyLink.trusted, hstate] at hlive
    · have hj' : (c.put i s').links[j]? = some t := (put_get hi s' j).trans ((if_neg hji).trans hj)
      rw [hpeer, ← hpeer']
      exact twin_none htwin hji hj' hlive
  | some j =>
    obtain ⟨hji, t, hj, hlive, hsession⟩ := twin_eq htwin
    have hj' : c.links[j]? = some t := by
      rw [put_get hi, if_neg hji] at hj
      exact hj
    have htp : t.present = true := by
      simp only [LinkState.live, Bool.and_eq_true] at hlive
      exact hlive.1
    rw [hpeer']
    dsimp only
    split
    · next hdial =>
      obtain ⟨hup', hlinks⟩ := supersede_change hji.symm hput hj htp
      have hdial : s.outgoing = sessionDialler c.session.publicKey.val peer := hout ▸ hdial
      refine ⟨hup.trans hup', .newer hi hs hj' hlive hpeer (hsession.trans hpeer') hdial
        (hreplaces j t peer hj' hlive hpeer (hsession.trans hpeer') hdial) ?_⟩
      rw [hlinks, put_length]
      show ((c.links.set i s').set i _).set j _ = _
      rw [List.set_set]
    · next hdial =>
      obtain ⟨hup', hlinks⟩ := supersede_change hji hj hput hp'
      refine ⟨hup.trans hup', .older hi hs hj' hlive hpeer (hsession.trans hpeer')
        (hout ▸ hdial) ?_⟩
      -- the newcomer has nothing to hand over
      have hnone : inherit t s' = t := by
        rw [inherit, hs']
        dsimp only
        rw [hun.1, hun.2, List.append_nil, Option.or_none]
      rw [hlinks, put_length, hnone]
      show ((c.links.set i s').set j t).set i _ = _
      rw [List.set_comm _ _ hji.symm, List.set_set]
      have hset : (c.links.set j t) = c.links := by
        obtain ⟨hlt, rfl⟩ := List.getElem?_eq_some_iff.1 hj'
        exact List.set_getElem_self hlt
      rw [hset]

/-! ## Frames -/

theorem put_put (c : Carrier) (i : ℕ) (s s' : LinkState) : (c.put i s).put i s' = c.put i s' := by
  show { c with links := (c.links.set i s).set i s' } = { c with links := c.links.set i s' }
  rw [List.set_set]

theorem idle_link (hprofile : l.profile = s.link.profile)
    (hstate : l.state = s.link.state) (hnonce : l.peerNonce = s.link.peerNonce)
    (hsession : l.peerSession = s.link.peerSession) : Idle s { s with link := l } := by
  refine ⟨⟨rfl, ⟨hprofile, ?_⟩, ?_, ?_, List.Subset.refl _, ?_⟩, rfl, List.suffix_rfl⟩
  · intro h
    exact ⟨hstate ▸ h, hnonce, hsession⟩
  · show l.trusted = s.link.trusted
    rw [NearbyLink.trusted, NearbyLink.trusted, hstate]
  · intro h hl
    have hs := h (hstate ▸ hl)
    exact ⟨hnonce ▸ hs.1, hsession ▸ hs.2⟩
  · exact fun _ => ⟨rfl, List.suffix_rfl⟩

theorem kept_queue {q : List Task} {n : ℕ} (hp : s.present = true) (ha : s.authenticated = true) :
    Kept s { s with events := n, queue := q } :=
  ⟨rfl, .refl _, rfl, id, List.Subset.refl _, fun h => absurd ⟨hp, ha⟩ h⟩

theorem enqueue_moves (hi : c.links[i]? = some s) (hp : s.present = true)
    (ha : s.authenticated = true) (task : Task) (hlost : c.full s → lost i) :
    Moves Kept lost c (c.enqueue i s task) := by
  rw [enqueue]
  dsimp only
  split
  · next hfull =>
    have hdrop : Moves Idle lost c ((c.put i { s with events := s.events + 1 }).drop i) :=
      put_drop_moves hi hp rfl (.refl _) rfl List.suffix_rfl rfl (List.Subset.refl _)
        (hlost (.inl (Nat.le_of_lt_succ hfull)))
    exact hdrop.kept
  · have hbudget : Moves Idle lost c { c with budget := c.budget + 1 } :=
      .same c _ rfl rfl rfl rfl
    split
    · next hfull =>
      have hdrop : Moves Idle lost { c with budget := c.budget + 1 }
          (({ c with budget := c.budget + 1 }.put i { s with events := s.events + 1 }).drop i) :=
        put_drop_moves hi hp rfl (.refl _) rfl List.suffix_rfl rfl (List.Subset.refl _)
          (hlost (.inr (Nat.le_of_lt_succ hfull)))
      exact (hbudget.trans hdrop).kept
    · exact hbudget.earn (put_kept hi (kept_queue hp ha) rfl (List.Subset.refl _))

theorem drop_none (h : c.links[i]? = none) : c.drop i = c := by
  rw [drop, h]

variable [LinkCrypto] [Numerals]

theorem readFrame_cases {key frame : Bytes} {n : Nonce} {y : NearbyStep}
    (h : l.readFrame key n frame = some y) : (∃ event, y = .event event)
      ∨ (∃ uri id, y = .offer uri id) ∨ ∃ id stored, y = .ack id stored := by
  rw [readFrame] at h
  split at h
  · obtain ⟨event, -, rfl⟩ := Option.map_eq_some_iff.1 h
    exact .inl ⟨event, rfl⟩
  · split at h
    · obtain ⟨uri, -, rfl⟩ := Option.map_eq_some_iff.1 h
      exact .inr (.inl ⟨uri, _, rfl⟩)
    · simp only [Option.bind_eq_bind, Option.bind_eq_some_iff, Option.guard_eq_some',
        exists_const] at h
      obtain ⟨⟨id, stored, mac⟩, -, -, h⟩ := h
      exact .inr (.inr ⟨_, _, (Option.some.inj h).symm⟩)

omit [LinkCrypto] [Numerals] in
theorem idle_greeted {n : Nonce} {peer : JsString} {key : Bytes} (hstate : s.link.state = .hello) :
    Idle s { s with link :=
      { s.link with peerNonce := some n, peerSession := some peer, state := .auth key } } := by
  refine ⟨⟨rfl, ⟨rfl, fun h => absurd hstate h⟩, ?_, fun _ _ => ⟨rfl, rfl⟩, List.Subset.refl _,
    fun _ => ⟨rfl, List.suffix_rfl⟩⟩, rfl, List.suffix_rfl⟩
  simp only [NearbyLink.trusted, hstate]

theorem onFrame_bytes (hi : c.links[i]? = some s) (hp : s.present = true) (bytes : Bytes) :
    c.onFrame i (some bytes) = (s.link.receive bytes).2.foldl (fun c y => c.step i y)
      (c.put i { s with link := (s.link.receive bytes).1 }) := by
  unfold onFrame
  rw [hi]
  exact if_pos hp

omit [LinkCrypto] [Numerals] in
theorem step_read {y : NearbyStep} (hi : c.links[i]? = some s) (hp : s.present = true)
    (ha : s.authenticated = true) (hy : (∃ event, y = .event event)
      ∨ (∃ uri id, y = .offer uri id) ∨ ∃ id stored, y = .ack id stored)
    (hlost : c.full s → y.isTask = true → lost i) : Moves Kept lost c (c.step i y) := by
  rw [step, hi]
  rcases hy with ⟨event, rfl⟩ | ⟨uri, id, rfl⟩ | ⟨id, stored, rfl⟩
  · exact enqueue_moves hi hp ha _ fun h => hlost h rfl
  · exact enqueue_moves hi hp ha _ fun h => hlost h rfl
  · have hidle : Idle s { s with heard := s.heard ++ [(id, stored)] } :=
      ⟨⟨rfl, .refl _, rfl, fun h => h, List.Subset.refl _, fun _ => ⟨rfl, List.suffix_rfl⟩⟩, rfl,
        List.suffix_rfl⟩
    have h : Moves Idle lost c
        (c.release i { s with heard := s.heard ++ [(id, stored)] } (·.1 = id) stored) := by
      refine release_idle hi hidle rfl (List.subset_append_left _ _) ?_
      intro hstored e _ he
      rw [hstored, of_decide_eq_true he]
      exact List.mem_append_right _ (List.mem_singleton_self _)
    exact h.kept

/-- A frame comes over a link. -/
theorem onFrame_change (htidy : c.Tidy) (i : ℕ) (data : Option Bytes) :
    Upkeep c (c.onFrame i data) ∧ Change (c.Loses (.frame i data)) (c.Replaces (.frame i data)) c (c.onFrame i data) := by
  have of_moves : ∀ {c' : Carrier}, Moves Kept (c.Loses (.frame i data)) c c' →
      Upkeep c c' ∧ Change (c.Loses (.frame i data)) (c.Replaces (.frame i data)) c c' := fun h => ⟨h.toUpkeep, .moved h⟩
  have hsame : Moves Idle (c.Loses (.frame i data)) c c := .refl c _
  cases data with
  | none =>
    have h : c.onFrame i none = c.drop i := by
      unfold onFrame
      cases c.links[i]? <;> rfl
    rw [h]
    exact of_moves (drop_moves (by exact rfl)).kept
  | some bytes =>
    cases hi : c.links[i]? with
    | none =>
      have h : c.onFrame i (some bytes) = c.drop i := by
        unfold onFrame
        rw [hi]
      rw [h, drop_none hi]
      exact of_moves hsame.kept
    | some s =>
      have hmem : s ∈ c.links := List.mem_of_getElem? hi
      by_cases hp : s.present = true
      · rw [onFrame_bytes hi hp]
        have hr := received s.link bytes
        rcases hrec : s.link.receive bytes with ⟨l', steps⟩
        rw [hrec] at hr
        dsimp only at hr ⊢
        have hput : (c.put i { s with link := l' }).links[i]? = some { s with link := l' } :=
          (put_get hi _ i).trans (if_pos rfl)
        cases hr with
        | ignored h =>
          rw [put_self hi]
          exact of_moves hsame.kept
        | refused hlink hdropped hcounter hpeer =>
          have hstep : [NearbyStep.drop].foldl (fun c y => c.step i y)
              (c.put i { s with link := l' }) = (c.put i { s with link := l' }).drop i := by
            show (c.put i { s with link := l' }).step i .drop = _
            rw [step, hput]
          rw [hstep]
          have honward : Onward s.link l' := by
            refine ⟨hlink.profile, fun h => ⟨?_, hpeer h⟩⟩
            rw [hdropped]
            exact NearbyPhase.noConfusion
          have hlost : c.Loses (.frame i (some bytes)) i := by
            refine ⟨rfl, s, hi, .inl ?_⟩
            rw [hrec]
            exact List.mem_singleton_self _
          have hdrop : Moves Idle (c.Loses (.frame i (some bytes))) c
              ((c.put i { s with link := l' }).drop i) :=
            put_drop_moves hi hp rfl honward rfl List.suffix_rfl rfl (List.Subset.refl _) hlost
          exact of_moves hdrop.kept
        | @greeted n peer key hstate hown hkey =>
          have hstep : ∀ frame, [NearbyStep.send frame].foldl (fun c y => c.step i y)
              (c.put i { s with link :=
                { s.link with peerNonce := some n, peerSession := some peer, state := .auth key } })
              = c.put i { s with link :=
                { s.link with peerNonce := some n, peerSession := some peer, state := .auth key } } := by
            intro frame
            show (c.put i _).step i (.send frame) = _
            rw [step, hput]
          rw [hstep]
          exact of_moves (put_idle hi (idle_greeted hstate) rfl (List.Subset.refl _)).kept
        | @authenticated key n hstate hnonce hmac =>
          have hknown := ((htidy.link s hmem).known hp
            (by rw [hstate]; exact NearbyPhase.noConfusion)).2
          have hun := (htidy.link s hmem).unearned (by
            rw [(htidy.link s hmem).phase hp, NearbyLink.trusted, hstate])
          have hauth : s.Authenticates { s with
              link := { s.link with
                state := .trusted key (if s.link.seals then some (s.link.deriveFrameKeys key n)
                  else none) }
              authenticated := true } := ⟨hp, key, _, hstate, rfl⟩
          have h : Upkeep c _ ∧ Change (c.Loses (.frame i (some bytes)))
              (c.Replaces (.frame i (some bytes))) c _ :=
            trusted_change hi hauth hknown ⟨hun.1, hun.2.1⟩ (by
              intro j t peer hj hlive hpeer hpeer' hdial
              refine ⟨bytes, s, t, peer, rfl, hi, hp, ?_, hj, hlive, hpeer, hpeer', hdial⟩
              rw [hrec]
              exact List.mem_singleton_self _)
          rw [← put_put c i { s with link := { s.link with
            state := .trusted key (if s.link.seals then some (s.link.deriveFrameKeys key n)
              else none) } }] at h
          show Upkeep c ((c.put i _).step i .trusted)
            ∧ Change _ _ c ((c.put i _).step i .trusted)
          rw [step, hput]
          exact h
        | @read key plain frames n _ y hstate hnonce hplain hread =>
          obtain ⟨hlink, hs, hn, hpeer, -⟩ := plainOf_eq hplain
          have ha : s.authenticated = true := by
            rw [(htidy.link s hmem).phase hp, NearbyLink.trusted, hstate]
          have hidle : Moves Idle (c.Loses (.frame i (some bytes))) c
              (c.put i { s with link := l' }) :=
            put_idle hi (idle_link hlink.profile hs hn hpeer) rfl (List.Subset.refl _)
          refine of_moves (hidle.earn (step_read hput hp ha (readFrame_cases hread) ?_))
          intro hfull hy
          refine ⟨rfl, s, hi, .inr ⟨hfull, y, ?_, hy⟩⟩
          rw [hrec]
          exact List.mem_singleton_self _
      · have h : c.onFrame i (some bytes) = c := by
          unfold onFrame
          rw [hi]
          exact if_neg hp
        rw [h]
        exact of_moves hsame.kept

/-! ## Sends and receipts -/

omit [Numerals] in
theorem idle_wire {frame out : Bytes} (h : s.link.wire frame = some (out, l)) :
    Idle s { s with link := l } := by
  obtain ⟨_, _, _, _, -, -, ⟨-, -, rfl⟩ | ⟨_, -, -, -, -, rfl⟩⟩ := wire_eq h
  · exact idle_link rfl rfl rfl rfl
  · exact idle_link rfl rfl rfl rfl

omit [LinkCrypto] [Numerals] in
theorem idle_noted (h : Idle s { s with link := l }) (acks : List (JsString × ℕ))
    (acked : List (JsString × Bool)) :
    Idle s { s with link := l, acks := acks, acked := acked } :=
  ⟨⟨h.face, h.onward, h.trusted, h.known, h.delivered, h.idle⟩, h.still, h.queue⟩

omit [LinkCrypto] [Numerals] in
theorem refused_moves (c : Carrier) (i : ℕ) (id : JsString) : Moves Idle lost c
    { c with promises := c.promises ++ [⟨i, id, some false, .failed⟩] } := by
  refine ⟨⟨rfl, rfl, fun p q hq => ⟨q, get_concat hq _, .refl q⟩, ?_⟩, rfl, (Moves.refl c lost).link⟩
  intro h
  refine ⟨?_, ?_, ?_⟩
  · intro p q hq hr
    rcases concat_get hq with hq | ⟨-, rfl⟩
    · exact h.awaited p q hq hr
    · cases hr
  · intro j t e ht he
    obtain ⟨q, hq, hqs⟩ := h.owned j t e ht he
    exact ⟨q, get_concat hq _, hqs⟩
  · intro p q hq hr
    rcases concat_get hq with hq | ⟨-, rfl⟩
    · exact h.heard p q hq hr
    · cases hr

omit [Numerals] [LinkCrypto] in
/-- A call of `sendFrame` waits for its receipt. -/
theorem Promised.call (h : Promised c) {id : JsString} (hi : c.links[i]? = some s)
    (hacks : s'.acks = s.acks ++ [(id, c.promises.length)]) (hheard : s'.heard = s.heard)
    (hp' : s'.present = true) :
    Promised { c.put i s' with promises := c.promises ++ [⟨i, id, none, .pending⟩] } := by
  have hput := put_get hi s'
  refine ⟨?_, ?_, ?_⟩
  · intro p q hq hr
    rcases concat_get hq with hq | ⟨rfl, rfl⟩
    · obtain ⟨t, ht, hpt, hmem⟩ := h.awaited p q hq hr
      by_cases hqi : q.link = i
      · rw [hqi, hi] at ht
        obtain rfl := Option.some.inj ht
        exact ⟨s', (hput _).trans (if_pos hqi), hp', hacks ▸ List.mem_append_left _ hmem⟩
      · exact ⟨t, (hput _).trans ((if_neg hqi).trans ht), hpt, hmem⟩
    · exact ⟨s', (hput _).trans (if_pos rfl), hp',
        hacks ▸ List.mem_append_right _ (List.mem_singleton_self _)⟩
  · intro j t e ht he
    have howned : (∃ s, c.links[j]? = some s ∧ e ∈ s.acks)
        ∨ j = i ∧ e = (id, c.promises.length) := by
      have ht' := (hput j).symm.trans ht
      split at ht'
      · next hj =>
        obtain rfl := Option.some.inj ht'
        rcases List.mem_append.1 (hacks ▸ he) with he | he
        · exact .inl ⟨s, hj ▸ hi, he⟩
        · exact .inr ⟨hj, List.mem_singleton.1 he⟩
      · exact .inl ⟨t, ht', he⟩
    rcases howned with ⟨t₀, ht₀, he₀⟩ | ⟨rfl, rfl⟩
    · obtain ⟨q, hq, hqs⟩ := h.owned j t₀ e ht₀ he₀
      exact ⟨q, get_concat hq _, hqs⟩
    · exact ⟨_, List.getElem?_concat_length, rfl, rfl⟩
  · intro p q hq hr
    rcases concat_get hq with hq | ⟨rfl, rfl⟩
    · obtain ⟨t, ht, hmem⟩ := h.heard p q hq hr
      by_cases hqi : q.link = i
      · rw [hqi, hi] at ht
        obtain rfl := Option.some.inj ht
        exact ⟨s', (hput _).trans (if_pos hqi), hheard ▸ hmem⟩
      · exact ⟨t, (hput _).trans ((if_neg hqi).trans ht), hmem⟩
    · cases hr

omit [Numerals] in
theorem sendFrame_moves (id : JsString) (frame : Bytes)
    (hthere : ∀ s, c.links[i]? = some s → s.present = true) :
    Moves Idle lost c (c.sendFrame i id frame) := by
  rw [sendFrame]
  split
  · exact .refl c lost
  · next s hi =>
    dsimp only
    split
    · exact refused_moves c i id
    · split
      · exact refused_moves c i id
      · next out l hwire =>
        have hidle := idle_noted (idle_wire hwire) (s.acks ++ [(id, c.promises.length)]) s.acked
        refine ⟨⟨rfl, rfl, fun p q hq => ⟨q, get_concat hq _, .refl q⟩, fun h =>
          h.call hi rfl rfl (hthere s hi)⟩,
          put_length c i _, ?_⟩
        intro j t t' ht ht'
        have ht' := (put_get hi _ j).symm.trans ht'
        split at ht'
        · next hj =>
          obtain rfl := Option.some.inj ht'
          rw [hj, hi] at ht
          obtain rfl := Option.some.inj ht
          exact .inl hidle
        · obtain rfl := Option.some.inj (ht.symm.trans ht')
          exact .inl (.refl t)

omit [LinkCrypto] [Numerals] in
theorem there_of_find {fits : LinkState → Bool}
    (h : c.links.findIdx? (fun s => s.live && fits s) = some i) (s : LinkState)
    (hi : c.links[i]? = some s) : s.present = true := by
  obtain ⟨_, hfits, -⟩ := List.findIdx?_eq_some_iff_getElem.1 h
  rw [(List.getElem?_eq_some_iff.1 hi).2] at hfits
  simp only [LinkState.live, Bool.and_eq_true] at hfits
  exact hfits.1.1

theorem sendEvent_moves (c : Carrier) (fits : LinkState → Bool) (event : NostrEvent) :
    Moves Idle lost c (c.sendEvent fits event) := by
  rw [sendEvent]
  split
  · next hfind _ => exact sendFrame_moves _ _ (there_of_find hfind)
  · exact .refl c lost

omit [Numerals] in
theorem sendOffer_moves (c : Carrier) (session uri : JsString) :
    Moves Idle lost c (c.sendOffer session uri) := by
  rw [sendOffer]
  split
  · exact .refl c lost
  · split
    · next hfind => exact sendFrame_moves _ _ (there_of_find hfind)
    · exact .refl c lost

omit [LinkCrypto] [Numerals] in
/-- A send has settled: its promise says so. -/
theorem settled_moves {p : ℕ} {q : FramePromise} {sending : Sending} (hq : c.promises[p]? = some q)
    (hpending : q.sending = .pending) :
    Moves Idle lost c { c with promises := c.promises.set p { q with sending := sending } } := by
  obtain ⟨hlt, -⟩ := List.getElem?_eq_some_iff.1 hq
  -- every promise but for how far the send has come
  have hcase : ∀ {r : ℕ} {q' : FramePromise}, (c.promises.set p { q with sending := sending })[r]? = some q' →
      ∃ q₀ : FramePromise, c.promises[r]? = some q₀ ∧ q'.link = q₀.link ∧ q'.id = q₀.id
        ∧ q'.receipt = q₀.receipt := by
    intro r q' hr
    rw [List.getElem?_set] at hr
    split at hr
    · next hpr =>
      obtain rfl := Option.some.inj hr
      exact ⟨q, hpr ▸ hq, rfl, rfl, rfl⟩
    · exact ⟨q', hr, rfl, rfl, rfl⟩
  have hgoes : Goes c.promises (c.promises.set p { q with sending := sending }) := by
    intro r q₀ hr
    by_cases hpr : p = r
    · subst hpr
      obtain rfl := Option.some.inj (hq.symm.trans hr)
      exact ⟨_, List.getElem?_set_self hlt, rfl, rfl, fun _ h => h, fun h => absurd hpending h⟩
    · exact ⟨q₀, by rw [List.getElem?_set_ne hpr, hr], .refl q₀⟩
  refine ⟨⟨rfl, rfl, hgoes, ?_⟩, rfl, (Moves.refl c lost).link⟩
  intro h
  refine ⟨?_, ?_, ?_⟩
  · intro r q' hr hnone
    obtain ⟨q₀, h₀, hl, hid, hreceipt⟩ := hcase hr
    rw [hl, hid]
    exact h.awaited r q₀ h₀ (hreceipt ▸ hnone)
  · intro j t e ht he
    obtain ⟨q₀, h₀, hl, hid⟩ := h.owned j t e ht he
    obtain ⟨q', hq', hg⟩ := hgoes e.2 q₀ h₀
    exact ⟨q', hq', hg.link.trans hl, hg.id.trans hid⟩
  · intro r q' hr htrue
    obtain ⟨q₀, h₀, hl, hid, hreceipt⟩ := hcase hr
    rw [hl, hid]
    exact h.heard r q₀ h₀ (hreceipt ▸ htrue)

omit [LinkCrypto] [Numerals] in
theorem release_false_moves (hi : c.links[i]? = some s) (entries : JsString × ℕ → Bool) :
    Moves Idle lost c (c.release i s entries false) :=
  release_idle hi (.refl s) rfl (List.Subset.refl _) nofun

omit [LinkCrypto] [Numerals] in
theorem timeout_moves (c : Carrier) (p : ℕ) : Moves Idle lost c (c.timeout p) := by
  rw [timeout]
  split
  · exact .refl c lost
  · split
    · exact .refl c lost
    · next hs => exact release_false_moves hs _

theorem sent_moves (htidy : c.Tidy) (p : ℕ) (ok : Bool) :
    Moves Idle (c.Loses (.sent p ok)) c (c.sent p ok) := by
  rw [sent]
  split
  · exact .refl c _
  · next q hq =>
    split
    · exact .refl c _
    · next hpending =>
      have hpending := of_not_not hpending
      split
      · exact settled_moves hq hpending
      · next hok =>
        have hset : Moves Idle (c.Loses (.sent p ok)) c
            { c with promises := c.promises.set p { q with sending := .failed } } :=
          settled_moves hq hpending
        dsimp only
        split
        · exact hset
        · next s hs =>
          have hrelease := hset.trans (release_false_moves
            (c := { c with promises := c.promises.set p { q with sending := .failed } }) hs
            fun e => e.1 = q.id)
          split
          · next hseals =>
            have hprofile : c.profile = .childPair := by
              rw [← (htidy.link s (List.mem_of_getElem? hs)).profile]
              simpa [NearbyLink.seals] using hseals
            exact hrelease.trans (drop_moves ⟨by simpa using hok, hprofile, q, hq, rfl⟩)
          · exact hrelease

omit [Numerals] in
theorem sendSealedAck_moves (c : Carrier) (i : ℕ) (id : JsString)
    (hlost : ∀ s, c.links[i]? = some s → s.link.ack id true = none → lost i) :
    Moves Idle lost c (c.sendSealedAck i id) := by
  rw [sendSealedAck]
  split
  · exact .refl c lost
  · next s hs =>
    split
    · split
      · next hack => exact drop_moves (hlost s hs hack)
      · next out l hack =>
        obtain ⟨_, _, _, -, -, -, hwire⟩ := ack_eq hack
        exact put_idle hs (idle_noted (idle_wire hwire) _ _) rfl (List.Subset.refl _)
    · exact .refl c lost

omit [Numerals] in
theorem acknowledge_moves (c : Carrier) (i : ℕ) (id : JsString) (receipt : NearbyReceipt)
    (hearns : ∀ s k t, c.links[i]? = some s → c.receiver i s = some k → c.links[k]? = some t →
      t.present = true ∧ t.authenticated = true) :
    Moves Kept lost c (c.acknowledge i id receipt) := by
  have hsame : Moves Kept lost c c := (Moves.refl c lost).kept
  rw [acknowledge]
  split
  · exact hsame
  · next s hs =>
    split
    · exact hsame
    · next k hk =>
      split
      · exact hsame
      · next t ht =>
        have hearn := hearns s k t hs hk ht
        have hgrows : t.delivered ⊆ if receipt = .stored then t.delivered ++ [id] else t.delivered := by
          split
          · exact List.subset_append_left _ _
          · exact List.Subset.refl _
        dsimp only
        split
        · exact put_kept ht ⟨rfl, .refl _, rfl, fun h => h, hgrows, fun h => absurd hearn h⟩ rfl
            (List.Subset.refl _)
        · next out l hack =>
          obtain ⟨_, _, _, -, -, -, hwire⟩ := ack_eq hack
          have hidle := idle_wire hwire
          exact put_kept ht ⟨rfl, hidle.onward, hidle.trusted, hidle.known, hgrows,
            fun h => absurd hearn h⟩ rfl (List.Subset.refl _)

theorem finish_moves (htidy : c.Tidy) (i : ℕ) (receipt : NearbyReceipt) :
    Moves Kept (c.Loses (.finish i receipt)) c (c.finish i receipt) := by
  have hpop : ∀ {s : LinkState} {task rest}, c.links[i]? = some s → s.queue = task :: rest →
      Moves Idle (c.Loses (.finish i receipt)) c (c.put i { s with queue := rest }) := by
    intro s task rest hs hq
    refine put_idle hs ⟨⟨rfl, .refl _, rfl, fun h => h, List.Subset.refl _, fun _ => ⟨rfl, ?_⟩⟩, rfl,
      ?_⟩ rfl (List.Subset.refl _) <;> rw [hq] <;> exact List.suffix_cons _ _
  have hsealed : ∀ {s : LinkState} {task : Task} {rest}, c.links[i]? = some s →
      s.queue = task :: rest → Moves Kept (c.Loses (.finish i receipt)) c
        ((c.put i { s with queue := rest }).sendSealedAck i task.id) := by
    intro s task rest hs hq
    refine ((hpop hs hq).trans (sendSealedAck_moves _ _ _ ?_)).kept
    intro t ht hack
    rw [put_get hs, if_pos rfl] at ht
    obtain rfl := Option.some.inj ht
    exact ⟨rfl, s, task, rest, hs, hq, hack⟩
  rw [finish]
  split
  · exact (Moves.refl c _).kept
  · next s hs =>
    split
    · exact (Moves.refl c _).kept
    · next hq => exact hsealed hs hq
    · next event rest hq =>
      dsimp only
      split
      · have h := hsealed hs hq
        exact h
      · refine (hpop hs hq).earn (acknowledge_moves _ _ _ _ ?_)
        have hmem := List.mem_of_getElem? hs
        have ha : s.authenticated = true := by
          by_contra hna
          have hempty := ((htidy.link s hmem).unearned (by simpa using hna)).2.2
          rw [hq] at hempty
          cases hempty
        intro s' k t hs' hk ht
        rw [put_get hs, if_pos rfl] at hs'
        obtain rfl := Option.some.inj hs'
        rw [receiver] at hk
        split at hk
        · next hp =>
          obtain rfl := Option.some.inj hk
          rw [put_get hs, if_pos rfl] at ht
          obtain rfl := Option.some.inj ht
          exact ⟨hp, ha⟩
        · obtain ⟨hsucc, hpresent⟩ := Option.filter_eq_some_iff.1 hk
          rw [ht] at hpresent
          refine ⟨by simpa using hpresent, ?_⟩
          obtain ⟨t₀, ht₀, hta, -⟩ := htidy.heir s hmem k hsucc
          rw [put_get hs] at ht
          split at ht
          · obtain rfl := Option.some.inj ht
            exact ha
          · obtain rfl := Option.some.inj (ht₀.symm.trans ht)
            exact hta

/-! ## Every link at once -/

omit [LinkCrypto] [Numerals] in
theorem expect_same {session : JsString} (h : (l.expect session).2 = true) :
    (l.expect session).1 = { l with expected := some session } := by
  rw [NearbyLink.expect] at h ⊢
  dsimp only at h ⊢
  split at h
  · cases h
  · next hpeer => rw [if_neg hpeer]

omit [LinkCrypto] [Numerals] in
theorem expect_again {session : JsString} (h : (l.expect session).2 = true) :
    ((l.expect session).1.expect session).2 = true := by
  rw [expect_same h]
  exact h

omit [LinkCrypto] [Numerals] in
theorem expect_onward (l : NearbyLink) (session : JsString) : Onward l (l.expect session).1 := by
  rw [NearbyLink.expect]
  dsimp only
  split
  · exact (Onward.refl l).trans ⟨rfl, fun _ => ⟨NearbyPhase.noConfusion, rfl, rfl⟩⟩
  · exact ⟨rfl, fun h => ⟨h, rfl, rfl⟩⟩

omit [LinkCrypto] [Numerals] in
theorem expectLink_moves (session : JsString) (c : Carrier) (i : ℕ)
    (hlost : ∀ s, c.links[i]? = some s → s.present = true → (s.link.expect session).2 = false →
      lost i) : Moves Idle lost c (expectLink session c i) := by
  rw [expectLink]
  split
  · exact .refl c lost
  · next s hs =>
    split
    · next hp =>
      dsimp only
      split
      · next h =>
        refine put_idle hs ?_ rfl (List.Subset.refl _)
        rw [expect_same h]
        exact idle_link rfl rfl rfl rfl
      · next h =>
        exact put_drop_moves hs hp rfl (expect_onward _ _) rfl List.suffix_rfl rfl
          (List.Subset.refl _) (hlost s hs hp (by simpa using h))
    · exact .refl c lost

omit [LinkCrypto] [Numerals] in
theorem expectLink_present {session : JsString} {t : LinkState}
    (ht : (expectLink session c i).links[j]? = some t) (hp : t.present = true)
    (h : (t.link.expect session).2 = false) : c.links[j]? = some t := by
  rw [expectLink] at ht
  split at ht
  · exact ht
  · next s hs =>
    have hput := put_get hs { s with link := (s.link.expect session).1 }
    split at ht
    · next hsp =>
      dsimp only at ht
      split at ht
      · next hok =>
        rw [hput] at ht
        split at ht
        · obtain rfl := Option.some.inj ht
          cases (expect_again hok).symm.trans h
        · exact ht
      · rw [drop_links ((hput i).trans (if_pos rfl)) hsp] at ht
        have ht := (put_get ((hput i).trans (if_pos rfl)) _ j).symm.trans ht
        split at ht
        · obtain rfl := Option.some.inj ht
          cases hp
        · next hj => exact (if_neg hj).symm.trans ((hput j).symm.trans ht)
    · exact ht

omit [LinkCrypto] [Numerals] in
theorem foldl_expect_moves {session : JsString} {c₀ : Carrier} (is : List ℕ)
    (hlost : ∀ (i : ℕ) (s : LinkState), c₀.links[i]? = some s →
      (s.link.expect session).2 = false → lost i)
    (hthere : ∀ (i : ℕ) (s : LinkState), c.links[i]? = some s → s.present = true →
      (s.link.expect session).2 = false → c₀.links[i]? = some s) :
    Moves Idle lost c (is.foldl (expectLink session) c) := by
  induction is generalizing c with
  | nil => exact .refl c lost
  | cons i is ih =>
    have hstep : Moves Idle lost c (expectLink session c i) :=
      expectLink_moves session c i fun s hs hp h => hlost i s (hthere i s hs hp h) h
    refine hstep.trans (ih ?_)
    intro j t ht hp h
    exact hthere j t (expectLink_present ht hp h) hp h

omit [LinkCrypto] [Numerals] in
theorem expect_moves (session : JsString) (hlost : ∀ (i : ℕ) (s : LinkState),
    c.links[i]? = some s → (s.link.expect session).2 = false → lost i) :
    Moves Idle lost c (c.expect session) := by
  rw [expect]
  split
  · exact .refl c lost
  · have hset : Moves Idle lost c { c with expected := some session } := .same c _ rfl rfl rfl rfl
    exact hset.trans (foldl_expect_moves _ hlost fun i s hs _ _ => hs)

omit [LinkCrypto] [Numerals] in
theorem connect_moves (session : Hex 64) (hlost : ∀ (i : ℕ) (s : LinkState),
    c.links[i]? = some s → (s.link.expect session.val).2 = false → lost i) :
    Moves Idle lost c (c.connect session) := by
  rw [connect]
  split
  · exact .refl c lost
  · exact (expect_moves session.val hlost).trans (.same _ _ rfl rfl rfl rfl)

omit [LinkCrypto] [Numerals] in
theorem foldl_drop_moves (is : List ℕ) (c : Carrier) :
    Moves Idle (fun _ => True) c (is.foldl drop c) := by
  induction is generalizing c with
  | nil => exact .refl c _
  | cons i is ih => exact (drop_moves trivial).trans (ih (c.drop i))

omit [LinkCrypto] [Numerals] in
theorem drop_present (ht : (c.drop i).links[j]? = some t) (hp : t.present = true) :
    j ≠ i ∧ c.links[j]? = some t := by
  cases hs : c.links[i]? with
  | none =>
    rw [drop_none hs] at ht
    refine ⟨?_, ht⟩
    rintro rfl
    cases hs.symm.trans ht
  | some s =>
    by_cases hsp : s.present = true
    · rw [drop_links hs hsp] at ht
      have ht := (put_get hs _ j).symm.trans ht
      split at ht
      · obtain rfl := Option.some.inj ht
        cases hp
      · next hj => exact ⟨hj, ht⟩
    · have h : c.drop i = c := by
        rw [drop, hs]
        exact if_neg hsp
      rw [h] at ht
      refine ⟨?_, ht⟩
      rintro rfl
      obtain rfl := Option.some.inj (hs.symm.trans ht)
      exact hsp hp

omit [LinkCrypto] [Numerals] in
theorem foldl_drop_present {is : List ℕ} (ht : (is.foldl drop c).links[j]? = some t)
    (hp : t.present = true) : j ∉ is ∧ c.links[j]? = some t := by
  induction is generalizing c with
  | nil => exact ⟨List.not_mem_nil, ht⟩
  | cons i is ih =>
    obtain ⟨hj, ht'⟩ := ih ht
    obtain ⟨hji, ht''⟩ := drop_present ht' hp
    exact ⟨by simp [hji, hj], ht''⟩

omit [LinkCrypto] [Numerals] in
theorem close_change (c : Carrier) : Upkeep c c.close ∧ Change lost replaces c c.close := by
  have hset : Moves Idle (fun _ => True) c { c with closed := true } := .same c _ rfl rfl rfl rfl
  have h : Moves Idle (fun _ => True) c c.close := hset.trans (foldl_drop_moves _ _)
  refine ⟨h.toUpkeep, .ended h ?_⟩
  intro s hs
  by_contra hp
  obtain ⟨i, hi⟩ := List.mem_iff_getElem?.1 hs
  obtain ⟨hmem, hi'⟩ := foldl_drop_present hi (by simpa using hp)
  exact hmem (List.mem_range.2 (List.getElem?_eq_some_iff.1 hi').1)

theorem next_change (htidy : c.Tidy) (a : Happening) :
    Upkeep c (c.next a) ∧ Change (c.Loses a) (c.Replaces a) c (c.next a) := by
  have of_idle : ∀ {c' : Carrier}, Moves Idle (c.Loses a) c c' →
      Upkeep c c' ∧ Change (c.Loses a) (c.Replaces a) c c' := fun h => ⟨h.toUpkeep, .moved h.kept⟩
  cases a with
  | link outgoing nonce => exact onLink_change c outgoing nonce
  | frame i data => exact onFrame_change htidy i data
  | closed i => exact of_idle (drop_moves (by exact rfl))
  | expect session => exact of_idle (expect_moves session fun i s hs h => ⟨s, hs, h⟩)
  | connect session => exact of_idle (connect_moves session fun i s hs h => ⟨s, hs, h⟩)
  | bindSession session persona => exact bindFirst_change c ..
  | bind eventId peer => exact bindFirst_change c ..
  | deliver counterparty event => exact of_idle (sendEvent_moves c ..)
  | deliverSession session event => exact of_idle (sendEvent_moves c ..)
  | sendOffer session uri => exact of_idle (sendOffer_moves c session uri)
  | sent p ok => exact of_idle (sent_moves htidy p ok)
  | timeout p => exact of_idle (timeout_moves c p)
  | finish i receipt =>
    have h := finish_moves htidy i receipt
    exact ⟨h.toUpkeep, .moved h⟩
  | close => exact close_change c

end

end Carrier

end SignetApp.Nearby
