import SignetApp.Bunker.Connecting

/-!
# A one-shot secret is spent once

The guard against a second bind is gone when the first bind is stored, and the handler of a second
`connect` still reads the endpoint as it was rendered. The register gives its secret up only after
the pairing is stored. Where neither window is hit, a secret pairs one client.
-/

namespace SignetApp.Bunker.Connecting

open SignetApp.Js

/-! ## The invariant -/

section

variable {start w : World}

/-- Client `k` is stored by a secret, or may be before its handler ends. -/
def World.Claims (w : World) (slot : OneShot) (k : JsString) : Prop :=
  (slot, k) ∈ w.persisted ∨ ∃ c ∈ w.connects, c.stage.slot = some slot ∧ c.key = k

structure Sound (start w : World) : Prop where
  claim : ∀ slot k k', w.Claims slot k → w.Claims slot k' → k = k'
  acked : ∀ a ∈ w.answers, a.reply = .ack → ∀ slot, a.slot = some slot →
    (slot, a.client) ∈ w.persisted
  settled : ∀ c ∈ w.connects, ∀ slot, c.stage = .settled slot true → (slot, c.key) ∈ w.persisted
  binding : ∀ c ∈ w.connects, ∀ d s updated, c.stage = .binding d s updated →
    updated.pairingSecret = none ∧ start.secretOf d = some s
  /-- No secret is minted. -/
  origin : ∀ d s, w.secretOf d = some s → start.secretOf d = some s
  device_spent : ∀ d s k, (.device d s, k) ∈ w.persisted → w.secretOf d ≠ some s
  redirect_spent : ∀ s k, (.redirect s, k) ∈ w.persisted → (∃ e, (s, e) ∈ w.register) →
    ∃ c ∈ w.connects, c.stage = .settled (.redirect s) true
  device_kept : ∀ d s, start.secretOf d = some s → (∀ k, (.device d s, k) ∉ w.persisted) →
    w.secretOf d = some s
  redirect_kept : ∀ s entry, (s, entry) ∈ start.register →
    (∀ k, (.redirect s, k) ∉ w.persisted) → (s, entry) ∈ w.register ∨ entry.expiresAt < w.now

theorem Sound.spentOnce (h : Sound start w) : SpentOnce start w where
  one slot k k' hk hk' := h.claim slot k k' (.inl hk) (.inl hk')
  acked := h.acked
  device_kept := h.device_kept
  redirect_kept := h.redirect_kept

theorem sound_start (hfresh : start.Fresh) : Sound start start := by
  obtain ⟨hconnects, hpersisted, hanswers⟩ := hfresh
  refine { claim := ?_, acked := ?_, settled := ?_, binding := ?_, origin := fun d s h => h,
           device_spent := ?_, redirect_spent := ?_, device_kept := fun d s h _ => h,
           redirect_kept := fun s entry h _ => .inl h }
  · intro slot k k' hk
    simp [World.Claims, hconnects, hpersisted] at hk
  · simp [hanswers]
  · simp [hconnects]
  · simp [hconnects]
  · simp [hpersisted]
  · simp [hpersisted]

/-! ## A handler that moves on -/

variable {i : ℕ} {c : Connect}

variable {c' : Connect} {stage : Stage}

theorem mem_move (h : c' ∈ (w.move i c stage).connects) : c' ∈ w.connects ∨ c' = { c with stage } :=
  List.mem_or_eq_of_mem_set h

theorem mem_move_of_ne (hi : w.connects[i]? = some c)
    (hc' : c' ∈ w.connects) (hne : c' ≠ c) : c' ∈ (w.move i c stage).connects := by
  obtain ⟨j, hj⟩ := List.mem_iff_getElem?.1 hc'
  have hji : i ≠ j := by
    rintro rfl
    exact hne (Option.some.inj (hj.symm.trans hi))
  apply List.mem_of_getElem? (i := j)
  show (w.connects.set i _)[j]? = some c'
  rw [List.getElem?_set_ne hji, hj]

/-- A handler that moves to a stage in which it claims only what nobody else does, while storage and
register stay. -/
theorem Sound.move (h : Sound start w) (hi : w.connects[i]? = some c)
    (hslot : ∀ slot, stage.slot = some slot → ∀ k, w.Claims slot k → k = c.key)
    (hsettled : ∀ slot, stage = .settled slot true → (slot, c.key) ∈ w.persisted)
    (hbinding : ∀ d s updated, stage = .binding d s updated →
      updated.pairingSecret = none ∧ start.secretOf d = some s)
    (hkeeps : ∀ s, c.stage = .settled (.redirect s) true → ∀ e, (s, e) ∉ w.register) :
    Sound start (w.move i c stage) := by
  have hclaims : ∀ slot k, (w.move i c stage).Claims slot k →
      w.Claims slot k ∨ stage.slot = some slot ∧ k = c.key := by
    rintro slot k (hk | ⟨c', hc', hs, hk⟩)
    · exact .inl (.inl hk)
    · obtain hc' | rfl := mem_move hc'
      · exact .inl (.inr ⟨c', hc', hs, hk⟩)
      · exact .inr ⟨hs, hk.symm⟩
  refine { claim := ?_, acked := h.acked, settled := ?_, binding := ?_, origin := h.origin,
           device_spent := h.device_spent, redirect_spent := ?_, device_kept := h.device_kept,
           redirect_kept := h.redirect_kept }
  · intro slot k k' hk hk'
    obtain hk | ⟨hs, rfl⟩ := hclaims slot k hk
    · obtain hk' | ⟨hs, rfl⟩ := hclaims slot k' hk'
      · exact h.claim slot k k' hk hk'
      · exact hslot slot hs k hk
    · obtain hk' | ⟨-, rfl⟩ := hclaims slot k' hk'
      · exact (hslot slot hs k' hk').symm
      · rfl
  · intro c' hc' slot hs
    obtain hc' | rfl := mem_move hc'
    · exact h.settled c' hc' slot hs
    · exact hsettled slot hs
  · intro c' hc' d s updated hs
    obtain hc' | rfl := mem_move hc'
    · exact h.binding c' hc' d s updated hs
    · exact hbinding d s updated hs
  · rintro s k hk ⟨e, he⟩
    obtain ⟨c', hc', hs⟩ := h.redirect_spent s k hk ⟨e, he⟩
    refine ⟨c', mem_move_of_ne hi hc' ?_, hs⟩
    rintro rfl
    exact hkeeps s hs e he

theorem Sound.proceed (h : Sound start w) (hi : w.connects[i]? = some c)
    (hslot : ∀ slot, stage.slot = some slot → c.stage.slot = some slot)
    (hsettled : ∀ slot, stage ≠ .settled slot true) (hbinding : ∀ d s updated,
      stage ≠ .binding d s updated)
    (hkeeps : ∀ s, c.stage = .settled (.redirect s) true → ∀ e, (s, e) ∉ w.register) :
    Sound start (w.move i c stage) := by
  refine h.move hi ?_ ?_ ?_ hkeeps
  · intro slot hs k hk
    exact h.claim slot k c.key hk (.inr ⟨c, List.mem_of_getElem? hi, hslot slot hs, rfl⟩)
  · intro slot hs
    exact absurd hs (hsettled slot)
  · intro d s updated hs
    exact absurd hs (hbinding d s updated)

theorem Sound.answer (h : Sound start w) (hi : w.connects[i]? = some c) {slot : Option OneShot}
    {reply : Reply} (hack : reply = .ack → ∀ s, slot = some s → (s, c.key) ∈ w.persisted)
    (hkeeps : ∀ s, c.stage = .settled (.redirect s) true → ∀ e, (s, e) ∉ w.register) :
    Sound start (w.answer i c slot reply) := by
  have hmove : Sound start (w.move i c .answered) := by
    apply h.proceed hi
    · intro s hs
      cases hs
    · intro s hs
      cases hs
    · intro d s updated hs
      cases hs
    · exact hkeeps
  refine { claim := hmove.claim, acked := ?_, settled := hmove.settled, binding := hmove.binding,
           origin := h.origin, device_spent := h.device_spent,
           redirect_spent := hmove.redirect_spent, device_kept := h.device_kept,
           redirect_kept := h.redirect_kept }
  intro a ha hreply s hs
  obtain ha | ha := List.mem_append.1 ha
  · exact h.acked a ha hreply s hs
  · obtain rfl := List.mem_singleton.1 ha
    exact hack hreply s hs

/-! ## What surrounds the handlers -/

theorem Sound.aside {w' : World} (h : Sound start w) (hconnects : w'.connects = w.connects)
    (hpersisted : w'.persisted = w.persisted) (hanswers : w'.answers = w.answers)
    (hstored : w'.stored = w.stored) (hregister : w'.register = w.register)
    (hnow : w'.now = w.now) : Sound start w' := by
  obtain ⟨now, stored, loads, dependants, routes, unlocked, inFlight, register, clients, connects,
    persisted, answers⟩ := w'
  subst hconnects hpersisted hanswers hstored hregister hnow
  exact ⟨h.claim, h.acked, h.settled, h.binding, h.origin, h.device_spent, h.redirect_spent,
    h.device_kept, h.redirect_kept⟩

theorem Sound.tick (h : Sound start w) (ms : ℕ) : Sound start { w with now := w.now + ms } := by
  refine { claim := h.claim, acked := h.acked, settled := h.settled, binding := h.binding,
           origin := h.origin, device_spent := h.device_spent, redirect_spent := h.redirect_spent,
           device_kept := h.device_kept, redirect_kept := ?_ }
  intro s entry hstart hnone
  refine (h.redirect_kept s entry hstart hnone).imp id ?_
  intro hexpired
  show entry.expiresAt < w.now + ms
  omega

theorem Sound.shrink (h : Sound start w) {register : List (JsString × AuthPairing)}
    (hsub : ∀ e ∈ register, e ∈ w.register) (hgone : ∀ s entry, (s, entry) ∈ w.register →
      (s, entry) ∈ register ∨ entry.expiresAt < w.now ∨ ∃ k, (.redirect s, k) ∈ w.persisted) :
    Sound start { w with register } := by
  refine { claim := h.claim, acked := h.acked, settled := h.settled, binding := h.binding,
           origin := h.origin, device_spent := h.device_spent, redirect_spent := ?_,
           device_kept := h.device_kept, redirect_kept := ?_ }
  · rintro s k hk ⟨e, he⟩
    exact h.redirect_spent s k hk ⟨e, hsub _ he⟩
  · intro s entry hstart hnone
    obtain hmem | hexpired := h.redirect_kept s entry hstart hnone
    · obtain hmem | hexpired | ⟨k, hk⟩ := hgone s entry hmem
      · exact .inl hmem
      · exact .inr hexpired
      · exact absurd hk (hnone k)
    · exact .inr hexpired

theorem Sound.arrive (h : Sound start w) (client secret : JsString) (metadata : ConnectMetadata)
    (route : Route) : Sound start (w.arrive client secret metadata route) := by
  have hnew : ∀ c' ∈ (w.arrive client secret metadata route).connects,
      c' ∈ w.connects ∨ c'.stage = .arriving := by
    intro c' hc'
    obtain hc' | hc' := List.mem_append.1 hc'
    · exact .inl hc'
    · obtain rfl := List.mem_singleton.1 hc'
      exact .inr rfl
  have hclaims : ∀ slot k, (w.arrive client secret metadata route).Claims slot k →
      w.Claims slot k := by
    rintro slot k (hk | ⟨c', hc', hs, hk⟩)
    · exact .inl hk
    · obtain hc' | harriving := hnew c' hc'
      · exact .inr ⟨c', hc', hs, hk⟩
      · rw [harriving] at hs
        cases hs
  refine { claim := ?_, acked := h.acked, settled := ?_, binding := ?_, origin := h.origin,
           device_spent := h.device_spent, redirect_spent := ?_, device_kept := h.device_kept,
           redirect_kept := h.redirect_kept }
  · intro slot k k' hk hk'
    exact h.claim slot k k' (hclaims slot k hk) (hclaims slot k' hk')
  · intro c' hc' slot hs
    obtain hc' | harriving := hnew c' hc'
    · exact h.settled c' hc' slot hs
    · rw [harriving] at hs
      cases hs
  · intro c' hc' d s updated hs
    obtain hc' | harriving := hnew c' hc'
    · exact h.binding c' hc' d s updated hs
    · rw [harriving] at hs
      cases hs
  · intro s k hk he
    obtain ⟨c', hc', hs⟩ := h.redirect_spent s k hk he
    exact ⟨c', List.mem_append_left _ hc', hs⟩

/-! ## Storing a client -/

/-- The endpoint of `slot` is spent, and no other secret in storage. -/
structure Spends (w : World) (slot : OneShot) (stored : Endpoints) : Prop where
  spent : ∀ d s, slot = .device d s → (stored d).bind (·.pairingSecret) ≠ some s
  kept : ∀ d, (stored d).bind (·.pairingSecret) = w.secretOf d ∨
    (stored d).bind (·.pairingSecret) = none ∧ ∀ s, w.secretOf d = some s → slot = .device d s

theorem Sound.store (h : Sound start w) (hi : w.connects[i]? = some c) {slot : OneShot}
    (hslot : c.stage.slot = some slot) (hne : ∀ s, c.stage ≠ .settled (.redirect s) true)
    {stored : Endpoints} (hstored : Spends w slot stored)
    (clients : JsString → Option ConnectedClient) :
    Sound start { w.move i c (.settled slot true) with
      stored, clients, persisted := w.persisted ++ [(slot, c.key)] } := by
  have hc : c ∈ w.connects := List.mem_of_getElem? hi
  have hlt : i < w.connects.length := (List.getElem?_eq_some_iff.1 hi).1
  set w' : World := { w.move i c (.settled slot true) with
    stored, clients, persisted := w.persisted ++ [(slot, c.key)] } with hw'
  have hpersisted : ∀ s k, (s, k) ∈ w'.persisted → (s, k) ∈ w.persisted ∨ s = slot ∧ k = c.key := by
    intro s k hk
    obtain hk | hk := List.mem_append.1 hk
    · exact .inl hk
    · exact .inr (Prod.mk.inj (List.mem_singleton.1 hk))
  have holder : ∀ s k, (s, k) ∈ w.persisted → (s, k) ∈ w'.persisted := fun _ _ hk =>
    List.mem_append_left _ hk
  have hnew : (slot, c.key) ∈ w'.persisted := List.mem_append_right _ (List.mem_singleton_self _)
  have hmem : ∀ c' ∈ w'.connects, c' ∈ w.connects ∨ c' = { c with stage := .settled slot true } :=
    fun c' hc' => mem_move hc'
  have hclaims : ∀ s k, w'.Claims s k → w.Claims s k := by
    rintro s k (hk | ⟨c', hc', hs, hk⟩)
    · obtain hk | ⟨rfl, rfl⟩ := hpersisted s k hk
      · exact .inl hk
      · exact .inr ⟨c, hc, hslot, rfl⟩
    · obtain hc' | rfl := hmem c' hc'
      · exact .inr ⟨c', hc', hs, hk⟩
      · obtain rfl : slot = s := Option.some.inj hs
        exact .inr ⟨c, hc, hslot, hk⟩
  refine { claim := ?_, acked := ?_, settled := ?_, binding := ?_, origin := ?_, device_spent := ?_,
           redirect_spent := ?_, device_kept := ?_, redirect_kept := ?_ }
  · intro s k k' hk hk'
    exact h.claim s k k' (hclaims s k hk) (hclaims s k' hk')
  · intro a ha hreply s hs
    exact holder _ _ (h.acked a ha hreply s hs)
  · intro c' hc' s hs
    obtain hc' | rfl := hmem c' hc'
    · exact holder _ _ (h.settled c' hc' s hs)
    · obtain ⟨rfl, -⟩ := Stage.settled.inj hs
      exact hnew
  · intro c' hc' d s updated hs
    obtain hc' | rfl := hmem c' hc'
    · exact h.binding c' hc' d s updated hs
    · cases hs
  · intro d s hs
    obtain heq | ⟨hnone, -⟩ := hstored.kept d
    · exact h.origin d s (heq.symm.trans hs)
    · exact absurd (hnone.symm.trans hs) (by simp)
  · intro d s k hk
    obtain hk | ⟨hs, -⟩ := hpersisted _ k hk
    · obtain heq | ⟨hnone, -⟩ := hstored.kept d
      · intro hs
        exact h.device_spent d s k hk (heq.symm.trans hs)
      · intro hs
        exact absurd (hnone.symm.trans hs) (by simp)
    · exact hstored.spent d s hs.symm
  · rintro s k hk he
    obtain hk | ⟨rfl, -⟩ := hpersisted _ k hk
    · obtain ⟨c', hc', hs⟩ := h.redirect_spent s k hk he
      refine ⟨c', mem_move_of_ne hi hc' ?_, hs⟩
      rintro rfl
      exact hne s hs
    · exact ⟨_, List.mem_set hlt _, rfl⟩
  · intro d s hstart hnone
    have hkept := h.device_kept d s hstart fun k hk => hnone k (holder _ _ hk)
    obtain heq | ⟨-, hspent⟩ := hstored.kept d
    · exact heq.trans hkept
    · obtain rfl := hspent s hkept
      exact absurd hnew (hnone c.key)
  · intro s entry hstart hnone
    exact h.redirect_kept s entry hstart fun k hk => hnone k (holder _ _ hk)

/-! ## Every step -/

theorem matchPairing_fst_subset {now : ℤ} {pubkey authSecret : JsString} :
    ∀ {register : List (JsString × AuthPairing)},
      ∀ e ∈ (matchPairing now pubkey authSecret register).1, e ∈ register
  | [], e, he => by cases he
  | (secret, entry) :: rest, e, he => by
    rw [matchPairing] at he
    split at he
    · exact List.mem_cons_of_mem _ (matchPairing_fst_subset e he)
    · split at he
      · exact he
      · obtain rfl | he := List.mem_cons.1 he
        · exact List.mem_cons_self
        · exact List.mem_cons_of_mem _ (matchPairing_fst_subset e he)

theorem matchPairing_gone {now : ℤ} {pubkey authSecret : JsString} {s : JsString}
    {e : AuthPairing} : ∀ {register : List (JsString × AuthPairing)}, (s, e) ∈ register →
      (s, e) ∈ (matchPairing now pubkey authSecret register).1 ∨ e.expiresAt < now
  | (secret, entry) :: rest, he => by
    rw [matchPairing]
    split
    · next hexpired =>
      obtain heq | he := List.mem_cons.1 he
      · obtain ⟨rfl, rfl⟩ := Prod.mk.inj heq
        exact .inr hexpired
      · exact matchPairing_gone he
    · split
      · exact .inl he
      · obtain heq | he := List.mem_cons.1 he
        · exact .inl (heq ▸ List.mem_cons_self)
        · exact (matchPairing_gone he).imp (List.mem_cons_of_mem _) id

theorem matchPairing_snd_mem {now : ℤ} {pubkey authSecret : JsString} {s : JsString}
    {e : AuthPairing} : ∀ {register : List (JsString × AuthPairing)},
      (matchPairing now pubkey authSecret register).2 = some (s, e) →
      (s, e) ∈ (matchPairing now pubkey authSecret register).1
  | [], h => by cases h
  | (secret, entry) :: rest, h => by
    rw [matchPairing] at h ⊢
    split
    · next hexpired =>
      rw [if_pos hexpired] at h
      exact matchPairing_snd_mem h
    · next hlive =>
      rw [if_neg hlive] at h
      split
      · next hmatch =>
        rw [if_pos hmatch] at h
        obtain heq := Option.some.inj h
        exact heq ▸ List.mem_cons_self
      · next hmatch =>
        rw [if_neg hmatch] at h
        exact List.mem_cons_of_mem _ (matchPairing_snd_mem h)

theorem bindDependantBunkerClient_eq_some {endpoint : Option BunkerEndpoint} {key : JsString}
    {updated : BunkerEndpoint} (h : bindDependantBunkerClient endpoint key = some updated) :
    updated.pairingSecret = none := by
  obtain ⟨e, -, he⟩ := Option.bind_eq_some_iff.1 h
  simp only at he
  split at he
  · cases he
  · split at he
    · cases he
    · obtain rfl := Option.some.inj he
      rfl

theorem bindDependantBunkerClient_isSome {e : BunkerEndpoint} {client : JsString}
    (hother : e.authorizedClientPubkey ≠ some (toLowerCase client))
    (hopen : (e.authorizedClientPubkey.filter (· ≠ [])).isSome →
      (e.pairingSecret.filter (· ≠ [])).isSome) :
    bindDependantBunkerClient (some e) (toLowerCase client) ≠ none := by
  simp only [bindDependantBunkerClient, Option.bind_some, toLowerCase_toLowerCase]
  rw [if_neg hother, if_neg]
  · exact Option.some_ne_none _
  · simp only [Bool.and_eq_true, Option.isNone_iff_eq_none, not_and]
    intro hbound hnone
    have hsome := hopen hbound
    rw [hnone] at hsome
    cases hsome

theorem Sound.sole (h : Sound start w) {slot : OneShot}
    (hothers : ∀ c' ∈ w.connects, c'.stage.slot = some slot → c'.key = c.key)
    (hunspent : ∀ k, (slot, k) ∈ w.persisted → ∃ c' ∈ w.connects, c'.stage = .settled slot true) :
    ∀ k, w.Claims slot k → k = c.key := by
  rintro k (hk | ⟨c', hc', hs, rfl⟩)
  · obtain ⟨c', hc', hs⟩ := hunspent k hk
    have hs' : c'.stage.slot = some slot := by rw [hs]; rfl
    have hkc' : k = c'.key := h.claim slot k c'.key (.inl hk) (.inr ⟨c', hc', hs', rfl⟩)
    exact hkc'.trans (hothers c' hc' hs')
  · exact hothers c' hc' hs

theorem Sound.connectDevice (h : Sound start w) (hi : w.connects[i]? = some c)
    (harriving : c.stage = .arriving) {dependantId : JsString} {endpoint : BunkerEndpoint}
    (hroute : c.route = .device dependantId endpoint) (hcareful : Careful w (.connected i)) :
    Sound start (w.connectDevice i c dependantId endpoint) := by
  have hkeeps : ∀ s, c.stage = .settled (.redirect s) true → ∀ e, (s, e) ∉ w.register := by
    intro s hs
    rw [harriving] at hs
    cases hs
  have hrefuse : ∀ message, Sound start (w.answer i c none (.error message)) := by
    intro message
    exact h.answer hi (fun hack => by cases hack) hkeeps
  have hack : Sound start (w.answer i c none .ack) := h.answer hi (fun _ s hs => by cases hs) hkeeps
  unfold World.connectDevice
  cases hsecret : endpoint.pairingSecret.filter (· ≠ []) with
  | none =>
    simp only
    split
    · split
      · exact hack
      · exact hrefuse _
    · exact hrefuse _
  | some secret =>
    simp only
    split
    · exact hrefuse _
    · next heq =>
      split
      · exact hrefuse _
      · next hfree =>
        have hw' : Sound start { w with bindingInFlight := dependantId :: w.bindingInFlight } :=
          h.aside rfl rfl rfl rfl rfl rfl
        split
        · apply hw'.proceed hi
          · intro s hs
            cases hs
          · intro s hs
            cases hs
          · intro d s updated hs
            cases hs
          · exact hkeeps
        · next hunlocked =>
          have hpresents : w.presents c = some (.device dependantId secret) := by
            unfold World.presents
            rw [hroute]
            simp only [hsecret, Option.bind_some]
            rw [if_pos ⟨by simpa using heq, hfree, by simpa using hunlocked⟩]
          obtain ⟨⟨hstored, e, he, hother, hopen⟩, hothers⟩ :=
            hcareful c hi harriving _ hpresents
          have hsole := h.sole hothers fun k hk =>
            absurd hstored (h.device_spent dependantId secret k hk)
          rw [he]
          cases hbind : bindDependantBunkerClient (some e) c.key with
          | none => exact absurd hbind (bindDependantBunkerClient_isSome hother hopen)
          | some updated =>
            apply hw'.move hi
            · intro slot hs
              obtain rfl := Option.some.inj hs
              exact hsole
            · intro slot hs
              cases hs
            · intro d s updated' hs
              obtain ⟨rfl, rfl, rfl⟩ := Stage.binding.inj hs
              exact ⟨bindDependantBunkerClient_eq_some hbind, h.origin _ _ hstored⟩
            · exact hkeeps

theorem Sound.connectOwner (h : Sound start w) (hi : w.connects[i]? = some c)
    (harriving : c.stage = .arriving) {pubkey : JsString} (hroute : c.route = .owner pubkey)
    (hcareful : Careful w (.connected i)) : Sound start (w.connectOwner i c pubkey) := by
  have hnone : ∀ s, c.stage ≠ .settled s true := by
    intro s hs
    rw [harriving] at hs
    cases hs
  unfold World.connectOwner
  split
  · next hlength =>
    have hsub := @matchPairing_fst_subset w.now pubkey c.secret w.register
    have hshrunk : Sound start
        { w with register := (matchPairing w.now pubkey c.secret w.register).1 } := by
      apply h.shrink hsub
      intro s entry he
      exact (matchPairing_gone he).imp id .inl
    split
    · next register secret entry hmatch =>
      have hfst : (matchPairing w.now pubkey c.secret w.register).1 = register := by rw [hmatch]
      have hsnd : (matchPairing w.now pubkey c.secret w.register).2 = some (secret, entry) := by
        rw [hmatch]
      have hpresents : w.presents c = some (.redirect secret) := by
        unfold World.presents
        rw [hroute]
        simp only [if_pos hlength, hsnd, Option.map_some]
      obtain ⟨-, hothers⟩ := hcareful c hi harriving _ hpresents
      have hsole := h.sole hothers fun k hk =>
        h.redirect_spent secret k hk ⟨entry, hsub _ (matchPairing_snd_mem hsnd)⟩
      rw [hfst] at hshrunk
      apply hshrunk.move hi
      · intro slot hs
        obtain rfl := Option.some.inj hs
        exact hsole
      · intro slot hs
        cases hs
      · intro d s updated hs
        cases hs
      · exact fun s hs => absurd hs (hnone _)
    · next register hmatch =>
      rw [hmatch] at hshrunk
      exact hshrunk.answer hi (fun _ s hs => by cases hs) fun s hs => absurd hs (hnone _)
  · exact h.answer hi (fun _ s hs => by cases hs) fun s hs => absurd hs (hnone _)

theorem Sound.saved (h : Sound start w) (hi : w.connects[i]? = some c) :
    Sound start (w.saved i c) := by
  unfold World.saved
  cases hstage : c.stage with
  | binding dependantId secret updated =>
    have hslot : c.stage.slot = some (.device dependantId secret) := by rw [hstage]; rfl
    obtain ⟨hspent, hopen⟩ := h.binding c (List.mem_of_getElem? hi) _ _ _ hstage
    refine h.store hi hslot (by simp [hstage]) ⟨?_, ?_⟩ w.clients
    · intro d s hs
      obtain ⟨rfl, rfl⟩ := OneShot.device.inj hs
      simp [hspent]
    · intro d
      by_cases hd : d = dependantId
      · subst hd
        refine .inr ⟨by simp [hspent], ?_⟩
        intro s hs
        obtain rfl := Option.some.inj ((h.origin d s hs).symm.trans hopen)
        rfl
      · exact .inl (by rw [Function.update_of_ne hd]; rfl)
  | saving secret row =>
    have hslot : c.stage.slot = some (.redirect secret) := by rw [hstage]; rfl
    refine h.store hi hslot (by simp [hstage]) ⟨?_, fun d => .inl rfl⟩ _
    intro d s hs
    cases hs
  | arriving => exact h
  | recalling secret entry now => exact h
  | settled slot ok => exact h
  | answered => exact h

theorem Sound.failed (h : Sound start w) (hi : w.connects[i]? = some c) :
    Sound start (w.failed i c) := by
  have hfails : ∀ slot, (∀ s, c.stage ≠ .settled (.redirect s) true) →
      Sound start (w.move i c (.settled slot false)) := by
    intro slot hne
    apply h.proceed hi
    · intro s hs
      cases hs
    · intro s hs
      cases hs
    · intro d s updated hs
      cases hs
    · exact fun s hs => absurd hs (hne s)
  unfold World.failed
  split
  · next hstage => exact hfails _ (by simp [hstage])
  · next hstage => exact hfails _ (by simp [hstage])
  · next hstage => exact hfails _ (by simp [hstage])
  · next hstage => exact hfails _ (by simp [hstage])
  · exact h

theorem Sound.settle (h : Sound start w) (hi : w.connects[i]? = some c) :
    Sound start (w.settle i c) := by
  have hc := List.mem_of_getElem? hi
  unfold World.settle
  split
  · next dependantId secret ok hstage =>
    have hw' : Sound start
        { w with bindingInFlight := w.bindingInFlight.filter (· ≠ dependantId) } :=
      h.aside rfl rfl rfl rfl rfl rfl
    apply hw'.answer hi
    · intro hack s hs
      obtain rfl := Option.some.inj hs
      cases ok with
      | true => exact h.settled c hc _ hstage
      | false => cases hack
    · intro s hs
      rw [hstage] at hs
      cases hs
  · next secret hstage =>
    have hpersisted := h.settled c hc _ hstage
    have hshrunk : Sound start
        { w with register := w.register.filter fun e => e.1 ≠ secret } := by
      apply h.shrink
      · intro e he
        exact (List.mem_filter.1 he).1
      · intro s entry he
        by_cases hs : s = secret
        · exact .inr (.inr ⟨c.key, hs ▸ hpersisted⟩)
        · exact .inl (List.mem_filter.2 ⟨he, by simpa using hs⟩)
    apply hshrunk.answer hi
    · intro _ s hs
      obtain rfl := Option.some.inj hs
      exact hpersisted
    · intro s hs e he
      rw [hstage] at hs
      injection hs with hs
      injection hs with hs
      simp [hs] at he
  · next secret hstage =>
    apply h.answer hi
    · intro hack
      cases hack
    · intro s hs
      rw [hstage] at hs
      cases hs
  · exact h

theorem atConnect_of {P : World → Prop} {f : Connect → World} (h : P w)
    (hf : ∀ c, w.connects[i]? = some c → P (f c)) : P (w.atConnect i f) := by
  unfold World.atConnect
  split
  · next c hi => exact hf c hi
  · exact h

theorem Sound.next (h : Sound start w) (a : Happening) (hcareful : Careful w a) :
    Sound start (w.next a) := by
  cases a with
  | tick ms => exact h.tick ms
  | arrived client secret metadata addressee =>
    cases addressee with
    | device dependantId =>
      dsimp only [World.next]
      split
      · exact h.arrive client secret metadata _
      · exact h
    | owner pubkey => exact h.arrive client secret metadata _
  | connected i =>
    apply atConnect_of h
    intro c hi
    split
    · next harriving =>
      unfold World.connected
      split
      · next hroute => exact h.connectDevice hi harriving hroute hcareful
      · next hroute => exact h.connectOwner hi harriving hroute hcareful
    · exact h
  | recalled i =>
    apply atConnect_of h
    intro c hi
    split
    · next secret entry now hstage =>
      apply h.proceed hi
      · intro slot hs
        rw [hstage]
        exact hs
      · intro slot hs
        cases hs
      · intro d s updated hs
        cases hs
      · intro s hs
        rw [hstage] at hs
        cases hs
    · exact h
  | saved i => exact atConnect_of h fun c hi => h.saved hi
  | failed i => exact atConnect_of h fun c hi => h.failed hi
  | settled i => exact atConnect_of h fun c hi => h.settle hi
  | load => exact h.aside rfl rfl rfl rfl rfl rfl
  | rendered n =>
    dsimp only [World.next]
    split
    · exact h.aside rfl rfl rfl rfl rfl rfl
    · exact h
  | rerouted => exact h.aside rfl rfl rfl rfl rfl rfl
  | lock unlocked => exact h.aside rfl rfl rfl rfl rfl rfl
  | tearDown => exact h.aside rfl rfl rfl rfl rfl rfl

/-- A secret pairs one client where no `connect` gets past the checks on an endpoint that is out of
date, or while another client is being stored by the same secret. -/
theorem spent_once (hfresh : start.Fresh) (h : Reaches World.next Careful start w) :
    SpentOnce start w := by
  have hsound : Sound start w := h.invariant (sound_start hfresh) fun t a ht ha => ht.next a ha
  exact hsound.spentOnce

end

/-! ## Two runs -/

section

def sampleSecret : JsString := lit "0f1e2d3c4b5a"

def sampleRedirect : JsString := lit "a1b2c3d4e5f6"

def sampleChild : JsString := lit "alice"

def sampleOwner : JsString := List.replicate 64 (unit 'b')

def samplePhone : JsString := List.replicate 64 (unit 'c')

def sampleSecondPhone : JsString := List.replicate 64 (unit 'd')

def sampleSite : JsString := List.replicate 64 (unit 'e')

/-- A dependant whose pair window is open, and one redirect pairing. -/
def sampleStart : World :=
  let endpoints : Endpoints := fun d =>
    if d = sampleChild then some ⟨some sampleSecret, none⟩ else none
  { now := 1000, stored := endpoints, loads := [], dependants := endpoints, routes := endpoints
    unlocked := true, bindingInFlight := []
    register := [(sampleRedirect, ⟨lit "https://app.example", lit "App", sampleOwner, 300000⟩)]
    clients := fun _ => none, connects := [], persisted := [], answers := [] }

def sampleArrives (client secret : JsString) (addressee : Addressee) : Happening :=
  .arrived client secret ⟨lit "Phone", none⟩ addressee

/-- A phone binds, and an app pairs by its redirect; a second phone comes too late. -/
def samplePairings : List Happening :=
  [sampleArrives samplePhone sampleSecret (.device sampleChild), .connected 0, .saved 0, .settled 0,
    .load, .rendered 0, .rerouted,
    sampleArrives sampleSecondPhone sampleSecret (.device sampleChild), .connected 1,
    sampleArrives sampleSite sampleRedirect (.owner sampleOwner), .connected 2, .recalled 2,
    .saved 2, .settled 2]

theorem spent_once_paired :
    let w := samplePairings.foldl World.next sampleStart
    w.persisted = [(.device sampleChild sampleSecret, samplePhone),
      (.redirect sampleRedirect, sampleSite)] ∧ SpentOnce sampleStart w := by
  refine ⟨by decide +kernel, ?_⟩
  apply spent_once ⟨rfl, rfl, rfl⟩
  apply Reaches.run
  intro n a ha
  have hlt : n < samplePairings.length := (List.getElem?_eq_some_iff.1 ha).1
  have hall : ∀ n < samplePairings.length, ∀ a ∈ samplePairings[n]?,
      Careful ((samplePairings.take n).foldl World.next sampleStart) a := by
    decide +kernel
  exact hall n hlt a ha

/-- Both phones are heard before the dependants are rendered anew. -/
def sampleRace : List Happening :=
  [sampleArrives samplePhone sampleSecret (.device sampleChild),
    sampleArrives sampleSecondPhone sampleSecret (.device sampleChild),
    .connected 0, .saved 0, .load, .settled 0, .connected 1, .saved 1, .load, .settled 1]

/-- A secret binds two phones, and both are told that they are paired. -/
theorem binds_twice : ¬ ∀ start w : World, start.Fresh →
    Reaches World.next (fun _ _ => True) start w → SpentOnce start w := by
  intro hall
  have hrun : Reaches World.next (fun _ _ => True) sampleStart
      (sampleRace.foldl World.next sampleStart) := Reaches.run fun _ _ _ => trivial
  have hone := (hall _ _ ⟨rfl, rfl, rfl⟩ hrun).one
  have hpersisted : (sampleRace.foldl World.next sampleStart).persisted =
      [(.device sampleChild sampleSecret, samplePhone),
        (.device sampleChild sampleSecret, sampleSecondPhone)] := by decide +kernel
  rw [hpersisted] at hone
  have hsame : samplePhone = sampleSecondPhone :=
    hone (.device sampleChild sampleSecret) _ _ List.mem_cons_self
      (List.mem_cons_of_mem _ List.mem_cons_self)
  exact absurd hsame (by decide +kernel)

end

end SignetApp.Bunker.Connecting
