import SignetApp.Child.AnswerSeal
import SignetApp.Sync.Wire

/-!
# One answer goes past the gate

Whatever the gate and the inner route do, the pass lets through the encryption and the seal of one
answer. The weak map is what makes it so, and two calls on one template object share an entry of it.
-/

namespace SignetApp.Child.AnswerSeal

open SignetApp.Js

/-! ## The invariant -/

section

variable {s : AnswerSealing} {template : ℕ → UnsignedEvent} {w w' : Wrapper}

/-- A call that has gone further. -/
structure Call.Further (c c' : Call) : Prop where
  op : c'.op = c.op
  entry : c'.entry = c.entry
  calledAt : c'.calledAt = c.calledAt
  outcome : ∀ o, c.outcome = some o → c'.outcome = some o
  settled : ∀ r, c.settled = some r → c'.settled = some r

theorem Call.Further.refl (c : Call) : c.Further c :=
  ⟨rfl, rfl, rfl, fun _ h => h, fun _ h => h⟩

theorem Call.Further.isSign {c c' : Call} (h : c.Further c') : c'.isSign = c.isSign := by
  unfold Call.isSign
  rw [h.op]

theorem Call.Further.isEncrypt {c c' : Call} (h : c.Further c') : c'.isEncrypt = c.isEncrypt := by
  unfold Call.isEncrypt
  rw [h.op]

/-- What is on record stays. -/
structure Later (w w' : Wrapper) : Prop where
  calls : ∀ (i : ℕ) (c : Call), w.calls[i]? = some c → ∃ c', w'.calls[i]? = some c' ∧ c.Further c'
  signings : ∀ e, w.signings.head? = some e → w'.signings.head? = some e

variable {id : Hex 64}

theorem OpenedBy.later {e : Signing} (h : OpenedBy s w e id) (hl : Later w w') :
    OpenedBy s w' e id := by
  obtain ⟨d, o, hd, hsign, hentry, ho, hopen, hset⟩ := h.allowed
  obtain ⟨d', hd', hf⟩ := hl.calls _ _ hd
  refine ⟨hl.signings e h.first, h.id, h.persona, h.kind, d', o, hd', ?_, ?_, ?_, hopen, ?_⟩
  · rw [hf.isSign, hsign]
  · rw [hf.entry, hentry]
  · exact hf.outcome o ho
  · exact hf.settled _ hset

theorem Answers.later [Numerals] {op : Operation} (h : Answers s template w id op)
    (hl : Later w w') : Answers s template w' id op := by
  cases op with
  | signEvent ref =>
    obtain ⟨hkind, htags, hpubkey, d, hd, hentry, henc, hset⟩ := h
    obtain ⟨i, hi⟩ := List.mem_iff_getElem?.1 hd
    obtain ⟨d', hd', hf⟩ := hl.calls i d hi
    refine ⟨hkind, htags, hpubkey, d', List.mem_of_getElem? hd', ?_, ?_, hf.settled _ hset⟩
    · rw [hf.entry, hentry]
    · rw [hf.isEncrypt, henc]
  | nip44Encrypt peer plaintext => exact h
  | nip44Decrypt peer ciphertext => exact h

theorem Carried.later [Numerals] {c c' : Call} (h : Carried s template w c) (hl : Later w w')
    (hf : c.Further c') : Carried s template w' c' := by
  obtain ⟨e, id, hopen, hanswers, hafter, hbefore⟩ := h
  refine ⟨e, id, hopen.later hl, ?_, ?_, ?_⟩
  · rw [hf.op]
    exact hanswers.later hl
  · rwa [hf.calledAt]
  · rwa [hf.calledAt]

/-- The pass is the answer's of the first eligible signature, and its ciphertext one that came back
past the gate. -/
structure PassSound (s : AnswerSealing) (w : Wrapper) (p : Pass) : Prop where
  minted : w.minted = true
  opened : ∃ e, OpenedBy s w e p.eventId ∧ p.mintedAt = e.signedAt
  past : p.mintedAt ≤ w.now
  ciphertext : ∀ t, p.ciphertext = some t → ∃ d ∈ w.calls, d.entry = .forwardPassed
    ∧ d.isEncrypt = true ∧ d.settled = some (.text t)

structure Sound [Numerals] (s : AnswerSealing) (template : ℕ → UnsignedEvent) (w : Wrapper) :
    Prop extends OneAnswer s template w where
  keyed : ∀ ref b, w.sealOpened ref = some b → (template ref).kind = s.eligibleKind
  unsigned : w.minted = false → w.signings = []
  /-- Until an eligible signature decides, the map speaks for each call still being signed. -/
  own : w.minted = false → ∀ c ∈ w.calls, c.entry = .authorise → c.atInner = true → ∀ ref,
    c.op = .signEvent ref → w.sealOpened ref = some true →
      ∃ o, c.outcome = some o ∧ o.opensSeal = true
  pass : ∀ p, w.pass = some p → PassSound s w p
  passed : ∀ c ∈ w.calls, c.entry = .forwardPassed →
    ∃ p, w.pass = some p ∧ (c.isSign = true → p.used = true)

theorem sound_fresh [Numerals] (now : ℤ) : Sound s template (fresh now) where
  gate := rfl
  one_seal := fun i _ _ _ hi => by simp [fresh] at hi
  carried := fun _ hc => by simp [fresh] at hc
  keyed := fun _ _ h => by simp [fresh] at h
  unsigned := fun _ => rfl
  own := fun _ _ hc => by simp [fresh] at hc
  pass := fun _ h => by simp [fresh] at h
  passed := fun _ hc => by simp [fresh] at hc

variable {p : Pass}

theorem PassSound.later (h : PassSound s w p) (hl : Later w w')
    (hminted : w'.minted = true) (hnow : w.now ≤ w'.now) : PassSound s w' p := by
  obtain ⟨e, hopen, hat⟩ := h.opened
  refine ⟨hminted, ⟨e, hopen.later hl, hat⟩, h.past.trans hnow, ?_⟩
  intro t ht
  obtain ⟨d, hd, hentry, henc, hset⟩ := h.ciphertext t ht
  obtain ⟨i, hi⟩ := List.mem_iff_getElem?.1 hd
  obtain ⟨d', hd', hf⟩ := hl.calls i d hi
  refine ⟨d', List.mem_of_getElem? hd', ?_, ?_, hf.settled _ hset⟩
  · rw [hf.entry, hentry]
  · rw [hf.isEncrypt, henc]

/-! ### One call goes further -/

section Replace

variable {i : ℕ} {c c' : Call}

theorem later_set (hi : w.calls[i]? = some c) (hf : c.Further c')
    (hcalls : w'.calls = w.calls.set i c') (hsignings : w'.signings = w.signings) : Later w w' := by
  refine ⟨?_, ?_⟩
  · intro j d hj
    have hlt : i < w.calls.length := (List.getElem?_eq_some_iff.1 hi).1
    by_cases hij : i = j
    · subst hij
      obtain rfl := Option.some.inj (hi.symm.trans hj)
      refine ⟨c', ?_, hf⟩
      rw [hcalls, List.getElem?_set_self hlt]
    · refine ⟨d, ?_, Call.Further.refl d⟩
      rw [hcalls, List.getElem?_set_ne hij, hj]
  · intro e he
    rw [hsignings, he]

theorem set_origin (hi : w.calls[i]? = some c) (hf : c.Further c') {j : ℕ} {d' : Call}
    (hd' : (w.calls.set i c')[j]? = some d') : ∃ d, w.calls[j]? = some d ∧ d.Further d' := by
  by_cases hij : i = j
  · subst hij
    rw [List.getElem?_set_self (List.getElem?_eq_some_iff.1 hi).1] at hd'
    obtain rfl := Option.some.inj hd'
    exact ⟨c, hi, hf⟩
  · rw [List.getElem?_set_ne hij] at hd'
    exact ⟨d', hd', Call.Further.refl d'⟩

theorem Sound.replace [Numerals] (h : Sound s template w) (hi : w.calls[i]? = some c)
    (hf : c.Further c') {m : ℕ → Option Bool}
    (hkeyed : ∀ ref b, m ref = some b → (template ref).kind = s.eligibleKind)
    (hown : w.minted = false → ∀ d ∈ w.calls.set i c', d.entry = .authorise → d.atInner = true →
      ∀ ref, d.op = .signEvent ref → m ref = some true → ∃ o, d.outcome = some o ∧ o.opensSeal = true) :
    Sound s template { w.setCall i c' with sealOpened := m } := by
  have hlater : Later w { w.setCall i c' with sealOpened := m } := later_set hi hf rfl rfl
  refine { gate := ?_, one_seal := ?_, carried := ?_, keyed := hkeyed, unsigned := h.unsigned,
           own := hown, pass := ?_, passed := ?_ }
  · show w.gateCalls = (w.calls.set i c').mapIdx _
    rw [h.gate]
    apply List.ext_getElem?
    intro j
    rw [List.getElem?_mapIdx, List.getElem?_mapIdx]
    by_cases hij : i = j
    · subst hij
      rw [List.getElem?_set_self (List.getElem?_eq_some_iff.1 hi).1, hi]
      simp only [Option.map_some, hf.entry, hf.op]
    · rw [List.getElem?_set_ne hij]
  · intro j k d₁ d₂ hd₁ hd₂ he₁ he₂ hs₁ hs₂
    obtain ⟨d₁', hd₁', hf₁⟩ := set_origin hi hf hd₁
    obtain ⟨d₂', hd₂', hf₂⟩ := set_origin hi hf hd₂
    exact h.one_seal j k d₁' d₂' hd₁' hd₂' (hf₁.entry ▸ he₁) (hf₂.entry ▸ he₂)
      (hf₁.isSign ▸ hs₁) (hf₂.isSign ▸ hs₂)
  · intro d' hd' he
    obtain ⟨j, hj⟩ := List.mem_iff_getElem?.1 hd'
    obtain ⟨d, hd, hfd⟩ := set_origin hi hf hj
    exact (h.carried d (List.mem_of_getElem? hd) (hfd.entry ▸ he)).later hlater hfd
  · intro p hp
    have hsound := h.pass p hp
    exact hsound.later hlater hsound.minted le_rfl
  · intro d' hd' he
    obtain ⟨j, hj⟩ := List.mem_iff_getElem?.1 hd'
    obtain ⟨d, hd, hfd⟩ := set_origin hi hf hj
    rw [hfd.isSign]
    exact h.passed d (List.mem_of_getElem? hd) (hfd.entry ▸ he)

theorem Sound.settle [Numerals] (h : Sound s template w) (hi : w.calls[i]? = some c)
    (hc : c.settled = none) (r : Settled) :
    Sound s template (w.setCall i { c with settled := some r }) := by
  have hf : c.Further { c with settled := some r } :=
    ⟨rfl, rfl, rfl, fun _ ho => ho, fun _ hr => by simp [hc] at hr⟩
  refine h.replace hi hf h.keyed ?_
  intro hm d hd hentry hinner ref hop hmap
  rcases List.mem_or_eq_of_mem_set hd with hd | rfl
  · exact h.own hm d hd hentry hinner ref hop hmap
  · simp [Call.atInner] at hinner

theorem noteAnswer_cases (outcome : ChildGateOutcome) :
    noteAnswer s template w c outcome = w.sealOpened ∨ ∃ ref, c.op = .signEvent ref
      ∧ c.entry = .authorise ∧ (template ref).kind = s.eligibleKind
      ∧ noteAnswer s template w c outcome
        = Function.update w.sealOpened ref (some outcome.opensSeal) := by
  cases hop : c.op with
  | signEvent ref =>
    cases hentry : c.entry with
    | authorise =>
      by_cases hkind : (template ref).kind = s.eligibleKind
      · exact .inr ⟨ref, rfl, rfl, hkind, by simp [noteAnswer, hop, hentry, hkind]⟩
      · exact .inl (by simp [noteAnswer, hop, hentry, hkind])
    | forwardPassed => exact .inl (by simp [noteAnswer, hop, hentry])
  | nip44Encrypt peer plaintext => exact .inl (by simp [noteAnswer, hop])
  | nip44Decrypt peer ciphertext => exact .inl (by simp [noteAnswer, hop])

/-- The gate answers. -/
theorem Sound.answered [Numerals] (h : Sound s template w) (hi : w.calls[i]? = some c)
    (hgate : c.atGate = true) {outcome : ChildGateOutcome}
    (hcareful : Careful s template w (.answer i outcome)) :
    Sound s template (w.answered s template i outcome c) := by
  obtain ⟨houtcome, hsettled⟩ : c.outcome = none ∧ c.settled = none := by
    simpa [Call.atGate] using hgate
  have hf : c.Further (c.answered outcome) := by
    refine ⟨rfl, rfl, rfl, ?_, ?_⟩
    · intro o ho
      cases houtcome.symm.trans ho
    · intro r hr
      cases hsettled.symm.trans hr
  refine h.replace hi hf ?_ ?_
  · intro ref b hb
    rcases noteAnswer_cases outcome with hsame | ⟨ref', -, -, hkind, hnew⟩
    · exact h.keyed ref b (hsame ▸ hb)
    · by_cases href : ref = ref'
      · rwa [href]
      · rw [hnew, Function.update_of_ne href] at hb
        exact h.keyed ref b hb
  · intro hm d hd hentry hinner ref hop hmap
    rcases List.mem_or_eq_of_mem_set hd with hd | rfl
    · rcases noteAnswer_cases outcome with hsame | ⟨ref', hcop, hcentry, hkind, hnew⟩
      · exact h.own hm d hd hentry hinner ref hop (hsame ▸ hmap)
      · by_cases href : ref = ref'
        · -- another call on the very object this answer speaks for
          subst href
          rw [hnew, Function.update_self] at hmap
          obtain ⟨o, ho⟩ : ∃ o, d.outcome = some o := by
            cases hdo : d.outcome with
            | some o => exact ⟨o, rfl⟩
            | none => simp [Call.atInner, hdo] at hinner
          exact ⟨o, ho, hcareful (Option.some.inj hmap) hm c ref hi hgate hcentry hcop hkind d hd hop
            hentry hinner o ho⟩
        · rw [hnew, Function.update_of_ne href] at hmap
          exact h.own hm d hd hentry hinner ref hop hmap
    · -- its own call
      refine ⟨outcome, rfl, ?_⟩
      have hcop : c.op = .signEvent ref := hop
      have hcentry : c.entry = .authorise := hentry
      rcases noteAnswer_cases outcome with hsame | ⟨ref', hcop', -, -, hnew⟩
      · -- a template of another kind has no entry in the map
        have hkind : (template ref).kind = s.eligibleKind := h.keyed ref true (hsame ▸ hmap)
        simpa [noteAnswer, hcop, hcentry, hkind] using hmap
      · obtain rfl : ref = ref' := by
          cases hcop.symm.trans hcop'
          rfl
        rw [hnew, Function.update_self] at hmap
        exact Option.some.inj hmap

/-- The first eligible signature decides. -/
theorem Sound.decide [Numerals] (h : Sound s template w) (hm : w.minted = false) {event : SignedEvent}
    (hkind : event.kind = s.eligibleKind)
    (hi : w.calls[i]? = some { c with settled := some (.event event) }) (hsign : c.isSign = true)
    (hentry : c.entry = .authorise)
    (hopen : ∀ ref, c.op = .signEvent ref → w.sealOpened ref = some true →
      ∃ o, c.outcome = some o ∧ o.opensSeal = true) :
    Sound s template { w with
      minted := true
      pass := w.mint s c event
      signings := w.signings ++ [{ caller := i, event, signedAt := w.now }] } := by
  have hnone : w.pass = none := by
    cases hp : w.pass with
    | none => rfl
    | some p => cases hm.symm.trans (h.pass p hp).minted
  have hordinary : ∀ d ∈ w.calls, d.entry ≠ .forwardPassed := by
    intro d hd he
    obtain ⟨p, hp, -⟩ := h.passed d hd he
    cases hnone.symm.trans hp
  have hmem (d : Call) (hd : d ∈ w.calls) (he : d.entry = .forwardPassed) : False :=
    hordinary d hd he
  refine { gate := h.gate, one_seal := h.one_seal, carried := ?_, keyed := h.keyed,
           unsigned := Bool.noConfusion, own := Bool.noConfusion, pass := ?_, passed := ?_ }
  · intro d hd he
    exact (hmem d hd he).elim
  · intro p hp
    have hmint : w.mint s c event = some p := hp
    unfold Wrapper.mint at hmint
    cases hop : c.op with
    | signEvent ref =>
      simp only [hop, Option.ite_none_right_eq_some, Option.map_eq_some_iff] at hmint
      obtain ⟨⟨hmap, hpubkey⟩, id, hid, rfl⟩ := hmint
      obtain ⟨o, ho, hopens⟩ := hopen ref hop hmap
      refine ⟨rfl, ⟨{ caller := i, event, signedAt := w.now }, ?_, rfl⟩, le_rfl, ?_⟩
      · refine ⟨?_, hid, hpubkey, hkind, _, o, hi, hsign, hentry, ho, hopens, rfl⟩
        rw [h.unsigned hm]
        rfl
      · intro t ht
        cases ht
    | nip44Encrypt peer plaintext => simp [hop] at hmint
    | nip44Decrypt peer ciphertext => simp [hop] at hmint
  · intro d hd he
    exact (hmem d hd he).elim

theorem Sound.logged [Numerals] (h : Sound s template w) (hm : w.minted = true) (e : Signing) :
    Sound s template { w with signings := w.signings ++ [e] } := by
  have hlater : Later w { w with signings := w.signings ++ [e] } := by
    refine ⟨fun i c hi => ⟨c, hi, Call.Further.refl c⟩, ?_⟩
    intro e₀ he₀
    show (w.signings ++ [e]).head? = some e₀
    rw [List.head?_append, he₀]
    rfl
  refine { gate := h.gate, one_seal := h.one_seal, carried := ?_, keyed := h.keyed,
           unsigned := ?_, own := h.own, pass := ?_, passed := h.passed }
  · intro d hd he
    exact (h.carried d hd he).later hlater (Call.Further.refl d)
  · intro hfalse
    cases hm.symm.trans hfalse
  · intro p hp
    exact (h.pass p hp).later hlater hm le_rfl

theorem Sound.signedBack [Numerals] (h : Sound s template w) (hi : w.calls[i]? = some c)
    (hinner : c.atInner = true) (hsign : c.isSign = true) (event : SignedEvent) :
    Sound s template (w.signedBack s i event c) := by
  have hsettled : c.settled = none := by
    simp only [Call.atInner, Bool.and_eq_true, Option.isNone_iff_eq_none] at hinner
    exact hinner.1
  have hs := h.settle hi hsettled (.event event)
  have hi' : (w.setCall i { c with settled := some (.event event) }).calls[i]?
      = some { c with settled := some (.event event) } :=
    List.getElem?_set_self (List.getElem?_eq_some_iff.1 hi).1
  unfold Wrapper.signedBack
  dsimp only
  by_cases hkind : event.kind = s.eligibleKind
  · by_cases hm : w.minted = false
    · have hnone : w.pass = none := by
        cases hp : w.pass with
        | none => rfl
        | some p => cases hm.symm.trans (h.pass p hp).minted
      have hentry : c.entry = .authorise := by
        cases he : c.entry with
        | authorise => rfl
        | forwardPassed =>
          obtain ⟨p, hp, -⟩ := h.passed c (List.mem_of_getElem? hi) he
          cases hnone.symm.trans hp
      rw [if_pos ⟨hentry, hm, hkind⟩, if_pos hkind, hnone, Option.or_none]
      exact hs.decide hm hkind hi' hsign hentry
        (h.own hm c (List.mem_of_getElem? hi) hentry hinner)
    · rw [if_neg (fun hall => hm hall.2.1), if_pos hkind]
      have hminted : w.minted = true := by simpa using hm
      exact hs.logged hminted _
  · rw [if_neg (fun hall => hkind hall.2.2), if_neg hkind]
    exact hs

/-- A ciphertext past the gate goes on record. -/
theorem Sound.recorded [Numerals] (h : Sound s template w) (hi : w.calls[i]? = some c)
    (hentry : c.entry = .forwardPassed) (henc : c.isEncrypt = true) {ciphertext : JsString}
    (hset : c.settled = some (.text ciphertext)) :
    Sound s template { w with
      pass := w.pass.map fun p => if p.used then p else { p with ciphertext := some ciphertext } } := by
  have hlater : Later w { w with
      pass := w.pass.map fun p => if p.used then p else { p with ciphertext := some ciphertext } } :=
    ⟨fun i c hi => ⟨c, hi, Call.Further.refl c⟩, fun _ he => he⟩
  refine { gate := h.gate, one_seal := h.one_seal, carried := ?_, keyed := h.keyed,
           unsigned := h.unsigned, own := h.own, pass := ?_, passed := ?_ }
  · intro d hd he
    exact (h.carried d hd he).later hlater (Call.Further.refl d)
  · intro p' hp'
    obtain ⟨p, hp, rfl⟩ := Option.map_eq_some_iff.1 hp'
    have hsound := (h.pass p hp).later hlater (h.pass p hp).minted le_rfl
    split
    · exact hsound
    · refine ⟨hsound.minted, hsound.opened, hsound.past, ?_⟩
      intro t ht
      obtain rfl := Option.some.inj ht
      exact ⟨c, List.mem_of_getElem? hi, hentry, henc, hset⟩
  · intro d hd he
    obtain ⟨p, hp, hused⟩ := h.passed d hd he
    refine ⟨_, Option.map_eq_some_iff.2 ⟨p, hp, rfl⟩, ?_⟩
    intro hsign
    rw [if_pos (hused hsign)]
    exact hused hsign

theorem Sound.encryptedBack [Numerals] (h : Sound s template w) (hi : w.calls[i]? = some c)
    (hinner : c.atInner = true) (henc : c.isEncrypt = true) (ciphertext : JsString) :
    Sound s template (w.encryptedBack i ciphertext c) := by
  have hsettled : c.settled = none := by
    simp only [Call.atInner, Bool.and_eq_true, Option.isNone_iff_eq_none] at hinner
    exact hinner.1
  have hs := h.settle hi hsettled (.text ciphertext)
  have hi' : (w.setCall i { c with settled := some (.text ciphertext) }).calls[i]?
      = some { c with settled := some (.text ciphertext) } :=
    List.getElem?_set_self (List.getElem?_eq_some_iff.1 hi).1
  unfold Wrapper.encryptedBack
  by_cases hentry : c.entry = .forwardPassed
  · rw [if_pos hentry]
    exact hs.recorded hi' hentry henc rfl
  · rw [if_neg hentry]
    exact hs

end Replace

/-! ### A call begins -/

theorem livePass_eq_some_iff :
    w.livePass = some p ↔ w.pass = some p ∧ p.used = false ∧ w.now - p.mintedAt ≤ passLifetimeMs := by
  simp [Wrapper.livePass, Option.filter_eq_some_iff]

variable {cs : List Call}

theorem later_append (hcalls : w'.calls = w.calls ++ cs)
    (hsignings : w'.signings = w.signings) : Later w w' := by
  refine ⟨?_, ?_⟩
  · intro i c hi
    refine ⟨c, ?_, Call.Further.refl c⟩
    rw [hcalls, List.getElem?_append_left (List.getElem?_eq_some_iff.1 hi).1, hi]
  · intro e he
    rw [hsignings, he]

theorem append_origin {c₀ c : Call} {i : ℕ} (hi : (cs ++ [c₀])[i]? = some c) :
    cs[i]? = some c ∨ (i = cs.length ∧ c = c₀) := by
  by_cases hlt : i < cs.length
  · rw [List.getElem?_append_left hlt] at hi
    exact .inl hi
  · rw [List.getElem?_append_right (by omega), List.getElem?_singleton] at hi
    split at hi
    · exact .inr ⟨by omega, (Option.some.inj hi).symm⟩
    · cases hi

section Ask

variable [Numerals] {op : Operation}

variable {pass : Option Pass} {entry : GateEntry}

theorem gate_ask (h : Sound s template w) :
    (w.ask s template op entry pass).gateCalls
      = (w.ask s template op entry pass).calls.mapIdx fun i c =>
        { caller := i, entry := c.entry, request := request s template c.entry c.op } := by
  show w.gateCalls ++ _ = (w.calls ++ _).mapIdx _
  rw [List.mapIdx_concat, h.gate]

theorem own_ask (h : Sound s template w)
    (hm : w.minted = false) {c : Call} (hc : c ∈ (w.ask s template op entry pass).calls)
    (hentry : c.entry = .authorise) (hinner : c.atInner = true) (ref : ℕ)
    (hop : c.op = .signEvent ref) (hmap : w.sealOpened ref = some true) :
    ∃ o, c.outcome = some o ∧ o.opensSeal = true := by
  rcases List.mem_append.1 hc with hc | hc
  · exact h.own hm c hc hentry hinner ref hop hmap
  · obtain rfl := List.mem_singleton.1 hc
    simp [Call.atInner] at hinner

theorem Sound.ask_ordinary (h : Sound s template w) :
    Sound s template (w.ask s template op .authorise w.pass) := by
  have hlater : Later w (w.ask s template op .authorise w.pass) := later_append rfl rfl
  -- a call past the gate was there before
  have hold : ∀ (i : ℕ) (c : Call), (w.ask s template op .authorise w.pass).calls[i]? = some c →
      c.entry = .forwardPassed → w.calls[i]? = some c := by
    intro i c hi he
    rcases append_origin hi with hi | ⟨-, rfl⟩
    · exact hi
    · cases he
  refine { gate := gate_ask h, one_seal := ?_, carried := ?_, keyed := h.keyed,
           unsigned := h.unsigned, own := fun hm _ hc => own_ask h hm hc, pass := ?_, passed := ?_ }
  · intro i j c d hi hj hc hd
    exact h.one_seal i j c d (hold i c hi hc) (hold j d hj hd) hc hd
  · intro c hc he
    obtain ⟨i, hi⟩ := List.mem_iff_getElem?.1 hc
    exact (h.carried c (List.mem_of_getElem? (hold i c hi he)) he).later hlater
      (Call.Further.refl c)
  · intro p hp
    exact (h.pass p hp).later hlater (h.pass p hp).minted le_rfl
  · intro c hc he
    obtain ⟨i, hi⟩ := List.mem_iff_getElem?.1 hc
    exact h.passed c (List.mem_of_getElem? (hold i c hi he)) he

/-- A call that takes the pass. -/
theorem Sound.ask_passed (h : Sound s template w) {p : Pass} (hlive : w.livePass = some p)
    (htakes : takesPass s template p op = true) :
    Sound s template (w.ask s template op .forwardPassed (some { p with used := op.isSign })) := by
  obtain ⟨hp, hunused, hfresh⟩ := livePass_eq_some_iff.1 hlive
  have hsound := h.pass p hp
  obtain ⟨e, hopen, hat⟩ := hsound.opened
  have hlater : Later w (w.ask s template op .forwardPassed (some { p with used := op.isSign })) :=
    later_append rfl rfl
  -- nothing was sealed while the pass was unused
  have hunsealed : ∀ c ∈ w.calls, c.entry = .forwardPassed → c.isSign ≠ true := by
    intro c hc he hsign
    obtain ⟨p', hp', hused'⟩ := h.passed c hc he
    obtain rfl := Option.some.inj (hp.symm.trans hp')
    cases hunused.symm.trans (hused' hsign)
  refine { gate := gate_ask h, one_seal := ?_, carried := ?_, keyed := h.keyed,
           unsigned := h.unsigned, own := fun hm _ hc => own_ask h hm hc, pass := ?_, passed := ?_ }
  · intro i j c d hi hj hc hd hcs hds
    have hlast : ∀ (k : ℕ) (x : Call),
        (w.ask s template op .forwardPassed (some { p with used := op.isSign })).calls[k]? = some x →
          x.entry = .forwardPassed → x.isSign = true → k = w.calls.length := by
      intro k x hk hx hxs
      rcases append_origin hk with hk | ⟨hk, -⟩
      · exact absurd hxs (hunsealed x (List.mem_of_getElem? hk) hx)
      · exact hk
    rw [hlast i c hi hc hcs, hlast j d hj hd hds]
  · intro c hc he
    rcases List.mem_append.1 hc with hc | hc
    · exact (h.carried c hc he).later hlater (Call.Further.refl c)
    · obtain rfl := List.mem_singleton.1 hc
      have hanswers : Answers s template w p.eventId op := by
        cases op with
        | signEvent ref =>
          simp only [takesPass, decide_eq_true_eq] at htakes
          obtain ⟨htext, hkind, htags, hpubkey⟩ := htakes
          exact ⟨hkind, htags, hpubkey, hsound.ciphertext _ htext⟩
        | nip44Encrypt peer plaintext =>
          simp only [takesPass, Bool.and_eq_true, decide_eq_true_eq] at htakes
          exact htakes
        | nip44Decrypt peer ciphertext => cases htakes
      refine ⟨e, p.eventId, hopen.later hlater, hanswers.later hlater, ?_, ?_⟩
      · rw [← hat]
        exact hsound.past
      · show w.now ≤ e.signedAt + passLifetimeMs
        rw [← hat]
        omega
  · intro p' hp'
    obtain rfl := Option.some.inj hp'
    have hsound' := hsound.later hlater hsound.minted le_rfl
    exact ⟨hsound'.minted, hsound'.opened, hsound'.past, hsound'.ciphertext⟩
  · intro c hc he
    refine ⟨_, rfl, ?_⟩
    intro hsign
    rcases List.mem_append.1 hc with hc | hc
    · exact absurd hsign (hunsealed c hc he)
    · obtain rfl := List.mem_singleton.1 hc
      exact hsign

theorem Sound.begin (h : Sound s template w) : Sound s template (w.begin s template op) := by
  unfold Wrapper.begin
  split
  · rename_i p hp
    obtain ⟨hlive, htakes⟩ := Option.filter_eq_some_iff.1 hp
    exact h.ask_passed hlive htakes
  · exact h.ask_ordinary

end Ask

/-! ### A run -/

theorem atCall_of {P : Wrapper → Prop} {i : ℕ} {test : Call → Bool} {f : Call → Wrapper} (h : P w)
    (hf : ∀ c, w.calls[i]? = some c → test c = true → P (f c)) : P (w.atCall i test f) := by
  unfold Wrapper.atCall
  cases hi : w.calls[i]? with
  | none => exact h
  | some c =>
    show P (if test c = true then f c else w)
    split
    · exact hf c hi (by assumption)
    · exact h

theorem Sound.tick [Numerals] (h : Sound s template w) (ms : ℕ) :
    Sound s template { w with now := w.now + ms } := by
  have hlater : Later w { w with now := w.now + ms } :=
    ⟨fun _ c hi => ⟨c, hi, Call.Further.refl c⟩, fun _ he => he⟩
  refine { gate := h.gate, one_seal := h.one_seal, carried := ?_, keyed := h.keyed,
           unsigned := h.unsigned, own := h.own, pass := ?_, passed := h.passed }
  · intro c hc he
    exact (h.carried c hc he).later hlater (Call.Further.refl c)
  · intro p hp
    refine (h.pass p hp).later hlater (h.pass p hp).minted ?_
    show w.now ≤ w.now + ms
    omega

theorem Sound.next [Numerals] (h : Sound s template w) (a : Happening)
    (hcareful : Careful s template w a) : Sound s template (w.next s template a) := by
  have hatGate : ∀ c : Call, c.atGate = true → c.settled = none := by
    intro c hc
    simp only [Call.atGate, Bool.and_eq_true, Option.isNone_iff_eq_none] at hc
    exact hc.2
  have hatInner : ∀ c : Call, c.atInner = true → c.settled = none := by
    intro c hc
    simp only [Call.atInner, Bool.and_eq_true, Option.isNone_iff_eq_none] at hc
    exact hc.1
  cases a with
  | tick ms => exact h.tick ms
  | call op => exact h.begin
  | answer i outcome => exact atCall_of h fun c hi ht => h.answered hi ht hcareful
  | gateFails i => exact atCall_of h fun c hi ht => h.settle hi (hatGate c ht) .failed
  | signed i event =>
    apply atCall_of h
    intro c hi ht
    obtain ⟨hinner, hsign⟩ := Bool.and_eq_true_iff.1 ht
    exact h.signedBack hi hinner hsign event
  | encrypted i ciphertext =>
    apply atCall_of h
    intro c hi ht
    obtain ⟨hinner, henc⟩ := Bool.and_eq_true_iff.1 ht
    exact h.encryptedBack hi hinner henc ciphertext
  | decrypted i plaintext =>
    apply atCall_of h
    intro c hi ht
    obtain ⟨hinner, -⟩ := Bool.and_eq_true_iff.1 ht
    exact h.settle hi (hatInner c hinner) (.text plaintext)
  | innerFails i => exact atCall_of h fun c hi ht => h.settle hi (hatInner c ht) .failed

/-- The pass opens for one answer only, as long as no signature borrows another call's answer. -/
theorem opens_for_one_answer [Numerals] {now : ℤ}
    (h : Reaches (fun w a => w.next s template a) (Careful s template) (fresh now) w) :
    OneAnswer s template w := by
  have hsound : Sound s template w :=
    h.invariant (sound_fresh now) fun t a ht ha => ht.next a ha
  exact hsound.toOneAnswer

end

/-! ## A run -/

section

attribute [local instance] Sync.decimalNumerals

/-- A wrapper for one request of an app. -/
def sampleSealing : AnswerSealing where
  persona := Hex.repeated 64 1
  appLabel := lit "Twang"
  siteOrigin := none
  appPermission := none
  appPermissionApproved := false
  signIn := none
  session := lit "5e55"
  eligibleKind := 30420
  responseField := "event"
  origin_claimed := fun _ h => absurd h.symm (Option.some_ne_none _)

/-- The statement at reference 0, the seal of its answer anywhere else. -/
def sampleTemplate (ref : ℕ) : UnsignedEvent where
  kind := if ref = 0 then 30420 else sealKind
  pubkey := (Hex.repeated 64 1).val
  content := if ref = 0 then [] else lit "AbCd"
  tags := []

def sampleSigned : SignedEvent where
  id := (Hex.repeated 64 2).toJs
  kind := 30420
  pubkey := (Hex.repeated 64 1).val

def sampleRumor : JsString :=
  lit "\x7b\"kind\":29999,\"pubkey\":\"" ++ (Hex.repeated 64 1).val
    ++ lit "\",\"tags\":[[\"status\",\"approved\"],[\"session\",\"s\"]],"
    ++ lit "\"content\":\"\x7b\\\"event\\\":\x7b\\\"id\\\":\\\"" ++ (Hex.repeated 64 2).val
    ++ lit "\\\"\x7d\x7d\"\x7d"

/-- The state after these, one after the other. -/
def sampleAfter (run : List Happening) : Wrapper :=
  run.foldl (fun w a => w.next sampleSealing sampleTemplate a) (fresh 0)

/-- The signature is approved with its seal, and the answer goes back. -/
def sampleAnswer : List Happening :=
  [.call (.signEvent 0), .answer 0 (.ok 5 none (some [sealKind])), .signed 0 sampleSigned,
    .call (.nip44Encrypt (lit "5e55") sampleRumor), .answer 1 (.ok 6 none none),
    .encrypted 1 (lit "AbCd"), .call (.signEvent 1)]

/-- No call is at the inner route. -/
def Wrapper.quiet (w : Wrapper) : Bool := w.calls.all fun c => !c.atInner

theorem careful_of_quiet {s : AnswerSealing} {template : ℕ → UnsignedEvent} {w : Wrapper}
    (h : w.quiet = true) (a : Happening) : Careful s template w a := by
  cases a with
  | answer i outcome =>
    intro _ _ c ref _ _ _ _ _ d hd _ _ hinner
    have hout := List.all_eq_true.1 h d hd
    rw [hinner] at hout
    cases hout
  | _ => trivial

theorem opens_for_one_answer_sealed :
    ∃ w, Reaches (fun w a => w.next sampleSealing sampleTemplate a)
        (Careful sampleSealing sampleTemplate) (fresh 0) w
      ∧ (w.calls.any fun c => c.isSign && decide (c.entry = .forwardPassed)) = true
      ∧ OneAnswer sampleSealing sampleTemplate w := by
  have hquiet : ∀ n < 7, n ≠ 2 → n ≠ 5 → (sampleAfter (sampleAnswer.take n)).quiet = true := by
    decide +kernel
  have h : Reaches (fun w a => w.next sampleSealing sampleTemplate a)
      (Careful sampleSealing sampleTemplate) (fresh 0) (sampleAfter sampleAnswer) := by
    apply Reaches.run
    intro n a ha
    have hn : n < 7 := (List.getElem?_eq_some_iff.1 ha).1
    by_cases hsigned : n = 2
    · subst hsigned
      obtain rfl := Option.some.inj ha
      trivial
    by_cases hencrypted : n = 5
    · subst hencrypted
      obtain rfl := Option.some.inj ha
      trivial
    exact careful_of_quiet (hquiet n hn hsigned hencrypted) a
  exact ⟨_, h, by decide +kernel, opens_for_one_answer h⟩

/-- Two calls on one object: the second's answer reports the seal opened, the first's signature
mints the pass. -/
def sampleBorrowed : List Happening :=
  [.call (.signEvent 0), .call (.signEvent 0), .answer 0 (.ok 5 none none),
    .answer 1 (.ok 6 none (some [sealKind])), .signed 0 sampleSigned,
    .call (.nip44Encrypt (lit "5e55") sampleRumor)]

theorem borrows_answer :
    ∃ w, Reaches (fun w a => w.next sampleSealing sampleTemplate a) (fun _ _ => True) (fresh 0) w
      ∧ ¬ OneAnswer sampleSealing sampleTemplate w := by
  have h : Reaches (fun w a => w.next sampleSealing sampleTemplate a) (fun _ _ => True) (fresh 0)
      (sampleAfter sampleBorrowed) :=
    Reaches.run fun _ _ _ => trivial
  refine ⟨_, h, ?_⟩
  intro hone
  -- the encryption went past the gate
  obtain ⟨c, hc, hentry⟩ : ∃ c, (sampleAfter sampleBorrowed).calls[2]? = some c
      ∧ c.entry = .forwardPassed := by
    have hsome : ((sampleAfter sampleBorrowed).calls[2]?.any fun c =>
        decide (c.entry = .forwardPassed)) = true := by decide +kernel
    cases hc : (sampleAfter sampleBorrowed).calls[2]? with
    | some c => exact ⟨c, rfl, by simpa [hc] using hsome⟩
    | none => simp [hc] at hsome
  obtain ⟨e, id, hopen, -⟩ := hone.carried c (List.mem_of_getElem? hc) hentry
  obtain ⟨d, o, hd, -, -, ho, hopens, -⟩ := hopen.allowed
  -- the first signature's own answer did not report the seal
  have hcaller : ((sampleAfter sampleBorrowed).signings.head?.all fun e =>
      decide (e.caller = 0)) = true := by decide +kernel
  have hzero : e.caller = 0 := by simpa [hopen.first] using hcaller
  have hown : ((sampleAfter sampleBorrowed).calls[0]?.all fun d => d.outcome.all fun o =>
      !o.opensSeal) = true := by decide +kernel
  rw [hzero] at hd
  rw [hd] at hown
  simp [ho, hopens] at hown

end

end SignetApp.Child.AnswerSeal
