import SignetApp.ChildPhone.MintDiscipline
import SignetApp.Js.SafeUrl

/-!
# The tasks of the pairing hook

The tasks, one by one: each keeps the discipline.
-/

namespace SignetApp.ChildPhone

open SignetApp.Js SignetApp.Async
open SignetApp.Discipline (yields_pure yields_throw yields_bind yields_once yields_quiet)
open SignetApp.Family (DeviceClientSlot CompilerDependant)

section

variable [PairSdk] {α : Type} {w : World} {g : Permits}

/-! ## Single actions -/

theorem yields_outside {Q : α → World → Permits → Prop} (h : ∀ a w', Evolves w w' → Q a w' g) :
    Yields (outside α) w g Q := by
  apply yields_quiet
  · exact fun _ _ => rfl
  · exact fun _ => Sound.guarantee trivial rfl
  · exact fun w' _ a hw _ w'' hw' => h a w'' (hw.trans hw')

theorem yields_now {Q : ℕ → World → Permits → Prop} (h : ∀ n w', Evolves w w' → Q n w' g) :
    Yields now w g Q := by
  apply yields_quiet
  · exact fun _ _ => rfl
  · exact fun _ => Sound.guarantee trivial rfl
  · exact fun w' _ a hw _ w'' hw' => h a w'' (hw.trans hw')

variable {w' : World} {dep : DependantIdentity}

omit [PairSdk] in
theorem DependantIdentity.KnownTo.evolve
    (h : dep.KnownTo w.device) (hw : Evolves w w') : dep.KnownTo w'.device :=
  fun c hc => hw.issued _ (h c hc)

theorem yields_record {Q : DependantIdentity → World → Permits → Prop}
    (h : ∀ dep w', Evolves w w' → dep.KnownTo w'.device → Q dep w' g) : Yields record w g Q := by
  apply yields_quiet
  · intro dep w'
    split <;> rfl
  · exact fun _ => Sound.guarantee trivial rfl
  · intro w' dep dep' hw hok w'' hw'
    split at hok
    · next hknown =>
      cases hok
      rw [Option.all_eq_true] at hknown
      have hdep : dep.KnownTo w'.device := fun c hc => of_decide_eq_true (hknown c hc)
      exact h dep w'' (hw.trans hw') (hdep.evolve hw')
    · cases hok

variable {state : ChildPairingState} {n : ℕ}

theorem yields_setState {Q : Unit → World → Permits → Prop}
    (h : ∀ w', Evolves w w' → Q () w' g) : Yields (setState n state) w g Q := by
  apply yields_once
  intro w' r hw hinv c
  refine ⟨Sound.guarantee trivial (by simp), evolves_setState w' n state, g, hinv.setState n state, fun a _ w'' hw' => ?_⟩
  exact h w'' (hw.trans ((evolves_setState w' n state).trans hw'))

theorem yields_isCurrent {Q : Unit → World → Permits → Prop} (h : ∀ w', Evolves w w' → Q () w' g) :
    Yields (isCurrent n) w g Q := by
  apply yields_quiet
  · intro c w'
    split <;> rfl
  · exact fun _ => Sound.guarantee trivial rfl
  · exact fun w' _ a hw _ w'' hw' => h w'' (hw.trans hw')

theorem yields_lastLook {Q : Unit → World → Permits → Prop}
    (h : ∀ w', Evolves w w' → n ∈ w'.passed → Q () w' g) : Yields (lastLook n) w g Q := by
  apply yields_once
  intro w' r hw hinv c
  split
  · next hgen =>
    subst hgen
    obtain ⟨hinv', hev⟩ := hinv.lastLook
    refine ⟨Sound.guarantee trivial rfl, hev, g, hinv', fun a _ w'' hw' => ?_⟩
    exact h w'' (hw.trans (hev.trans hw')) (hw'.passed _ List.mem_cons_self)
  · refine ⟨Sound.guarantee trivial rfl, Evolves.refl w', g, hinv, fun a ha => ?_⟩
    cases ha

theorem yields_ends
    (hover : ∀ w' r, Evolves w w' → Invariant w' (g + r) → 1 ≤ w'.burned n ∧ r.2 n = 0)
    (hends : ∀ w' r, Evolves w w' → Invariant w' (g + r) → n ∉ w'.saved → state ≠ .error .mintUnconfirmed →
      ∀ m ∈ w'.made, m.gen = n → ¬ On m w'.device) : Yields (ends n state) w g fun _ _ _ => True := by
  apply yields_once
  intro w' r hw hinv c
  have hinv' : Invariant { w' with ended := n :: w'.ended } r :=
    Invariant.over (discipline.drop hinv) (hover w' r hw hinv)
  have hev : Evolves w' { w' with ended := n :: w'.ended } :=
    { Evolves.refl w' with ended := fun m hm => List.mem_cons_of_mem _ hm }
  refine ⟨?_, hev.trans (evolves_setState _ n state), 0, ?_, fun _ _ _ _ => trivial⟩
  · apply Sound.guarantee
    · show n ∈ World.ended (World.setState _ n state) ∧ _
      simp only [World.ended_setState, World.made_setState, World.device_setState, World.saved_setState]
      exact ⟨List.mem_cons_self, hends w' r hw hinv⟩
    · simp
  · rw [zero_add]
    exact hinv'.setState n state

theorem yields_stop {Q : α → World → Permits → Prop} :
    Yields (stop n state : Op α) w (0, Pi.single n 1) Q := by
  unfold stop
  apply yields_bind (Q := fun _ _ _ => True)
  · apply yields_ends
    · exact fun w' r _ hinv => hinv.2.alone
    · intro w' r _ hinv _ _ m hm hgen _
      have hminted := (hinv.1.made m hm).1
      rw [hgen, hinv.2.unminted] at hminted
      exact absurd hminted (by decide)
  · exact fun _ _ _ _ _ => yields_throw

theorem yields_ends_minted (hminted : 1 ≤ w.minted n)
    (hends : ∀ w', Evolves w w' → n ∉ w'.saved → state ≠ .error .mintUnconfirmed → ∀ m ∈ w'.made,
      m.gen = n → ¬ On m w'.device) :
    Yields (ends n state) w 0 fun _ _ _ => True := by
  apply yields_ends
  · intro w' r hw hinv
    rw [zero_add] at hinv
    exact hinv.2.done (hminted.trans (hw.minted n))
  · exact fun w' _ hw _ => hends w' hw

/-! ## The device -/

variable (H : Heartwood)

theorem yields_listClients {Q : Option (List DeviceClientSlot) → World → Permits → Prop}
    (h : ∀ w', Evolves w w' → Sane w' → ∀ o, (∀ slots, o = some slots → slots = w'.device.slots) →
      ∀ w'', Evolves w' w'' → Q o w'' g) : Yields (listClients H) w g Q := by
  apply yields_once
  intro w' r hw hinv c
  cases hlist : H.list c w'.device with
  | ok slots =>
    refine ⟨Sound.guarantee trivial rfl, Evolves.refl w', g, hinv, fun o ho w'' hw' => ?_⟩
    cases ho
    apply h w' hw hinv.1 _ _ w'' hw'
    intro slots' hslots
    cases hslots
    exact H.list_spec c w'.device slots hlist
  | error e =>
    refine ⟨Sound.guarantee trivial rfl, Evolves.refl w', g, hinv, fun o ho w'' hw' => ?_⟩
    cases ho
    exact h w' hw hinv.1 _ (fun slots hslots => by cases hslots) w'' hw'

variable {current : Option SlotRef}

/-- **A slot that is revoked is gone.** -/
theorem yields_revokeClient {slot : SlotRef}
    {Q : Bool → World → Permits → Prop} (hallowed : n ∈ w.saved ∨ isSameSlot slot current = false)
    (h : ∀ w' ok, Evolves w w' → (ok = true → ∀ m ∈ w.made, m.slotIndex = slot.slotIndex →
      m.fingerprint = toLowerCase slot.secretFingerprint → ¬ On m w'.device) → Q ok w' g) :
    Yields (revokeClient H n current slot) w g Q := by
  unfold revokeClient
  split
  · apply yields_pure
    intro w' hw
    exact h w' false hw fun hok => by cases hok
  apply yields_once
  intro w' r hw hinv c
  obtain ⟨hinv', hev⟩ := hinv.setDevice (undisturbed_revoke H hinv.1 c slot)
  refine ⟨Sound.guarantee ?_ rfl, hev, g, hinv', fun ok hok w'' hw' => ?_⟩
  · rcases hallowed with hsaved | hother
    · exact .inl (hw.saved n hsaved)
    · exact .inr hother
  · apply h w'' ok (hw.trans (hev.trans hw'))
    rintro rfl m hm hindex hfp hon
    have hmade := hw.kept m hm
    obtain ⟨s, hs, hsame⟩ := hw'.gone m hmade hon
    -- What is left on the device under this name was revoked.
    have hgone : ∀ s ∈ (H.revoke c slot w'.device).2.slots, (refOf s).same slot = false := by
      cases hreply : (H.revoke c slot w'.device).1 with
      | ok reply =>
        simp only [hreply] at hok
        have hrevoked : reply.revoked = true := by
          have hboth := Except.ok.inj hok
          rw [Bool.and_eq_true] at hboth
          exact hboth.1
        exact (H.revoke_spec c slot w'.device).2.2 reply hreply hrevoked
      | error e =>
        simp only [hreply] at hok
        cases hok
    have hindex' : s.slotIndex = m.slotIndex := ((hinv'.1.made m hmade).2.2 s hs hsame).1
    have hnot := hgone s hs
    unfold SlotRef.same at hnot
    rw [Bool.and_eq_false_iff] at hnot
    rcases hnot with hne | hne
    · exact of_decide_eq_false hne (hindex'.trans hindex)
    · exact of_decide_eq_false hne (hsame.trans hfp)

/-- **All that were to be revoked are gone**, if every revocation succeeded. -/
theorem yields_revokeAll (slots : List DeviceClientSlot)
    (hallowed : n ∈ w.saved ∨ ∀ s ∈ slots, isSameSlot (refOf s) current = false) :
    Yields (revokeAll H n current slots) w g fun clean w' g' => g = g' ∧ Evolves w w' ∧
      (clean = true → ∀ s ∈ slots, ∀ m ∈ w.made, m.slotIndex = s.slotIndex →
        m.fingerprint = fingerprintOf s → ¬ On m w'.device) := by
  induction slots generalizing w with
  | nil =>
    apply yields_pure
    intro w' hw
    refine ⟨rfl, hw, fun _ s hs => ?_⟩
    cases hs
  | cons s slots ih =>
    unfold revokeAll
    apply yields_bind (Q := fun ok w' g' => g = g' ∧ Evolves w w' ∧ (ok = true → ∀ m ∈ w.made,
      m.slotIndex = s.slotIndex → m.fingerprint = fingerprintOf s → ¬ On m w'.device))
    · apply yields_revokeClient
      · exact hallowed.imp_right fun hall => hall s List.mem_cons_self
      · exact fun w' ok hw hgone => ⟨rfl, hw, hgone⟩
    rintro ok w₁ _ - ⟨rfl, hw₁, hgone⟩
    apply yields_bind
    · apply ih
      exact hallowed.imp (hw₁.saved n) fun hall x hx => hall x (List.mem_cons_of_mem _ hx)
    rintro clean w₂ _ - ⟨rfl, hw₂, hrest⟩
    apply yields_pure
    intro w₃ hw₃
    refine ⟨rfl, hw₁.trans (hw₂.trans hw₃), fun hclean => ?_⟩
    rw [Bool.and_eq_true] at hclean
    intro x hx m hm hindex hfp hon
    rcases List.mem_cons.1 hx with rfl | hx
    · exact hgone hclean.1 m hm hindex hfp ((hw₂.trans hw₃).gone m (hw₁.kept m hm) hon)
    · have hmade := hw₁.kept m hm
      exact hrest hclean.2 x hx m hmade hindex hfp (hw₃.gone m (hw₂.kept m hmade) hon)

/-! ## The mint -/

/-- What a call of `nostrconnectV2` left: slots under its label and for its client, none of them the
paired phone's, and the one that it answers. -/
structure Minted (w : World) (call : MintCall) (current : Option SlotRef)
    (outcome : Except (Option ℕ) SlotRef) : Prop where
  minted : 1 ≤ w.minted call.confirmation.session.gen
  slots : ∀ m ∈ w.made, m.gen = call.confirmation.session.gen → m.label = call.request.label ∧
    m.clientPubkey = call.request.clientPubkey ∧
    (∀ c ∈ current, toLowerCase c.secretFingerprint ≠ m.fingerprint) ∧
    ∀ slot, outcome = .ok slot → m.slotIndex = slot.slotIndex ∧
      m.fingerprint = toLowerCase slot.secretFingerprint

variable {call : MintCall}

omit [PairSdk] in
theorem Minted.evolve {outcome : Except (Option ℕ) SlotRef} (h : Minted w call current outcome) (hw : Evolves w w') : Minted w' call current outcome := by
  refine { minted := h.minted.trans (hw.minted _), slots := ?_ }
  intro m hm hgen
  exact h.slots m (hw.made m hm (.inl (hgen ▸ h.minted))) hgen

/-- What the task knows when it mints. -/
structure Ready (w : World) (call : MintCall) (current : Option SlotRef) : Prop where
  confirmed : call.confirmation ∈ w.confirmed
  passed : call.confirmation.session.gen ∈ w.passed
  client : call.request.clientPubkey = call.confirmation.request.clientPubkey
  unexpired : call.confirmation.at_ ≤ call.confirmation.session.expiresAtMs
  young : (call.confirmation.at_ / 1000 : ℕ) - call.confirmation.request.createdAt ≤ pairRequestMaxAge
  current : ∀ c ∈ current, toLowerCase c.secretFingerprint ∈ w.device.issued

omit [PairSdk] in
theorem Ready.evolve (h : Ready w call current) (hw : Evolves w w') : Ready w' call current :=
  { h with
    confirmed := hw.confirmed _ h.confirmed
    passed := hw.passed _ h.passed
    current := fun c hc => hw.issued _ (h.current c hc) }

theorem Ready.allowed (h : Ready w call current)
    (hinv : Invariant w ((0, Pi.single call.confirmation.session.gen 1) + g)) : MintAllowed w call := by
  obtain ⟨hoffer, -, hrequest, hheard⟩ := hinv.1.confirmed _ h.confirmed
  exact { confirmed := h.confirmed, offer := hoffer, first := hrequest, client := h.client, heard := hheard
          unexpired := h.unexpired, young := h.young, notCancelled := (hinv.1.passed _ h.passed).2
          once := hinv.2.unminted, under := hinv.2.under }

theorem yields_nostrconnectV2 (hready : Ready w call current) :
    Yields (nostrconnectV2 H call current) w (0, Pi.single call.confirmation.session.gen 1)
      fun outcome w' g' => g' = 0 ∧ Minted w' call current outcome := by
  unfold nostrconnectV2
  -- What a reply names is new, and so is not the paired phone's slot.
  apply yields_bind (Q := fun reply w' g' => g' = 0 ∧
    (∀ r ∈ reply, ∀ f ∈ r.secretFingerprint, ∀ c ∈ current,
      toLowerCase c.secretFingerprint ≠ toLowerCase f) ∧
    Minted w' call current (.error none) ∧ ∀ m ∈ w'.made, m.gen = call.confirmation.session.gen →
      ∀ r ∈ reply, (∀ i ∈ r.slotIndex, i = m.slotIndex) ∧
        ∀ f ∈ r.secretFingerprint, toLowerCase f = m.fingerprint)
  · apply yields_once
    intro w' r hw hinv c
    have hready' := hready.evolve hw
    obtain ⟨hinv', hev, hminted, reply, hreply, hfresh, hmade⟩ := hinv.mint H c
    refine ⟨⟨⟨hready'.allowed hinv, hminted⟩, mint_makes H hinv.1 call c⟩, hev, 0, by rw [zero_add]; exact hinv', fun o ho w'' hw' => ?_⟩
    obtain rfl := Except.ok.inj (hreply.symm.trans ho)
    have hback : ∀ m ∈ w''.made, m.gen = call.confirmation.session.gen → m ∈ (w'.mint H call c).2.made :=
      fun m hm hgen => hw'.made m hm (.inl (hgen ▸ hminted))
    refine ⟨rfl, ?_, { minted := hminted.trans (hw'.minted _), slots := ?_ }, ?_⟩
    · intro x hx f hf c' hc' heq
      apply hfresh x hx f hf
      rw [← heq]
      exact hready'.current c' hc'
    · intro m hm hgen
      obtain ⟨hlabel, hclient, hnew, -⟩ := hmade m (hback m hm hgen) hgen
      refine ⟨hlabel, hclient, ?_, fun slot hslot => by cases hslot⟩
      intro c' hc' heq
      apply hnew
      rw [← heq]
      exact hready'.current c' hc'
    · intro m hm hgen
      exact (hmade m (hback m hm hgen) hgen).2.2.2
  rintro reply w₁ _ - ⟨rfl, hother, hminted, hnames⟩
  have herror : ∀ index : Option ℕ, Minted w₁ call current (.error index) := by
    intro index
    refine { minted := hminted.minted, slots := ?_ }
    intro m hm hgen
    obtain ⟨hlabel, hclient, hnew, -⟩ := hminted.slots m hm hgen
    exact ⟨hlabel, hclient, hnew, fun slot hslot => by cases hslot⟩
  cases reply with
  | none => exact yields_pure fun w' hw => ⟨rfl, (herror _).evolve hw⟩
  | some r =>
    dsimp only
    cases hvalid : r.validSlot with
    | none => exact yields_pure fun w' hw => ⟨rfl, (herror _).evolve hw⟩
    | some slotIndex =>
      dsimp only
      have hindex : r.slotIndex = some slotIndex := (Option.filter_eq_some_iff.1 hvalid).1
      split
      · exact yields_pure fun w' hw => ⟨rfl, (herror _).evolve hw⟩
      next hfingerprint =>
      obtain ⟨f, hf⟩ : ∃ f, r.secretFingerprint = some f := by
        cases hsecret : r.secretFingerprint with
        | none =>
          unfold MintReply.fingerprint at hfingerprint
          rw [hsecret] at hfingerprint
          exact absurd rfl hfingerprint
        | some f => exact ⟨f, rfl⟩
      have hlower : r.fingerprint = toLowerCase f := by
        unfold MintReply.fingerprint
        rw [hf]
        rfl
      split
      · apply yields_pure
        intro w' hw
        refine ⟨rfl, Minted.evolve { minted := hminted.minted, slots := ?_ } hw⟩
        intro m hm hgen
        obtain ⟨hlabel, hclient, hnew, -⟩ := hminted.slots m hm hgen
        obtain ⟨hnamed, hnamed'⟩ := hnames m hm hgen r rfl
        refine ⟨hlabel, hclient, hnew, ?_⟩
        intro slot hslot
        obtain rfl := Except.ok.inj hslot
        refine ⟨(hnamed slotIndex hindex).symm, ?_⟩
        dsimp only
        rw [hlower, toLowerCase_toLowerCase]
        exact (hnamed' f hf).symm
      · apply yields_bind (Q := fun _ w' g' => g' = 0 ∧ Evolves w₁ w')
        · apply yields_revokeClient
          · right
            unfold isSameSlot
            rw [Option.any_eq_false]
            intro c hc
            unfold SlotRef.same
            rw [Bool.and_eq_false_iff]
            right
            apply decide_eq_false
            dsimp only
            rw [hlower, toLowerCase_toLowerCase]
            exact fun heq => hother r rfl f hf c hc heq.symm
          · exact fun w' _ hw _ => ⟨rfl, hw⟩
        rintro revoked w₂ _ - ⟨rfl, hw₂⟩
        exact yields_pure fun w' hw => ⟨rfl, (herror _).evolve (hw₂.trans hw)⟩

/-! ## What is prepared -/

omit H in
theorem yields_readDependant {s : Session} (hdep : s.dep.KnownTo w.device)
    {Q : DependantIdentity → World → Permits → Prop}
    (h : ∀ dep w', Evolves w w' → dep.KnownTo w'.device → Q dep w' g) :
    Yields (readDependant s) w g Q := by
  unfold readDependant
  apply yields_bind (yields_outside (Q := fun _ w' g' => g = g' ∧ Evolves w w') fun _ w' hw => ⟨rfl, hw⟩)
  rintro readable w₁ _ - ⟨rfl, hw₁⟩
  split
  · apply yields_bind (yields_record (Q := fun dep w' g' => g = g' ∧ Evolves w w' ∧
      dep.KnownTo w'.device) fun dep w' hw hknown => ⟨rfl, hw₁.trans hw, hknown⟩)
    rintro fresh w₂ _ - ⟨rfl, hw₂, hfresh⟩
    apply yields_pure
    exact fun w' hw => h _ w' (hw₂.trans hw) (hfresh.evolve hw)
  · apply yields_pure
    exact fun w' hw => h _ w' (hw₁.trans hw) (hdep.evolve (hw₁.trans hw))

/-- **What is prepared may be minted**: the checks before it were made, and the permission is still there. -/
theorem yields_prepare {c : Confirmation} (hconfirmed : c ∈ w.confirmed)
    (hdep : c.session.dep.KnownTo w.device) :
    Yields (prepare H c) w (0, Pi.single c.session.gen 1) fun p w' g' =>
      g' = (0, Pi.single c.session.gen 1) ∧ p.call.confirmation = c ∧
        p.call.request.label = c.session.label ∧ Ready w' p.call p.dep.current := by
  unfold prepare
  dsimp only
  split
  · exact yields_stop
  next hunexpired =>
  split
  · exact yields_stop
  next hyoung =>
  apply yields_bind (yields_outside (Q := fun _ w' g' => g' = (0, Pi.single c.session.gen 1) ∧
    Evolves w w') fun _ w' hw => ⟨rfl, hw⟩)
  rintro hasOperator w₁ _ - ⟨rfl, hw₁⟩
  apply yields_bind (yields_outside (Q := fun _ w' g' => g' = (0, Pi.single c.session.gen 1) ∧
    Evolves w w') fun _ w' hw => ⟨rfl, hw₁.trans hw⟩)
  rintro hasKey w₂ _ - ⟨rfl, hw₂⟩
  split
  · exact yields_stop
  next nc _ =>
  apply yields_bind (yields_setState (Q := fun _ w' g' => g' = (0, Pi.single c.session.gen 1) ∧
    Evolves w w') fun w' hw => ⟨rfl, hw₂.trans hw⟩)
  rintro _ w₃ _ - ⟨rfl, hw₃⟩
  apply yields_bind (yields_readDependant (Q := fun dep w' g' => g' = (0, Pi.single c.session.gen 1) ∧
    Evolves w w' ∧ DependantIdentity.KnownTo dep w'.device) (hdep.evolve hw₃)
    fun dep w' hw hknown => ⟨rfl, hw₃.trans hw, hknown⟩)
  rintro dep w₅ _ - ⟨rfl, hw₅, hknown⟩
  apply yields_bind (yields_isCurrent (Q := fun _ w' g' => g' = (0, Pi.single c.session.gen 1) ∧
    Evolves w₅ w') fun w' hw => ⟨rfl, hw⟩)
  rintro _ w₆ _ - ⟨rfl, hw₆⟩
  apply yields_bind (yields_listClients H (Q := fun _ w' g' => g' = (0, Pi.single c.session.gen 1) ∧
    Evolves w₅ w') fun w' hw _ _ _ w'' hw' => ⟨rfl, hw₆.trans (hw.trans hw')⟩)
  rintro listed w₇ _ - ⟨rfl, hw₇⟩
  cases listed with
  | none => exact yields_stop
  | some before =>
  dsimp only
  split
  · exact yields_stop
  apply yields_bind (yields_outside (Q := fun _ w' g' => g' = (0, Pi.single c.session.gen 1) ∧
    Evolves w₅ w') fun _ w' hw => ⟨rfl, hw₇.trans hw⟩)
  rintro seedPending w₈ _ - ⟨rfl, hw₈⟩
  apply yields_bind (yields_lastLook (Q := fun _ w' g' => g' = (0, Pi.single c.session.gen 1) ∧
    Evolves w₅ w' ∧ c.session.gen ∈ w'.passed) fun w' hw hpassed => ⟨rfl, hw₈.trans hw, hpassed⟩)
  rintro _ w₉ _ - ⟨rfl, hw₉, hpassed⟩
  apply yields_bind (yields_now (Q := fun _ w' g' => g' = (0, Pi.single c.session.gen 1) ∧
    Evolves w₉ w') fun _ w' hw => ⟨rfl, hw⟩)
  rintro nowMs w₁₀ _ - ⟨rfl, hw₁₀⟩
  apply yields_bind (yields_outside (Q := fun _ w' g' => g' = (0, Pi.single c.session.gen 1) ∧
    Evolves w₉ w') fun _ w' hw => ⟨rfl, hw₁₀.trans hw⟩)
  rintro rules w₁₁ _ - ⟨rfl, hw₁₁⟩
  cases rules with
  | none => exact yields_stop
  | some rules =>
  apply yields_pure
  intro w' hw
  have hev : Evolves w₅ w' := hw₉.trans (hw₁₁.trans hw)
  refine ⟨rfl, rfl, rfl, { confirmed := (hw₅.trans hev).confirmed c hconfirmed, passed := ?_, client := rfl
                           unexpired := not_lt.1 hunexpired, young := not_lt.1 hyoung
                           current := hknown.evolve hev }⟩
  exact (hw₁₁.trans hw).passed _ hpassed

/-! ## Under the operator's lock -/

theorem Minted.mem_unconfirmed {index : Option ℕ}
    (h : Minted w call current (.error index)) (hsane : Sane w) {m : Made} (hm : m ∈ w.made)
    (hgen : m.gen = call.confirmation.session.gen) (hon : On m w.device) :
    ∃ s ∈ unconfirmedMintSlots w.device.slots call.request.label call.request.clientPubkey index current,
      m.slotIndex = s.slotIndex ∧ m.fingerprint = fingerprintOf s := by
  obtain ⟨s, hs, hfp⟩ := hon
  obtain ⟨hlabel, hclient, hother, -⟩ := h.slots m hm hgen
  obtain ⟨hindex, hslabel, hsclient⟩ := (hsane.made m hm).2.2 s hs hfp
  refine ⟨s, ?_, hindex.symm, hfp.symm⟩
  apply mem_unconfirmedMintSlots hs (hslabel.trans hlabel)
  · unfold isSameSlot
    rw [Option.any_eq_false]
    intro c hc
    unfold SlotRef.same
    rw [Bool.and_eq_false_iff]
    right
    apply decide_eq_false
    exact fun heq => hother c hc (heq.symm.trans hfp)
  · rw [hsclient, hclient, Option.getD_some, toLowerCase_toLowerCase]

theorem yields_revokeMinted {minted : SlotRef}
    (h : Minted w call current (.ok minted)) {Q : Bool → World → Permits → Prop}
    (hQ : ∀ w' ok, Evolves w w' → (ok = true → ∀ m ∈ w'.made, m.gen = call.confirmation.session.gen →
      ¬ On m w'.device) → Q ok w' g) :
    Yields (revokeMinted H call.confirmation.session.gen current minted) w g Q := by
  unfold revokeMinted
  split
  · apply yields_pure
    intro w' hw
    exact hQ w' false hw fun hok => by cases hok
  · next hnot =>
    apply yields_revokeClient
    · exact .inr (Bool.not_eq_true _ ▸ hnot)
    intro w' ok hw hgone
    apply hQ w' ok hw
    intro hok m hm hgen
    have hmade := hw.made m hm (.inl (hgen ▸ h.minted))
    obtain ⟨-, -, -, hslot⟩ := h.slots m hmade hgen
    obtain ⟨hindex, hfp⟩ := hslot minted rfl
    exact hgone hok m hmade hindex hfp

/-- **What follows a mint.** It ends with the dependant saved, or with no slot left, or it says so. -/
theorem yields_mintSequence {p : Prepared} (hready : Ready w p.call p.dep.current)
    (hlabel : p.call.request.label = p.call.confirmation.session.label) :
    Yields (mintSequence H p) w (0, Pi.single p.call.confirmation.session.gen 1) fun _ _ _ => True := by
  unfold mintSequence
  dsimp only
  apply yields_bind (yields_nostrconnectV2 H hready)
  rintro outcome w₁ _ - ⟨rfl, hminted⟩
  cases outcome with
  | error index =>
    dsimp only
    apply yields_bind (yields_listClients H (Q := fun listed w' g' => g' = 0 ∧
      Minted w' p.call p.dep.current (.error index) ∧ ∀ slots, listed = some slots → ∀ m ∈ w'.made, m.gen = p.call.confirmation.session.gen → On m w'.device →
        ∃ s ∈ unconfirmedMintSlots slots p.call.request.label p.call.request.clientPubkey index
          p.dep.current, m.slotIndex = s.slotIndex ∧ m.fingerprint = fingerprintOf s) ?_)
    · rintro listed w₂ _ - ⟨rfl, hminted₂, hlisted⟩
      cases listed with
      | none =>
        exact yields_ends_minted hminted₂.minted fun _ _ _ hclean => absurd rfl hclean
      | some slots =>
        have hcaught := hlisted slots rfl
        rw [hlabel, hready.client] at hcaught
        apply yields_bind (yields_revokeAll H _ (.inr fun s hs => not_same_of_mem_unconfirmed hs))
        rintro clean w₃ _ - ⟨rfl, hw₃, hgone⟩
        apply yields_ends_minted (hminted₂.minted.trans (hw₃.minted _))
        · intro w' hw _ hclean m hm hgen hon
          have hev := hw₃.trans hw
          have hmade := hev.made m hm (.inl (hgen ▸ hminted₂.minted))
          obtain ⟨s, hs, hindex, hfp⟩ := hcaught m hmade hgen (hev.gone m hmade hon)
          cases clean with
          | false => exact hclean rfl
          | true => exact hgone rfl s hs m hmade hindex hfp (hw.gone m (hw₃.kept m hmade) hon)
    · intro w' hw hsane listed hslots w'' hw'
      have hminted' := hminted.evolve hw
      refine ⟨rfl, hminted'.evolve hw', fun slots hsome m hm hgen hon => ?_⟩
      subst hsome
      obtain rfl := hslots slots rfl
      have hmade := hw'.made m hm (.inl (hgen ▸ hminted'.minted))
      exact hminted'.mem_unconfirmed hsane hmade hgen (hw'.gone m hmade hon)
  | ok minted =>
    dsimp only
    apply yields_bind (yields_listClients H (Q := fun _ w' g' => g' = 0 ∧ Evolves w₁ w')
      fun w' hw _ _ _ w'' hw' => ⟨rfl, hw.trans hw'⟩)
    rintro listed w₂ _ - ⟨rfl, hw₂⟩
    -- What ends after a revocation of the slot ends without it, or says so.
    have hback : ∀ (message : Message) w', Evolves w₁ w' → Yields (do
        let ok ← revokeMinted H p.call.confirmation.session.gen p.dep.current minted
        ends p.call.confirmation.session.gen (.error (if ok then message else .mintUnconfirmed)))
          w' 0 fun _ _ _ => True := by
      intro message w' hw'
      have hminted' := hminted.evolve hw'
      apply yields_bind (yields_revokeMinted H hminted' (Q := fun ok w'' g'' => g'' = 0 ∧ Evolves w' w'' ∧
        (ok = true → ∀ m ∈ w''.made, m.gen = p.call.confirmation.session.gen → ¬ On m w''.device))
        fun w'' ok hw'' hgone => ⟨rfl, hw'', hgone⟩)
      rintro ok w₃ _ - ⟨rfl, hw₃, hgone⟩
      apply yields_ends_minted (hminted'.evolve hw₃).minted
      · intro w₄ hw₄ _ hclean m hm hgen hon
        cases ok with
        | false => exact hclean rfl
        | true =>
          have hmade := hw₄.made m hm (.inl (hgen ▸ (hminted'.evolve hw₃).minted))
          exact hgone rfl m hmade hgen (hw₄.gone m hmade hon)
    split
    · exact hback .verify w₂ hw₂
    next slots hslots =>
    have hverified := (Option.filter_eq_some_iff.1 hslots).2
    apply yields_bind (yields_now (Q := fun _ w' g' => g' = 0 ∧ Evolves w₁ w')
      fun _ w' hw => ⟨rfl, hw₂.trans hw⟩)
    rintro pairedAt w₃ _ - ⟨rfl, hw₃⟩
    apply yields_bind (Q := fun ok w' g' => g' = 0 ∧ Evolves w₁ w' ∧
      (ok = true → p.call.confirmation.session.gen ∈ w'.saved))
    · apply yields_once
      intro w' r hw hinv ok
      cases ok with
      | true =>
        refine ⟨Sound.guarantee ?_ rfl, { Evolves.refl w' with saved := fun n hn => List.mem_cons_of_mem _ hn }, 0,
          ⟨{ hinv.1 with }, { hinv.2 with }⟩, fun ok' hok' w'' hw' => ⟨rfl, ?_, fun _ => ?_⟩⟩
        · intro x hx
          obtain rfl := Option.some.inj hx
          exact ⟨hverified, rfl⟩
        · apply hw₃.trans (hw.trans (Evolves.trans _ hw'))
          exact { Evolves.refl w' with saved := fun n hn => List.mem_cons_of_mem _ hn }
        · exact hw'.saved _ List.mem_cons_self
      | false =>
        refine ⟨Sound.guarantee ?_ rfl, Evolves.refl w', 0, hinv, fun ok' hok' w'' hw' => ⟨rfl, hw₃.trans (hw.trans hw'), ?_⟩⟩
        · intro x hx
          obtain rfl := Option.some.inj hx
          exact ⟨hverified, rfl⟩
        · intro hok
          rw [hok] at hok'
          cases hok'
    rintro ok w₄ _ - ⟨rfl, hw₄, hsaved⟩
    cases ok with
    | false => exact hback .save w₄ hw₄
    | true =>
      apply yields_bind (yields_revokeAll H _ (.inl (hsaved rfl)))
      rintro clean w₅ _ - ⟨rfl, hw₅, -⟩
      have hminted₅ := hminted.minted.trans ((hw₄.trans hw₅).minted _)
      exact yields_ends_minted hminted₅ fun w' hw hnot => absurd ((hw₅.trans hw).saved _ (hsaved rfl)) hnot

/-! ## What may be started -/

omit H in
theorem yields_mintKey (hdep : dep.KnownTo w.device)
    {Q : Option DependantIdentity → World → Permits → Prop}
    (h : ∀ o w', Evolves w w' → (∀ working ∈ o, DependantIdentity.KnownTo working w'.device) → Q o w' g) :
    Yields (ensureRailKey.mintKey n dep) w g Q := by
  unfold ensureRailKey.mintKey
  apply yields_bind (yields_outside (Q := fun _ w' g' => g = g' ∧ Evolves w w') fun _ w' hw => ⟨rfl, hw⟩)
  rintro endpoint w₁ _ - ⟨rfl, hw₁⟩
  apply yields_bind (yields_quiet (Q := fun _ w' g' => g = g' ∧ Evolves w w') (fun _ _ => rfl) ?_ ?_)
  · rintro ok w₂ _ - ⟨rfl, hw₂⟩
    split
    · apply yields_pure
      exact fun w' hw => h none w' (hw₂.trans hw) fun working hworking => by cases hworking
    · apply yields_bind (yields_isCurrent (Q := fun _ w' g' => g = g' ∧ Evolves w w')
        fun w' hw => ⟨rfl, hw₂.trans hw⟩)
      rintro _ w₃ _ - ⟨rfl, hw₃⟩
      apply yields_pure
      intro w' hw
      apply h _ w' (hw₃.trans hw)
      intro working hworking
      obtain rfl := Option.some.inj hworking
      exact hdep.evolve (hw₃.trans hw)
  · exact fun _ => Sound.guarantee (fun _ hx => by cases hx) rfl
  · exact fun w' _ _ hw _ w'' hw' => ⟨rfl, hw₁.trans (hw.trans hw')⟩

omit H in
theorem yields_ensureRailKey (hdep : dep.KnownTo w.device)
    {Q : Option DependantIdentity → World → Permits → Prop}
    (h : ∀ o w', Evolves w w' → (∀ working ∈ o, DependantIdentity.KnownTo working w'.device) → Q o w' g) :
    Yields (ensureRailKey n dep) w g Q := by
  unfold ensureRailKey
  split
  · split
    · apply yields_pure
      exact fun w' hw => h none w' hw fun working hworking => by cases hworking
    · split
      · apply yields_pure
        intro w' hw
        apply h _ w' hw
        intro working hworking
        obtain rfl := Option.some.inj hworking
        exact hdep.evolve hw
      · exact yields_mintKey hdep h
  · exact yields_mintKey hdep h

omit H in
theorem yields_begin :
    Yields (.once .hook fun (_ : Unit) (w : World) => (.ok (w.gen + 1), w.restart .checking) : Op ℕ) w 0
      fun n _ g' => g' = (Pi.single n 1, 0) := by
  apply yields_once
  intro w' r hw hinv c
  have hinv' : Invariant (w'.restart .checking) r := by
    rw [zero_add] at hinv
    exact hinv.restart .checking
  have hnone := hinv.2.offered (w'.gen + 1)
  rw [if_neg (Nat.not_succ_le_self _), zero_add] at hnone
  refine ⟨Sound.guarantee trivial (by simp), evolves_restart w' _, (Pi.single (w'.gen + 1) 1, 0), ⟨hinv'.1, ?_⟩, fun n hn w'' _ => ?_⟩
  · apply hinv'.2.earn
    · exact Nat.eq_zero_of_add_eq_zero_right (Nat.le_zero.1 hnone)
    · exact Nat.eq_zero_of_add_eq_zero_left (Nat.le_zero.1 hnone)
  · cases hn
    rfl

omit H in
theorem yields_openSession {s : Session} (hdep : s.dep.KnownTo w.device) (hrequest : s.request = none) :
    Yields (.once .hook fun (_ : Unit) (w : World) => w.openSession s : Op Unit) w (Pi.single s.gen 1, 0)
      fun _ _ g' => g' = 0 := by
  apply yields_once
  intro w' r hw hinv c
  cases hok : (w'.openSession s).1 with
  | ok _ =>
    obtain ⟨hinv', hev⟩ := Invariant.openSession hinv (hdep.evolve hw) hok hrequest
    refine ⟨Sound.guarantee trivial (by simp), hev, 0, ?_, fun _ _ _ _ => rfl⟩
    rw [zero_add]
    exact hinv'
  | error e =>
    have hsame : (w'.openSession s).2 = w' := by
      unfold World.openSession at hok ⊢
      split at hok
      · next hcheck => rw [if_pos hcheck]
      · cases hok
    rw [hsame]
    exact ⟨Sound.guarantee trivial rfl, Evolves.refl w', _, hinv, fun a ha => by cases ha⟩

theorem yields_start : Yields (start H) w 0 fun _ _ _ => True := by
  unfold start
  apply yields_bind yields_begin
  rintro n w₁ _ - rfl
  apply yields_bind (yields_outside (Q := fun _ w' g' => g' = (Pi.single n 1, 0)) fun _ w' _ => rfl)
  rintro known w₂ _ - rfl
  split
  · exact yields_setState fun _ _ => trivial
  apply yields_bind (yields_record (Q := fun dep w' g' => g' = (Pi.single n 1, 0) ∧ dep.KnownTo w'.device)
    fun dep w' _ hdep => ⟨rfl, hdep⟩)
  rintro dep w₃ _ - ⟨rfl, hdep₃⟩
  apply yields_bind (yields_isCurrent (Q := fun _ w' g' => g' = (Pi.single n 1, 0) ∧ dep.KnownTo w'.device)
    fun w' hw => ⟨rfl, hdep₃.evolve hw⟩)
  rintro _ w₄ _ - ⟨rfl, hdep₄⟩
  apply yields_bind (yields_outside (Q := fun _ w' g' => g' = (Pi.single n 1, 0) ∧ dep.KnownTo w'.device)
    fun _ w' hw => ⟨rfl, hdep₄.evolve hw⟩)
  rintro o w₅ _ - ⟨rfl, hdep₅⟩
  split
  · exact yields_setState fun _ _ => trivial
  dsimp only
  split
  · exact yields_setState fun _ _ => trivial
  apply yields_bind (yields_listClients H (Q := fun _ w' g' => g' = (Pi.single n 1, 0) ∧
    dep.KnownTo w'.device) fun w' hw _ _ _ w'' hw' => ⟨rfl, hdep₅.evolve (hw.trans hw')⟩)
  rintro listed w₆ _ - ⟨rfl, hdep₆⟩
  cases listed with
  | none => exact yields_setState fun _ _ => trivial
  | some slots =>
  dsimp only
  apply yields_bind (yields_isCurrent (Q := fun _ w' g' => g' = (Pi.single n 1, 0) ∧ dep.KnownTo w'.device)
    fun w' hw => ⟨rfl, hdep₆.evolve hw⟩)
  rintro _ w₇ _ - ⟨rfl, hdep₇⟩
  split
  · exact yields_setState fun _ _ => trivial
  apply yields_bind (yields_ensureRailKey hdep₇ (Q := fun o w' g' => g' = (Pi.single n 1, 0) ∧
    ∀ working ∈ o, DependantIdentity.KnownTo working w'.device) fun o w' _ hworking => ⟨rfl, hworking⟩)
  rintro working w₈ _ - ⟨rfl, hworking⟩
  cases working with
  | none => exact yields_setState fun _ _ => trivial
  | some working =>
  dsimp only
  have hdep₈ := hworking working rfl
  apply yields_bind (yields_outside (Q := fun _ w' g' => g' = (Pi.single n 1, 0) ∧
    working.KnownTo w'.device) fun _ w' hw => ⟨rfl, hdep₈.evolve hw⟩)
  rintro code w₉ _ - ⟨rfl, hdep₉⟩
  apply yields_bind (yields_now (Q := fun _ w' g' => g' = (Pi.single n 1, 0) ∧
    working.KnownTo w'.device) fun _ w' hw => ⟨rfl, hdep₉.evolve hw⟩)
  rintro offerMs w₁₀ _ - ⟨rfl, hdep₁₀⟩
  apply yields_bind (yields_openSession (s := _) hdep₁₀ rfl)
  rintro _ w₁₁ _ - rfl
  apply yields_bind (yields_outside (Q := fun _ _ g' => g' = 0) fun _ _ _ => rfl)
  rintro _ w₁₂ _ - rfl
  apply yields_bind (yields_isCurrent (Q := fun _ _ g' => g' = 0) fun _ _ => rfl)
  rintro _ w₁₃ _ - rfl
  exact yields_setState fun _ _ => trivial

omit H in
theorem yields_step {γ : Type} {run : γ → World → Except Unit α × World}
    (h : ∀ c w' r, Invariant w' r →
      Invariant (run c w').2 r ∧ Evolves w' (run c w').2 ∧ (run c w').2.made = w'.made) :
    Yields (.once .hook run : Op α) w 0 fun _ _ _ => True := by
  apply yields_once
  intro w' r hw hinv c
  rw [zero_add] at hinv
  obtain ⟨hinv', hev, hmade⟩ := h c w' r hinv
  refine ⟨Sound.guarantee trivial hmade, hev, 0, ?_, fun _ _ _ _ => trivial⟩
  rw [zero_add]
  exact hinv'

omit H in
theorem Invariant.shut (h : Invariant w g) (n : ℕ) (state : ChildPairingState) :
    Invariant ({ w with session := none }.setState n state) g ∧
      Evolves w ({ w with session := none }.setState n state) ∧
      ({ w with session := none }.setState n state).made = w.made := by
  have hclose : Evolves w { w with session := none } := { Evolves.refl w with }
  refine ⟨h.close.setState n state, hclose.trans (evolves_setState _ n state), ?_⟩
  simp

omit H in
theorem yields_onRequestEvent (n : ℕ) : Yields (onRequestEvent n) w 0 fun _ _ _ => True := by
  unfold onRequestEvent
  apply yields_bind (yields_quiet (Q := fun _ _ g' => g' = 0) ?_ ?_ fun _ _ _ _ _ _ _ => rfl)
  · rintro s w₁ _ - rfl
    apply yields_bind (yields_outside (Q := fun _ _ g' => g' = 0) fun _ _ _ => rfl)
    rintro opened w₂ _ - rfl
    cases opened with
    | none => exact yields_pure fun _ _ => trivial
    | some req =>
      dsimp only
      split
      · exact yields_pure fun _ _ => trivial
      · apply yields_step
        intro _ w' r hinv
        obtain ⟨hinv', hev⟩ := hinv.hear s req
        exact ⟨hinv', hev, World.made_hear w' s req⟩
  · intro c w'
    cases w'.session with
    | none => rfl
    | some s =>
      dsimp only
      split <;> rfl
  · exact fun _ => Sound.guarantee trivial rfl

/-- **A confirmation leads to one mint at most.** -/
theorem yields_confirmMatch : Yields (confirmMatch H) w 0 fun _ _ _ => True := by
  unfold confirmMatch
  apply yields_bind (Q := fun (c : Confirmation) w' g' => g' = (0, Pi.single c.session.gen 1) ∧
    c ∈ w'.confirmed ∧ c.session.dep.KnownTo w'.device)
  · apply yields_once
    intro w' r hw hinv _
    rw [zero_add] at hinv
    cases hsession : w'.session with
    | none =>
      refine ⟨Sound.guarantee trivial rfl, Evolves.refl w', 0, ?_, fun a ha => by cases ha⟩
      rw [zero_add]
      exact hinv
    | some s =>
      dsimp only
      cases hrequest : s.request with
      | none =>
        refine ⟨Sound.guarantee trivial rfl, Evolves.refl w', 0, ?_, fun a ha => by cases ha⟩
        rw [zero_add]
        exact hinv
      | some req =>
        obtain ⟨hinv', hev⟩ := hinv.confirm hsession hrequest w'.clock
        refine ⟨Sound.guarantee trivial rfl, hev, (0, Pi.single s.gen 1), hinv', fun c hc w'' hw' => ?_⟩
        cases hc
        have hknown := (hinv.1.session s hsession).2.2.1
        exact ⟨rfl, hw'.confirmed _ List.mem_cons_self, hknown.evolve (hev.trans hw')⟩
  rintro c w₁ _ - ⟨rfl, hconfirmed, hdep⟩
  apply yields_bind (yields_prepare H hconfirmed hdep)
  rintro p w₂ _ - ⟨rfl, rfl, hlabel, hready⟩
  exact yields_mintSequence H hready hlabel

/-- **Every task of the hook keeps the discipline.** -/
theorem keeps_of_starts {t : Op Unit} (h : Starts H t) : discipline.Keeps t := by
  cases h with
  | start => exact Discipline.keeps_of_yields fun _ => yields_start H
  | cancel =>
    exact Discipline.keeps_of_yields fun _ =>
      yields_step fun _ w' r hinv => ⟨hinv.restart .idle, evolves_restart w' .idle, rfl⟩
  | expire n =>
    apply Discipline.keeps_of_yields (Q := fun _ _ _ => True)
    intro w
    apply yields_step
    intro _ w' r hinv
    cases w'.session with
    | none => exact ⟨hinv, Evolves.refl w', rfl⟩
    | some s =>
      dsimp only
      split
      · exact hinv.shut n .expired
      · exact ⟨hinv, Evolves.refl w', rfl⟩
  | reject =>
    apply Discipline.keeps_of_yields (Q := fun _ _ _ => True)
    intro w
    apply yields_step
    intro _ w' r hinv
    cases w'.session with
    | none => exact ⟨hinv, Evolves.refl w', rfl⟩
    | some s =>
      dsimp only
      split
      · exact ⟨hinv, Evolves.refl w', rfl⟩
      · exact hinv.shut s.gen (.aborted .mismatch)
  | request n => exact Discipline.keeps_of_yields fun _ => yields_onRequestEvent n
  | confirm => exact Discipline.keeps_of_yields fun _ => yields_confirmMatch H
  | move =>
    apply Discipline.keeps_of_yields (Q := fun _ _ _ => True)
    intro w
    apply yields_once
    intro w' r _ hinv c
    obtain ⟨hinv', hev⟩ := hinv.setDevice (undisturbed_move H c w'.device)
    exact ⟨Sound.guarantee trivial rfl, hev, 0, hinv', fun _ _ _ _ => trivial⟩
  | tick elapsed =>
    apply Discipline.keeps_of_yields (Q := fun _ _ _ => True)
    intro w
    apply yields_once
    intro w' r _ hinv _
    exact ⟨Sound.guarantee trivial rfl, { Evolves.refl w' with }, 0, ⟨{ hinv.1 with }, { hinv.2 with }⟩, fun _ _ _ _ => trivial⟩

omit H in
theorem invariant_initial {d : Device} (hd : ∀ s ∈ d.slots, fingerprintOf s ∈ d.issued) (clock : ℕ) :
    Invariant (World.initial d clock) 0 := by
  refine ⟨{ codes := List.nodup_nil, heard := ?_, displayed := ?_, session := ?_, confirmed := ?_
            passed := ?_, cancelled := ?_, issued := hd, made := ?_ },
    { offered := fun n => ?_, burned := fun n => le_rfl, minted := fun n => le_rfl
      ended := ?_ }⟩
  · exact fun _ h => by cases h
  · exact fun _ h => by cases h
  · exact fun _ h => by cases h
  · exact fun _ h => by cases h
  · exact fun _ h => by cases h
  · exact fun _ h => by cases h
  · exact fun _ h => by cases h
  · exact Nat.zero_le _
  · exact fun _ h => by cases h

end

end SignetApp.ChildPhone
