import SignetApp.Bots.AppRequests

/-!
# What the handlers keep to

Every task keeps the discipline, whatever the others do meanwhile: the grants only grow, and a bot's
key is used, and an answer sent, with the permission the handler earned when it took up the event.
-/

namespace SignetApp.Bots

open SignetApp.Js SignetApp.Sync
open SignetApp.Discipline (yields_pure yields_throw yields_bind yields_once yields_quiet)

abbrev Permits := (HandlerOptions × JsString → ℕ) × (HandlerOptions × JsString → ℕ)

/-! ## The discipline -/

/-- The grant is in the store, or what it has become since. -/
def Remains (grant : BotAppGrant) (w : World) : Prop := ∃ g ∈ w.grants, Follows grant g

/-- The grant allows the handler to serve the event. -/
structure Serves (h : HandlerOptions) (event : NostrEvent) (grant : BotAppGrant) : Prop where
  bot : grant.botPubkey = h.botPubkey
  client : grant.clientPubkey = event.pubkey
  relay : grant.relayUrl = h.relayUrl
  live : grant.revokedAt = none

/-- A read of what was stored then, which showed the grant as it was given, at a time when it held. -/
structure Consents (h : HandlerOptions) (grant : BotAppGrant) (shown : Shown) (w : World) : Prop where
  past : Grows shown.grants w.grants
  time : shown.now ≤ w.clock
  mem : grant ∈ shown.grants
  started : grant.createdAt ≤ shown.now
  running : (shown.now : ℚ) < grant.expiresAt
  bot : isLive shown.registry h.botPubkey = true

/-- How one state may follow another. -/
structure Evolves (w w' : World) : Prop where
  clock : w.clock ≤ w'.clock
  grants : Grows w.grants w'.grants

theorem Evolves.refl (w : World) : Evolves w w := ⟨le_rfl, Grows.refl _⟩

variable {w' : World}

theorem Evolves.trans {w w'' : World} (h : Evolves w w') (h' : Evolves w' w'') : Evolves w w'' :=
  ⟨h.clock.trans h'.clock, h.grants.trans h'.grants⟩

theorem Remains.evolve {grant : BotAppGrant} {w : World} (h : Remains grant w) (hw : Evolves w w') :
    Remains grant w' := by
  obtain ⟨g, hg, hfollows⟩ := h
  obtain ⟨g', hg', hfollows'⟩ := hw.grants g hg
  exact ⟨g', hg', hfollows.trans hfollows'⟩

variable {shown : Shown}

theorem Consents.evolve {h : HandlerOptions} {grant : BotAppGrant} {w : World}
    (hc : Consents h grant shown w) (hw : Evolves w w') : Consents h grant shown w' :=
  { hc with past := hc.past.trans hw.grants, time := hc.time.trans hw.clock }

/-- The event is genuine, and for the handler's bot and no one else. -/
structure Addressed [Keys] (h : HandlerOptions) (event : NostrEvent) : Prop where
  genuine : Keys.verifyEvent event = true
  recipient : event.tags.filter (fun tag => tag.head? = some (lit "p")) = [[lit "p", h.botPubkey]]

/-- What an action may be done for. -/
def Guarantee [Keys] (w : World) : Action → World → Prop
  | .sign s, _ => Addressed s.handler s.event ∧ Serves s.handler s.event s.grant ∧
      Consents s.handler s.grant s.shown w ∧ s.template.pubkey = s.grant.botPubkey ∧
      s.template.kind ∈ s.grant.eventKinds
  | .publish a, _ => Addressed a.handler a.event ∧ Serves a.handler a.event a.grant ∧
      Consents a.handler a.grant a.shown w
  | _, _ => True

section

variable [Keys] (root : JsString)

/-- The handler has taken up an event with the id, and knows it, or it is too old to come again. -/
def Remembered (w : World) (k : HandlerOptions × JsString) : Prop :=
  ∃ e : NostrEvent, Keys.verifyEvent e = true ∧ e.id = k.2 ∧
    ((k.2, e.created_at) ∈ (w.handlers k.1).seen ∨ e.created_at < (w.clock : ℚ) - 300)

structure Sane (w : World) : Prop where
  oneLive : OneLive w.grants
  stored : isStamp w.clock = true → Stored root w.grants
  once : w.straddled = false → ∀ k, w.taken k ≤ 1 ∧ (0 < w.taken k → Remembered w k)

/-- No more was signed and answered, or may be, than was taken up. -/
def Invariant (w : World) (permits : Permits) : Prop :=
  Sane root w ∧ ∀ k, w.signed k + permits.1 k ≤ w.taken k ∧ w.answered k + permits.2 k ≤ w.taken k

def discipline : Discipline Action World Permits where
  Inv := Invariant root
  Evolves := Evolves
  Guarantee := Guarantee
  refl := Evolves.refl
  trans := Evolves.trans
  drop := by
    intro w g h hinv
    refine ⟨hinv.1, fun k => ?_⟩
    obtain ⟨hsigned, hanswered⟩ := hinv.2 k
    rw [Prod.fst_add, Pi.add_apply] at hsigned
    rw [Prod.snd_add, Pi.add_apply] at hanswered
    omega

/-! ## Rules -/

variable {α β : Type} {w : World} {g : Permits} {Q : α → World → Permits → Prop}

/-- The task keeps the discipline, and answers `Q` if it answers. -/
abbrev Yields (t : Op α) (w : World) (g : Permits) (Q : α → World → Permits → Prop) : Prop :=
  (discipline root).Yields t w g Q

variable {root}

theorem yields_throwIf {condition : Bool} {Q : Unit → World → Permits → Prop}
    (h : condition = false → ∀ w', Evolves w w' → Q () w' g) : Yields root (throwIf condition) w g Q := by
  unfold throwIf
  cases condition with
  | true => exact yields_throw
  | false => exact yields_pure (h rfl)

theorem yields_outside (h : ∀ a w', Evolves w w' → Q a w' g) : Yields root (outside α) w g Q := by
  apply yields_quiet
  · exact fun _ _ => rfl
  · exact fun _ => trivial
  · exact fun w' _ a hw _ w'' hw' => h a w'' (hw.trans hw')

theorem yields_read {f : World → Option α}
    (h : ∀ w', Evolves w w' → ∀ a, f w' = some a → ∀ w'', Evolves w' w'' → Q a w'' g) :
    Yields root (read f) w g Q := by
  apply yields_quiet
  · intro c w'
    cases c with
    | true => cases hf : f w' <;> rfl
    | false => rfl
  · exact fun _ => trivial
  · intro w' c a hw ha w'' hw'
    cases c with
    | false => cases ha
    | true =>
      cases hf : f w' with
      | none =>
        simp only [hf] at ha
        cases ha
      | some b =>
        simp only [hf] at ha
        cases ha
        exact h w' hw _ hf w'' hw'

theorem yields_now {Q : ℕ → World → Permits → Prop}
    (h : ∀ w', Evolves w w' → ∀ w'', Evolves w' w'' → Q w'.clock w'' g) : Yields root now w g Q := by
  apply yields_quiet
  · exact fun _ _ => rfl
  · exact fun _ => trivial
  · intro w' _ a hw ha w'' hw'
    cases ha
    exact h w' hw w'' hw'

theorem yields_write {f : World → Option World} {Q : Unit → World → Permits → Prop}
    (h : ∀ w', Evolves w w' → Sane root w' → ∀ w'', f w' = some w'' → Sane root w'' ∧ Evolves w' w'' ∧
      w''.taken = w'.taken ∧ w''.signed = w'.signed ∧ w''.answered = w'.answered)
    (hQ : ∀ w', Evolves w w' → Q () w' g) : Yields root (write f) w g Q := by
  apply Discipline.meets_once
  intro w' r hw hinv c
  cases c with
  | false => exact ⟨trivial, Evolves.refl w', g, hinv, fun _ _ a ha => by cases ha⟩
  | true =>
    cases hf : f w' with
    | none =>
      dsimp only
      exact ⟨trivial, Evolves.refl w', g, hinv, fun _ _ a ha => by cases ha⟩
    | some w'' =>
      dsimp only
      obtain ⟨hsane, hev, htaken, hsigned, hanswered⟩ := h w' hw hinv.1 w'' hf
      refine ⟨trivial, hev, g, ⟨hsane, fun k => ?_⟩, fun u hu a _ => ?_⟩
      · rw [htaken, hsigned, hanswered]
        exact hinv.2 k
      · exact hQ u (hw.trans (hev.trans hu))

end

/-! ## Steps of a request -/

section

variable {h : HandlerOptions} {event : NostrEvent} {grant : BotAppGrant}

/-- One signature may be asked for, and one answer sent. -/
def onceOf (k : HandlerOptions × JsString) : HandlerOptions × JsString → ℕ := Pi.single k 1

theorem bump_add (counts permits : HandlerOptions × JsString → ℕ) (k k' : HandlerOptions × JsString) :
    bump counts k k' + permits k' = counts k' + (onceOf k + permits) k' := by
  show counts k' + onceOf k k' + permits k' = counts k' + (onceOf k k' + permits k')
  rw [add_assoc]

theorem serves_of_select {now : ℕ} {grants : List BotAppGrant}
    (hselect : selectGrant h event now grants = some grant) :
    (grant ∈ grants ∧ Serves h event grant) ∧ grant.createdAt ≤ now ∧ (now : ℚ) < grant.expiresAt := by
  have hmem := (List.perm_insertionSort _ _).mem_iff.1 (List.mem_of_mem_head? hselect)
  obtain ⟨hgrants, hfilter⟩ := List.mem_filter.1 hmem
  simp only [Bool.and_eq_true, decide_eq_true_eq, Option.isNone_iff_eq_none] at hfilter
  obtain ⟨⟨⟨⟨⟨hbot, hclient⟩, hrelay⟩, hlive⟩, hcreated⟩, hexpires⟩ := hfilter
  exact ⟨⟨hgrants, hbot, hclient, hrelay, hlive⟩, hcreated, hexpires⟩

theorem choose_cases {w' : World} {grants : List BotAppGrant} :
    ((w'.choose h event grants).2 = w' ∨ ∃ rates, (w'.choose h event grants).2
      = w'.setHandler h { w'.handlers h with rates := rates }) ∧
    ∀ grant, (w'.choose h event grants).1 = .ok grant → grant ∈ grants ∧ Serves h event grant := by
  unfold World.choose
  cases hselect : selectGrant h event w'.clock grants with
  | none => exact ⟨.inl rfl, fun _ hok => by cases hok⟩
  | some selected =>
    have hserves := (serves_of_select hselect).1
    dsimp only
    split
    · refine ⟨.inr ⟨_, rfl⟩, fun grant hok => ?_⟩
      obtain rfl := Except.ok.inj hok
      exact hserves
    · split
      · exact ⟨.inl rfl, fun _ hok => by cases hok⟩
      · refine ⟨.inr ⟨_, rfl⟩, fun grant hok => ?_⟩
        obtain rfl := Except.ok.inj hok
        exact hserves

variable [Keys] {root : JsString} {w : World}

theorem Sane.of_eq {w w' : World} (h : Sane root w) (hgrants : w'.grants = w.grants)
    (hclock : w'.clock = w.clock) (htaken : w'.taken = w.taken) (hstraddled : w'.straddled = w.straddled)
    (hseen : ∀ k, (w'.handlers k).seen = (w.handlers k).seen) : Sane root w' := by
  refine { oneLive := hgrants ▸ h.oneLive, stored := ?_, once := ?_ }
  · rw [hclock, hgrants]
    exact h.stored
  · rw [hstraddled, htaken]
    intro hcalm k
    obtain ⟨hle, hremembered⟩ := h.once hcalm k
    refine ⟨hle, fun hpos => ?_⟩
    obtain ⟨e, hverify, hid, hseen'⟩ := hremembered hpos
    rw [← hseen, ← hclock] at hseen'
    exact ⟨e, hverify, hid, hseen'⟩

theorem Sane.setHandler (hs : Sane root w) {handler : Handler}
    (hseen : handler.seen = (w.handlers h).seen) : Sane root (w.setHandler h handler) := by
  apply hs.of_eq
  · rfl
  · rfl
  · rfl
  · rfl
  intro k
  show (Function.update w.handlers h handler k).seen = _
  by_cases hk : k = h
  · rw [hk, Function.update_self, hseen]
  · rw [Function.update_of_ne hk]

end

/-! ## Reads of the consent -/

/-- What a read of both stores shows: grants that were stored, and checked, and all that were known. -/
structure Reads (root : JsString) (w : World) (shown : Shown) (w' : World) : Prop where
  stored : Stored root shown.grants
  past : Grows shown.grants w'.grants
  time : shown.now ≤ w'.clock
  known : ∀ grant, Remains grant w → ∃ g ∈ shown.grants, Follows grant g

theorem Reads.follows {root : JsString} {w : World} (hr : Reads root w shown w')
    {grant fresh : BotAppGrant} (hremains : Remains grant w) (hmem : fresh ∈ shown.grants) (hid : fresh.id = grant.id) :
    Follows grant fresh := by
  obtain ⟨x, hx, hfollows⟩ := hr.known grant hremains
  have heq := hr.stored.eq_of_id hmem hx (hid.trans hfollows.id.symm)
  rw [heq]
  exact hfollows

section

variable [Numerals] [Keys] {root : JsString} {w : World} {g : Permits}
  {h : HandlerOptions} {event : NostrEvent} {grant : BotAppGrant}

theorem yields_readStored :
    Yields root (readStored root) w g fun shown w' g' => g = g' ∧ Reads root w shown w' := by
  unfold readStored
  apply yields_bind (Q := fun _ w' g' => g = g' ∧ Evolves w w') (yields_outside fun _ _ hw => ⟨rfl, hw⟩)
  rintro _ w₁ _ - ⟨rfl, hw₁⟩
  apply yields_bind (Q := fun grants w' g' => g = g' ∧ Stored root grants ∧ Grows grants w'.grants ∧
      ∀ grant, Remains grant w → ∃ x ∈ grants, Follows grant x)
  · apply yields_read
    intro w' hw grants hload w'' hw'
    split_ifs at hload
    obtain ⟨rfl, hstored⟩ := stored_iff.1 hload
    exact ⟨rfl, hstored, hw'.grants, fun grant hremains => hremains.evolve (hw₁.trans hw)⟩
  rintro grants w₂ _ - ⟨rfl, hstored, hgrows, hremains⟩
  apply yields_bind (Q := fun _ w' g' => g = g' ∧ Evolves w₂ w')
  · apply yields_read
    intro w' hw registry _ w'' hw'
    exact ⟨rfl, hw.trans hw'⟩
  rintro registry w₃ _ - ⟨rfl, hw₃⟩
  apply yields_bind (Q := fun _ w' g' => g = g' ∧ Evolves w₃ w') (yields_outside fun _ _ hw => ⟨rfl, hw⟩)
  rintro _ w₄ _ - ⟨rfl, hw₄⟩
  apply yields_bind (Q := fun now w' g' => g = g' ∧ Evolves w₄ w' ∧ now ≤ w'.clock)
  · apply yields_now
    intro w' hw w'' hw'
    exact ⟨rfl, hw.trans hw', hw'.clock⟩
  rintro now w₅ _ - ⟨rfl, hw₅, htime⟩
  apply yields_pure
  intro w' hw
  have hev := hw₃.trans (hw₄.trans (hw₅.trans hw))
  exact ⟨rfl, hstored, hgrows.trans hev.grants, htime.trans hw.clock, hremains⟩

variable {template : UnsignedEvent}

/-- **What `read` finds allows the event.** -/
theorem yields_readGrant (hserves : Serves h event grant) (hremains : Remains grant w) :
    Yields root (readGrant root h grant.id grant.clientPubkey template) w g fun found w' g' => g = g' ∧
      found.1 = grant ∧ Consents h grant found.2 w' ∧ template.pubkey = grant.botPubkey ∧
      template.kind ∈ grant.eventKinds := by
  unfold readGrant
  apply yields_bind yields_readStored
  rintro shown w₁ _ - ⟨rfl, hr⟩
  cases hfind : shown.grants.find? fun x =>
      x.id = grant.id && x.botPubkey = h.botPubkey && x.clientPubkey = grant.clientPubkey with
  | none => exact yields_throw
  | some fresh =>
    have hmem := List.mem_of_find?_eq_some hfind
    have hfound := List.find?_some hfind
    simp only [Bool.and_eq_true, decide_eq_true_eq] at hfound
    apply yields_bind (Q := fun _ w' g' => g = g' ∧ fresh = grant ∧ Consents h grant shown w' ∧
      template.pubkey = grant.botPubkey ∧ template.kind ∈ grant.eventKinds)
    · apply yields_throwIf
      intro hcheck w' hw
      simp only [Bool.or_eq_false_iff, decide_eq_false_iff_not, not_not, not_le, gt_iff_lt, not_lt,
        Bool.not_eq_false', List.contains_iff_mem, Option.isSome_eq_false_iff, Option.isNone_iff_eq_none] at hcheck
      obtain ⟨⟨⟨⟨⟨hrevoked, hcreated⟩, hexpires⟩, hpubkey⟩, hkind⟩, hbot⟩ := hcheck
      have hsame : fresh = grant := by
        rcases hr.follows hremains hmem hfound.1.1 with heq | ⟨-, t, rfl⟩
        · exact heq
        · cases hrevoked
      subst hsame
      refine ⟨rfl, rfl, ?_, hpubkey, hkind⟩
      exact Consents.evolve { past := hr.past, time := hr.time, mem := hmem, started := hcreated
                              running := hexpires, bot := hserves.bot ▸ hbot } hw
    · rintro _ w₂ _ - ⟨rfl, rfl, hconsents, hpubkey, hkind⟩
      exact yields_pure fun w' hw => ⟨rfl, rfl, hconsents.evolve hw, hpubkey, hkind⟩

variable [ContentHash]

/-- The hash tells a revoked grant from the grant as it was. -/
def RevocationShows : Prop :=
  ∀ (grant : BotAppGrant) (t : ℚ), grant.revokedAt = none →
    binding { grant with revokedAt := some t } ≠ binding grant

/-- **What `permitted` lets through is consented to.** -/
theorem yields_permitted (hmark : RevocationShows) (hremains : Remains grant w)
    (hlive : grant.revokedAt = none) :
    Yields root (permitted root h grant) w g fun shown w' g' => g = g' ∧ Consents h grant shown w' := by
  unfold permitted
  apply yields_bind yields_readStored
  rintro shown w₁ _ - ⟨rfl, hr⟩
  cases hfind : shown.grants.find? fun x => x.id = grant.id with
  | none => exact yields_throw
  | some fresh =>
    have hmem := List.mem_of_find?_eq_some hfind
    have hid : fresh.id = grant.id := by simpa using List.find?_some hfind
    apply yields_bind (Q := fun _ w' g' => g = g' ∧ Evolves w₁ w' ∧ Consents h grant shown w')
    · apply yields_throwIf
      intro hcheck w' hw
      simp only [Bool.or_eq_false_iff, decide_eq_false_iff_not, not_not, not_le, gt_iff_lt, not_lt,
        Bool.not_eq_false'] at hcheck
      obtain ⟨⟨⟨hbinding, hexpires⟩, hcreated⟩, hbot⟩ := hcheck
      have hsame : fresh = grant := by
        rcases hr.follows hremains hmem hid with heq | ⟨-, t, rfl⟩
        · exact heq
        · exact absurd hbinding (hmark grant t hlive)
      subst hsame
      refine ⟨rfl, hw, ?_⟩
      exact Consents.evolve { past := hr.past, time := hr.time, mem := hmem, started := hcreated
                              running := hexpires, bot := hbot } hw
    · rintro _ w₂ _ - ⟨rfl, -, hconsents⟩
      exact yields_pure fun w' hw => ⟨rfl, hconsents.evolve hw⟩

/-! ## One request -/

/-- **The key is used with a permission**, for what the last read allows. -/
theorem yields_signWithBotAppGrant (haddressed : Addressed h event)
    (hserves : Serves h event grant) (hremains : Remains grant w) (permits : HandlerOptions × JsString → ℕ) :
    Yields root (signWithBotAppGrant root h event grant template) w (onceOf (h, event.id), permits)
      fun _ _ g' => g'.2 = permits := by
  unfold signWithBotAppGrant
  apply yields_bind (yields_readGrant hserves hremains)
  rintro first w₁ _ hw₁ ⟨rfl, -⟩
  apply yields_bind (Q := fun _ w' g' => (onceOf (h, event.id), permits) = g' ∧ Evolves w₁ w')
    (yields_outside fun _ _ hw => ⟨rfl, hw⟩)
  rintro key w₂ _ hw₂ ⟨rfl, -⟩
  apply yields_bind (Q := fun _ w' g' => (onceOf (h, event.id), permits) = g' ∧ Evolves w₂ w')
    (yields_throwIf fun _ _ hw => ⟨rfl, hw⟩)
  rintro _ w₃ _ hw₃ ⟨rfl, -⟩
  apply yields_bind (yields_readGrant hserves (hremains.evolve (hw₁.trans (hw₂.trans hw₃))))
  rintro second w₄ _ hw₄ ⟨rfl, hsame, hconsents, hpubkey, hkind⟩
  apply yields_bind (Q := fun _ w' g' => (onceOf (h, event.id), permits) = g' ∧ Evolves w₄ w')
    (yields_throwIf fun _ _ hw => ⟨rfl, hw⟩)
  rintro _ w₅ _ hw₅ ⟨rfl, -⟩
  apply yields_bind (Q := fun _ _ g' => g'.2 = permits)
  · apply Discipline.meets_once
    intro w' r hw hinv c
    refine ⟨⟨haddressed, hsame ▸ hserves, ?_, hsame ▸ hpubkey, hsame ▸ hkind⟩, ⟨le_rfl, Grows.refl _⟩,
      (0, permits), ?_, ?_⟩
    · rw [hsame]
      exact hconsents.evolve (hw₅.trans hw)
    · obtain ⟨hsane, hcounts⟩ := hinv
      refine ⟨hsane.of_eq rfl rfl rfl rfl fun _ => rfl, fun k => ?_⟩
      obtain ⟨hsigned, hanswered⟩ := hcounts k
      refine ⟨?_, hanswered⟩
      show bump w'.signed (h, event.id) k + (0 + r.1) k ≤ w'.taken k
      rw [zero_add, bump_add]
      exact hsigned
    · intro w'' _ a _
      rfl
  rintro signed w₆ g₆ hw₆ hpermits
  have hremains₆ : Remains grant w₆ :=
    hremains.evolve (hw₁.trans (hw₂.trans (hw₃.trans (hw₄.trans (hw₅.trans hw₆)))))
  apply yields_bind (yields_readGrant hserves hremains₆)
  rintro third w₇ _ - ⟨rfl, -⟩
  apply yields_bind (Q := fun _ _ g' => g₆ = g') (yields_throwIf fun _ _ _ => rfl)
  rintro _ w₈ _ - rfl
  apply yields_bind (Q := fun _ _ g' => g₆ = g') (yields_throwIf fun _ _ _ => rfl)
  rintro _ w₉ _ - rfl
  exact yields_pure fun _ _ => hpermits

theorem yields_respond {request : InboundRequest} (haddressed : Addressed h event)
    (hserves : Serves h event grant) (hremains : Remains grant w) (permits : HandlerOptions × JsString → ℕ) :
    Yields root (respond root h event grant request) w (onceOf (h, event.id), permits)
      fun _ _ g' => g'.2 = permits := by
  have hpure : ∀ result : JsString ⊕ String, Yields root (pure result) w (onceOf (h, event.id), permits)
      fun _ _ g' => g'.2 = permits := fun result => yields_pure fun _ _ => rfl
  unfold respond
  split
  · exact hpure _
  split
  · exact hpure _
  split
  · exact hpure _
  split
  · split
    · exact hpure _
    · split
      · exact hpure _
      · apply yields_bind (yields_signWithBotAppGrant haddressed hserves hremains permits)
        intro signed w' g' _ hpermits
        exact yields_pure fun _ _ => hpermits
  · exact hpure _

/-- **A request is signed for and answered with what its handler earned**, and not twice. -/
theorem yields_serve (hmark : RevocationShows) (haddressed : Addressed h event) :
    Yields root (serve root h event) w (onceOf (h, event.id), onceOf (h, event.id))
      fun _ _ _ => True := by
  generalize hg : ((onceOf (h, event.id), onceOf (h, event.id)) : Permits) = g₀
  unfold serve
  apply yields_bind (Q := fun grants w' g' => g₀ = g' ∧ ∀ x ∈ grants, Remains x w')
  · apply yields_read
    intro w' hw grants hload w'' hw'
    split_ifs at hload
    obtain ⟨rfl, -⟩ := stored_iff.1 hload
    exact ⟨rfl, fun x hx => hw'.grants x hx⟩
  rintro grants w₁ _ - ⟨rfl, hgrants⟩
  apply yields_bind (Q := fun _ w' g' => g₀ = g' ∧ Evolves w₁ w') (yields_outside fun _ _ hw => ⟨rfl, hw⟩)
  rintro _ w₂ _ - ⟨rfl, hw₂⟩
  apply yields_bind (Q := fun grant w' g' => g₀ = g' ∧ Remains grant w' ∧ Serves h event grant)
  · apply Discipline.meets_once
    intro w' r hw hinv c
    obtain ⟨hstate, hok⟩ := @choose_cases h event w' grants
    have hchange : Invariant root (w'.choose h event grants).2 (g₀ + r) ∧
        Evolves w' (w'.choose h event grants).2 := by
      rcases hstate with heq | ⟨rates, heq⟩
      · rw [heq]
        exact ⟨hinv, Evolves.refl w'⟩
      · rw [heq]
        exact ⟨⟨hinv.1.setHandler rfl, hinv.2⟩, ⟨le_rfl, Grows.refl _⟩⟩
    refine ⟨trivial, hchange.2, g₀, hchange.1, fun w'' hw' grant hgrant => ?_⟩
    obtain ⟨hmem, hserves⟩ := hok grant hgrant
    have hev := hw₂.trans (hw.trans (hchange.2.trans hw'))
    exact ⟨rfl, (hgrants grant hmem).evolve hev, hserves⟩
  rintro grant w₃ _ - ⟨rfl, hremains, hserves⟩
  apply yields_bind (yields_permitted hmark hremains hserves.live)
  rintro _ w₄ _ hw₄ ⟨rfl, -⟩
  apply yields_bind (Q := fun _ w' g' => g₀ = g' ∧ Evolves w₄ w') (yields_outside fun _ _ hw => ⟨rfl, hw⟩)
  rintro key w₅ _ hw₅ ⟨rfl, -⟩
  apply yields_bind (Q := fun _ w' g' => g₀ = g' ∧ Evolves w₅ w') (yields_throwIf fun _ _ hw => ⟨rfl, hw⟩)
  rintro _ w₆ _ hw₆ ⟨rfl, -⟩
  have hremains₆ := hremains.evolve (hw₄.trans (hw₅.trans hw₆))
  apply yields_bind (yields_permitted hmark hremains₆ hserves.live)
  rintro _ w₇ _ hw₇ ⟨rfl, -⟩
  apply yields_bind (Q := fun _ w' g' => g₀ = g' ∧ Evolves w₇ w') (yields_outside fun _ _ hw => ⟨rfl, hw⟩)
  rintro plaintext w₈ _ hw₈ ⟨rfl, -⟩
  cases parseInboundRequest event plaintext with
  | none => exact yields_throw
  | some request =>
    apply yields_bind (Q := fun _ w' g' => g₀ = g' ∧ Evolves w₈ w')
      (yields_throwIf fun _ _ hw => ⟨rfl, hw⟩)
    rintro _ w₉ _ hw₉ ⟨rfl, -⟩
    have hremains₉ := hremains₆.evolve (hw₇.trans (hw₈.trans hw₉))
    apply yields_bind (yields_permitted hmark hremains₉ hserves.live)
    rintro _ w₁₀ _ hw₁₀ ⟨rfl, -⟩
    subst hg
    apply yields_bind (yields_respond haddressed hserves (hremains₉.evolve hw₁₀) _)
    intro result w₁₁ g₁ hw₁₁ hpermit
    have hremains₁₁ := hremains₉.evolve (hw₁₀.trans hw₁₁)
    apply yields_bind (yields_permitted hmark hremains₁₁ hserves.live)
    rintro _ w₁₂ _ hw₁₂ ⟨rfl, -⟩
    apply yields_bind (Q := fun _ w' g' => g₁ = g' ∧ Evolves w₁₂ w')
    · unfold buildResponseEvent
      apply yields_bind (Q := fun _ w' g' => g₁ = g' ∧ Evolves w₁₂ w')
        (yields_outside fun _ _ hw => ⟨rfl, hw⟩)
      rintro _ w' _ - ⟨rfl, hw'⟩
      exact yields_outside fun _ _ hw => ⟨rfl, hw'.trans hw⟩
    rintro response w₁₃ _ hw₁₃ ⟨rfl, -⟩
    have hremains₁₃ := hremains₁₁.evolve (hw₁₂.trans hw₁₃)
    apply yields_bind (yields_permitted hmark hremains₁₃ hserves.live)
    rintro shown w₁₄ _ - ⟨rfl, hconsents⟩
    apply Discipline.meets_once
    intro w' r hw hinv c
    refine ⟨⟨haddressed, hserves, hconsents.evolve hw⟩, ⟨le_rfl, Grows.refl _⟩, (g₁.1, 0), ?_,
      fun _ _ _ _ => trivial⟩
    obtain ⟨hsane, hcounts⟩ := hinv
    refine ⟨hsane.of_eq rfl rfl rfl rfl fun _ => rfl, fun k => ?_⟩
    obtain ⟨hsigned, hanswered⟩ := hcounts k
    refine ⟨hsigned, ?_⟩
    show bump w'.answered (h, event.id) k + (0 + r.2) k ≤ w'.taken k
    rw [zero_add, bump_add, ← hpermit]
    exact hanswered

end

/-! ## Taking up an event -/

section

variable [Keys] {root : JsString} {w : World} {h : HandlerOptions} {event : NostrEvent}

/-- The id of an event that verifies tells when it was made. -/
def IdTellsDate : Prop :=
  ∀ e f : NostrEvent, Keys.verifyEvent e = true → Keys.verifyEvent f = true → e.id = f.id →
    e.created_at = f.created_at

variable {n : ℕ}

omit [Keys] in
theorem isStamp_natCast : isStamp (n : ℚ) = true ↔ (n : ℚ) ≤ maxSafeInteger := by
  simp [isStamp]

omit [Keys] in
theorem isStamp_of_le {m : ℕ} (hmn : m ≤ n) (hn : isStamp (n : ℚ) = true) : isStamp (m : ℚ) = true := by
  rw [isStamp_natCast] at hn ⊢
  exact le_trans (by exact_mod_cast hmn) hn

variable {w' : World} {k : HandlerOptions × JsString}

theorem Remembered.later (hr : Remembered w k) (hclock : w.clock ≤ w'.clock)
    (hseen : ∀ e ∈ (w.handlers k.1).seen, e ∈ (w'.handlers k.1).seen ∨ e.2 < (w'.clock : ℚ) - 300) :
    Remembered w' k := by
  obtain ⟨e, hverify, hid, hmem | hold⟩ := hr
  · rcases hseen _ hmem with hmem' | hold
    · exact ⟨e, hverify, hid, .inl hmem'⟩
    · exact ⟨e, hverify, hid, .inr hold⟩
  · refine ⟨e, hverify, hid, .inr (lt_of_lt_of_le hold ?_)⟩
    have hcast : (w.clock : ℚ) ≤ w'.clock := by exact_mod_cast hclock
    exact sub_le_sub_right hcast 300

omit [Keys] in
theorem mem_forget {now : ℕ} {seen : List (JsString × ℚ)} {e : JsString × ℚ} (he : e ∈ seen) :
    e ∈ forget now seen ∨ e.2 < (now : ℚ) - 300 := by
  by_cases hold : e.2 < (now : ℚ) - 300
  · exact .inr hold
  · left
    apply List.mem_filter.2
    exact ⟨he, by rw [decide_eq_false hold]; rfl⟩

theorem Remembered.set (hr : Remembered w k) {later : ℕ}
    (hclock : w.clock ≤ later) {handler : Handler}
    (hseen : ∀ e ∈ forget later (w.handlers h).seen, e ∈ handler.seen)
    (hclock' : w'.clock = later) (hhandlers : w'.handlers = Function.update w.handlers h handler) :
    Remembered w' k := by
  apply hr.later
  · rw [hclock']
    exact hclock
  · intro e he
    rw [hclock', hhandlers]
    by_cases hk : k.1 = h
    · rw [hk] at he ⊢
      rw [Function.update_self]
      rcases mem_forget he with hkept | hold
      · exact .inl (hseen e hkept)
      · exact .inr hold
    · rw [Function.update_of_ne hk]
      exact .inl he

theorem admissible_spec {now : ℕ} (ha : admissible h event now = true) :
    (now : ℚ) - 300 ≤ event.created_at ∧ Addressed h event := by
  unfold admissible at ha
  simp only [Bool.and_eq_true, decide_eq_true_eq] at ha
  exact ⟨ha.1.1.1.2, ha.2, ha.1.2⟩

/-- **Taking up an event**: a permission to sign and answer once comes with it. -/
theorem take_spec (hdate : IdTellsDate) (hs : Sane root w) (isCurrent : Bool) (elapsed : ℕ) :
    Sane root (w.take h event isCurrent elapsed).2 ∧ Evolves w (w.take h event isCurrent elapsed).2 ∧
      (w.take h event isCurrent elapsed).2.signed = w.signed ∧
      (w.take h event isCurrent elapsed).2.answered = w.answered ∧
      ((w.take h event isCurrent elapsed).1 = .ok () → Addressed h event ∧
        (w.take h event isCurrent elapsed).2.taken = bump w.taken (h, event.id)) ∧
      ((w.take h event isCurrent elapsed).1 = .error () →
        (w.take h event isCurrent elapsed).2.taken = w.taken) := by
  have hlater : w.clock ≤ w.clock + elapsed := Nat.le_add_right _ _
  unfold World.take
  dsimp only
  split
  · exact ⟨hs, Evolves.refl w, rfl, rfl, fun hok => (by cases hok), fun _ => rfl⟩
  · next hcheck =>
    simp only [Bool.or_eq_true, not_or, Bool.not_eq_true, Bool.not_eq_false'] at hcheck
    obtain ⟨hyoung, haddressed⟩ := admissible_spec hcheck.2
    have hverify := haddressed.genuine
    split
    · refine ⟨?_, ⟨hlater, Grows.refl _⟩, rfl, rfl, fun hok => (by cases hok), fun _ => rfl⟩
      refine { oneLive := hs.oneLive, stored := fun hstamp => hs.stored (isStamp_of_le hlater hstamp),
               once := ?_ }
      intro hcalm k
      obtain ⟨hle, hremembered⟩ := hs.once hcalm k
      refine ⟨hle, fun hpos => ?_⟩
      apply (hremembered hpos).set hlater _ rfl rfl
      exact fun e he => he
    · next hnew =>
      simp only [Bool.or_eq_true, not_or, Bool.not_eq_true] at hnew
      refine ⟨?_, ⟨hlater, Grows.refl _⟩, rfl, rfl, fun _ => ⟨haddressed, rfl⟩,
        fun herror => by cases herror⟩
      refine { oneLive := hs.oneLive, stored := fun hstamp => hs.stored (isStamp_of_le hlater hstamp),
               once := ?_ }
      intro hcalm k
      have hcalm' : w.straddled = false ∧ ¬ event.created_at < ((w.clock + elapsed : ℕ) : ℚ) - 300 := by
        simpa using hcalm
      obtain ⟨hle, hremembered⟩ := hs.once hcalm'.1 k
      by_cases hk : k = (h, event.id)
      · subst hk
        have hzero : w.taken (h, event.id) = 0 := by
          by_contra hne
          -- It was taken up before, and is young: so it is remembered, and would have been refused.
          obtain ⟨e, hverify', hid, hmem | hold⟩ := hremembered (Nat.pos_of_ne_zero hne)
          · have hsame := hdate e event hverify' hverify hid
            rcases @mem_forget (w.clock + elapsed) _ _ hmem with hkept | hold
            · have hany := hnew.1
              rw [List.any_eq_false] at hany
              exact hany _ hkept (decide_eq_true rfl)
            · rw [hsame] at hold
              exact hcalm'.2 hold
          · rw [hdate e event hverify' hverify hid] at hold
            exact absurd hyoung (not_le.2 hold)
        refine ⟨?_, fun _ => ?_⟩
        · show w.taken (h, event.id) + (Pi.single (h, event.id) 1 : HandlerOptions × JsString → ℕ)
            (h, event.id) ≤ 1
          rw [hzero, Pi.single_eq_same]
        · refine ⟨event, hverify, rfl, .inl ?_⟩
          show _ ∈ (Function.update w.handlers h _ h).seen
          rw [Function.update_self]
          exact List.mem_append_right _ (List.mem_singleton_self _)
      · have hsingle : (Pi.single (h, event.id) 1 : HandlerOptions × JsString → ℕ) k = 0 :=
          Pi.single_eq_of_ne hk 1
        refine ⟨?_, fun hpos => ?_⟩
        · show w.taken k + (Pi.single (h, event.id) 1 : HandlerOptions × JsString → ℕ) k ≤ 1
          rw [hsingle]
          exact hle
        · have hpos' : 0 < w.taken k := by
            have hbump : 0 < w.taken k + (Pi.single (h, event.id) 1 : HandlerOptions × JsString → ℕ) k :=
              hpos
            rw [hsingle] at hbump
            exact hbump
          apply (hremembered hpos').set hlater _ rfl rfl
          exact fun e he => List.mem_append_left _ he

/-! ## Tasks -/

theorem Sane.setGrants (hs : Sane root w) {grants : List BotAppGrant} (hone : OneLive grants)
    (hstored : isStamp w.clock = true → Stored root grants) : Sane root { w with grants } :=
  { oneLive := hone, stored := hstored, once := hs.once }

theorem invariant_initial (registry : BotRegistry) (clock : ℕ) :
    Invariant root (World.initial registry clock) 0 := by
  refine ⟨{ oneLive := ?_, stored := fun _ => Stored.nil, once := ?_ }, fun _ => ⟨le_rfl, le_rfl⟩⟩
  · intro g hg
    cases hg
  · exact fun _ k => ⟨Nat.zero_le _, fun hpos => absurd hpos (lt_irrefl 0)⟩

variable [Numerals] [ContentHash] {g : Permits}

theorem yields_handle (hmark : RevocationShows) (hdate : IdTellsDate) :
    Yields root (handle root h event) w 0 fun _ _ _ => True := by
  unfold handle
  apply yields_bind (Q := fun _ _ g' => Addressed h event ∧ g' = (onceOf (h, event.id), onceOf (h, event.id)))
  · apply Discipline.meets_once
    intro w' r hw hinv c
    obtain ⟨hsane, hcounts⟩ := hinv
    obtain ⟨hsane', hev, hsigned, hanswered, hok, herror⟩ := @take_spec _ root w' h event hdate hsane c.1 c.2
    cases ho : (w'.take h event c.1 c.2).1 with
    | ok _ =>
      refine ⟨trivial, hev, (onceOf (h, event.id), onceOf (h, event.id)), ⟨hsane', fun k => ?_⟩, ?_⟩
      · have htaken := (hok ho).2
        have hbump : bump w'.taken (h, event.id) k = onceOf (h, event.id) k + w'.taken k := add_comm _ _
        obtain ⟨hs, ha⟩ := hcounts k
        rw [zero_add] at hs ha
        rw [hsigned, hanswered, htaken, hbump]
        refine ⟨?_, ?_⟩
        · show w'.signed k + (onceOf (h, event.id) k + r.1 k) ≤ _
          rw [add_left_comm]
          exact Nat.add_le_add_left hs _
        · show w'.answered k + (onceOf (h, event.id) k + r.2 k) ≤ _
          rw [add_left_comm]
          exact Nat.add_le_add_left ha _
      · intro w'' _ a _
        exact ⟨(hok ho).1, rfl⟩
    | error e =>
      refine ⟨trivial, hev, 0, ⟨hsane', fun k => ?_⟩, ?_⟩
      · rw [hsigned, hanswered, herror ho]
        exact hcounts k
      · intro w'' _ a ha
        cases ha
  rintro _ w₁ _ - ⟨haddressed, rfl⟩
  apply yields_bind (Q := fun _ _ _ => True) ((yields_serve hmark haddressed).tryCatch fun _ _ => trivial)
  intro _ w₂ g₂ _ _
  apply Discipline.meets_once
  intro w' r hw hinv c
  refine ⟨trivial, ⟨le_rfl, Grows.refl _⟩, g₂, ⟨hinv.1.setHandler rfl, hinv.2⟩, ?_⟩
  intro _ _ _ _
  trivial

omit [Numerals] [ContentHash] in
theorem yields_approveBotAppGrant {grant : BotAppGrant} :
    Yields root (approveBotAppGrant root grant) w g fun _ _ _ => True := by
  unfold approveBotAppGrant
  apply yields_bind (Q := fun _ _ _ => True) (yields_throwIf fun _ _ _ => trivial)
  intro _ w₁ g₁ _ _
  apply yields_bind (Q := fun _ _ _ => True) (yields_outside fun _ _ _ => trivial)
  intro _ w₂ g₂ _ _
  apply yields_bind (Q := fun _ _ _ => True) (yields_now fun _ _ _ _ => trivial)
  intro now w₃ g₃ _ _
  apply yields_bind (Q := fun _ _ _ => True) (yields_read fun _ _ _ _ _ _ => trivial)
  intro registry w₄ g₄ _ _
  apply yields_bind (Q := fun _ _ _ => True) (yields_outside fun _ _ _ => trivial)
  intro _ w₅ g₅ _ _
  apply yields_bind (Q := fun _ _ _ => True)
  · apply yields_write
    · intro w' _ hsane w'' happrove
      obtain ⟨grants, hgrants, rfl⟩ := Option.map_eq_some_iff.1 happrove
      have hstored := (approve_eq_some hgrants).2.2.2.2
      refine ⟨?_, ⟨le_rfl, grows_approve hgrants⟩, rfl, rfl, rfl⟩
      exact hsane.setGrants (hsane.oneLive.approve hgrants) fun _ => hstored
    · exact fun _ _ => trivial
  intro _ w₆ g₆ _ _
  exact yields_outside fun _ _ _ => trivial

omit [Numerals] [ContentHash] in
theorem yields_revokeBotAppGrant {grantId : JsString} :
    Yields root (revokeBotAppGrant root grantId) w g fun _ _ _ => True := by
  unfold revokeBotAppGrant
  apply yields_bind (Q := fun _ _ _ => True) (yields_outside fun _ _ _ => trivial)
  intro _ w₁ g₁ _ _
  apply yields_bind (Q := fun now w' _ => now ≤ w'.clock) (yields_now fun _ _ _ hw => hw.clock)
  intro now w₂ g₂ _ hnow
  apply yields_bind (Q := fun _ _ _ => True)
  · apply yields_write
    · intro w' hw hsane w'' hrevoke
      obtain ⟨grants, hgrants, rfl⟩ := Option.map_eq_some_iff.1 hrevoke
      refine ⟨?_, ⟨le_rfl, grows_revoke hgrants⟩, rfl, rfl, rfl⟩
      apply hsane.setGrants (hsane.oneLive.revoke hgrants)
      intro hclock
      exact Stored.revoke (isStamp_of_le (hnow.trans hw.clock) hclock) hgrants
    · exact fun _ _ => trivial
  intro _ w₃ g₃ _ _
  exact yields_outside fun _ _ _ => trivial

/-- What may be started keeps the discipline. -/
theorem keeps_of_starts (hmark : RevocationShows) (hdate : IdTellsDate) {t : Op Unit}
    (ht : Starts root t) : (discipline root).Keeps t := by
  cases ht with
  | handle h event => exact Discipline.keeps_of_yields fun w => yields_handle hmark hdate
  | approve grant => exact Discipline.keeps_of_yields fun w => yields_approveBotAppGrant
  | revoke grantId => exact Discipline.keeps_of_yields fun w => yields_revokeBotAppGrant
  | registry registry =>
    apply Discipline.keeps_of_yields (Q := fun _ _ _ => True)
    intro w
    apply yields_write
    · intro w' _ hsane w'' hw''
      obtain rfl := Option.some.inj hw''
      exact ⟨hsane.of_eq rfl rfl rfl rfl fun _ => rfl, ⟨le_rfl, Grows.refl _⟩, rfl, rfl, rfl⟩
    · exact fun _ _ => trivial
  | tick elapsed =>
    apply Discipline.keeps_of_yields (Q := fun _ _ _ => True)
    intro w
    apply yields_write
    · intro w' _ hsane w'' hw''
      obtain rfl := Option.some.inj hw''
      have hlater : w'.clock ≤ w'.clock + elapsed := Nat.le_add_right _ _
      refine ⟨?_, ⟨hlater, Grows.refl _⟩, rfl, rfl, rfl⟩
      refine { oneLive := hsane.oneLive, stored := fun h => hsane.stored (isStamp_of_le hlater h), once := ?_ }
      intro hcalm k
      obtain ⟨hle, hremembered⟩ := hsane.once hcalm k
      exact ⟨hle, fun hpos => (hremembered hpos).later hlater fun e he => .inl he⟩
    · exact fun _ _ => trivial

end

end SignetApp.Bots
