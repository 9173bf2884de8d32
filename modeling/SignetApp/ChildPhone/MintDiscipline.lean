import SignetApp.ChildPhone.Pairing

/-!
# What the attempts keep to

Every task of the hook keeps the discipline, whatever the others do meanwhile. An attempt opens one
offer, an offer is confirmed once, and a confirmation is worth one mint: each earns the permission for
the next.
-/

namespace SignetApp.ChildPhone

open SignetApp.Js
open SignetApp.Discipline (yields_pure yields_throw yields_bind yields_once yields_quiet)
open SignetApp.Family (DeviceClientSlot)

/-- Permissions: to open the offer of an attempt, and to mint for it. -/
abbrev Permits := (ℕ → ℕ) × (ℕ → ℕ)

/-! ## Counts -/

def World.offered (w : World) (n : ℕ) : ℕ := (w.offers.map Prod.fst).count n

def World.open_ (w : World) (n : ℕ) : ℕ := if (w.session.any fun s => s.gen = n) then 1 else 0

def World.burned (w : World) (n : ℕ) : ℕ := (w.confirmed.map fun c => c.session.gen).count n

/-- An attempt opens one offer at most, which is confirmed once at most, for one mint at most. -/
structure Counted (w : World) (permits : Permits) : Prop where
  offered : ∀ n, w.offered n + permits.1 n ≤ if n ≤ w.gen then 1 else 0
  burned : ∀ n, w.burned n + w.open_ n ≤ w.offered n
  minted : ∀ n, w.minted n + permits.2 n ≤ w.burned n
  /-- An attempt that is over was confirmed, and mints no more. -/
  ended : ∀ n ∈ w.ended, 1 ≤ w.burned n ∧ permits.2 n = 0

/-! ## Evolution -/

/-- The slot is on the device. -/
def On (m : Made) (d : Device) : Prop := ∃ s ∈ d.slots, fingerprintOf s = m.fingerprint

/-- How one state may follow another. -/
structure Evolves (w w' : World) : Prop where
  confirmed : ∀ c ∈ w.confirmed, c ∈ w'.confirmed
  passed : ∀ n ∈ w.passed, n ∈ w'.passed
  saved : ∀ n ∈ w.saved, n ∈ w'.saved
  offers : ∀ e ∈ w.offers, e ∈ w'.offers
  ended : ∀ n ∈ w.ended, n ∈ w'.ended
  issued : ∀ f ∈ w.device.issued, f ∈ w'.device.issued
  minted : ∀ n, w.minted n ≤ w'.minted n
  /-- What was made for an attempt that has minted or is over, was made before. -/
  made : ∀ m ∈ w'.made, 1 ≤ w.minted m.gen ∨ m.gen ∈ w.ended → m ∈ w.made
  kept : ∀ m ∈ w.made, m ∈ w'.made
  /-- A slot that went does not come back. -/
  gone : ∀ m ∈ w.made, On m w'.device → On m w.device

theorem Evolves.refl (w : World) : Evolves w w where
  confirmed _ h := h
  passed _ h := h
  saved _ h := h
  offers _ h := h
  ended _ h := h
  issued _ h := h
  minted _ := le_rfl
  made _ h _ := h
  kept _ h := h
  gone _ _ h := h

theorem Evolves.trans {w w' w'' : World} (h : Evolves w w') (h' : Evolves w' w'') : Evolves w w'' where
  confirmed c hc := h'.confirmed c (h.confirmed c hc)
  passed n hn := h'.passed n (h.passed n hn)
  saved n hn := h'.saved n (h.saved n hn)
  offers e he := h'.offers e (h.offers e he)
  ended n hn := h'.ended n (h.ended n hn)
  issued f hf := h'.issued f (h.issued f hf)
  minted n := (h.minted n).trans (h'.minted n)
  made m hm hover := h.made m (h'.made m hm (hover.imp (·.trans (h.minted _)) (h.ended _))) hover
  kept m hm := h'.kept m (h.kept m hm)
  gone m hm hon := h.gone m hm (h'.gone m (h.kept m hm) hon)

/-! ## What an offer has heard and shown -/

section

variable [PairSdk]

variable (heard : List (ℕ × JsString)) (displayed : List Displayed)

/-- The offer has heard of one phone only, and shown the words for it and no others. -/
structure Heard (s : Session) (req : ChildPairRequest) : Prop where
  author : ∀ e ∈ heard, e.1 = s.gen → e.2 = req.clientPubkey
  words : ∀ d ∈ displayed, d.gen = s.gen → d.clientPubkey = req.clientPubkey ∧
    d.words = PairSdk.pairCheckWords s.code req.clientPubkey
  displayed : ∃ d ∈ displayed, d.gen = s.gen

/-- The attempt has heard of nobody. -/
structure Silent (n : ℕ) : Prop where
  heard : ∀ e ∈ heard, e.1 ≠ n
  displayed : ∀ d ∈ displayed, d.gen ≠ n

/-- What holds of a request that an offer has, or has not. -/
def Fits (s : Session) : Prop :=
  match s.request with
  | none => Silent heard displayed s.gen
  | some req => Heard heard displayed s req

/-! ## The device -/

/-- The device knows the slot under the index and label it was made with, and for the client. -/
def Made.KnownTo (m : Made) (d : Device) : Prop :=
  m.fingerprint ∈ d.issued ∧ ∀ s ∈ d.slots, fingerprintOf s = m.fingerprint →
    s.slotIndex = m.slotIndex ∧ s.label = m.label ∧ s.currentPubkey = some (toLowerCase m.clientPubkey)

/-- The slot that is paired was made before. -/
def DependantIdentity.KnownTo (dep : DependantIdentity) (d : Device) : Prop :=
  ∀ c ∈ dep.current, toLowerCase c.secretFingerprint ∈ d.issued

structure Sane (w : World) : Prop where
  codes : (w.offers.map Prod.snd).Nodup
  heard : ∀ e ∈ w.heard, 1 ≤ w.offered e.1
  displayed : ∀ d ∈ w.displayed, 1 ≤ w.offered d.gen
  session : ∀ s ∈ w.session, s.gen = w.gen ∧ (s.gen, s.code) ∈ w.offers ∧ s.dep.KnownTo w.device ∧
    Fits w.heard w.displayed s
  confirmed : ∀ c ∈ w.confirmed, (c.session.gen, c.session.code) ∈ w.offers ∧
    c.session.dep.KnownTo w.device ∧ c.session.request = some c.request ∧
    Heard w.heard w.displayed c.session c.request
  passed : ∀ n ∈ w.passed, n ≤ w.gen ∧ n ∉ w.cancelled
  cancelled : ∀ n ∈ w.cancelled, n < w.gen
  issued : ∀ s ∈ w.device.slots, fingerprintOf s ∈ w.device.issued
  made : ∀ m ∈ w.made, 1 ≤ w.minted m.gen ∧ m.KnownTo w.device

def Invariant (w : World) (permits : Permits) : Prop := Sane w ∧ Counted w permits

/-! ## What an action may be done for -/

structure MintAllowed (w : World) (call : MintCall) : Prop where
  confirmed : call.confirmation ∈ w.confirmed
  offer : (call.confirmation.session.gen, call.confirmation.session.code) ∈ w.offers
  first : call.confirmation.session.request = some call.confirmation.request
  client : call.request.clientPubkey = call.confirmation.request.clientPubkey
  heard : Heard w.heard w.displayed call.confirmation.session call.confirmation.request
  unexpired : call.confirmation.at_ ≤ call.confirmation.session.expiresAtMs
  young : (call.confirmation.at_ / 1000 : ℕ) - call.confirmation.request.createdAt ≤ pairRequestMaxAge
  notCancelled : call.confirmation.session.gen ∉ w.cancelled
  once : w.minted call.confirmation.session.gen = 0
  under : call.confirmation.session.gen ∉ w.ended

/-- The slot was made by this call. -/
def Action.Makes : Action → Made → Prop
  | .mint call, m => m.gen = call.confirmation.session.gen ∧ m.clientPubkey = call.request.clientPubkey
  | _, _ => False

/-- What holds of an action. An attempt that is over, and has neither saved the dependant nor said that it
cannot tell, has left no slot. -/
def Sound (w : World) : Action → World → Prop
  | .mint call, w' => MintAllowed w call ∧ 1 ≤ w'.minted call.confirmation.session.gen
  | .save s, _ => ∀ p ∈ s.minted, (verifyMintedSlot p.1 p.2).isSome = true ∧ s.dep.current = some p.2.slot
  | .revoke r, _ => r.gen ∈ w.saved ∨ isSameSlot r.slot r.current = false
  | .ends n state, w' => n ∈ w'.ended ∧ (n ∉ w'.saved → state ≠ .error .mintUnconfirmed →
      ∀ m ∈ w'.made, m.gen = n → ¬ On m w'.device)
  | _, _ => True

structure Guarantee (w : World) (a : Action) (w' : World) : Prop where
  sound : Sound w a w'
  made : ∀ m ∈ w'.made, m ∈ w.made ∨ a.Makes m

variable {m : Made}

omit [PairSdk] in
theorem Action.makes_iff {a : Action} : a.Makes m ↔ ∃ call, a.mintCall = some call ∧
    m.gen = call.confirmation.session.gen ∧ m.clientPubkey = call.request.clientPubkey := by
  cases a <;> simp [Action.Makes, Action.mintCall]

variable {w' : World}

theorem Sound.guarantee {w : World} {a : Action} (h : Sound w a w') (hmade : w'.made = w.made) :
    Guarantee w a w' := by
  refine { sound := h, made := fun m hm => ?_ }
  rw [hmade] at hm
  exact .inl hm

def discipline : Discipline Action World Permits where
  Inv := Invariant
  Evolves := Evolves
  Guarantee := Guarantee
  refl := Evolves.refl
  trans := Evolves.trans
  drop := by
    intro w g h hinv
    obtain ⟨hsane, hcounted⟩ := hinv
    refine ⟨hsane, { offered := fun n => ?_, burned := hcounted.burned, minted := fun n => ?_
                     ended := fun n hn => ?_ }⟩
    · have hoffered := hcounted.offered n
      rw [Prod.fst_add, Pi.add_apply] at hoffered
      omega
    · have hminted := hcounted.minted n
      rw [Prod.snd_add, Pi.add_apply] at hminted
      omega
    · obtain ⟨hburned, hended⟩ := hcounted.ended n hn
      rw [Prod.snd_add, Pi.add_apply] at hended
      exact ⟨hburned, by omega⟩

abbrev Yields {α : Type} (t : Op α) (w : World) (g : Permits) (Q : α → World → Permits → Prop) : Prop :=
  discipline.Yields t w g Q

/-! ## Steps of the hook -/

variable {w : World} {g : Permits}

theorem Invariant.setScreen (h : Invariant w g) (screen : ChildPairingState) :
    Invariant { w with screen } g :=
  ⟨{ h.1 with }, { h.2 with }⟩

theorem Invariant.setState (h : Invariant w g) (n : ℕ) (state : ChildPairingState) :
    Invariant (w.setState n state) g := by
  unfold World.setState
  split
  · exact h.setScreen state
  · exact h

omit [PairSdk] in
theorem evolves_setState (w : World) (n : ℕ) (state : ChildPairingState) : Evolves w (w.setState n state) := by
  unfold World.setState
  split
  · exact { Evolves.refl w with }
  · exact Evolves.refl w

theorem Invariant.close (h : Invariant w g) : Invariant { w with session := none } g := by
  obtain ⟨hsane, hcounted⟩ := h
  refine ⟨{ hsane with session := ?_ }, { hcounted with burned := ?_ }⟩
  · intro s hs
    cases hs
  · intro n
    exact (Nat.le_add_right _ _).trans (hcounted.burned n)

theorem Invariant.restart (h : Invariant w g) (state : ChildPairingState) :
    Invariant (w.restart state) g := by
  obtain ⟨hsane, hcounted⟩ := h
  refine ⟨{ hsane with session := ?_, passed := ?_, cancelled := ?_ },
    { hcounted with offered := ?_, burned := ?_ }⟩
  · intro s hs
    cases hs
  · intro n hn
    obtain ⟨hle, hnot⟩ := hsane.passed n hn
    refine ⟨hle.trans (Nat.le_succ _), ?_⟩
    show n ∉ if w.gen ∈ w.passed then w.cancelled else w.gen :: w.cancelled
    split
    · exact hnot
    · next hgen =>
      rw [List.mem_cons, not_or]
      exact ⟨fun heq => hgen (heq ▸ hn), hnot⟩
  · intro n hn
    have hmem : n ∈ if w.gen ∈ w.passed then w.cancelled else w.gen :: w.cancelled := hn
    split at hmem
    · exact (hsane.cancelled n hmem).trans (Nat.lt_succ_self _)
    · rcases List.mem_cons.1 hmem with rfl | hmem
      · exact Nat.lt_succ_self _
      · exact (hsane.cancelled n hmem).trans (Nat.lt_succ_self _)
  · intro n
    show w.offered n + g.1 n ≤ if n ≤ w.gen + 1 then 1 else 0
    have hoffered := hcounted.offered n
    split_ifs at hoffered ⊢ <;> omega
  · intro n
    exact (Nat.le_add_right _ _).trans (hcounted.burned n)

omit [PairSdk] in
theorem evolves_restart (w : World) (state : ChildPairingState) : Evolves w (w.restart state) :=
  { Evolves.refl w with }

omit [PairSdk] in
theorem Counted.earn (h : Counted w' g) (hnew : w'.offered w'.gen = 0)
    (hpermits : g.1 w'.gen = 0) : Counted w' ((Pi.single w'.gen 1, 0) + g) := by
  refine { offered := fun n => ?_, burned := h.burned, minted := fun n => ?_, ended := fun n hn => ?_ }
  · show w'.offered n + ((Pi.single w'.gen 1 : ℕ → ℕ) n + g.1 n) ≤ _
    by_cases hn : n = w'.gen
    · subst hn
      rw [Pi.single_eq_same, hnew, hpermits, if_pos le_rfl]
    · rw [Pi.single_eq_of_ne hn, Nat.zero_add]
      exact h.offered n
  · show w'.minted n + (0 + g.2 n) ≤ _
    rw [Nat.zero_add]
    exact h.minted n
  · show 1 ≤ w'.burned n ∧ 0 + g.2 n = 0
    rw [Nat.zero_add]
    exact h.ended n hn

variable {n : ℕ}

theorem Sane.silent (h : Sane w) (hnone : w.offered n = 0) : Silent w.heard w.displayed n := by
  refine { heard := ?_, displayed := ?_ }
  · rintro e he rfl
    have hoffered := h.heard e he
    omega
  · rintro d hd rfl
    have hoffered := h.displayed d hd
    omega

theorem Sane.offered_session (h : Sane w) {s : Session} (hs : w.session = some s) :
    1 ≤ w.offered s.gen := by
  apply List.one_le_count_iff.2
  exact List.mem_map_of_mem (h.session s hs).2.1

theorem Invariant.unconfirmed (h : Invariant w g) {s : Session} (hs : w.session = some s)
    {c : Confirmation} (hc : c ∈ w.confirmed) : c.session.gen ≠ s.gen := by
  intro heq
  have hburned : 1 ≤ w.burned s.gen := by
    apply List.one_le_count_iff.2
    exact List.mem_map.2 ⟨c, hc, heq⟩
  have hopen : w.open_ s.gen = 1 := by
    unfold World.open_
    rw [hs]
    simp
  have hcount := h.2.burned s.gen
  have hoffered := h.2.offered s.gen
  split_ifs at hoffered <;> omega

/-- **An attempt that may, opens its offer.** -/
theorem Invariant.openSession {s : Session} (h : Invariant w ((Pi.single s.gen 1, 0) + g))
    (hdep : s.dep.KnownTo w.device) (hok : (w.openSession s).1 = .ok ()) (hrequest : s.request = none) :
    Invariant (w.openSession s).2 g ∧ Evolves w (w.openSession s).2 := by
  obtain ⟨hsane, hcounted⟩ := h
  unfold World.openSession at hok ⊢
  split at hok
  · cases hok
  · next hcheck =>
    rw [if_neg hcheck]
    rw [not_or, not_ne_iff] at hcheck
    obtain ⟨hgen, hcode⟩ := hcheck
    have hnone : w.offered s.gen = 0 := by
      have hoffered := hcounted.offered s.gen
      rw [Prod.fst_add, Pi.add_apply] at hoffered
      dsimp only at hoffered
      rw [Pi.single_eq_same] at hoffered
      split_ifs at hoffered <;> omega
    have hcount : ∀ n, List.count n (((s.gen, s.code) :: w.offers).map Prod.fst)
        = w.offered n + (Pi.single s.gen 1 : ℕ → ℕ) n := by
      intro n
      rw [List.map_cons, List.count_cons]
      by_cases hn : n = s.gen
      · subst hn
        simp [World.offered]
      · rw [Pi.single_eq_of_ne hn]
        simp [World.offered, Ne.symm hn]
    refine ⟨⟨{ hsane with codes := ?_, heard := ?_, displayed := ?_, session := ?_, confirmed := ?_ },
      { offered := ?_, burned := ?_, minted := ?_, ended := ?_ }⟩,
      { Evolves.refl w with offers := fun e he => List.mem_cons_of_mem _ he }⟩
    · rw [List.map_cons, List.nodup_cons]
      exact ⟨hcode, hsane.codes⟩
    · intro e he
      show 1 ≤ List.count _ _
      rw [hcount]
      exact (hsane.heard e he).trans (Nat.le_add_right _ _)
    · intro d hd
      show 1 ≤ List.count _ _
      rw [hcount]
      exact (hsane.displayed d hd).trans (Nat.le_add_right _ _)
    · intro s' hs'
      obtain rfl := Option.some.inj hs'
      refine ⟨hgen.symm, List.mem_cons_self, hdep, ?_⟩
      unfold Fits
      rw [hrequest]
      exact hsane.silent hnone
    · intro c hc
      obtain ⟨hoffer, hfits⟩ := hsane.confirmed c hc
      exact ⟨List.mem_cons_of_mem _ hoffer, hfits⟩
    · intro n
      show List.count n _ + g.1 n ≤ _
      rw [hcount, Nat.add_assoc]
      exact hcounted.offered n
    · intro n
      show w.burned n + (if ((some s).any fun s => s.gen = n) then 1 else 0) ≤ List.count n _
      rw [hcount]
      have hburned := hcounted.burned n
      by_cases hn : n = s.gen
      · subst hn
        simp
        omega
      · rw [Pi.single_eq_of_ne hn]
        simp [Ne.symm hn]
        omega
    · intro n
      have hminted := hcounted.minted n
      rw [Prod.snd_add, Pi.add_apply] at hminted
      show w.minted n + g.2 n ≤ w.burned n
      dsimp only at hminted
      rw [Pi.zero_apply] at hminted
      omega
    · intro n hn
      obtain ⟨hburned, hended⟩ := hcounted.ended n hn
      rw [Prod.snd_add, Pi.add_apply] at hended
      exact ⟨hburned, by omega⟩

theorem Heard.cons {heard : List (ℕ × JsString)} {displayed : List Displayed} {s : Session}
    {req : ChildPairRequest} (h : Heard heard displayed s req) {n : ℕ} (hn : s.gen ≠ n) (author : JsString)
    (shown : List Displayed) (hshown : ∀ d ∈ shown, d.gen = n) :
    Heard ((n, author) :: heard) (shown ++ displayed) s req := by
  refine { author := ?_, words := ?_, displayed := ?_ }
  · intro e he hgen
    rcases List.mem_cons.1 he with rfl | he
    · exact absurd hgen.symm hn
    · exact h.author e he hgen
  · intro d hd hgen
    rcases List.mem_append.1 hd with hd | hd
    · exact absurd (hgen.symm.trans (hshown d hd)) hn
    · exact h.words d hd hgen
  · obtain ⟨d, hd, hgen⟩ := h.displayed
    exact ⟨d, List.mem_append_right _ hd, hgen⟩

/-- **A request is heard.** -/
theorem Invariant.hear (h : Invariant w g) (s : Session) (req : ChildPairRequest) :
    Invariant (w.hear s req) g ∧ Evolves w (w.hear s req) := by
  have hsane := h.1
  have hcounted := h.2
  unfold World.hear
  cases hsession : w.session with
  | none => exact ⟨h, Evolves.refl w⟩
  | some s' =>
    dsimp only
    split
    · exact ⟨h, Evolves.refl w⟩
    obtain ⟨hgen, hoffer, hdep, hfits⟩ := hsane.session s' hsession
    have hoffered := hsane.offered_session hsession
    have hheard : ∀ e ∈ (s'.gen, req.clientPubkey) :: w.heard, 1 ≤ w.offered e.1 := by
      intro e he
      rcases List.mem_cons.1 he with rfl | he
      · exact hoffered
      · exact hsane.heard e he
    have hothers : ∀ (shown : List Displayed), (∀ d ∈ shown, d.gen = s'.gen) → ∀ c ∈ w.confirmed,
        Heard ((s'.gen, req.clientPubkey) :: w.heard) (shown ++ w.displayed) c.session c.request := by
      intro shown hshown c hc
      exact (hsane.confirmed c hc).2.2.2.cons (h.unconfirmed hsession hc) _ shown hshown
    unfold Fits at hfits
    split
    · next hrequest =>
      rw [hrequest] at hfits
      refine ⟨?_, Evolves.trans ?_ (evolves_setState _ _ _)⟩
      swap
      · exact { Evolves.refl w with }
      apply Invariant.setState
      refine ⟨{ hsane with heard := hheard, displayed := ?_, session := ?_, confirmed := ?_ },
        { hcounted with burned := ?_ }⟩
      · intro d hd
        rcases List.mem_cons.1 hd with rfl | hd
        · exact hoffered
        · exact hsane.displayed d hd
      · intro s'' hs''
        obtain rfl := Option.some.inj hs''
        refine ⟨hgen, hoffer, hdep, { author := ?_, words := ?_, displayed := ⟨_, List.mem_cons_self, rfl⟩ }⟩
        · intro e he heq
          rcases List.mem_cons.1 he with rfl | he
          · rfl
          · exact absurd heq (hfits.heard e he)
        · intro d hd heq
          rcases List.mem_cons.1 hd with rfl | hd
          · exact ⟨rfl, rfl⟩
          · exact absurd heq (hfits.displayed d hd)
      · intro c hc
        obtain ⟨hmem, hknown, heq, -⟩ := hsane.confirmed c hc
        refine ⟨hmem, hknown, heq, hothers [_] ?_ c hc⟩
        intro d hd
        rw [List.mem_singleton.1 hd]
      · intro n
        have hburned := hcounted.burned n
        unfold World.open_ at hburned
        rw [hsession] at hburned
        exact hburned
    · next first hrequest =>
      rw [hrequest] at hfits
      have hconfirmed : ∀ c ∈ w.confirmed, (c.session.gen, c.session.code) ∈ w.offers ∧
          c.session.dep.KnownTo w.device ∧ c.session.request = some c.request ∧
          Heard ((s'.gen, req.clientPubkey) :: w.heard) w.displayed c.session c.request := by
        intro c hc
        obtain ⟨hmem, hknown, heq, -⟩ := hsane.confirmed c hc
        exact ⟨hmem, hknown, heq, hothers [] (fun _ hd => by cases hd) c hc⟩
      split
      · next hsame =>
        refine ⟨⟨{ hsane with heard := hheard, session := ?_, confirmed := hconfirmed },
          { hcounted with burned := ?_ }⟩, { Evolves.refl w with }⟩
        swap
        · intro n
          have hburned := hcounted.burned n
          unfold World.open_ at hburned
          rw [hsession] at hburned
          exact hburned
        intro s'' hs''
        obtain rfl := Option.some.inj hs''
        refine ⟨hgen, hoffer, hdep, ?_⟩
        unfold Fits
        rw [hrequest]
        refine { hfits with author := ?_ }
        intro e he heq
        rcases List.mem_cons.1 he with rfl | he
        · exact hsame
        · exact hfits.author e he heq
      · refine ⟨?_, Evolves.trans ?_ (evolves_setState _ _ _)⟩
        swap
        · exact { Evolves.refl w with }
        apply Invariant.setState
        refine ⟨{ hsane with heard := hheard, session := ?_, confirmed := hconfirmed },
          { hcounted with burned := ?_ }⟩
        · intro s'' hs''
          cases hs''
        · intro n
          exact (Nat.le_add_right _ _).trans (hcounted.burned n)

/-- **A confirmation is worth one mint.** -/
theorem Invariant.confirm (h : Invariant w g) {s : Session} (hs : w.session = some s)
    {req : ChildPairRequest} (hrequest : s.request = some req) (at_ : ℕ) :
    Invariant { w with session := none, confirmed := ⟨s, req, at_⟩ :: w.confirmed }
      ((0, Pi.single s.gen 1) + g) ∧
    Evolves w { w with session := none, confirmed := ⟨s, req, at_⟩ :: w.confirmed } := by
  obtain ⟨hsane, hcounted⟩ := h
  obtain ⟨hgen, hoffer, hdep, hfits⟩ := hsane.session s hs
  unfold Fits at hfits
  rw [hrequest] at hfits
  have hburned : ∀ n, List.count n ((Confirmation.mk s req at_ :: w.confirmed).map fun c => c.session.gen)
      = w.burned n + (Pi.single s.gen 1 : ℕ → ℕ) n := by
    intro n
    rw [List.map_cons, List.count_cons]
    by_cases hn : n = s.gen
    · subst hn
      simp [World.burned]
    · rw [Pi.single_eq_of_ne hn]
      simp [World.burned, Ne.symm hn]
  refine ⟨⟨{ hsane with session := ?_, confirmed := ?_ },
      { offered := ?_, burned := ?_, minted := ?_, ended := ?_ }⟩,
    { Evolves.refl w with confirmed := fun c hc => List.mem_cons_of_mem _ hc }⟩
  · intro s' hs'
    cases hs'
  · intro c hc
    rcases List.mem_cons.1 hc with rfl | hc
    · exact ⟨hoffer, hdep, hrequest, hfits⟩
    · exact hsane.confirmed c hc
  · intro n
    show w.offered n + (0 + g.1 n) ≤ _
    rw [Nat.zero_add]
    exact hcounted.offered n
  · intro n
    show List.count n _ + 0 ≤ w.offered n
    rw [hburned]
    have hcount := hcounted.burned n
    unfold World.open_ at hcount
    rw [hs] at hcount
    by_cases hn : n = s.gen
    · subst hn
      simpa using hcount
    · rw [Pi.single_eq_of_ne hn]
      simpa [Ne.symm hn] using hcount
  · intro n
    show w.minted n + ((Pi.single s.gen 1 : ℕ → ℕ) n + g.2 n) ≤ List.count n _
    rw [hburned]
    have hminted := hcounted.minted n
    omega
  · intro n hn
    obtain ⟨hover, hended⟩ := hcounted.ended n hn
    -- The offer was open, so its attempt was not over.
    have hne : n ≠ s.gen := by
      rintro rfl
      have hcount := hcounted.burned s.gen
      have hoffered := hcounted.offered s.gen
      unfold World.open_ at hcount
      rw [hs] at hcount
      simp only [Option.any_some, decide_true, if_true] at hcount
      split_ifs at hoffered <;> omega
    refine ⟨?_, ?_⟩
    · show 1 ≤ List.count n _
      rw [hburned]
      exact hover.trans (Nat.le_add_right _ _)
    · show (Pi.single s.gen 1 : ℕ → ℕ) n + g.2 n = 0
      rw [Pi.single_eq_of_ne hne, hended]

theorem Invariant.lastLook (h : Invariant w g) :
    Invariant { w with passed := w.gen :: w.passed } g ∧
    Evolves w { w with passed := w.gen :: w.passed } := by
  obtain ⟨hsane, hcounted⟩ := h
  refine ⟨⟨{ hsane with passed := ?_ }, { hcounted with }⟩,
    { Evolves.refl w with passed := fun n hn => List.mem_cons_of_mem _ hn }⟩
  intro n hn
  rcases List.mem_cons.1 hn with rfl | hn
  · exact ⟨le_rfl, fun hcancelled => lt_irrefl _ (hsane.cancelled _ hcancelled)⟩
  · exact hsane.passed n hn

/-! ## Steps of the device -/

/-- Slots may go and new ones come, but none changes its name, label or client. -/
structure Undisturbed (d d' : Device) : Prop where
  issued : ∀ f ∈ d.issued, f ∈ d'.issued
  known : ∀ s ∈ d'.slots, fingerprintOf s ∈ d'.issued
  slots : ∀ s ∈ d'.slots, fingerprintOf s ∈ d.issued → ∃ s₀ ∈ d.slots, (refOf s).same (refOf s₀) = true ∧
    s.label = s₀.label ∧ s.currentPubkey = s₀.currentPubkey

omit [PairSdk] in
theorem same_iff {s s' : DeviceClientSlot} : (refOf s).same (refOf s') = true ↔
    s.slotIndex = s'.slotIndex ∧ fingerprintOf s = fingerprintOf s' := by
  unfold SlotRef.same
  rw [Bool.and_eq_true, decide_eq_true_eq, decide_eq_true_eq]
  rfl

variable {d : Device}

omit [PairSdk] in
theorem Undisturbed.gone {d' : Device} (h : Undisturbed d d') (hm : m.fingerprint ∈ d.issued)
    (hon : On m d') : On m d := by
  obtain ⟨s, hs, hfp⟩ := hon
  obtain ⟨s₀, hs₀, hsame, -⟩ := h.slots s hs (hfp ▸ hm)
  exact ⟨s₀, hs₀, (same_iff.1 hsame).2.symm.trans hfp⟩

omit [PairSdk] in
theorem Undisturbed.knownTo {d' : Device} (h : Undisturbed d d') (hm : m.KnownTo d) :
    m.KnownTo d' := by
  refine ⟨h.issued _ hm.1, ?_⟩
  intro s hs hfp
  obtain ⟨s₀, hs₀, hsame, hlabel, hclient⟩ := h.slots s hs (hfp ▸ hm.1)
  obtain ⟨hindex, hfingerprint⟩ := same_iff.1 hsame
  rw [hindex, hlabel, hclient]
  exact hm.2 s₀ hs₀ (hfingerprint.symm.trans hfp)

theorem Invariant.setDevice (h : Invariant w g) (hd : Undisturbed w.device d) :
    Invariant { w with device := d } g ∧ Evolves w { w with device := d } := by
  refine ⟨⟨{ h.1 with session := ?_, confirmed := ?_, issued := hd.known, made := ?_ }, { h.2 with }⟩,
    { Evolves.refl w with issued := hd.issued, gone := ?_ }⟩
  · intro s hs
    obtain ⟨hgen, hoffer, hdep, hfits⟩ := h.1.session s hs
    exact ⟨hgen, hoffer, fun c hc => hd.issued _ (hdep c hc), hfits⟩
  · intro c hc
    obtain ⟨hoffer, hdep, hfits⟩ := h.1.confirmed c hc
    exact ⟨hoffer, fun x hx => hd.issued _ (hdep x hx), hfits⟩
  · intro m hm
    obtain ⟨hminted, hknown⟩ := h.1.made m hm
    exact ⟨hminted, hd.knownTo hknown⟩
  · intro m hm hon
    exact hd.gone (h.1.made m hm).2.1 hon

variable (H : Heartwood)

omit [PairSdk] in
theorem undisturbed_move (c : H.Choice) (d : Device) : Undisturbed d (H.move c d) := by
  obtain ⟨hissued, hslots⟩ := H.move_spec c d
  exact { issued := hissued, known := fun s hs => (hslots s hs).1, slots := fun s hs => (hslots s hs).2 }

theorem undisturbed_revoke (hsane : Sane w) (c : H.Choice) (slot : SlotRef) :
    Undisturbed w.device (H.revoke c slot w.device).2 := by
  obtain ⟨hissued, hslots, -⟩ := H.revoke_spec c slot w.device
  refine { issued := ?_, known := ?_, slots := ?_ }
  · rw [hissued]
    exact fun _ hf => hf
  · rw [hissued]
    exact fun s hs => hsane.issued s (hslots s hs)
  · exact fun s hs _ => ⟨s, hslots s hs, same_iff.2 ⟨rfl, rfl⟩, rfl, rfl⟩

/-- What a call of `nostrconnectV2` leaves: no slot and no reply, or one that the reply names. -/
theorem mint_cases (hsane : Sane w) (call : MintCall) (c : H.Choice) :
    w.mint H call c = (.ok none, { w with
      minted := w.minted + Pi.single call.confirmation.session.gen 1 }) ∨
    ∃ (s : DeviceClientSlot) (reply : Option MintReply), MadeFor call.request w.device s ∧
      (∀ r ∈ reply, r.Names s) ∧
      w.mint H call c = (.ok reply, { w with
        minted := w.minted + Pi.single call.confirmation.session.gen 1
        device := ⟨w.device.slots ++ [s], fingerprintOf s :: w.device.issued⟩
        made := w.made ++ [⟨call.confirmation.session.gen, s.slotIndex, fingerprintOf s, call.request.label,
          call.request.clientPubkey⟩] }) := by
  have hold : w.device.slots.filter (fun s => fingerprintOf s ∉ w.device.issued) = [] := by
    apply List.filter_eq_nil_iff.2
    intro s hs
    simp [hsane.issued s hs]
  unfold World.mint
  dsimp only
  split
  · exact .inl rfl
  rcases H.mint_spec c call.request w.device with ⟨hdevice, e, hreply⟩ | ⟨s, hmade, hdevice, hnames⟩
  · left
    rw [hreply, hdevice, hold, List.map_nil, List.append_nil]
  · right
    have hnew : (w.device.slots ++ [s]).filter (fun s => fingerprintOf s ∉ w.device.issued) = [s] := by
      rw [List.filter_append, hold]
      simp [hmade.fresh]
    rw [hdevice]
    dsimp only
    rw [hnew]
    cases hreply : (H.mint c call.request w.device).1 with
    | ok r =>
      refine ⟨s, some r, hmade, ?_, rfl⟩
      intro r' hr'
      obtain rfl := Option.some.inj hr'
      exact hnames r hreply
    | error e => exact ⟨s, none, hmade, fun r hr => (by cases hr), rfl⟩

theorem mint_makes (hsane : Sane w) (call : MintCall) (c : H.Choice) :
    ∀ m ∈ (w.mint H call c).2.made, m ∈ w.made ∨ (Action.mint call).Makes m := by
  intro m hm
  rcases mint_cases H hsane call c with heq | ⟨s, reply, -, -, heq⟩
  · rw [heq] at hm
    exact .inl hm
  · rw [heq] at hm
    rcases List.mem_append.1 hm with hm | hm
    · exact .inl hm
    · rw [List.mem_singleton.1 hm]
      exact .inr ⟨rfl, rfl⟩

omit [PairSdk] in
theorem Counted.spend (h : Counted w ((0, Pi.single n 1) + g))
    (hw : w' = { w with minted := w.minted + Pi.single n 1 }) : Counted w' g := by
  subst hw
  refine { offered := fun k => ?_, burned := h.burned, minted := fun k => ?_, ended := fun k hk => ?_ }
  · have hoffered := h.offered k
    rw [Prod.fst_add, Pi.add_apply] at hoffered
    exact (Nat.add_le_add_left (Nat.le_add_left _ _) _).trans hoffered
  · have hminted := h.minted k
    rw [Prod.snd_add, Pi.add_apply] at hminted
    show w.minted k + (Pi.single n 1 : ℕ → ℕ) k + g.2 k ≤ w.burned k
    dsimp only at hminted
    omega
  · obtain ⟨hburned, hended⟩ := h.ended k hk
    rw [Prod.snd_add, Pi.add_apply] at hended
    exact ⟨hburned, by omega⟩

omit [PairSdk] in
theorem Counted.unminted (h : Counted w ((0, Pi.single n 1) + g)) : w.minted n = 0 := by
  have hminted := h.minted n
  have hburned := h.burned n
  have hoffered := h.offered n
  rw [Prod.snd_add, Pi.add_apply] at hminted
  dsimp only at hminted
  rw [Pi.single_eq_same] at hminted
  split_ifs at hoffered <;> omega

omit [PairSdk] in
theorem Counted.under (h : Counted w ((0, Pi.single n 1) + g)) : n ∉ w.ended := by
  intro hn
  have hended := (h.ended n hn).2
  rw [Prod.snd_add, Pi.add_apply] at hended
  dsimp only at hended
  rw [Pi.single_eq_same] at hended
  omega

omit [PairSdk] in
theorem Counted.alone (h : Counted w ((0, Pi.single n 1) + g)) : 1 ≤ w.burned n ∧ g.2 n = 0 := by
  have hminted := h.minted n
  have hburned := h.burned n
  have hoffered := h.offered n
  rw [Prod.snd_add, Pi.add_apply] at hminted
  dsimp only at hminted
  rw [Pi.single_eq_same] at hminted
  split_ifs at hoffered <;> omega

omit [PairSdk] in
theorem Counted.done (h : Counted w g) (hminted : 1 ≤ w.minted n) : 1 ≤ w.burned n ∧ g.2 n = 0 := by
  have hcount := h.minted n
  have hburned := h.burned n
  have hoffered := h.offered n
  split_ifs at hoffered <;> omega

theorem Invariant.over (h : Invariant w g) (hover : 1 ≤ w.burned n ∧ g.2 n = 0) :
    Invariant { w with ended := n :: w.ended } g := by
  refine ⟨{ h.1 with }, { h.2 with ended := ?_ }⟩
  intro m hm
  rcases List.mem_cons.1 hm with rfl | hm
  · exact hover
  · exact h.2.ended m hm

/-- **A mint spends its permission**, and makes at most the slot that its reply names. -/
theorem Invariant.mint {call : MintCall}
    (h : Invariant w ((0, Pi.single call.confirmation.session.gen 1) + g)) (c : H.Choice) :
    Invariant (w.mint H call c).2 g ∧ Evolves w (w.mint H call c).2 ∧
      1 ≤ (w.mint H call c).2.minted call.confirmation.session.gen ∧
      ∃ reply, (w.mint H call c).1 = .ok reply ∧
        (∀ r ∈ reply, ∀ f ∈ r.secretFingerprint, toLowerCase f ∉ w.device.issued) ∧
        ∀ m ∈ (w.mint H call c).2.made, m.gen = call.confirmation.session.gen →
          m.label = call.request.label ∧ m.clientPubkey = call.request.clientPubkey ∧
          m.fingerprint ∉ w.device.issued ∧
          ∀ r ∈ reply, (∀ i ∈ r.slotIndex, i = m.slotIndex) ∧
            ∀ f ∈ r.secretFingerprint, toLowerCase f = m.fingerprint := by
  obtain ⟨hsane, hcounted⟩ := h
  have hunminted := hcounted.unminted
  have hunder := hcounted.under
  have hnone : ∀ m ∈ w.made, m.gen ≠ call.confirmation.session.gen := by
    intro m hm hgen
    have hminted := (hsane.made m hm).1
    rw [hgen, hunminted] at hminted
    exact absurd hminted (by decide)
  have hmore : ∀ k, w.minted k ≤ (w.minted + Pi.single call.confirmation.session.gen 1 : ℕ → ℕ) k :=
    fun k => Nat.le_add_right _ _
  have hone : 1 ≤ (w.minted + Pi.single call.confirmation.session.gen 1 : ℕ → ℕ)
      call.confirmation.session.gen := by
    rw [Pi.add_apply, Pi.single_eq_same]
    exact Nat.le_add_left _ _
  rcases mint_cases H hsane call c with heq | ⟨s, reply, hmade, hnames, heq⟩
  · rw [heq]
    refine ⟨⟨{ hsane with made := ?_ }, hcounted.spend rfl⟩, { Evolves.refl w with minted := hmore }, hone,
      none, rfl, fun r hr => (by cases hr), fun m hm hgen => absurd hgen (hnone m hm)⟩
    intro m hm
    obtain ⟨hminted, hknown⟩ := hsane.made m hm
    exact ⟨hminted.trans (hmore _), hknown⟩
  · rw [heq]
    have hadd : Undisturbed w.device ⟨w.device.slots ++ [s], fingerprintOf s :: w.device.issued⟩ := by
      refine { issued := fun f hf => List.mem_cons_of_mem _ hf, known := ?_, slots := ?_ }
      · intro x hx
        rcases List.mem_append.1 hx with hx | hx
        · exact List.mem_cons_of_mem _ (hsane.issued x hx)
        · rw [List.mem_singleton.1 hx]
          exact List.mem_cons_self
      · intro x hx hfp
        rcases List.mem_append.1 hx with hx | hx
        · exact ⟨x, hx, same_iff.2 ⟨rfl, rfl⟩, rfl, rfl⟩
        · rw [List.mem_singleton.1 hx] at hfp
          exact absurd hfp hmade.fresh
    refine ⟨⟨{ hsane with session := ?_, confirmed := ?_, issued := hadd.known, made := ?_ },
        { hcounted.spend rfl with }⟩,
      { Evolves.refl w with issued := hadd.issued, minted := hmore, made := ?_, kept := ?_, gone := ?_ },
      hone, reply, rfl, ?_, ?_⟩
    · intro s' hs'
      obtain ⟨hgen, hoffer, hdep, hfits⟩ := hsane.session s' hs'
      exact ⟨hgen, hoffer, fun x hx => hadd.issued _ (hdep x hx), hfits⟩
    · intro c' hc'
      obtain ⟨hoffer, hdep, hfits⟩ := hsane.confirmed c' hc'
      exact ⟨hoffer, fun x hx => hadd.issued _ (hdep x hx), hfits⟩
    · intro m hm
      rcases List.mem_append.1 hm with hm | hm
      · obtain ⟨hminted, hknown⟩ := hsane.made m hm
        exact ⟨hminted.trans (hmore _), hadd.knownTo hknown⟩
      · rw [List.mem_singleton.1 hm]
        refine ⟨hone, List.mem_cons_self, ?_⟩
        intro x hx hfp
        rcases List.mem_append.1 hx with hx | hx
        · have hissued := hsane.issued x hx
          rw [hfp] at hissued
          exact absurd hissued hmade.fresh
        · rw [List.mem_singleton.1 hx]
          exact ⟨rfl, hmade.label, hmade.client⟩
    · intro m hm hover
      rcases List.mem_append.1 hm with hm | hm
      · exact hm
      · rw [List.mem_singleton.1 hm] at hover
        dsimp only at hover
        rw [hunminted] at hover
        rcases hover with hpos | hended
        · exact absurd hpos (by decide)
        · exact absurd hended hunder
    · exact fun m hm => List.mem_append_left _ hm
    · exact fun m hm hon => hadd.gone (hsane.made m hm).2.1 hon
    · intro r hr f hf
      rw [(hnames r hr).2 f hf]
      exact hmade.fresh
    · intro m hm hgen
      rcases List.mem_append.1 hm with hm | hm
      · exact absurd hgen (hnone m hm)
      · rw [List.mem_singleton.1 hm]
        exact ⟨rfl, rfl, hmade.fresh, hnames⟩

end

end SignetApp.ChildPhone
