import SignetApp.Pairing.Evolution

/-!
# What the operations guarantee

The discipline every operation keeps, whatever the others do meanwhile: the rows stay tidy, they
only evolve, and each action is well founded in the state it acts in. A signer is called with a
permission its own reservation earned.
-/

namespace SignetApp.Pairing

open SignetApp.Js SignetApp.Contacts

variable [InviteSdk]

abbrev World.receipts (w : World) : List ChildRequestReceipt := entriesOf w.store.inbox
abbrev World.plans (w : World) : List ChildContactExchangePlan := entriesOf w.store.review
abbrev World.executions (w : World) : List ChildContactExecution := entriesOf w.store.execution
abbrev World.replies (w : World) : List ChildContactReplyOutboxEntry := entriesOf w.store.replies

/-- Which operations run on a pairing: the receipt transitions their callers ask for, and whether
replies are only the lifecycle's own. -/
structure Conduct where
  keys : PairingKeys
  transitions : ChildRequestStatus → ChildRequestStatus → Prop
  ownReplies : Prop

/-- The exported operations of one pairing, with any receipt transitions and replies. -/
def PairingKeys.exported (keys : PairingKeys) : Conduct :=
  { keys, transitions := fun _ _ => True, ownReplies := False }

/-! ## The discipline -/

section
variable (C : Conduct)

/-- How one state may follow another. -/
structure Evolves (w w' : World) : Prop where
  receipts : ∀ id a, statusOf w.receipts id = some a →
    ∃ b, statusOf w'.receipts id = some b ∧ Becomes C.transitions a b
  plans : ∀ id p, planOf w.plans id = some p → ∃ q, planOf w'.plans id = some q ∧ Follows p q

/-- The receipt of the request has called for this reply, and has moved on from there at most. -/
def Justified (w : World) (id : Hex32) (status : ChildContactReplyStatus) : Prop :=
  ∃ a b, childReplyForReceipt a = some status ∧ statusOf w.receipts id = some b ∧
    Becomes C.transitions a b

section
variable {C} {w w' w'' : World}

theorem Evolves.refl (w : World) : Evolves C w w :=
  ⟨fun _ a ha => ⟨a, ha, .refl⟩, fun _ p hp => ⟨p, hp, .refl p⟩⟩

theorem Evolves.trans (h : Evolves C w w') (h' : Evolves C w' w'') : Evolves C w w'' := by
  constructor
  · intro id a ha
    obtain ⟨b, hb, hab⟩ := h.receipts id a ha
    obtain ⟨c, hc, hbc⟩ := h'.receipts id b hb
    exact ⟨c, hc, hab.trans hbc⟩
  · intro id p hp
    obtain ⟨q, hq, hpq⟩ := h.plans id p hp
    obtain ⟨r, hr, hqr⟩ := h'.plans id q hq
    exact ⟨r, hr, hpq.trans hqr⟩

theorem Evolves.isSome_status (h : Evolves C w w') {id : Hex32}
    (hs : (statusOf w.receipts id).isSome) : (statusOf w'.receipts id).isSome := by
  obtain ⟨a, ha⟩ := Option.isSome_iff_exists.mp hs
  obtain ⟨b, hb, -⟩ := h.receipts id a ha
  rw [hb]
  rfl

theorem Justified.evolve {id : Hex32} {status : ChildContactReplyStatus}
    (h : Justified C w id status) (hw : Evolves C w w') : Justified C w' id status := by
  obtain ⟨a, b, hreply, hb, hab⟩ := h
  obtain ⟨c, hc, hbc⟩ := hw.receipts id b hb
  exact ⟨a, c, hreply, hc, hab.trans hbc⟩

theorem evolves_of_steps
    (hreceipts : w'.receipts = w.receipts ∨ InboxStep C.transitions w.receipts w'.receipts)
    (hplans : w'.plans = w.plans ∨ ReviewStep w.plans w'.plans) : Evolves C w w' := by
  constructor
  · rcases hreceipts with h | h
    · rw [h]
      exact fun _ a ha => ⟨a, ha, .refl⟩
    · exact h.becomes
  · rcases hplans with h | h
    · rw [h]
      exact fun _ p hp => ⟨p, hp, .refl p⟩
    · exact h.follows

end

variable [Sync.Sha256]

structure Tidy (w : World) : Prop where
  receipts_nodup : (w.receipts.map (·.id)).Nodup
  receipts_length : w.receipts.length ≤ retainLimit
  plans_nodup : (w.plans.map (·.requestId)).Nodup
  plans_received : ∀ p ∈ w.plans, (statusOf w.receipts p.requestId).isSome
  plans_exchange : ∀ p ∈ w.plans, p.exchangeId = exchangeId C.keys p.requestId
  replies_justified : C.ownReplies → ∀ e ∈ w.replies, ∀ r ∈ e.reply, Justified C w e.id r.status

variable [Signatures]

/-- What the arguments of a change satisfy, as its operation checks them. -/
def Change.Argued : Change → Prop
  | expire scope now => scope.toPairingKeys = C.keys ∧ stamp now = true
  | store scope request _ now => scope.toPairingKeys = C.keys ∧ stamp now = true ∧
      childContactRequestInScope request scope = true ∧
      ∃ given raw, parseChildContactRequest raw = some given ∧
        parseChildContactRequest given = some request
  | transition scope _ source target now => scope.toPairingKeys = C.keys ∧ stamp now = true ∧
      ∀ a ∈ source, Moves C.transitions a target
  | review scope plan _ => scope.toPairingKeys = C.keys ∧ acceptsPlan scope plan = true
  | cancelPlan scope _ now => scope.toPairingKeys = C.keys ∧ stamp now = true
  | reserve scope plan _ _ now => scope.toPairingKeys = C.keys ∧ stamp now = true ∧
      plan.exchangeId = exchangeId C.keys plan.requestId
  | recordSigned scope _ event now => scope.toPairingKeys = C.keys ∧ stamp now = true ∧
      parseEvent event = true
  | cancelExecution scope _ now => scope.toPairingKeys = C.keys ∧ stamp now = true
  | queueReply scope requestId event reply relays now _ => scope.toPairingKeys = C.keys ∧
      mayQueueReply scope requestId event reply relays now = .ok ()
  | acknowledge scope _ _ now => scope.toPairingKeys = C.keys ∧ stamp now = true
  | queueRequest scope request _ now => scope.toPairingKeys = C.keys ∧ stamp now = true ∧
      request.client = scope.client ∧ request.guardian = scope.guardian ∧
      ∃ given raw, parseChildContactRequest raw = some given ∧
        parseChildContactRequest given = some request
  | attachEvent scope _ event => scope.toPairingKeys = C.keys ∧
      eventShape event requestPrefix scope.client none = true ∧
      Signatures.verifyEvent event = true
  | saveReply scope receipt => scope.toPairingKeys = C.keys ∧
      acceptsReplyReceipt scope receipt = true

/-- What a change rests on in the rows it is made to. -/
def Change.Grounded (w : World) : Change → Prop
  | review _ plan _ => (statusOf w.receipts plan.requestId).isSome
  | reserve _ plan _ _ _ =>
      ∃ p, planOf w.plans plan.requestId = some p ∧ p.exchangeId = plan.exchangeId
  | queueReply _ requestId _ reply _ _ _ => C.ownReplies → Justified C w requestId reply.status
  | _ => True

/-- What an answer 'go' rests on. -/
def Action.Authorised (plan : ChildContactExchangePlan) (receipt : ChildRequestReceipt) : Prop :=
  plan.exchangeId = exchangeId C.keys plan.requestId ∧ plan.status = .approved ∧
    receipt.id = plan.requestId ∧ (receipt.status = .approved ∨ receipt.status = .completed)

/-- What an action may be done for, and what it does. -/
def Guarantee (w : World) : Action → World → Prop
  | .outside, w' => w' = w
  | .read, w' => w' = w
  | .commit c, w' => c.Argued C ∧ c.Grounded C w ∧ (w' = w ∨ c.apply w = .ok w')
  | .sign plan, w' => w.signed.count plan.exchangeId < w.reserved.count plan.exchangeId ∧
      w' = { w with signed := w.signed ++ [plan.exchangeId] }
  | .publish entry, w' => w' = { w with published := w.published ++ [entry] }
  | .go plan receipt, w' => Action.Authorised C plan receipt ∧ w' = w

/-- Tidy rows, and no more calls of the signer, made or permitted, than reservations. -/
def Invariant (w : World) (permits : Hex32 → ℕ) : Prop :=
  Tidy C w ∧ ∀ x, permits x + w.signed.count x ≤ w.reserved.count x

variable {C} {w w' w'' : World}

variable (C) in
/-- The rely-guarantee argument for the operations of one pairing. -/
def discipline : Discipline Action World (Hex32 → ℕ) where
  Inv := Invariant C
  Evolves := Evolves C
  Guarantee := Guarantee C
  refl := Evolves.refl
  trans := Evolves.trans
  drop := by
    intro w g h hinv
    refine ⟨hinv.1, fun x => ?_⟩
    have := hinv.2 x
    rw [Pi.add_apply] at this
    omega

/-! ## Changes keep the rows tidy -/

/-- Where a plan of the next state comes from. -/
def PlanOrigin (C : Conduct) (w : World) (p : ChildContactExchangePlan) : Prop :=
  (∃ q ∈ w.plans, q.requestId = p.requestId ∧ q.exchangeId = p.exchangeId) ∨
    (statusOf w.receipts p.requestId).isSome ∧ p.exchangeId = exchangeId C.keys p.requestId

/-- Where a queued reply of the next state comes from. -/
def ReplyOrigin (C : Conduct) (w : World) (e : ChildContactReplyOutboxEntry) : Prop :=
  (∃ e' ∈ w.replies, e.id = e'.id ∧ e.reply = e'.reply) ∨
    ∀ r ∈ e.reply, C.ownReplies → Justified C w e.id r.status

omit [Signatures] in
theorem Tidy.step (h : Tidy C w)
    (hreceipts : w'.receipts = w.receipts ∨ InboxStep C.transitions w.receipts w'.receipts)
    (hplans : w'.plans = w.plans ∨ ReviewStep w.plans w'.plans)
    (horigin : ∀ p ∈ w'.plans, PlanOrigin C w p)
    (hreplies : ∀ e ∈ w'.replies, ReplyOrigin C w e) : Tidy C w' ∧ Evolves C w w' := by
  have hw : Evolves C w w' := evolves_of_steps hreceipts hplans
  refine ⟨⟨?_, ?_, ?_, fun p hp => ?_, fun p hp => ?_, fun hown e he r hr => ?_⟩, hw⟩
  · rcases hreceipts with hr | hr
    · rw [hr]
      exact h.receipts_nodup
    · exact hr.nodup
  · rcases hreceipts with hr | hr
    · rw [hr]
      exact h.receipts_length
    · exact hr.length_le
  · rcases hplans with hp | hp
    · rw [hp]
      exact h.plans_nodup
    · exact hp.nodup
  · rcases horigin p hp with ⟨q, hq, hid, -⟩ | ⟨hs, -⟩
    · exact hid ▸ hw.isSome_status (h.plans_received q hq)
    · exact hw.isSome_status hs
  · rcases horigin p hp with ⟨q, hq, hid, hx⟩ | ⟨-, hx⟩
    · rw [← hid, ← hx]
      exact h.plans_exchange q hq
    · exact hx
  · rcases hreplies e he with ⟨e', he', hid, hreply⟩ | hj
    · rw [hid]
      exact (h.replies_justified hown e' he' r (hreply ▸ hr)).evolve hw
    · exact (hj r hr hown).evolve hw

omit [Signatures] in
theorem Tidy.planOrigin (h : Tidy C w) {p : ChildContactExchangePlan} (hp : p ∈ w.plans) :
    PlanOrigin C w p := .inr ⟨h.plans_received p hp, h.plans_exchange p hp⟩

omit [Sync.Sha256] [Signatures] in
theorem replyOrigin_of_mem {e : ChildContactReplyOutboxEntry} (he : e ∈ w.replies) :
    ReplyOrigin C w e := .inl ⟨e, he, rfl, rfl⟩

omit [Signatures] in
theorem Tidy.room (h : Tidy C w) {id : Hex32} (hreceived : (statusOf w.receipts id).isSome)
    (hnew : planOf w.plans id = none) : w.plans.length < retainLimit := by
  have hnodup : (id :: w.plans.map (·.requestId)).Nodup := by
    refine List.nodup_cons.mpr ⟨fun hmem => ?_, h.plans_nodup⟩
    rw [← planOf_isSome_iff, hnew] at hmem
    cases hmem
  have hsub : id :: w.plans.map (·.requestId) ⊆ w.receipts.map (·.id) := by
    intro x hx
    rcases List.mem_cons.mp hx with rfl | hx
    · exact statusOf_isSome_iff.mp hreceived
    · obtain ⟨p, hp, rfl⟩ := List.mem_map.mp hx
      exact statusOf_isSome_iff.mp (h.plans_received p hp)
  have hlen := (List.subperm_of_subset hnodup hsub).length_le
  rw [List.length_cons, List.length_map, List.length_map] at hlen
  have := h.receipts_length
  omega

omit [InviteSdk] [Sync.Sha256] [Signatures] in
theorem Except.map_eq_ok {ε α β : Type} {x : Except ε α} {f : α → β} {b : β}
    (h : x.map f = .ok b) : ∃ a, x = .ok a ∧ f a = b := by
  cases x with
  | error e => cases h
  | ok a => exact ⟨a, rfl, Except.ok.inj h⟩

variable {c : Change}

/-- A change that is argued and grounded keeps the rows tidy, and they evolve. -/
theorem Tidy.apply (h : Tidy C w) (ha : c.Argued C) (hg : c.Grounded C w)
    (happly : c.apply w = .ok w') : Tidy C w' ∧ Evolves C w w' := by
  obtain ⟨s, hs, rfl⟩ := Except.map_eq_ok happly
  have hplans : ∀ p ∈ w.plans, PlanOrigin C w p := fun p hp => h.planOrigin hp
  have hreplies : ∀ e ∈ w.replies, ReplyOrigin C w e := fun e he => replyOrigin_of_mem he
  cases c with
  | expire scope now =>
    obtain ⟨row, hrow, rfl⟩ := Except.map_eq_ok hs
    exact h.step (.inr (inboxStep_expireInbox hrow)) (.inl rfl) hplans hreplies
  | store scope request fingerprint now =>
    obtain ⟨row, hrow, rfl⟩ := Except.map_eq_ok hs
    exact h.step (.inr (inboxStep_storeRequest hrow)) (.inl rfl) hplans hreplies
  | transition scope requestId source target now =>
    obtain ⟨row, hrow, rfl⟩ := Except.map_eq_ok hs
    exact h.step (.inr (transitionReceipt_ok hrow ha.2.2).1) (.inl rfl) hplans hreplies
  | review scope plan settled =>
    obtain ⟨row, hrow, rfl⟩ := Except.map_eq_ok hs
    have hx : plan.exchangeId = exchangeId C.keys plan.requestId := by
      obtain ⟨hkeys, haccepts⟩ := ha
      simp only [acceptsPlan, Bool.and_eq_true, decide_eq_true_eq] at haccepts
      rw [← hkeys]
      exact haccepts.1.1.1.1.1.1.2.symm
    obtain ⟨hstep, -, hentries⟩ := reviewStep_reviewRequest hrow (h.room hg)
    refine h.step (.inl rfl) (.inr hstep) (fun p hp => ?_) hreplies
    have hmem : p ∈ row.entries := hp
    rcases hentries with hentries | ⟨-, hentries⟩
    · rw [hentries] at hmem
      exact hplans p hmem
    · rw [hentries] at hmem
      rcases List.mem_append.mp hmem with hp | hp
      · exact hplans p hp
      · rw [List.mem_singleton.mp hp]
        exact .inr ⟨hg, hx⟩
  | cancelPlan scope requestId now =>
    obtain ⟨row, hrow, rfl⟩ := Except.map_eq_ok hs
    obtain ⟨hstep, -, horigin⟩ := reviewStep_cancelPlan hrow
    exact h.step (.inl rfl) (.inr hstep) (fun p hp => .inl (horigin p hp)) hreplies
  | reserve scope plan plans settled now =>
    obtain ⟨row, -, rfl⟩ := Except.map_eq_ok hs
    exact h.step (.inl rfl) (.inl rfl) hplans hreplies
  | recordSigned scope exchangeId event now =>
    obtain ⟨row, -, rfl⟩ := Except.map_eq_ok hs
    exact h.step (.inl rfl) (.inl rfl) hplans hreplies
  | cancelExecution scope exchangeId now =>
    obtain ⟨row, -, rfl⟩ := Except.map_eq_ok hs
    exact h.step (.inl rfl) (.inl rfl) hplans hreplies
  | queueReply scope requestId event reply relays now replaceUnreconciled =>
    obtain ⟨row, hrow, rfl⟩ := Except.map_eq_ok hs
    refine h.step (.inl rfl) (.inl rfl) hplans fun e he => ?_
    rcases mem_queueReply hrow he with he | rfl
    · exact hreplies e he
    · refine .inr fun r hr hown => ?_
      cases hr
      exact hg hown
  | acknowledge scope id eventId now =>
    obtain ⟨row, hrow, rfl⟩ := Except.map_eq_ok hs
    refine h.step (.inl rfl) (.inl rfl) hplans fun e he => ?_
    obtain ⟨e', he', hid, -, -, hreply⟩ := mem_acknowledgeReply hrow he
    exact .inl ⟨e', he', hid, hreply⟩
  | queueRequest scope request fingerprint now =>
    obtain ⟨row, -, rfl⟩ := Except.map_eq_ok hs
    exact h.step (.inl rfl) (.inl rfl) hplans hreplies
  | attachEvent scope requestId event =>
    obtain ⟨row, -, rfl⟩ := Except.map_eq_ok hs
    exact h.step (.inl rfl) (.inl rfl) hplans hreplies
  | saveReply scope receipt =>
    obtain ⟨row, -, rfl⟩ := Except.map_eq_ok hs
    exact h.step (.inl rfl) (.inl rfl) hplans hreplies

theorem signed_apply (h : c.apply w = .ok w') : w'.signed = w.signed := by
  obtain ⟨s, -, rfl⟩ := Except.map_eq_ok h
  rfl

theorem reserved_apply (h : c.apply w = .ok w') :
    w'.reserved = w.reserved ++ c.reserves w.store := by
  obtain ⟨s, -, rfl⟩ := Except.map_eq_ok h
  rfl

omit [Sync.Sha256] [Signatures] in
theorem reserves_eq (scope : ChildRequestScope) (plan : ChildContactExchangePlan)
    (plans : List ChildContactExchangePlan) (settled : List Hex32) (now : ℤ) (s : Store) :
    (Change.reserve scope plan plans settled now).reserves s = [] ∨
      (Change.reserve scope plan plans settled now).reserves s = [plan.exchangeId] := by
  simp only [Change.reserves]
  split
  · exact .inr rfl
  · exact .inl rfl

/-! ## Rules for the operations -/

variable {α β : Type} {Q : α → World → Prop}

/-- From the state `w` on, the task keeps the discipline, and answers `Q` if it answers. -/
def Ensures (C : Conduct) (t : Op α) (w : World) (Q : α → World → Prop) : Prop :=
  (discipline C).Meets (fun o w' _ => ∀ a, o = .ok a → Q a w') t w 0

theorem Ensures.keeps {t : Op α} (h : ∀ w, Ensures C t w fun _ _ => True) :
    (discipline C).Keeps t := fun w => (h w).mono fun _ _ _ _ _ => trivial

theorem ensures_pure {a : α} (h : ∀ w', Evolves C w w' → Q a w') : Ensures C (pure a) w Q := by
  refine Discipline.meets_done fun w' hw b hb => ?_
  cases hb
  exact h w' hw

theorem ensures_throw {e : String} : Ensures C (throw e) w Q :=
  Discipline.meets_fail fun _ _ _ h => by cases h

theorem meets_of_zero {post : Except String α → World → (Hex32 → ℕ) → Prop} {t : Op α}
    (h : (discipline C).Meets post t w 0) (g : Hex32 → ℕ)
    (hpost : ∀ o w', post o w' 0 → post o w' g) : (discipline C).Meets post t w g := by
  cases t with
  | done a => exact fun w' hw => hpost _ _ (h w' hw)
  | fail e => exact fun w' hw => hpost _ _ (h w' hw)
  | act label run next =>
    intro w' r hw hinv
    exact h w' r hw (by rw [zero_add]; exact (discipline C).drop hinv)

theorem Ensures.mono {t : Op α} {Q' : α → World → Prop} (h : Ensures C t w Q)
    (hQ : ∀ a w', Evolves C w w' → Q a w' → Q' a w') : Ensures C t w Q' :=
  Discipline.Meets.mono h fun _ w' _ hw hq a ha => hQ a w' hw (hq a ha)

theorem ensures_bind {t : Op α} {f : α → Op β} {Q' : β → World → Prop} (h : Ensures C t w Q)
    (hf : ∀ a w', Evolves C w w' → Q a w' → Ensures C (f a) w' Q') : Ensures C (t >>= f) w Q' := by
  have h' : (discipline C).Meets (fun o w' _ => Evolves C w w' ∧ ∀ a, o = .ok a → Q a w') t w 0 :=
    Discipline.Meets.mono h fun _ _ _ hw hq => ⟨hw, hq⟩
  refine Discipline.Meets.bind h' (fun a w' g ha => ?_) fun e w' g _ b hb => by cases hb
  exact meets_of_zero (hf a w' ha.1 (ha.2 a rfl)) g fun _ _ hq => hq

theorem ensures_tryCatch {t : Op α} {handle : String → Op α} (h : Ensures C t w Q)
    (hhandle : ∀ e w', Evolves C w w' → Ensures C (handle e) w' Q) :
    Ensures C (t.tryCatch handle) w Q := by
  have h' : (discipline C).Meets (fun o w' _ => Evolves C w w' ∧ ∀ a, o = .ok a → Q a w') t w 0 :=
    Discipline.Meets.mono h fun _ _ _ hw hq => ⟨hw, hq⟩
  refine Discipline.Meets.tryCatch h' (fun a w' g ha => ha.2) fun e w' g he => ?_
  exact meets_of_zero (hhandle e w' he.1) g fun _ _ hq => hq

theorem ensures_ask (h : ∀ a w', Evolves C w w' → Q a w') : Ensures C (ask α) w Q := by
  refine Discipline.meets_once fun w' r hw hinv c => ⟨rfl, ?_⟩
  refine ⟨Evolves.refl w', 0, hinv, fun w'' hw' a ha => h a w'' ?_⟩
  exact hw.trans hw'

theorem ensures_read {f : Store → α}
    (h : ∀ w', Evolves C w w' → Tidy C w' → ∀ w'', Evolves C w' w'' → Q (f w'.store) w'') :
    Ensures C (read f) w Q := by
  refine Discipline.meets_once fun w' r hw hinv c => ?_
  cases c with
  | some e => exact ⟨rfl, Evolves.refl w', 0, hinv, fun _ _ a ha => by cases ha⟩
  | none =>
    refine ⟨rfl, Evolves.refl w', 0, hinv, fun w'' hw' a ha => ?_⟩
    cases ha
    exact h w' hw hinv.1 w'' hw'

/-- A change may be made where it is argued and grounded. -/
theorem ensures_commit {answer : Store → Store → α} (ha : c.Argued C)
    (hnone : ∀ s, c.reserves s = []) (hg : ∀ w', Evolves C w w' → Tidy C w' → c.Grounded C w')
    (h : ∀ w' w'', Evolves C w w' → c.apply w' = .ok w'' → Evolves C w' w'' →
      ∀ u, Evolves C w'' u → Q (answer w'.store w''.store) u) :
    Ensures C (commit c answer) w Q := by
  refine Discipline.meets_once fun w' r hw hinv interruption => ?_
  have hground : c.Grounded C w' := hg w' hw hinv.1
  cases interruption with
  | some e =>
    refine ⟨⟨ha, hground, .inl rfl⟩, Evolves.refl w', 0, ?_, fun _ _ a ha => by cases ha⟩
    show Invariant C w' (0 + r)
    exact hinv
  | none =>
    cases happly : c.apply w' with
    | error e =>
      simp only [interruptible, happly]
      exact ⟨⟨ha, hground, .inl rfl⟩, Evolves.refl w', 0, hinv, fun _ _ a ha => by cases ha⟩
    | ok w'' =>
      simp only [interruptible, happly]
      obtain ⟨htidy, hev⟩ := hinv.1.apply ha hground happly
      refine ⟨⟨ha, hground, .inr happly⟩, hev, 0, ⟨htidy, ?_⟩, fun u hu a ha => ?_⟩
      · show ∀ x, (0 + r) x + w''.signed.count x ≤ w''.reserved.count x
        rw [signed_apply happly, reserved_apply happly, hnone, List.append_nil]
        exact hinv.2
      · cases ha
        exact h w' w'' hw happly hev u hu

variable {message : String} {condition : Bool}

theorem ensures_throwIf {Q : Unit → World → Prop}
    (h : condition = false → ∀ w', Evolves C w w' → Q () w') :
    Ensures C (throwIf condition message) w Q := by
  rw [throwIf]
  cases condition with
  | true => exact ensures_throw
  | false => exact ensures_pure (h rfl)

theorem ensures_require {Q : Unit → World → Prop}
    (h : ∀ w', Evolves C w w' → Q () w') : Ensures C (require message) w Q :=
  ensures_bind (Q := fun _ _ => True) (ensures_ask fun _ _ _ => trivial) fun _ _ hw _ =>
    ensures_throwIf fun _ w'' hw' => h w'' (hw.trans hw')

theorem ensures_onlyIf {t : Op Unit} {Q : Unit → World → Prop}
    (ht : condition = true → Ensures C t w Q)
    (hskip : condition = false → ∀ w', Evolves C w w' → Q () w') :
    Ensures C (onlyIf condition t) w Q := by
  rw [onlyIf]
  cases condition with
  | true => exact ht rfl
  | false => exact ensures_pure (hskip rfl)

theorem ensures_discard {t : Op α} {Q : Unit → World → Prop} (h : Ensures C t w fun _ w' => Q () w')
    (hstable : ∀ w' w'', Evolves C w' w'' → Q () w' → Q () w'') :
    Ensures C (discard t) w Q :=
  ensures_bind h fun _ w' _ hq => ensures_pure fun w'' hw => hstable w' w'' hw hq

/-! ### Steps nothing depends on -/

theorem ensures_check_bind {f : Unit → Op α}
    (h : ∀ w', Evolves C w w' → Ensures C (f ()) w' Q) : Ensures C (check message >>= f) w Q :=
  ensures_bind (Q := fun _ _ => True) (ensures_require fun _ _ => trivial) fun _ w' hw _ => h w' hw

theorem ensures_require_bind {f : Unit → Op α}
    (h : ∀ w', Evolves C w w' → Ensures C (f ()) w' Q) : Ensures C (require message >>= f) w Q :=
  ensures_check_bind h

theorem ensures_ask_bind {f : β → Op α} (h : ∀ b w', Evolves C w w' → Ensures C (f b) w' Q) :
    Ensures C (ask β >>= f) w Q :=
  ensures_bind (Q := fun _ _ => True) (ensures_ask fun _ _ _ => trivial) fun b w' hw _ => h b w' hw

theorem ensures_throwIf_bind {f : Unit → Op α} (h : condition = false → Ensures C (f ()) w Q) :
    Ensures C (throwIf condition message >>= f) w Q := by
  rw [throwIf]
  cases condition with
  | true => exact ensures_throw
  | false => exact h rfl

theorem ensures_ofExcept_bind {x : Except String β} {f : β → Op α}
    (h : ∀ b, x = .ok b → Ensures C (f b) w Q) : Ensures C (Async.ofExcept x >>= f) w Q := by
  cases x with
  | error e => exact ensures_throw
  | ok b => exact h b rfl

end

end SignetApp.Pairing
