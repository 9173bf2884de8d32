import SignetApp.Pairing.Conduct

/-!
# Every operation keeps the discipline

One specification for each operation, read off its body from the specifications of the operations
it awaits.
-/

namespace SignetApp.Pairing

open SignetApp.Js SignetApp.Contacts

variable [InviteSdk] {C : Conduct} {w : World} {scope : ChildRequestScope}

/-! ## Receipts -/

/-- A pending receipt keeps a request of its own, addressed to the pairing. -/
def Addressed (scope : ChildRequestScope) (r : ChildRequestReceipt) : Prop :=
  r.status = .pending → ∀ q ∈ r.request, q.id = r.id ∧ q.guardian = scope.guardian ∧
    q.endpoint = scope.endpoint ∧ q.client = scope.client

theorem addressed_of_readReceipt {r x : ChildRequestReceipt} (h : readReceipt scope r = .ok x) :
    Addressed scope x := by
  intro hpending q hq
  simp only [readReceipt] at h
  split_ifs at h with h₁ h₂ h₃ h₄
  · cases h
    have hbind : r.request.bind parseChildContactRequest = some q := hq
    rw [hbind] at h₃
    simp only [Option.any_some, Bool.and_eq_true, decide_eq_true_eq] at h₃
    exact ⟨h₃.1.1.1.1, h₃.1.1.2, h₃.1.2, h₃.2⟩
  · cases h
    exact absurd hpending h₂

variable {inbox : Inbox}

theorem addressed_parse {raw : Inbox} (h : parseInbox raw scope = .ok inbox) :
    ∀ r ∈ inbox.entries, Addressed scope r := by
  obtain ⟨-, -, -, -, -, hall⟩ := parseInbox_eq_ok.mp h
  intro x hx
  obtain ⟨r, -, hr⟩ := exists_of_mem_right hall hx
  exact addressed_of_readReceipt hr

variable {now : ℤ}

theorem addressed_expire (h : ∀ r ∈ inbox.entries, Addressed scope r) :
    ∀ r ∈ (expire inbox scope now).entries, Addressed scope r := by
  intro x hx
  obtain ⟨r, hr, rfl⟩ := List.mem_map.mp hx
  split_ifs
  · intro hpending
    cases hpending
  · exact h r hr

/-- Receipts read off the row: each still has its status or one it became, none is missing, and
every pending one is addressed to the pairing. -/
structure Loaded (C : Conduct) (scope : ChildRequestScope) (w : World)
    (receipts : List ChildRequestReceipt) (w' : World) : Prop where
  becomes : ∀ id a, statusOf receipts id = some a →
    ∃ b, statusOf w'.receipts id = some b ∧ Becomes C.transitions a b
  complete : ∀ id, (statusOf w.receipts id).isSome → (statusOf receipts id).isSome
  addressed : ∀ r ∈ receipts, Addressed scope r

variable {w' : World} {receipts : List ChildRequestReceipt}

theorem Loaded.evolve {w'' : World}
    (h : Loaded C scope w receipts w') (hw : Evolves C w' w'') : Loaded C scope w receipts w'' := by
  refine ⟨fun id a ha => ?_, h.complete, h.addressed⟩
  obtain ⟨b, hb, hab⟩ := h.becomes id a ha
  obtain ⟨c, hc, hbc⟩ := hw.receipts id b hb
  exact ⟨c, hc, hab.trans hbc⟩

theorem Loaded.weaken {w₀ : World}
    (h : Loaded C scope w receipts w') (hw : Evolves C w₀ w) : Loaded C scope w₀ receipts w' :=
  ⟨h.becomes, fun id hid => h.complete id (hw.isSome_status hid), h.addressed⟩

theorem loaded_of_statusOf (h : ∀ id, statusOf receipts id = statusOf w.receipts id)
    (haddressed : ∀ r ∈ receipts, Addressed scope r) : Loaded C scope w receipts w :=
  ⟨fun id a ha => ⟨a, by rw [← h]; exact ha, .refl⟩, fun id hid => by rw [h]; exact hid, haddressed⟩

theorem statusOf_parse {raw : Inbox} (h : parseInbox raw scope = .ok inbox) (id : Hex32) :
    statusOf inbox.entries id = statusOf raw.entries id := by
  obtain ⟨-, -, -, -, -, hall⟩ := parseInbox_eq_ok.mp h
  refine statusOf_eq_of_map_eq (map_eq_of_forall₂ hall fun r x hr => ?_) id
  rw [(readReceipt_ok hr).1, (readReceipt_ok hr).2.1]

theorem addressed_expireInbox {previous : Option Inbox}
    (h : expireInbox scope now previous = .ok inbox) : ∀ r ∈ inbox.entries, Addressed scope r := by
  cases previous with
  | none => cases h
  | some row =>
    rw [expireInbox] at h
    cases hp : parseInbox row scope with
    | error e => rw [hp] at h; cases h
    | ok parsed =>
      rw [hp] at h
      cases h
      exact addressed_expire (addressed_parse hp)

/-- The receipt is where the transition asked for, or has moved on from there. -/
def Reached (C : Conduct) (id : Hex32) (target : ChildRequestStatus) (w : World) : Prop :=
  ∃ b, statusOf w.receipts id = some b ∧ Becomes C.transitions target b

variable {target : ChildRequestStatus}

variable {id : Hex32}

theorem Reached.evolve
    (h : Reached C id target w) (hw : Evolves C w w') : Reached C id target w' := by
  obtain ⟨b, hb, hab⟩ := h
  obtain ⟨c, hc, hbc⟩ := hw.receipts id b hb
  exact ⟨c, hc, hab.trans hbc⟩

variable {status : ChildContactReplyStatus}

theorem Reached.justified (h : Reached C id target w)
    (hreply : childReplyForReceipt target = some status) : Justified C w id status :=
  let ⟨b, hb, hab⟩ := h
  ⟨target, b, hreply, hb, hab⟩

variable [Sync.Sha256] [Signatures]

theorem ensures_loadChildContactInbox (hkeys : scope.toPairingKeys = C.keys) (now : ℤ) :
    Ensures C (loadChildContactInbox scope now) w (Loaded C scope w) := by
  unfold loadChildContactInbox
  refine ensures_check_bind fun w₁ h₁ => ?_
  refine ensures_throwIf_bind fun hnow => ?_
  refine ensures_throwIf_bind fun _ => ?_
  refine ensures_bind (Q := fun row u => ∃ v, Evolves C w v ∧ Evolves C v u ∧ v.store.inbox = row)
    (ensures_read fun v hv _ u hu => ⟨v, h₁.trans hv, hu, rfl⟩) fun row w₂ _ hread => ?_
  obtain ⟨v, hwv, hvw₂, hv⟩ := hread
  cases row with
  | none =>
    refine ensures_pure fun w₃ _ => ⟨nofun, fun id hid => ?_, nofun⟩
    have hs := hwv.isSome_status hid
    rw [World.receipts, hv] at hs
    cases hs
  | some row =>
    refine ensures_throwIf_bind fun _ => ?_
    refine ensures_ofExcept_bind fun inbox hinbox => ?_
    refine ensures_check_bind fun w₃ h₃ => ?_
    have hstatus : ∀ id, statusOf inbox.entries id = statusOf v.receipts id := fun id => by
      rw [World.receipts, hv]
      exact statusOf_parse hinbox id
    split_ifs
    · refine ensures_pure fun w₄ h₄ => ?_
      refine (loaded_of_statusOf hstatus (addressed_parse hinbox)).weaken hwv |>.evolve ?_
      exact hvw₂.trans (h₃.trans h₄)
    · refine ensures_bind (Q := Loaded C scope w) ?_ fun saved w₄ _ hsaved =>
        ensures_check_bind fun w₅ h₅ => ensures_pure fun w₆ h₆ => hsaved.evolve (h₅.trans h₆)
      refine ensures_commit ⟨hkeys, by simpa using hnow⟩ (fun _ => rfl) (fun _ _ _ => trivial)
        fun u u' hu hu' hstep z hz => ?_
      obtain ⟨s, hs, rfl⟩ := Except.map_eq_ok hu'
      obtain ⟨after, hafter, rfl⟩ := Except.map_eq_ok hs
      refine (loaded_of_statusOf (w := ⟨u.store.withInbox after, u.reserved ++ _, _, _⟩)
        (fun _ => rfl) (addressed_expireInbox hafter)).evolve hz |>.weaken ?_
      exact (hwv.trans hvw₂).trans (h₃.trans (hu.trans hstep))

variable {request : ChildContactRequest}

theorem ensures_storeChildContactRequest (hkeys : scope.toPairingKeys = C.keys)
    {raw : ChildContactRequest} (hraw : parseChildContactRequest raw = some request)
    (fingerprint : Hex64) (now : ℤ) :
    Ensures C (storeChildContactRequest scope request fingerprint now) w fun _ _ => True := by
  unfold storeChildContactRequest
  cases hparse : parseChildContactRequest request with
  | none => exact ensures_throw
  | some parsed =>
    refine ensures_throwIf_bind fun hok => ?_
    simp only [Bool.or_eq_false_iff, Bool.not_eq_false', decide_eq_false_iff_not] at hok
    refine ensures_check_bind fun w₁ h₁ => ?_
    refine ensures_throwIf_bind fun _ => ?_
    refine ensures_bind (Q := fun _ _ => True) ?_ fun saved w₂ _ _ =>
      ensures_check_bind fun w₃ _ => ensures_pure fun _ _ => trivial
    exact ensures_commit ⟨hkeys, hok.1.1.2, hok.1.1.1, request, raw, hraw, hparse⟩ (fun _ => rfl)
      (fun _ _ _ => trivial) fun _ _ _ _ _ _ _ => trivial

variable {requestId : Hex32}

theorem ensures_transitionChildContactReceipt (hkeys : scope.toPairingKeys = C.keys) {source : List ChildRequestStatus} (now : ℤ)
    (hallowed : ∀ a ∈ source, C.transitions a target) :
    Ensures C (transitionChildContactReceipt scope requestId source target now) w
      fun _ w' => Reached C requestId target w' := by
  unfold transitionChildContactReceipt
  refine ensures_throwIf_bind fun _ => ?_
  refine ensures_throwIf_bind fun hok => ?_
  simp only [Bool.or_eq_false_iff, Bool.not_eq_false', decide_eq_false_iff_not] at hok
  have hmoves : ∀ a ∈ source, Moves C.transitions a target :=
    fun a ha => .transition (hallowed a ha) hok.2
  refine ensures_check_bind fun w₁ h₁ => ?_
  refine ensures_bind (Q := fun _ w' => Reached C requestId target w') ?_ fun saved w₂ _ hreached =>
    ensures_check_bind fun w₃ h₃ => ensures_pure fun w₄ h₄ => hreached.evolve (h₃.trans h₄)
  refine ensures_commit ⟨hkeys, hok.1, hmoves⟩ (fun _ => rfl) (fun _ _ _ => trivial)
    fun u u' _ hu' _ z hz => ?_
  obtain ⟨s, hs, rfl⟩ := Except.map_eq_ok hu'
  obtain ⟨after, hafter, rfl⟩ := Except.map_eq_ok hs
  obtain ⟨b, hb, hab⟩ := hz.receipts requestId target (transitionReceipt_ok hafter hmoves).2
  exact ⟨b, hb, hab⟩

/-! ## Replies -/

theorem ensures_loadChildContactReplyOutbox :
    Ensures C (loadChildContactReplyOutbox scope) w fun _ _ => True := by
  unfold loadChildContactReplyOutbox
  refine ensures_check_bind fun w₁ h₁ => ?_
  refine ensures_bind (Q := fun _ _ => True) (ensures_read fun _ _ _ _ _ => trivial) fun row w₂ _ _ => ?_
  cases row with
  | none => exact ensures_pure fun _ _ => trivial
  | some row =>
    refine ensures_ofExcept_bind fun state _ => ?_
    exact ensures_check_bind fun w₃ _ => ensures_pure fun _ _ => trivial

variable {replaceUnreconciled : Bool} {relays : List JsString} {reply : ChildContactReply}

theorem ensures_queueChildContactReply (hkeys : scope.toPairingKeys = C.keys)
    {event : NostrEvent} (hjust : C.ownReplies → Justified C w requestId reply.status) :
    Ensures C (queueChildContactReply scope requestId event reply relays now replaceUnreconciled) w
      fun _ _ => True := by
  unfold queueChildContactReply
  refine ensures_ofExcept_bind fun _ hok => ?_
  refine ensures_bind (Q := fun _ _ => True) ?_ fun saved w₁ _ _ => ensures_pure fun _ _ => trivial
  exact ensures_commit ⟨hkeys, hok⟩ (fun _ => rfl) (fun u hu _ hown => (hjust hown).evolve hu)
    fun _ _ _ _ _ _ _ => trivial

theorem ensures_publish {entry : ChildContactReplyOutboxEntry} :
    Ensures C (publish entry) w fun _ _ => True := by
  refine Discipline.meets_once fun w' r hw hinv c => ⟨rfl, ?_⟩
  obtain ⟨htidy, hstep⟩ : Tidy C { w' with published := w'.published ++ [entry] } ∧
      Evolves C w' { w' with published := w'.published ++ [entry] } :=
    hinv.1.step (.inl rfl) (.inl rfl) (fun p hp => hinv.1.planOrigin hp)
      fun e he => replyOrigin_of_mem he
  exact ⟨hstep, 0, ⟨htidy, hinv.2⟩, fun _ _ _ _ => trivial⟩

theorem ensures_deliverChildContactReply (hkeys : scope.toPairingKeys = C.keys) (id : Hex32)
    (now : ℤ) : Ensures C (deliverChildContactReply scope id now) w fun _ _ => True := by
  unfold deliverChildContactReply
  refine ensures_throwIf_bind fun hnow => ?_
  refine ensures_check_bind fun w₁ _ => ?_
  refine ensures_bind ensures_loadChildContactReplyOutbox fun entries w₂ _ _ => ?_
  cases entries.find? fun e => e.id = id with
  | none => exact ensures_pure fun _ _ => trivial
  | some before =>
    simp only
    split_ifs
    · exact ensures_pure fun _ _ => trivial
    · refine ensures_require_bind fun w₃ _ => ?_
      refine ensures_check_bind fun w₄ _ => ?_
      refine ensures_bind ensures_publish fun sent w₅ _ _ => ?_
      refine ensures_check_bind fun w₆ _ => ?_
      split_ifs
      · exact ensures_pure fun _ _ => trivial
      · refine ensures_bind (Q := fun _ _ => True) ?_ fun saved w₇ _ _ =>
          ensures_check_bind fun w₈ _ => ensures_pure fun _ _ => trivial
        exact ensures_commit ⟨hkeys, by simpa using hnow⟩ (fun _ => rfl) (fun _ _ _ => trivial)
          fun _ _ _ _ _ _ _ => trivial

theorem ensures_deliverEach (hkeys : scope.toPairingKeys = C.keys) (now : ℤ)
    (entries : List ChildContactReplyOutboxEntry) :
    Ensures C (deliverEach scope now entries) w fun _ _ => True := by
  induction entries generalizing w with
  | nil => exact ensures_pure fun _ _ => trivial
  | cons entry entries ih =>
    unfold deliverEach
    split_ifs
    · exact ih
    · refine ensures_bind (Q := fun _ _ => True) ?_ fun delivered w₁ _ _ =>
        ensures_bind ih fun rest w₂ _ _ => ensures_pure fun _ _ => trivial
      refine ensures_tryCatch (ensures_deliverChildContactReply hkeys entry.id now) fun cause w₁ _ => ?_
      exact ensures_require_bind fun w₂ _ => ensures_pure fun _ _ => trivial

theorem ensures_deliverPendingChildContactReplies (hkeys : scope.toPairingKeys = C.keys) (now : ℤ) :
    Ensures C (deliverPendingChildContactReplies scope now) w fun _ _ => True :=
  ensures_bind ensures_loadChildContactReplyOutbox fun entries _ _ _ =>
    ensures_deliverEach hkeys now entries

theorem ensures_sealChildContactReply :
    Ensures C (sealChildContactReply reply) w fun _ _ => True := by
  unfold sealChildContactReply
  cases parseChildContactReply reply with
  | none => exact ensures_throw
  | some _ => exact ensures_ask fun _ _ _ => trivial

variable {plan : ChildContactExchangePlan}

theorem ensures_sendChildContactReply (hkeys : scope.toPairingKeys = C.keys) {exchangeId contactId : Option Hex32}
    (hjust : C.ownReplies → Justified C w plan.requestId status) :
    Ensures C (sendChildContactReply scope plan status now relays exchangeId contactId
      replaceUnreconciled) w fun _ _ => True := by
  unfold sendChildContactReply
  refine ensures_ask_bind fun live w₁ h₁ => ?_
  split_ifs
  · exact ensures_pure fun _ _ => trivial
  · refine ensures_check_bind fun w₂ h₂ => ?_
    refine ensures_bind ensures_loadChildContactReplyOutbox fun entries w₃ h₃ _ => ?_
    refine ensures_bind ensures_sealChildContactReply fun event w₄ h₄ _ => ?_
    refine ensures_check_bind fun w₅ h₅ => ?_
    have hw : Evolves C w w₅ := h₁.trans (h₂.trans (h₃.trans (h₄.trans h₅)))
    refine ensures_bind (ensures_queueChildContactReply hkeys fun hown => (hjust hown).evolve hw)
      fun _ w₆ _ _ => ?_
    refine ensures_tryCatch (ensures_deliverChildContactReply hkeys _ _) fun cause w₇ _ => ?_
    refine ensures_check_bind fun w₈ _ => ?_
    split_ifs
    · exact ensures_pure fun _ _ => trivial
    · exact ensures_throw

/-! ## Plans -/

/-- Plans read off the row: each is that of its request still, or has been cancelled since. -/
def Planned (C : Conduct) (plans : List ChildContactExchangePlan) (w : World) : Prop :=
  ∀ p ∈ plans, p.exchangeId = exchangeId C.keys p.requestId ∧
    (∃ q, planOf w.plans p.requestId = some q ∧ Follows p q) ∧
    (statusOf w.receipts p.requestId).isSome

variable {plans : List ChildContactExchangePlan}

omit [Signatures] in
theorem Planned.evolve (h : Planned C plans w) (hw : Evolves C w w') : Planned C plans w' := by
  intro p hp
  obtain ⟨hx, ⟨q, hq, hpq⟩, hreceived⟩ := h p hp
  obtain ⟨r, hr, hqr⟩ := hw.plans _ q hq
  exact ⟨hx, ⟨r, hr, hpq.trans hqr⟩, hw.isSome_status hreceived⟩

omit [Signatures] in
theorem Tidy.planned (h : Tidy C w) : Planned C w.plans w := fun p hp =>
  ⟨h.plans_exchange p hp, ⟨p, find?_of_mem_of_nodup h.plans_nodup hp, .refl p⟩,
    h.plans_received p hp⟩

theorem ensures_loadChildContactReview :
    Ensures C (loadChildContactReview scope) w (Planned C) := by
  unfold loadChildContactReview
  refine ensures_throwIf_bind fun _ => ?_
  refine ensures_check_bind fun w₁ h₁ => ?_
  refine ensures_bind (Q := fun row u => Planned C (entriesOf row) u)
    (ensures_read fun v hv htidy u hu => htidy.planned.evolve hu) fun row w₂ _ hrow => ?_
  cases row with
  | none => exact ensures_pure fun w₃ _ => nofun
  | some row =>
    refine ensures_ofExcept_bind fun state hstate => ?_
    obtain ⟨rfl, -⟩ := parseReview_eq_ok.mp hstate
    exact ensures_check_bind fun w₃ h₃ => ensures_pure fun w₄ h₄ => hrow.evolve (h₃.trans h₄)

theorem ensures_settledRequestIds (hkeys : scope.toPairingKeys = C.keys)
    (plans : List ChildContactExchangePlan) (now : ℤ) :
    Ensures C (settledRequestIds scope plans now) w fun _ _ => True := by
  unfold settledRequestIds
  split_ifs
  · exact ensures_pure fun _ _ => trivial
  · refine ensures_bind (ensures_loadChildContactInbox hkeys now) fun receipts w₁ _ _ => ?_
    refine ensures_bind ensures_loadChildContactReplyOutbox fun replies w₂ _ _ => ?_
    exact ensures_pure fun _ _ => trivial

theorem ensures_loadSettledChildContactPlans (hkeys : scope.toPairingKeys = C.keys) (now : ℤ) :
    Ensures C (loadSettledChildContactPlans scope now) w fun _ _ => True :=
  ensures_bind ensures_loadChildContactReview fun plans _ _ _ =>
    ensures_settledRequestIds hkeys plans now

omit [Signatures] in
theorem acceptsPlan_planFor {fingerprint nonce replySecret : Hex64}
    {decision : Decision} (hnow : stamp now = true)
    (hguardian : request.guardian = scope.guardian) (hendpoint : request.endpoint = scope.endpoint)
    (hclient : request.client = scope.client) :
    acceptsPlan scope (planFor scope request fingerprint decision now nonce replySecret) = true := by
  simp [acceptsPlan, planFor, hnow, hguardian, hendpoint, hclient]

theorem ensures_reviewChildContactRequest (hkeys : scope.toPairingKeys = C.keys)
    (requestId : Hex32) (fingerprint : Hex64) (decision : Decision) (now : ℤ) :
    Ensures C (reviewChildContactRequest scope requestId fingerprint decision now) w
      fun _ _ => True := by
  unfold reviewChildContactRequest
  refine ensures_throwIf_bind fun _ => ?_
  refine ensures_throwIf_bind fun hnow => ?_
  refine ensures_check_bind fun w₁ _ => ?_
  refine ensures_bind (ensures_loadChildContactInbox hkeys now) fun receipts w₂ _ hloaded => ?_
  cases hrequest : ((receipts.find? fun r => r.id = requestId).filter
      fun r => r.status = .pending && r.fingerprint = fingerprint).bind (·.request) with
  | none => exact ensures_throw
  | some request =>
    simp only
    obtain ⟨r, hr, hq⟩ := Option.bind_eq_some_iff.mp hrequest
    obtain ⟨hfound, hpending⟩ := Option.filter_eq_some_iff.mp hr
    simp only [Bool.and_eq_true, decide_eq_true_eq] at hpending
    obtain ⟨hid, hguardian, hendpoint, hclient⟩ :=
      hloaded.addressed r (List.mem_of_find?_eq_some hfound) hpending.1 request hq
    have hreceived : (statusOf w₂.receipts request.id).isSome := by
      have hrid : r.id = requestId := by simpa using List.find?_some hfound
      obtain ⟨b, hb, -⟩ := hloaded.becomes requestId r.status (by rw [statusOf, hfound]; rfl)
      rw [hid, hrid, hb]
      rfl
    refine ensures_throwIf_bind fun _ => ?_
    refine ensures_bind (Q := fun _ _ => True) (ensures_onlyIf
      (fun _ => ensures_require fun _ _ => trivial) fun _ _ _ => trivial) fun _ w₃ h₃ _ => ?_
    refine ensures_check_bind fun w₄ h₄ => ?_
    refine ensures_bind ensures_loadChildContactReview fun plans w₅ h₅ _ => ?_
    refine ensures_bind (ensures_settledRequestIds hkeys plans now) fun settled w₆ h₆ _ => ?_
    refine ensures_check_bind fun w₇ h₇ => ?_
    refine ensures_ask_bind fun nonce w₈ h₈ => ?_
    refine ensures_ask_bind fun replySecret w₉ h₉ => ?_
    have hw : Evolves C w₂ w₉ :=
      h₃.trans (h₄.trans (h₅.trans (h₆.trans (h₇.trans (h₈.trans h₉)))))
    refine ensures_bind (Q := fun _ _ => True) ?_ fun saved w₁₀ _ _ =>
      ensures_check_bind fun w₁₁ _ => ensures_pure fun _ _ => trivial
    exact ensures_commit ⟨hkeys, acceptsPlan_planFor (by simpa using hnow) hguardian hendpoint
      hclient⟩ (fun _ => rfl) (fun u hu _ => (hw.trans hu).isSome_status hreceived)
      fun _ _ _ _ _ _ _ => trivial

theorem ensures_cancelChildContactExchange (hkeys : scope.toPairingKeys = C.keys)
    (requestId : Hex32) (now : ℤ) :
    Ensures C (cancelChildContactExchange scope requestId now) w fun _ _ => True := by
  unfold cancelChildContactExchange
  refine ensures_throwIf_bind fun _ => ?_
  refine ensures_throwIf_bind fun hnow => ?_
  refine ensures_bind (Q := fun _ _ => True) ?_ fun saved w₁ _ _ =>
    ensures_check_bind fun w₂ _ => ensures_pure fun _ _ => trivial
  exact ensures_commit ⟨hkeys, by simpa using hnow⟩ (fun _ => rfl) (fun _ _ _ => trivial)
    fun _ _ _ _ _ _ _ => trivial

/-! ## Executions -/

theorem ensures_loadChildContactExecutions :
    Ensures C (loadChildContactExecutions scope) w fun _ _ => True := by
  unfold loadChildContactExecutions
  refine ensures_check_bind fun w₁ h₁ => ?_
  refine ensures_bind (Q := fun _ _ => True) (ensures_read fun _ _ _ _ _ => trivial) fun row w₂ _ _ => ?_
  cases row with
  | none => exact ensures_pure fun _ _ => trivial
  | some row =>
    refine ensures_ofExcept_bind fun state _ => ?_
    exact ensures_check_bind fun w₃ _ => ensures_pure fun _ _ => trivial

theorem ensures_cancelChildContactExecution (hkeys : scope.toPairingKeys = C.keys)
    (exchangeId : Hex32) (now : ℤ) :
    Ensures C (cancelChildContactExecution scope exchangeId now) w fun _ _ => True := by
  unfold cancelChildContactExecution
  refine ensures_throwIf_bind fun hnow => ?_
  refine ensures_bind (Q := fun _ _ => True) ?_ fun saved w₁ _ _ => ensures_check_bind fun w₂ _ => ?_
  · exact ensures_commit ⟨hkeys, by simpa using hnow⟩ (fun _ => rfl) (fun _ _ _ => trivial)
      fun _ _ _ _ _ _ _ => trivial
  · cases saved.find? fun e => e.exchangeId = exchangeId with
    | none => exact ensures_throw
    | some e => exact ensures_pure fun _ _ => trivial

/-- One permission to call the signer for this exchange. -/
def permit (x : Hex32) : Hex32 → ℕ := Pi.single x 1

/-- A reservation that puts a new row in earns a permission. -/
theorem meets_reserve {settled : List Hex32} {β : Type} {answer : Store → Store → β}
    (ha : (Change.reserve scope plan plans settled now).Argued C) (hg : ∀ w', Evolves C w w' →
      (Change.reserve scope plan plans settled now).Grounded C w') :
    (discipline C).Meets (fun o w' g => ∀ inserted b, o = .ok (inserted, b) → Evolves C w w' ∧
        g = if inserted then permit plan.exchangeId else 0)
      (commit (.reserve scope plan plans settled now) fun s s' =>
        (!((Change.reserve scope plan plans settled now).reserves s).isEmpty, answer s s')) w 0 := by
  refine Discipline.meets_once fun w' r hw hinv interruption => ?_
  have hground := hg w' hw
  cases interruption with
  | some e =>
    exact ⟨⟨ha, hground, .inl rfl⟩, Evolves.refl w', 0, hinv, fun _ _ inserted b h => by cases h⟩
  | none =>
    cases happly : (Change.reserve scope plan plans settled now).apply w' with
    | error e =>
      simp only [interruptible, happly]
      exact ⟨⟨ha, hground, .inl rfl⟩, Evolves.refl w', 0, hinv, fun _ _ inserted b h => by cases h⟩
    | ok w'' =>
      simp only [interruptible, happly]
      obtain ⟨htidy, hev⟩ := hinv.1.apply ha hground happly
      refine ⟨⟨ha, hground, .inr happly⟩, hev, if !((Change.reserve scope plan plans settled now).reserves w'.store).isEmpty
        then permit plan.exchangeId else 0, ⟨htidy, ?_⟩, fun u hu inserted b h => ?_⟩
      · show ∀ x, _ + w''.signed.count x ≤ w''.reserved.count x
        intro x
        have hx := hinv.2 x
        rw [Pi.add_apply, Pi.zero_apply, zero_add] at hx
        rw [signed_apply happly, reserved_apply happly, List.count_append, Pi.add_apply]
        rcases reserves_eq scope plan plans settled now w'.store with hres | hres
        · simp only [hres, List.isEmpty_nil, Bool.not_true, Bool.false_eq_true, if_false,
            Pi.zero_apply, List.count_nil]
          omega
        · simp only [hres, List.isEmpty_cons, Bool.not_false, if_true, permit, List.count_singleton,
            Pi.single_apply, beq_iff_eq]
          have hcomm : (plan.exchangeId = x) = (x = plan.exchangeId) := propext eq_comm
          simp only [hcomm]
          omega
      · cases h
        exact ⟨hw.trans (hev.trans hu), rfl⟩

theorem meets_sign :
    (discipline C).Meets (fun _ w' g => Evolves C w w' ∧ g = 0) (sign plan) w
      (permit plan.exchangeId) := by
  refine Discipline.meets_once fun w' r hw hinv c => ⟨⟨?_, rfl⟩, ?_⟩
  · have hx := hinv.2 plan.exchangeId
    rw [Pi.add_apply, permit, Pi.single_eq_same] at hx
    show w'.signed.count plan.exchangeId < w'.reserved.count plan.exchangeId
    omega
  · obtain ⟨htidy, hstep⟩ : Tidy C { w' with signed := w'.signed ++ [plan.exchangeId] } ∧
        Evolves C w' { w' with signed := w'.signed ++ [plan.exchangeId] } :=
      hinv.1.step (.inl rfl) (.inl rfl) (fun p hp => hinv.1.planOrigin hp)
        fun e he => replyOrigin_of_mem he
    refine ⟨hstep, 0, ⟨htidy, fun x => ?_⟩, fun u hu => ⟨hw.trans (hstep.trans hu), rfl⟩⟩
    have hx := hinv.2 x
    simp only [permit, Pi.add_apply, Pi.single_apply] at hx
    rw [zero_add, List.count_append, List.count_singleton]
    simp only [beq_iff_eq]
    have hcomm : (plan.exchangeId = x) = (x = plan.exchangeId) := propext eq_comm
    simp only [hcomm]
    omega

theorem ensures_executeChildContactPlan (hkeys : scope.toPairingKeys = C.keys) (requestId : Hex32)
    (now : ℤ) : Ensures C (executeChildContactPlan scope requestId now) w fun _ _ => True := by
  unfold executeChildContactPlan
  refine ensures_throwIf_bind fun hnow => ?_
  refine ensures_check_bind fun w₁ _ => ?_
  refine ensures_bind ensures_loadChildContactReview fun found w₂ _ hplanned => ?_
  cases hfind : found.find? fun p => p.requestId = requestId with
  | none => exact ensures_throw
  | some plan =>
    obtain ⟨hx, ⟨q, hq, hfollows⟩, -⟩ := hplanned plan (List.mem_of_find?_eq_some hfind)
    refine ensures_throwIf_bind fun _ => ?_
    refine ensures_require_bind fun w₃ h₃ => ?_
    refine ensures_check_bind fun w₄ h₄ => ?_
    refine ensures_bind ensures_loadChildContactReview fun plans w₅ h₅ _ => ?_
    refine ensures_bind (ensures_loadSettledChildContactPlans hkeys now) fun settled w₆ h₆ _ => ?_
    refine ensures_check_bind fun w₇ h₇ => ?_
    have hw : Evolves C w₂ w₇ := h₃.trans (h₄.trans (h₅.trans (h₆.trans h₇)))
    refine Discipline.Meets.bind (meets_reserve ⟨hkeys, by simpa using hnow, hx⟩ fun u hu => ?_)
      (fun o w₈ g ho => ?_) fun e _ _ _ b hb => by cases hb
    · obtain ⟨q', hq', hqq'⟩ := (hw.trans hu).plans _ q hq
      exact ⟨q', hq', hqq'.1.trans hfollows.1⟩
    · obtain ⟨inserted, existing⟩ := o
      obtain ⟨-, rfl⟩ := ho inserted existing rfl
      cases inserted with
      | false =>
        show Ensures C (if existing.any (fun e => e.status = .signed) then pure existing else _) w₈ _
        split_ifs
        · exact ensures_pure fun _ _ => trivial
        · exact ensures_throw
      | true =>
        change (discipline C).Meets _
          (if existing.any (fun e => e.status = .signed) then pure existing else _) w₈
          (permit plan.exchangeId)
        split_ifs
        · exact meets_of_zero (ensures_pure fun _ _ => trivial) _ fun _ _ hq => hq
        · change (discipline C).Meets _ (sign plan >>= _) w₈ (permit plan.exchangeId)
          refine Discipline.Meets.bind (meets_sign (C := C)) (fun event w₉ g hg => ?_)
            fun e _ _ _ b hb => by cases hb
          obtain ⟨-, rfl⟩ := hg
          show Ensures C _ w₉ _
          refine ensures_check_bind fun w₁₀ _ => ?_
          refine ensures_throwIf_bind fun hevent => ?_
          refine ensures_require_bind fun w₁₁ _ => ?_
          refine ensures_check_bind fun w₁₂ _ => ?_
          refine ensures_bind (Q := fun _ _ => True) ?_ fun saved w₁₃ _ _ =>
            ensures_check_bind fun w₁₄ _ => ensures_pure fun _ _ => trivial
          exact ensures_commit ⟨hkeys, by simpa using hnow, by simpa using hevent⟩ (fun _ => rfl)
            (fun _ _ _ => trivial) fun _ _ _ _ _ _ _ => trivial

/-! ## The lifecycle -/

/-- The transitions the callers of `transitionChildContactReceipt` ask for. -/
inductive Asked : ChildRequestStatus → ChildRequestStatus → Prop where
  | approve : Asked .pending .approved
  | deny : Asked .pending .denied
  | expirePending : Asked .pending .expired
  | expireApproved : Asked .approved .expired
  | completePending : Asked .pending .completed
  | completeApproved : Asked .approved .completed

section Lifecycle

variable (hkeys : scope.toPairingKeys = C.keys) (hasked : ∀ {a b}, Asked a b → C.transitions a b)
include hkeys

theorem ensures_guardianChildAbandon (plan : ChildContactExchangePlan) (now : ℤ) :
    Ensures C (guardianChildAbandon scope plan now) w fun _ _ => True := by
  unfold guardianChildAbandon
  refine ensures_ask_bind fun _ w₁ _ => ?_
  refine ensures_tryCatch ?_ fun _ w₂ _ => ensures_pure fun _ _ => trivial
  exact ensures_discard (ensures_cancelChildContactExecution hkeys _ now) fun _ _ _ _ => trivial

variable {relays : List JsString} {status : ChildContactReplyStatus}

theorem ensures_guardianChildReply {plan : ChildContactExchangePlan} {now : ℤ}
    (hjust : C.ownReplies → Justified C w plan.requestId status) :
    Ensures C (guardianChildReply scope plan status now relays) w fun _ _ => True := by
  unfold guardianChildReply
  refine ensures_bind (Q := fun _ _ => True) (ensures_onlyIf
    (fun _ => ensures_ask fun _ _ _ => trivial) fun _ _ _ => trivial) fun _ w₁ h₁ _ => ?_
  exact ensures_discard (ensures_sendChildContactReply hkeys fun hown => (hjust hown).evolve h₁)
    fun _ _ _ _ => trivial

include hasked

theorem ensures_decideChildContactRequest (requestId : Hex32) (fingerprint : Hex64)
    (decision : Decision) (now : DecisionTimes) (relays : List JsString) :
    Ensures C (decideChildContactRequest scope requestId fingerprint decision now relays) w
      fun _ _ => True := by
  unfold decideChildContactRequest
  refine ensures_bind (ensures_reviewChildContactRequest hkeys requestId fingerprint decision
    now.review) fun reviewed w₁ _ _ => ?_
  cases reviewed with
  | none => exact ensures_throw
  | some plan =>
    refine ensures_bind (Q := fun _ _ => True) (ensures_onlyIf (fun _ => ensures_discard
      (ensures_executeChildContactPlan hkeys _ _) fun _ _ _ _ => trivial) fun _ _ _ => trivial)
      fun _ w₂ _ _ => ?_
    have hallowed : ∀ a ∈ [ChildRequestStatus.pending], C.transitions a
        (if plan.status = .approved then .approved else .denied) := by
      intro a ha
      rw [List.mem_singleton.mp ha]
      split_ifs
      · exact hasked .approve
      · exact hasked .deny
    refine ensures_bind (Q := fun _ w' => Reached C plan.requestId
      (if plan.status = .approved then .approved else .denied) w') (ensures_tryCatch
        (ensures_discard (ensures_transitionChildContactReceipt hkeys _ hallowed)
          fun _ _ hw hreached => hreached.evolve hw) fun cause w₃ _ => ?_)
      fun _ w₄ _ hreached => ?_
    · refine ensures_bind (Q := fun _ _ => True) (ensures_onlyIf (fun _ => ?_)
        fun _ _ _ => trivial) fun _ _ _ _ => ensures_throw
      refine ensures_ask_bind fun current w₅ _ => ensures_onlyIf (fun _ => ?_) fun _ _ _ => trivial
      refine ensures_bind (ensures_guardianChildAbandon hkeys plan _) fun _ w₆ _ _ => ?_
      exact ensures_discard (ensures_cancelChildContactExchange hkeys _ _) fun _ _ _ _ => trivial
    · refine ensures_bind (ensures_guardianChildReply hkeys fun _ => hreached.justified ?_)
        fun _ _ _ _ => ensures_pure fun _ _ => trivial
      split_ifs <;> rfl

theorem ensures_cancelChildContactRequest (requestId : Hex32) (now : ℤ)
    (relays : Option (List JsString)) :
    Ensures C (cancelChildContactRequest scope requestId now relays) w fun _ _ => True := by
  unfold cancelChildContactRequest
  refine ensures_bind ensures_loadChildContactReview fun plans w₁ _ hplanned => ?_
  cases hfind : plans.find? fun p => p.requestId = requestId with
  | none => exact ensures_pure fun _ _ => trivial
  | some plan =>
    have hrid : plan.requestId = requestId := by simpa using List.find?_some hfind
    obtain ⟨-, -, hreceived⟩ := hplanned plan (List.mem_of_find?_eq_some hfind)
    rw [hrid] at hreceived
    refine ensures_bind (Q := fun _ _ => True) (ensures_onlyIf (fun _ => ensures_discard
      (ensures_cancelChildContactExchange hkeys _ _) fun _ _ _ _ => trivial) fun _ _ _ => trivial)
      fun _ w₂ h₂ _ => ?_
    refine ensures_bind ensures_loadChildContactExecutions fun executions w₃ h₃ _ => ?_
    refine ensures_bind (Q := fun _ _ => True) (ensures_onlyIf (fun _ => ensures_discard
      (ensures_cancelChildContactExecution hkeys _ _) fun _ _ _ _ => trivial) fun _ _ _ => trivial)
      fun _ w₄ h₄ _ => ?_
    refine ensures_ask_bind fun _ w₅ h₅ => ?_
    have hw : Evolves C w₁ w₅ := h₂.trans (h₃.trans (h₄.trans h₅))
    refine ensures_bind (ensures_loadChildContactInbox hkeys now) fun receipts w₆ h₆ hloaded => ?_
    -- Every plan has its receipt, and no receipt goes.
    have hfound : (receipts.find? fun r => r.id = requestId).isSome := by
      have := hloaded.complete requestId (hw.isSome_status hreceived)
      rwa [statusOf, Option.isSome_map] at this
    simp only
    split_ifs
    · exact ensures_pure fun _ _ => trivial
    · refine ensures_bind (Q := fun _ w' => Reached C requestId .expired w') (ensures_onlyIf
        (fun _ => ensures_discard (ensures_transitionChildContactReceipt hkeys now fun a ha => ?_)
          fun _ _ hw hreached => hreached.evolve hw) fun hmissing => ?_)
        fun _ w₇ _ hreached => ?_
      · rcases List.mem_cons.mp ha with rfl | ha
        · exact hasked .expirePending
        · rw [List.mem_singleton.mp ha]
          exact hasked .expireApproved
      · rw [hfound] at hmissing
        cases hmissing
      · cases relays with
        | none => exact ensures_pure fun _ _ => trivial
        | some relays =>
          refine ensures_bind ensures_loadChildContactReplyOutbox fun entries w₈ h₈ _ => ?_
          refine ensures_bind (Q := fun _ _ => True) (ensures_onlyIf (fun _ => ensures_discard
            (ensures_sendChildContactReply hkeys fun _ => ?_) fun _ _ _ _ => trivial)
            fun _ _ _ => trivial) fun _ w₉ _ _ => ensures_pure fun _ _ => trivial
          rw [hrid]
          exact (hreached.evolve h₈).justified rfl

omit hasked

omit hkeys in
theorem ensures_completedContactId :
    Ensures C (completedContactId status) w fun _ _ => True := by
  unfold completedContactId
  split_ifs
  · exact ensures_ask fun _ _ _ => trivial
  · exact ensures_pure fun _ _ => trivial

theorem ensures_reconcileEach {now : ℤ} {w₀ : World}
    {receipts : List ChildRequestReceipt} {replies : List ChildContactReplyOutboxEntry}
    {plans : List ChildContactExchangePlan} (hloaded : Loaded C scope w₀ receipts w) :
    Ensures C (reconcileEach scope now relays receipts replies plans) w fun _ _ => True := by
  induction plans generalizing w with
  | nil => exact ensures_pure fun _ _ => trivial
  | cons plan plans ih =>
    unfold reconcileEach
    simp only
    split
    · exact ih hloaded
    · next status hstatus =>
      split
      · exact ih hloaded
      · refine ensures_ask_bind fun live w₁ h₁ => ?_
        refine ensures_ask_bind fun current w₂ h₂ => ?_
        have hw : Evolves C w w₂ := h₁.trans h₂
        split
        · exact ih (hloaded.evolve hw)
        · refine ensures_bind ensures_completedContactId fun contactId w₃ h₃ _ => ?_
          refine ensures_bind (Q := fun _ _ => True) ?_ fun _ w₄ h₄ _ =>
            ensures_bind (ih (hloaded.evolve (hw.trans (h₃.trans h₄)))) fun _ _ _ _ =>
              ensures_pure fun _ _ => trivial
          refine ensures_discard (ensures_sendChildContactReply hkeys fun _ => ?_)
            fun _ _ _ _ => trivial
          obtain ⟨r, hr, hreply⟩ := Option.bind_eq_some_iff.mp hstatus
          obtain ⟨hfound, -⟩ := Option.filter_eq_some_iff.mp hr
          obtain ⟨b, hb, hab⟩ := (hloaded.evolve (hw.trans h₃)).becomes plan.requestId r.status
            (by rw [statusOf, hfound]; rfl)
          exact ⟨r.status, b, hreply, hb, hab⟩

theorem ensures_reconcileChildContactReplies (now : ℤ) (relays : List JsString) :
    Ensures C (reconcileChildContactReplies scope now relays) w fun _ _ => True := by
  unfold reconcileChildContactReplies
  refine ensures_bind (ensures_loadChildContactInbox hkeys now) fun receipts w₁ _ hloaded => ?_
  refine ensures_bind ensures_loadChildContactReview fun plans w₂ h₂ _ => ?_
  refine ensures_bind ensures_loadChildContactReplyOutbox fun replies w₃ h₃ _ => ?_
  exact ensures_reconcileEach hkeys (hloaded.evolve (h₂.trans h₃))

omit hkeys in
theorem ensures_answerGo {plan : ChildContactExchangePlan} {receipt : ChildRequestReceipt}
    (h : Action.Authorised C plan receipt) :
    Ensures C (answerGo plan receipt) w fun _ _ => True :=
  Discipline.meets_once fun w' _ _ hinv _ =>
    ⟨⟨h, rfl⟩, Evolves.refl w', 0, hinv, fun _ _ _ _ => trivial⟩

theorem ensures_childExchangeAuthority (exchangeId : Hex32) (now : ℤ) :
    Ensures C (childExchangeAuthority scope exchangeId now) w fun _ _ => True := by
  unfold childExchangeAuthority
  refine ensures_bind ensures_loadChildContactReview fun plans w₁ _ hplanned => ?_
  cases hfind : plans.find? fun p => p.exchangeId = exchangeId with
  | none => exact ensures_pure fun _ _ => trivial
  | some plan =>
    obtain ⟨hx, -, -⟩ := hplanned plan (List.mem_of_find?_eq_some hfind)
    simp only
    split_ifs with happroved
    · exact ensures_pure fun _ _ => trivial
    · refine ensures_bind (ensures_loadChildContactInbox hkeys now) fun receipts w₂ _ _ => ?_
      cases hreceipt : receipts.find? fun r => r.id = plan.requestId with
      | none => exact ensures_pure fun _ _ => trivial
      | some receipt =>
        simp only
        split_ifs with hgo
        · have hrid : receipt.id = plan.requestId := by simpa using List.find?_some hreceipt
          exact ensures_answerGo ⟨hx, not_not.mp happroved, hrid, by simpa using hgo⟩
        · exact ensures_pure fun _ _ => trivial
        · exact ensures_pure fun _ _ => trivial

include hasked in
theorem ensures_sendChildCompletionReply (exchangeId contactId : Hex32) (completed sent : ℤ)
    (relays : List JsString) :
    Ensures C (sendChildCompletionReply scope exchangeId contactId completed sent relays) w
      fun _ _ => True := by
  unfold sendChildCompletionReply
  refine ensures_bind ensures_loadChildContactReview fun plans w₁ _ hplanned => ?_
  cases plans.find? fun p => p.exchangeId = exchangeId with
  | none => exact ensures_pure fun _ _ => trivial
  | some plan =>
    simp only
    split_ifs
    · exact ensures_pure fun _ _ => trivial
    · refine ensures_ask_bind fun current w₂ _ => ?_
      split_ifs
      · exact ensures_pure fun _ _ => trivial
      · refine ensures_require_bind fun w₃ _ => ?_
        refine ensures_bind (Q := fun _ w' => Reached C plan.requestId .completed w')
          (ensures_discard (ensures_transitionChildContactReceipt hkeys completed fun a ha => ?_)
            fun _ _ hw hreached => hreached.evolve hw) fun _ w₄ _ hreached => ?_
        · rcases List.mem_cons.mp ha with rfl | ha
          · exact hasked .completePending
          · rw [List.mem_singleton.mp ha]
            exact hasked .completeApproved
        · exact ensures_discard (ensures_sendChildContactReply hkeys fun _ => hreached.justified rfl)
            fun _ _ _ _ => trivial

end Lifecycle

/-! ## The child's side -/

theorem ensures_queueChildContactRequest (hkeys : scope.toPairingKeys = C.keys)
    {raw : ChildContactRequest} (hraw : parseChildContactRequest raw = some request)
    (fingerprint : Hex64) (now : ℤ) :
    Ensures C (queueChildContactRequest scope request fingerprint now) w fun _ _ => True := by
  unfold queueChildContactRequest
  cases hparse : parseChildContactRequest request with
  | none => exact ensures_throw
  | some parsed =>
    refine ensures_throwIf_bind fun hok => ?_
    simp only [Bool.or_eq_false_iff, Bool.not_eq_false', decide_eq_false_iff_not, not_not] at hok
    refine ensures_check_bind fun w₁ _ => ?_
    refine ensures_throwIf_bind fun _ => ?_
    refine ensures_bind (Q := fun _ _ => True) ?_ fun saved w₂ _ _ => ensures_pure fun _ _ => trivial
    exact ensures_commit ⟨hkeys, hok.1.2, hok.1.1.1, hok.1.1.2, request, raw, hraw, hparse⟩
      (fun _ => rfl) (fun _ _ _ => trivial) fun _ _ _ _ _ _ _ => trivial

theorem ensures_attachChildContactRequestEvent (hkeys : scope.toPairingKeys = C.keys)
    (requestId : Hex32) (event : NostrEvent) :
    Ensures C (attachChildContactRequestEvent scope requestId event) w fun _ _ => True := by
  unfold attachChildContactRequestEvent
  refine ensures_throwIf_bind fun _ => ?_
  refine ensures_ask_bind fun current w₁ _ => ?_
  refine ensures_throwIf_bind fun hok => ?_
  simp only [Bool.or_eq_false_iff, Bool.not_eq_false'] at hok
  refine ensures_bind (Q := fun _ _ => True) ?_ fun saved w₂ _ _ => ensures_pure fun _ _ => trivial
  exact ensures_commit ⟨hkeys, hok.1.2, hok.2⟩ (fun _ => rfl) (fun _ _ _ => trivial)
    fun _ _ _ _ _ _ _ => trivial

theorem ensures_submitChildContactRequest (hkeys : scope.toPairingKeys = C.keys) (persona : Hex64)
    (invite : InviteSdk.ContactInvite) (now : ℤ) :
    Ensures C (submitChildContactRequest scope persona invite now) w fun _ _ => True := by
  unfold submitChildContactRequest
  refine ensures_throwIf_bind fun _ => ?_
  refine ensures_check_bind fun w₁ _ => ?_
  refine ensures_ask_bind fun id w₂ _ => ?_
  split
  · exact ensures_throw
  · next request hparse =>
    refine ensures_ask_bind fun fingerprint w₃ _ => ?_
    refine ensures_bind (Q := fun _ _ => True) (ensures_discard
      (ensures_queueChildContactRequest hkeys hparse _ _) fun _ _ _ _ => trivial) fun _ w₄ _ _ => ?_
    refine ensures_check_bind fun w₅ _ => ?_
    refine ensures_ask_bind fun event w₆ _ => ?_
    refine ensures_check_bind fun w₇ _ => ?_
    refine ensures_bind (Q := fun _ _ => True) (ensures_discard
      (ensures_attachChildContactRequestEvent hkeys _ _) fun _ _ _ _ => trivial) fun _ w₈ _ _ => ?_
    exact ensures_ask_bind fun published w₉ _ => ensures_pure fun _ _ => trivial

theorem ensures_receiveChildContactReply (hkeys : scope.toPairingKeys = C.keys) (event : NostrEvent)
    (now : ℤ) {receivedAt : ℤ} (hclock : isSafeInteger receivedAt = true) :
    Ensures C (receiveChildContactReply scope event now receivedAt) w fun _ _ => True := by
  unfold receiveChildContactReply
  refine ensures_ask_bind fun opened w₁ _ => ?_
  obtain ⟨reply, fingerprint⟩ := opened
  refine ensures_onlyIf (fun hopens => ?_) fun _ _ _ => trivial
  refine ensures_check_bind fun w₂ _ => ?_
  simp only [opensReply, Bool.and_eq_true, decide_eq_true_eq] at hopens
  obtain ⟨⟨⟨⟨⟨⟨⟨⟨-, hguardian⟩, hendpoint⟩, hclient⟩, hpersona⟩, -⟩, -⟩, -⟩, -⟩ :=
    (⟨hopens, trivial⟩ : _ ∧ True)
  refine ensures_discard (ensures_commit ⟨hkeys, ?_⟩ (fun _ => rfl) (fun _ _ _ => trivial)
    fun _ _ _ _ _ _ _ => trivial) fun _ _ _ _ => trivial
  simp [acceptsReplyReceipt, ChildContactReply.belongs, hguardian, hendpoint, hclient, hclock]
  simpa using hpersona

/-! ## The operations -/

/-- The operations on the pairing `C.keys`, with any arguments their callers may give. -/
inductive Operation (C : Conduct) : Op Unit → Prop where
  | loadInbox (scope : ChildRequestScope) (hkeys : scope.toPairingKeys = C.keys) (now : ℤ) :
      Operation C (Async.forget (loadChildContactInbox scope now))
  /-- Only a request `openChildContactRequest` returned is stored. -/
  | store (scope : ChildRequestScope) (hkeys : scope.toPairingKeys = C.keys)
      (request raw : ChildContactRequest) (hraw : parseChildContactRequest raw = some request)
      (fingerprint : Hex64) (now : ℤ) :
      Operation C (Async.forget (storeChildContactRequest scope request fingerprint now))
  | transition (scope : ChildRequestScope) (hkeys : scope.toPairingKeys = C.keys)
      (requestId : Hex32) (source : List ChildRequestStatus) (target : ChildRequestStatus) (now : ℤ)
      (hallowed : ∀ a ∈ source, C.transitions a target) :
      Operation C (Async.forget (transitionChildContactReceipt scope requestId source target now))
  | review (scope : ChildRequestScope) (hkeys : scope.toPairingKeys = C.keys) (requestId : Hex32)
      (fingerprint : Hex64) (decision : Decision) (now : ℤ) :
      Operation C (Async.forget (reviewChildContactRequest scope requestId fingerprint decision now))
  | cancelExchange (scope : ChildRequestScope) (hkeys : scope.toPairingKeys = C.keys)
      (requestId : Hex32) (now : ℤ) :
      Operation C (Async.forget (cancelChildContactExchange scope requestId now))
  | execute (scope : ChildRequestScope) (hkeys : scope.toPairingKeys = C.keys) (requestId : Hex32)
      (now : ℤ) : Operation C (Async.forget (executeChildContactPlan scope requestId now))
  | cancelExecution (scope : ChildRequestScope) (hkeys : scope.toPairingKeys = C.keys)
      (exchangeId : Hex32) (now : ℤ) :
      Operation C (Async.forget (cancelChildContactExecution scope exchangeId now))
  | queueReply (scope : ChildRequestScope) (hkeys : scope.toPairingKeys = C.keys) (hown : ¬ C.ownReplies)
      (requestId : Hex32) (event : NostrEvent) (reply : ChildContactReply) (relays : List JsString)
      (now : ℤ) (replaceUnreconciled : Bool) :
      Operation C (Async.forget
        (queueChildContactReply scope requestId event reply relays now replaceUnreconciled))
  | sendReply (scope : ChildRequestScope) (hkeys : scope.toPairingKeys = C.keys) (hown : ¬ C.ownReplies)
      (plan : ChildContactExchangePlan) (status : ChildContactReplyStatus) (now : ℤ)
      (relays : List JsString) (exchangeId contactId : Option Hex32) (replaceUnreconciled : Bool) :
      Operation C (Async.forget (sendChildContactReply scope plan status now relays exchangeId
        contactId replaceUnreconciled))
  | deliver (scope : ChildRequestScope) (hkeys : scope.toPairingKeys = C.keys) (id : Hex32) (now : ℤ) :
      Operation C (Async.forget (deliverChildContactReply scope id now))
  | deliverPending (scope : ChildRequestScope) (hkeys : scope.toPairingKeys = C.keys) (now : ℤ) :
      Operation C (Async.forget (deliverPendingChildContactReplies scope now))
  | decide (scope : ChildRequestScope) (hkeys : scope.toPairingKeys = C.keys) (requestId : Hex32)
      (fingerprint : Hex64) (decision : Decision) (now : DecisionTimes) (relays : List JsString) :
      Operation C (Async.forget
        (decideChildContactRequest scope requestId fingerprint decision now relays))
  | cancel (scope : ChildRequestScope) (hkeys : scope.toPairingKeys = C.keys) (requestId : Hex32)
      (now : ℤ) (relays : Option (List JsString)) :
      Operation C (Async.forget (cancelChildContactRequest scope requestId now relays))
  | reconcile (scope : ChildRequestScope) (hkeys : scope.toPairingKeys = C.keys) (now : ℤ)
      (relays : List JsString) :
      Operation C (Async.forget (reconcileChildContactReplies scope now relays))
  | complete (scope : ChildRequestScope) (hkeys : scope.toPairingKeys = C.keys)
      (exchangeId contactId : Hex32) (completed sent : ℤ) (relays : List JsString) :
      Operation C (Async.forget
        (sendChildCompletionReply scope exchangeId contactId completed sent relays))
  | authority (scope : ChildRequestScope) (hkeys : scope.toPairingKeys = C.keys) (exchangeId : Hex32)
      (now : ℤ) : Operation C (Async.forget (childExchangeAuthority scope exchangeId now))
  /-- Only a request `parseChildContactRequest` returned is queued. -/
  | queueRequest (scope : ChildRequestScope) (hkeys : scope.toPairingKeys = C.keys)
      (request raw : ChildContactRequest) (hraw : parseChildContactRequest raw = some request)
      (fingerprint : Hex64) (now : ℤ) :
      Operation C (Async.forget (queueChildContactRequest scope request fingerprint now))
  | attach (scope : ChildRequestScope) (hkeys : scope.toPairingKeys = C.keys) (requestId : Hex32)
      (event : NostrEvent) :
      Operation C (Async.forget (attachChildContactRequestEvent scope requestId event))
  | submit (scope : ChildRequestScope) (hkeys : scope.toPairingKeys = C.keys) (persona : Hex64)
      (invite : InviteSdk.ContactInvite) (now : ℤ) :
      Operation C (Async.forget (submitChildContactRequest scope persona invite now))
  /-- The clock of the browser reads safe integers. -/
  | receiveReply (scope : ChildRequestScope) (hkeys : scope.toPairingKeys = C.keys)
      (event : NostrEvent) (now receivedAt : ℤ) (hclock : isSafeInteger receivedAt = true) :
      Operation C (Async.forget (receiveChildContactReply scope event now receivedAt))

theorem Ensures.keeps_forget {α : Type} {t : Op α}
    (h : ∀ w, Ensures C t w fun _ _ => True) : (discipline C).Keeps (Async.forget t) :=
  Ensures.keeps fun w => ensures_bind (h w) fun _ _ _ _ => ensures_pure fun _ _ => trivial

/-- **Every operation keeps the discipline.** -/
theorem Operation.keeps (hasked : ∀ {a b}, Asked a b → C.transitions a b) {t : Op Unit}
    (h : Operation C t) : (discipline C).Keeps t := by
  have hweak : ∀ {α : Type} {t : Op α} {w : World} {Q : α → World → Prop}, Ensures C t w Q →
      Ensures C t w fun _ _ => True := fun h => h.mono fun _ _ _ _ => trivial
  cases h with
  | loadInbox scope hkeys now =>
    exact Ensures.keeps_forget fun w => hweak (ensures_loadChildContactInbox hkeys now)
  | store scope hkeys request raw hraw fingerprint now =>
    exact Ensures.keeps_forget fun w => ensures_storeChildContactRequest hkeys hraw fingerprint now
  | transition scope hkeys requestId source target now hallowed =>
    exact Ensures.keeps_forget fun w =>
      hweak (ensures_transitionChildContactReceipt hkeys now hallowed)
  | review scope hkeys requestId fingerprint decision now =>
    exact Ensures.keeps_forget fun w =>
      ensures_reviewChildContactRequest hkeys requestId fingerprint decision now
  | cancelExchange scope hkeys requestId now =>
    exact Ensures.keeps_forget fun w => ensures_cancelChildContactExchange hkeys requestId now
  | execute scope hkeys requestId now =>
    exact Ensures.keeps_forget fun w => ensures_executeChildContactPlan hkeys requestId now
  | cancelExecution scope hkeys exchangeId now =>
    exact Ensures.keeps_forget fun w => ensures_cancelChildContactExecution hkeys exchangeId now
  | queueReply scope hkeys hown requestId event reply relays now replaceUnreconciled =>
    exact Ensures.keeps_forget fun w =>
      ensures_queueChildContactReply hkeys fun h => absurd h hown
  | sendReply scope hkeys hown plan status now relays exchangeId contactId replaceUnreconciled =>
    exact Ensures.keeps_forget fun w => ensures_sendChildContactReply hkeys fun h => absurd h hown
  | deliver scope hkeys id now =>
    exact Ensures.keeps_forget fun w => ensures_deliverChildContactReply hkeys id now
  | deliverPending scope hkeys now =>
    exact Ensures.keeps_forget fun w => ensures_deliverPendingChildContactReplies hkeys now
  | decide scope hkeys requestId fingerprint decision now relays =>
    exact Ensures.keeps_forget fun w => ensures_decideChildContactRequest hkeys hasked requestId
      fingerprint decision now relays
  | cancel scope hkeys requestId now relays =>
    exact Ensures.keeps_forget fun w =>
      ensures_cancelChildContactRequest hkeys hasked requestId now relays
  | reconcile scope hkeys now relays =>
    exact Ensures.keeps_forget fun w => ensures_reconcileChildContactReplies hkeys now relays
  | complete scope hkeys exchangeId contactId completed sent relays =>
    exact Ensures.keeps_forget fun w =>
      ensures_sendChildCompletionReply hkeys hasked exchangeId contactId completed sent relays
  | authority scope hkeys exchangeId now =>
    exact Ensures.keeps_forget fun w => ensures_childExchangeAuthority hkeys exchangeId now
  | queueRequest scope hkeys request raw hraw fingerprint now =>
    exact Ensures.keeps_forget fun w => ensures_queueChildContactRequest hkeys hraw fingerprint now
  | attach scope hkeys requestId event =>
    exact Ensures.keeps_forget fun w => ensures_attachChildContactRequestEvent hkeys requestId event
  | submit scope hkeys persona invite now =>
    exact Ensures.keeps_forget fun w => ensures_submitChildContactRequest hkeys persona invite now
  | receiveReply scope hkeys event now receivedAt hclock =>
    exact Ensures.keeps_forget fun w => ensures_receiveChildContactReply hkeys event now hclock

/-- A run of the operations on one pairing, from empty rows: what was done, the state reached and
the tasks under way. -/
abbrev PairingRun (C : Conduct) := Async.Run (Operation C) World.initial

omit [Signatures] in
theorem invariant_initial : Invariant C World.initial 0 := by
  refine ⟨⟨List.nodup_nil, Nat.zero_le _, List.nodup_nil, ?_, ?_, ?_⟩, fun _ => Nat.le_refl 0⟩
  · intro p hp
    cases hp
  · intro p hp
    cases hp
  · intro _ e he
    cases he

/-- **What a run guarantees**: at its end the rows are tidy and no signer call lacks a reservation;
every action was well founded, and changed the rows only as they may evolve. -/
theorem PairingRun.sound (hasked : ∀ {a b}, Asked a b → C.transitions a b)
    {log : List (Async.Did Action World)} {w : World} {ts : List (Op Unit)}
    (h : PairingRun C log w ts) :
    (Tidy C w ∧ ∀ x, w.signed.count x ≤ w.reserved.count x) ∧
      ∀ did ∈ log, Guarantee C did.before did.label did.after ∧ Evolves C did.before did.after := by
  obtain ⟨hsound, hlog⟩ := Discipline.sound_of_run (D := discipline C) invariant_initial
    (fun t ht => ht.keeps hasked) h
  obtain ⟨g, hinv⟩ := hsound.inv
  exact ⟨⟨hinv.1, fun x => (Nat.le_add_left _ _).trans (hinv.2 x)⟩, hlog⟩

/-- **The induction rule for runs**: what holds before anything was done, and is kept by every
action that is well founded and meets the condition where it is done, holds at the end of a run
whose actions all meet it. -/
theorem PairingRun.induction (hasked : ∀ {a b}, Asked a b → C.transitions a b)
    {P : List (Async.Did Action World) → World → Prop} {condition : World → Action → Prop}
    (hinit : P [] World.initial)
    (hstep : ∀ log w a w', Tidy C w → (∀ x, w.signed.count x ≤ w.reserved.count x) →
      Guarantee C w a w' → Evolves C w w' → condition w a → P log w → P (log ++ [⟨w, a, w'⟩]) w')
    {log : List (Async.Did Action World)} {w : World} {ts : List (Op Unit)}
    (h : PairingRun C log w ts) (hcondition : ∀ did ∈ log, condition did.before did.label) :
    P log w := by
  induction h with
  | init => exact hinit
  | start _ _ ih => exact ih hcondition
  | drop _ ih => exact ih hcondition
  | act c h ih =>
    obtain ⟨htidy, hsigned⟩ := (PairingRun.sound hasked h).1
    obtain ⟨hguarantee, hevolves⟩ := (PairingRun.sound hasked (.act c h)).2 _
      (List.mem_append_right _ (List.mem_singleton_self _))
    refine hstep _ _ _ _ htidy hsigned hguarantee hevolves ?_ (ih fun did hdid => ?_)
    · exact hcondition _ (List.mem_append_right _ (List.mem_singleton_self _))
    · exact hcondition did (List.mem_append_left _ hdid)

end SignetApp.Pairing
