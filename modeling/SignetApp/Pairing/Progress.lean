import SignetApp.Pairing.Readable

/-!
# Operations that succeed

What an operation answers, and the rows it leaves, when it runs alone, the session lasts and the
policy allows it.
-/

namespace SignetApp.Pairing

open SignetApp.Js SignetApp.Contacts

section Steps

variable [InviteSdk] {α β : Type} {w w' : World}

/-- Run alone from `w`, the operation may answer `a` and leave `w'`. -/
abbrev Yields (t : Op α) (w : World) (a : α) (w' : World) : Prop := Async.Alone t w (.ok a) w'

/-! ## Steps -/

theorem yields_pure (a : α) : Yields (pure a) w a w := .done a w

theorem yields_ask (a : α) : Yields (ask α) w a w := Async.Alone.once (.ok a) rfl

theorem yields_read (f : Store → α) : Yields (read f) w (f w.store) w :=
  Async.Alone.once none rfl

variable {c : Change}

theorem yields_commit [Sync.Sha256] [Signatures] (answer : Store → Store → α) {s : Store}
    (h : c.onStore w.store = .ok s) :
    Yields (commit c answer) w (answer w.store s)
      { w with store := s, reserved := w.reserved ++ c.reserves w.store } := by
  have happly : c.apply w
      = .ok { w with store := s, reserved := w.reserved ++ c.reserves w.store } := by
    rw [Change.apply, h]
    rfl
  have hrun : interruptible (fun w => (c.apply w).map fun w' => (answer w.store w'.store, w')) none w
      = (.ok (answer w.store s),
          { w with store := s, reserved := w.reserved ++ c.reserves w.store }) := by
    simp only [interruptible, happly]
    rfl
  have hstep : Async.Alone (commit c answer) w (.ok (answer w.store s)) _ :=
    Async.Alone.once none (congrArg Prod.fst hrun)
  rw [hrun] at hstep
  exact hstep

variable {message : String}

theorem yields_check_bind {f : Unit → Op α} {a : α}
    (h : Yields (f ()) w a w') : Yields (check message >>= f) w a w' :=
  ((yields_ask true).bind (yields_pure ())).bind h

variable {condition : Bool}

theorem yields_throwIf_bind {f : Unit → Op α} {a : α}
    (hc : condition = false) (h : Yields (f ()) w a w') :
    Yields (throwIf condition message >>= f) w a w' := by
  subst hc
  exact h

theorem yields_ofExcept_bind {x : Except String β} {b : β} {f : β → Op α} {a : α}
    (hx : x = .ok b) (h : Yields (f b) w a w') : Yields (Async.ofExcept x >>= f) w a w' := by
  subst hx
  exact h

theorem yields_onlyIf_bind {t : Op Unit} {f : Unit → Op α} {a : α}
    (ht : Yields t w () w) (h : Yields (f ()) w a w') :
    Yields (onlyIf condition t >>= f) w a w' := by
  cases condition with
  | true => exact ht.bind h
  | false => exact h

/-! ## What a step that succeeded did -/

theorem of_yields_bind {t : Op β} {f : β → Op α} {a : α} (h : Yields (t >>= f) w a w') :
    ∃ b w'', Yields t w b w'' ∧ Yields (f b) w'' a w' := by
  obtain ⟨e, -, he⟩ | ⟨b, w'', ht, hf⟩ := Async.Alone.of_bind h
  · cases he
  · exact ⟨b, w'', ht, hf⟩

theorem of_yields_once {γ : Type} {label : Action} {run : γ → World → Except String α × World}
    {a : α} (h : Yields (Async.once label run) w a w') :
    ∃ c, (run c w).1 = .ok a ∧ (run c w).2 = w' := by
  cases h with
  | act c h =>
    refine ⟨c, ?_⟩
    generalize (run c w).1 = o at h
    cases o with
    | error e => cases h
    | ok b =>
      cases h
      exact ⟨rfl, rfl⟩

theorem of_yields_ask {a : α} (h : Yields (ask α) w a w') : w' = w := by
  obtain ⟨c, -, hw⟩ := of_yields_once h
  exact hw.symm

theorem of_yields_throwIf {a : Unit}
    (h : Yields (throwIf condition message) w a w') : condition = false ∧ w' = w := by
  cases condition with
  | true => cases h
  | false =>
    cases h
    exact ⟨rfl, rfl⟩

theorem of_yields_check {a : Unit} (h : Yields (check message) w a w') : w' = w := by
  obtain ⟨allowed, w'', hask, hthrow⟩ := of_yields_bind h
  obtain ⟨-, rfl⟩ := of_yields_throwIf hthrow
  exact of_yields_ask hask

theorem of_yields_commit [Sync.Sha256] [Signatures] {answer : Store → Store → α} {a : α}
    (h : Yields (commit c answer) w a w') : ∃ s, c.onStore w.store = .ok s := by
  obtain ⟨interruption, hok, -⟩ := of_yields_once h
  cases interruption with
  | some e => cases hok
  | none =>
    cases hs : c.onStore w.store with
    | ok s => exact ⟨s, rfl⟩
    | error e =>
      have happly : c.apply w = .error e := by
        rw [Change.apply, hs]
        rfl
      simp only [interruptible, happly, Except.map] at hok
      cases hok

end Steps

/-! ## Changes that are made -/

section Changes

variable [InviteSdk] {scope : ChildRequestScope} {now : ℤ}

/-- The receipt of a request newly stored. -/
def newReceipt (request : ChildContactRequest) (fingerprint : Hex64) (now : ℤ) :
    ChildRequestReceipt :=
  { id := request.id, fingerprint, revision := request.revision, status := .pending,
    updatedAt := now, request := some request }

/-- The inbox once a new request is stored. -/
def stored (scope : ChildRequestScope) (request : ChildContactRequest) (fingerprint : Hex64)
    (now : ℤ) (row : Inbox) : Inbox :=
  { expire row scope now with
    entries := (expire row scope now).entries ++ [newReceipt request fingerprint now] }

theorem storeRequest_eq_ok {request : ChildContactRequest} (fingerprint : Hex64)
    {previous : Option Inbox} {row : Inbox}
    (hp : parseInbox (previous.getD scope.empty) scope = .ok row)
    (hnew : statusOf (expire row scope now).entries request.id = none)
    (hlen : (expire row scope now).entries.length < retainLimit)
    (hpending : ((expire row scope now).entries.filter isPending).length < liveLimit) :
    storeRequest scope request fingerprint now previous
      = .ok (stored scope request fingerprint now row) := by
  rw [statusOf, Option.map_eq_none_iff] at hnew
  rw [storeRequest, hp]
  simp only [Bind.bind, Except.bind, hnew]
  rw [if_neg]
  · rfl
  · simp only [Bool.or_eq_true, decide_eq_true_eq]
    omega

variable {settled : List Hex32}

theorem reviewRequest_eq_ok [Sync.Sha256] (plan : ChildContactExchangePlan)
    {previous : Option ReviewState}
    (hp : parseReview (previous.getD scope.empty) scope = .ok (previous.getD scope.empty))
    (hnew : planOf (entriesOf previous) plan.requestId = none)
    (hlive : ((entriesOf previous).filter fun p => !settled.contains p.requestId).length < liveLimit)
    (hlen : (entriesOf previous).length < retainLimit) :
    ∃ state, reviewRequest scope plan settled previous = .ok state ∧
      state.entries = entriesOf previous ++ [plan] := by
  rw [planOf] at hnew
  rw [reviewRequest, hp]
  simp only [Bind.bind, Except.bind, entriesOf_eq, hnew]
  rw [if_neg (not_le.mpr hlive), if_neg (not_le.mpr hlen)]
  exact ⟨_, rfl, rfl⟩

/-- The rows a reservation keeps. -/
def keptExecutions (plans : List ChildContactExchangePlan) (settled : List Hex32)
    (rows : List ChildContactExecution) : List ChildContactExecution :=
  if liveLimit ≤ rows.length then rows.filter fun e => !finished plans settled e else rows

/-- The row of a reservation. -/
def plannedExecution (plan : ChildContactExchangePlan) (now : ℤ) : ChildContactExecution :=
  { requestId := plan.requestId, exchangeId := plan.exchangeId, status := .planned,
    createdAt := now, updatedAt := now, event := none }

theorem reserve_eq_ok {plan : ChildContactExchangePlan} {plans : List ChildContactExchangePlan} {previous : Option ExecutionState} (now : ℤ)
    (hp : parseExecutions (previous.getD scope.empty) scope = .ok (previous.getD scope.empty))
    (hnew : plan.exchangeId ∉ (entriesOf previous).map (·.exchangeId))
    (hroom : (keptExecutions plans settled (entriesOf previous)).length < liveLimit) :
    ∃ state, reserve scope plan plans settled now previous = .ok (state, true) ∧
      state.entries = keptExecutions plans settled (entriesOf previous)
        ++ [plannedExecution plan now] := by
  have hnone : ((entriesOf previous).find? fun e => e.exchangeId = plan.exchangeId) = none := by
    rw [List.find?_eq_none]
    exact fun e he hx => hnew (List.mem_map.mpr ⟨e, he, of_decide_eq_true hx⟩)
  rw [keptExecutions] at hroom
  rw [reserve, hp]
  simp only [Bind.bind, Except.bind, entriesOf_eq, hnone, Option.isSome_none, Bool.false_eq_true,
    if_false]
  rw [if_neg (not_le.mpr hroom)]
  exact ⟨_, rfl, rfl⟩

omit [InviteSdk] in
theorem recordSigned_eq_ok {row : ExecutionState} {exchangeId : Hex32} (event : NostrEvent)
    (now : ℤ) {current : ChildContactExecution} (hp : parseExecutions row scope = .ok row)
    (hfound : row.entries.find? (fun e => e.exchangeId = exchangeId) = some current)
    (hplanned : current.status = .planned) :
    ∃ state, recordSigned scope exchangeId event now (some row) = .ok state ∧
      state.entries = row.entries.map fun e =>
        if e.exchangeId = exchangeId then
          { e with status := .signed, updatedAt := now, event := some event }
        else e := by
  rw [recordSigned, hp]
  simp only [Bind.bind, Except.bind, hfound, hplanned]
  exact ⟨_, rfl, rfl⟩

omit [InviteSdk] in
theorem queueReply_eq_ok [Signatures] {requestId : Hex32} {event : NostrEvent}
    {reply : ChildContactReply} {relays : List JsString} (replaceUnreconciled : Bool)
    {previous : Option ReplyOutbox}
    (hp : parseReplyOutbox (previous.getD scope.empty) scope = .ok (previous.getD scope.empty))
    (hnew : ∀ e ∈ entriesOf previous, e.id ≠ requestId)
    (hroom : ((entriesOf previous).filter (undelivered now)).length < liveLimit) :
    ∃ state, queueReply scope requestId event reply relays now replaceUnreconciled previous
      = .ok state ∧ queuedEntry requestId event reply relays now ∈ state.entries := by
  have hnone : ((entriesOf previous).find? fun e => e.id = requestId) = none := by
    rw [List.find?_eq_none]
    exact fun e he hx => hnew e he (of_decide_eq_true hx)
  have hkept : (if liveLimit ≤ (entriesOf previous).length then
      (entriesOf previous).filter (undelivered now) else entriesOf previous).length < liveLimit := by
    split_ifs with hfull
    · exact hroom
    · exact not_le.mp hfull
  rw [queueReply, hp]
  simp only [Bind.bind, Except.bind, entriesOf_eq, hnone]
  rw [if_neg (not_le.mpr hkept)]
  exact ⟨_, rfl, List.mem_append_right _ (List.mem_singleton_self _)⟩

theorem queueRequest_eq_ok [Signatures] {request : ChildContactRequest} (fingerprint : Hex64)
    (now : ℤ) {previous : Option Outbox}
    (hp : parseOutbox (previous.getD scope.empty) scope = .ok (previous.getD scope.empty))
    (hnew : ∀ e ∈ entriesOf previous, e.request.id ≠ request.id)
    (hroom : (entriesOf previous).length < liveLimit) :
    ∃ state, queueRequest scope request fingerprint now previous = .ok state ∧
      state.entries = entriesOf previous
        ++ [{ request, fingerprint, event := none, createdAt := now }] := by
  have hnone : ((entriesOf previous).find? fun e => e.request.id = request.id) = none := by
    rw [List.find?_eq_none]
    exact fun e he hx => hnew e he (of_decide_eq_true hx)
  rw [queueRequest, hp]
  simp only [Bind.bind, Except.bind, entriesOf_eq, hnone]
  rw [if_neg (not_le.mpr hroom)]
  exact ⟨_, rfl, rfl⟩

end Changes

/-! ## Operations -/

section Operations

variable [InviteSdk] [Sync.Sha256] [Signatures] {keys : PairingKeys} {w : World}
  {scope : ChildRequestScope} {now : ℤ}

/-- Nothing is overdue: a sweep changes nothing. -/
def Swept (scope : ChildRequestScope) (now : ℤ) (receipts : List ChildRequestReceipt) : Prop :=
  ∀ r ∈ receipts, overdue scope now r = false

variable {row : Inbox}

omit [Sync.Sha256] [Signatures] in
theorem Swept.expire_entries (h : Swept scope now row.entries) :
    (expire row scope now).entries = row.entries := by
  show row.entries.map _ = row.entries
  refine (List.map_congr_left fun r hr => ?_).trans (List.map_id _)
  rw [h r hr]
  rfl

variable (hread : Readable keys w.store) (hscope : scope.toPairingKeys = keys)

include hread hscope

theorem yields_loadChildContactInbox (hvalid : scope.validScope = true) (hnow : stamp now = true)
    (hswept : Swept scope now w.receipts) :
    Yields (loadChildContactInbox scope now) w w.receipts w := by
  unfold loadChildContactInbox
  refine yields_check_bind (yields_throwIf_bind (by rw [hnow]; rfl)
    (yields_throwIf_bind (by rw [hvalid]; rfl) ((yields_read (·.inbox)).bind ?_)))
  cases hrow : w.store.inbox with
  | none =>
    have hnil : w.receipts = [] := by rw [World.receipts, hrow]; rfl
    rw [hnil]
    exact yields_pure []
  | some row =>
    have hentries : w.receipts = row.entries := by rw [World.receipts, hrow]; rfl
    obtain ⟨hbytes, hparse⟩ := hread.inbox row hrow scope hscope
    rw [hentries] at hswept ⊢
    refine yields_throwIf_bind (decide_eq_false (not_lt.mpr hbytes))
      (yields_ofExcept_bind hparse (yields_check_bind ?_))
    rw [hswept.expire_entries, if_pos rfl]
    exact yields_pure _

theorem yields_loadChildContactReplyOutbox :
    Yields (loadChildContactReplyOutbox scope) w w.replies w := by
  unfold loadChildContactReplyOutbox
  refine yields_check_bind ((yields_read (·.replies)).bind ?_)
  cases hrow : w.store.replies with
  | none =>
    have hnil : w.replies = [] := by rw [World.replies, hrow]; rfl
    rw [hnil]
    exact yields_pure []
  | some row =>
    have hentries : w.replies = row.entries := by rw [World.replies, hrow]; rfl
    rw [hentries]
    exact yields_ofExcept_bind (hread.replies row hrow scope hscope)
      (yields_check_bind (yields_pure _))

theorem yields_loadChildContactReview (hpersonas : scope.personas.length ≤ 32) :
    Yields (loadChildContactReview scope) w w.plans w := by
  unfold loadChildContactReview
  refine yields_throwIf_bind (decide_eq_false (not_lt.mpr hpersonas))
    (yields_check_bind ((yields_read (·.review)).bind ?_))
  cases hrow : w.store.review with
  | none =>
    have hnil : w.plans = [] := by rw [World.plans, hrow]; rfl
    rw [hnil]
    exact yields_pure []
  | some row =>
    have hentries : w.plans = row.entries := by rw [World.plans, hrow]; rfl
    rw [hentries]
    exact yields_ofExcept_bind (hread.review row hrow scope hscope)
      (yields_check_bind (yields_pure _))

theorem yields_settledRequestIds (hvalid : scope.validScope = true) (hnow : stamp now = true)
    (hswept : Swept scope now w.receipts) (plans : List ChildContactExchangePlan) :
    Yields (settledRequestIds scope plans now) w (settledAmong plans w.receipts w.replies now) w := by
  unfold settledRequestIds
  cases plans with
  | nil => exact yields_pure []
  | cons p plans =>
    exact (yields_loadChildContactInbox hread hscope hvalid hnow hswept).bind
      ((yields_loadChildContactReplyOutbox hread hscope).bind (yields_pure _))

omit hread hscope in
theorem yields_commit_of_none {α : Type} {c : Change} {answer : Store → Store → α} {s : Store}
    (h : c.onStore w.store = .ok s) (hnone : c.reserves w.store = []) :
    Yields (commit c answer) w (answer w.store s) { w with store := s } := by
  have hcommit := yields_commit answer h
  rw [hnone, List.append_nil] at hcommit
  exact hcommit

variable {fingerprint : Hex64} {request : ChildContactRequest}

omit hread hscope in
theorem yields_storeChildContactRequest (hparse : parseChildContactRequest request = some request)
    (hin : childContactRequestInScope request scope = true) (hvalid : scope.validScope = true)
    (hnow : stamp now = true) (hcreated : request.createdAt ≤ now + 300)
    (hexpires : now < request.expiresAt)
    (hwrite : storeRequest scope request fingerprint now w.store.inbox = .ok row) :
    ∃ a, Yields (storeChildContactRequest scope request fingerprint now) w a
      { w with store := w.store.withInbox row } := by
  unfold storeChildContactRequest
  simp only [hparse]
  have hcommit : (Change.store scope request fingerprint now).onStore w.store
      = .ok (w.store.withInbox row) := by
    rw [Change.onStore, hwrite]
    rfl
  refine ⟨_, yields_throwIf_bind ?_ (yields_check_bind (yields_throwIf_bind (by rw [hvalid]; rfl)
    ((yields_commit_of_none hcommit rfl).bind (yields_check_bind (yields_pure _)))))⟩
  simp only [hin, hnow, Bool.not_true, Bool.false_or, Bool.or_eq_false_iff, decide_eq_false_iff_not]
  omega

/-- The verdict of a review, as its plan keeps it. -/
def Decision.status : Decision → ChildContactReviewStatus
  | .approve => .approved
  | .deny => .denied

variable {receipt : ChildRequestReceipt}

theorem yields_reviewChildContactRequest {decision : Decision} {nonce replySecret : Hex64}
    {state : ReviewState} (hvalid : scope.validScope = true) (hnow : stamp now = true)
    (hswept : Swept scope now w.receipts)
    (hfound : w.receipts.find? (fun r => r.id = request.id) = some receipt)
    (hpending : receipt.status = .pending) (hfingerprint : receipt.fingerprint = fingerprint)
    (hrequest : receipt.request = some request) (hexpires : now < request.expiresAt)
    (hpersona : scope.personas.contains request.persona = true)
    (hwrite : reviewRequest scope (planFor scope request fingerprint decision now nonce replySecret)
      (settledAmong w.plans w.receipts w.replies now) w.store.review = .ok state) :
    Yields (reviewChildContactRequest scope request.id fingerprint decision now) w
      (state.entries.find? fun p => p.requestId = request.id)
      { w with store := w.store.withReview state } := by
  have hpersonas : scope.personas.length ≤ 32 := by
    simp only [ChildRequestScope.validScope, Bool.and_eq_true, decide_eq_true_eq] at hvalid
    exact hvalid.1
  have hreview : ((w.receipts.find? fun r => r.id = request.id).filter fun r =>
      r.status = .pending && r.fingerprint = fingerprint).bind (·.request) = some request := by
    rw [hfound, Option.filter_some, if_pos (by simp [hpending, hfingerprint]), Option.bind_some,
      hrequest]
  have hcommit : (Change.review scope (planFor scope request fingerprint decision now nonce
      replySecret) (settledAmong w.plans w.receipts w.replies now)).onStore w.store
        = .ok (w.store.withReview state) := by
    rw [Change.onStore, hwrite]
    rfl
  unfold reviewChildContactRequest
  refine yields_throwIf_bind (decide_eq_false (not_lt.mpr hpersonas))
    (yields_throwIf_bind (by rw [hnow]; rfl) (yields_check_bind
      ((yields_loadChildContactInbox hread hscope hvalid hnow hswept).bind ?_)))
  simp only [hreview]
  refine yields_throwIf_bind ?_ (yields_onlyIf_bind
    ((yields_ask true).bind (yields_pure ())) (yields_check_bind
      ((yields_loadChildContactReview hread hscope hpersonas).bind
        ((yields_settledRequestIds hread hscope hvalid hnow hswept _).bind (yields_check_bind
          ((yields_ask nonce).bind ((yields_ask replySecret).bind
            ((yields_commit_of_none hcommit rfl).bind (yields_check_bind (yields_pure _))))))))))
  simp only [hpersona, Bool.not_true, Bool.or_false, decide_eq_false_iff_not]
  omega

variable {requestId : Hex32}

variable {event : NostrEvent}

omit hread hscope in
theorem yields_queueChildContactReply
    {reply : ChildContactReply} {relays : List JsString} {replaceUnreconciled : Bool}
    {state : ReplyOutbox} (hmay : mayQueueReply scope requestId event reply relays now = .ok ())
    (hwrite : queueReply scope requestId event reply relays now replaceUnreconciled w.store.replies
      = .ok state) :
    Yields (queueChildContactReply scope requestId event reply relays now replaceUnreconciled) w
      (state.entries.find? fun e => e.id = requestId)
      { w with store := w.store.withReplies state } := by
  have hcommit : (Change.queueReply scope requestId event reply relays now
      replaceUnreconciled).onStore w.store = .ok (w.store.withReplies state) := by
    rw [Change.onStore, hwrite]
    rfl
  unfold queueChildContactReply
  exact yields_ofExcept_bind hmay ((yields_commit_of_none hcommit rfl).bind (yields_pure _))

omit hread hscope in
theorem yields_queueChildContactRequest
    {state : Outbox} (hparse : parseChildContactRequest request = some request)
    (hclient : request.client = scope.client) (hguardian : request.guardian = scope.guardian)
    (hnow : stamp now = true) (hexpires : now < request.expiresAt)
    (hpersonas : scope.personas.length ≤ 32)
    (hwrite : queueRequest scope request fingerprint now w.store.outbox = .ok state) :
    Yields (queueChildContactRequest scope request fingerprint now) w
      (state.entries.find? fun e => e.request.id = request.id)
      { w with store := w.store.withOutbox state } := by
  have hcommit : (Change.queueRequest scope request fingerprint now).onStore w.store
      = .ok (w.store.withOutbox state) := by
    rw [Change.onStore, hwrite]
    rfl
  unfold queueChildContactRequest
  simp only [hparse]
  refine yields_throwIf_bind ?_ (yields_check_bind (yields_throwIf_bind
    (decide_eq_false (not_lt.mpr hpersonas)) ((yields_commit_of_none hcommit rfl).bind
      (yields_pure _))))
  simp only [hclient, hguardian, hnow, ne_eq, not_true_eq_false, decide_false, Bool.not_true,
    Bool.false_or, decide_eq_false_iff_not]
  omega

omit [Sync.Sha256] [Signatures] hread hscope in
theorem yields_sign (plan : ChildContactExchangePlan) (event : NostrEvent) :
    Yields (sign plan) w event { w with signed := w.signed ++ [plan.exchangeId] } :=
  Async.Alone.once (.ok event) rfl

/-- The row of an exchange that was signed. -/
def signedExecution (plan : ChildContactExchangePlan) (event : NostrEvent) (now : ℤ) :
    ChildContactExecution :=
  { plannedExecution plan now with status := .signed, event := some event }

variable {plan : ChildContactExchangePlan}

/-- Where there is room for its row, an approved plan not yet executed is signed. -/
theorem yields_executeChildContactPlan (hvalid : scope.validScope = true) (hnow : stamp now = true)
    (hswept : Swept scope now w.receipts) (hfound : planOf w.plans requestId = some plan)
    (happroved : plan.status = .approved) (hnew : plan.exchangeId ∉ w.executions.map (·.exchangeId))
    (hroom : (keptExecutions w.plans (settledAmong w.plans w.receipts w.replies now)
      w.executions).length < liveLimit) (hevent : parseEvent event = true) :
    ∃ a state, Yields (executeChildContactPlan scope requestId now) w a
      { w with
        store := w.store.withExecution state
        reserved := w.reserved ++ [plan.exchangeId]
        signed := w.signed ++ [plan.exchangeId] } ∧
      Readable keys (w.store.withExecution state) ∧
      state.entries = keptExecutions w.plans (settledAmong w.plans w.receipts w.replies now)
        w.executions ++ [signedExecution plan event now] := by
  have hpersonas : scope.personas.length ≤ 32 := by
    simp only [ChildRequestScope.validScope, Bool.and_eq_true, decide_eq_true_eq] at hvalid
    exact hvalid.1
  have hparse := parseExecutions_getD fun row hrow => hread.execution row hrow scope hscope
  obtain ⟨state, hstate, hentries⟩ := reserve_eq_ok now hparse hnew hroom
  have hcommit : (Change.reserve scope plan w.plans (settledAmong w.plans w.receipts w.replies now)
      now).onStore w.store = .ok (w.store.withExecution state) := by
    rw [Change.onStore, hstate]
    rfl
  have hreserves : (Change.reserve scope plan w.plans (settledAmong w.plans w.receipts w.replies now)
      now).reserves w.store = [plan.exchangeId] := by
    simp only [Change.reserves, hstate]
  have hplanned : state.entries.find? (fun e => e.exchangeId = plan.exchangeId)
      = some (plannedExecution plan now) := by
    rw [hentries, find?_concat_of_key]
    have hnone : (keptExecutions w.plans (settledAmong w.plans w.receipts w.replies now)
        w.executions).find? (fun e => e.exchangeId = plan.exchangeId) = none := by
      rw [List.find?_eq_none]
      intro e he hx
      refine hnew (List.mem_map.mpr ⟨e, ?_, of_decide_eq_true hx⟩)
      rw [keptExecutions] at he
      split_ifs at he
      · exact List.mem_of_mem_filter he
      · exact he
    rw [hnone]
    exact if_pos rfl
  obtain ⟨signed, hsigned, hsignedEntries⟩ := recordSigned_eq_ok event now
    (readsBack_reserve hnow hstate) hplanned rfl
  have hrecord : (Change.recordSigned scope plan.exchangeId event now).onStore
      (w.store.withExecution state) = .ok ((w.store.withExecution state).withExecution signed) := by
    show (recordSigned scope plan.exchangeId event now (some state)).map _ = _
    rw [hsigned]
    rfl
  have hreadable : parseExecutions signed scope = .ok signed := by
    refine readsBack_recordSigned hnow hevent (fun e he hx _ => ?_) hsigned
    have hnodup : ((entriesOf (some state)).map (·.exchangeId)).Nodup :=
      (parseExecutions_eq_ok.mp (readsBack_reserve hnow hstate)).2.2.2.2
    have hsame : e = plannedExecution plan now :=
      List.inj_on_of_nodup_map hnodup he (List.mem_of_find?_eq_some hplanned) hx
    rw [hsame]
    exact le_refl now
  refine ⟨signed.entries.find? fun e => e.exchangeId = plan.exchangeId, signed, ?_,
    hread.withExecution hscope hreadable, ?_⟩
  · have hreserve := yields_commit (fun s s' =>
      (!((Change.reserve scope plan w.plans (settledAmong w.plans w.receipts w.replies now)
        now).reserves s).isEmpty,
        (entriesOf s'.execution).find? fun e => e.exchangeId = plan.exchangeId)) hcommit
    rw [hreserves] at hreserve
    have hanswer : (entriesOf (w.store.withExecution state).execution).find?
        (fun e => e.exchangeId = plan.exchangeId) = some (plannedExecution plan now) := hplanned
    rw [hanswer] at hreserve
    unfold executeChildContactPlan
    refine yields_throwIf_bind (by rw [hnow]; rfl) (yields_check_bind
      ((yields_loadChildContactReview hread hscope hpersonas).bind ?_))
    rw [planOf] at hfound
    simp only [hfound]
    refine yields_throwIf_bind (decide_eq_false (not_not.mpr happroved)) (yields_check_bind
      (yields_check_bind ((yields_loadChildContactReview hread hscope hpersonas).bind
        (((yields_loadChildContactReview hread hscope hpersonas).bind
          (yields_settledRequestIds hread hscope hvalid hnow hswept _)).bind
            (yields_check_bind (hreserve.bind ?_))))))
    refine yields_throwIf_bind rfl ((yields_sign plan event).bind (yields_check_bind
      (yields_throwIf_bind (by rw [hevent]; rfl) (yields_check_bind (yields_check_bind
        ((yields_commit_of_none hrecord rfl).bind (yields_check_bind (yields_pure _))))))))
  · rw [hsignedEntries, hentries, List.map_append]
    congr 1
    · refine (List.map_congr_left fun e he => if_neg fun hx => hnew ?_).trans (List.map_id _)
      refine List.mem_map.mpr ⟨e, ?_, hx⟩
      rw [keptExecutions] at he
      split_ifs at he
      · exact List.mem_of_mem_filter he
      · exact he
    · exact congrArg (fun e => [e]) (if_pos rfl)

theorem yields_store_of_room [LawfulInviteSdk] (fingerprint : Hex64)
    (hparse : parseChildContactRequest request = some request)
    (hin : childContactRequestInScope request scope = true) (hvalid : scope.validScope = true)
    (hnow : stamp now = true) (hcreated : request.createdAt ≤ now + 300)
    (hexpires : now < request.expiresAt) (hswept : Swept scope now w.receipts)
    (hnew : statusOf w.receipts request.id = none) (hlen : w.receipts.length < retainLimit)
    (hpending : (w.receipts.filter isPending).length < liveLimit) :
    ∃ a row, Yields (storeChildContactRequest scope request fingerprint now) w a
        { w with store := w.store.withInbox row } ∧
      row.entries = w.receipts ++ [newReceipt request fingerprint now] ∧
      Readable keys (w.store.withInbox row) := by
  have hp := parseInbox_getD fun row h => (hread.inbox row h scope hscope).2
  have hrow : (w.store.inbox.getD scope.empty).entries = w.receipts := entriesOf_eq _ _
  have hentries : (expire (w.store.inbox.getD scope.empty) scope now).entries = w.receipts := by
    rw [Swept.expire_entries (hrow ▸ hswept), hrow]
  have hwrite := storeRequest_eq_ok fingerprint hp (by rw [hentries]; exact hnew)
    (by rw [hentries]; exact hlen) (by rw [hentries]; exact hpending)
  obtain ⟨a, hyields⟩ := yields_storeChildContactRequest hparse hin hvalid hnow hcreated hexpires
    hwrite
  refine ⟨a, _, hyields, congrArg (· ++ _) hentries, hread.withInbox hscope ?_⟩
  exact readsBack_storeRequest (fun row h => (hread.inbox row h scope hscope).2) hnow hin hparse
    hwrite

theorem yields_review_of_room (hinj : Function.Injective (exchangeId keys))
    (hin : childContactRequestInScope request scope = true) (hvalid : scope.validScope = true)
    (hnow : stamp now = true) (hexpires : now < request.expiresAt)
    (hswept : Swept scope now w.receipts)
    (hfound : w.receipts.find? (fun r => r.id = request.id) = some receipt)
    (hpending : receipt.status = .pending) (hfingerprint : receipt.fingerprint = fingerprint)
    (hrequest : receipt.request = some request) (hnew : planOf w.plans request.id = none)
    (hlive : (w.plans.filter fun p => !(settledAmong w.plans w.receipts w.replies now).contains
      p.requestId).length < liveLimit)
    (hlen : w.plans.length < retainLimit) (decision : Decision) (nonce replySecret : Hex64) :
    ∃ a state, Yields (reviewChildContactRequest scope request.id fingerprint decision now) w a
        { w with store := w.store.withReview state } ∧
      state.entries = w.plans
        ++ [planFor scope request fingerprint decision now nonce replySecret] ∧
      Readable keys (w.store.withReview state) := by
  obtain ⟨state, hstate, hentries⟩ := reviewRequest_eq_ok
    (planFor scope request fingerprint decision now nonce replySecret)
    (parseReview_getD fun row h => hread.review row h scope hscope) hnew hlive hlen
  simp only [childContactRequestInScope, Bool.and_eq_true, decide_eq_true_eq] at hin
  refine ⟨_, state, yields_reviewChildContactRequest hread hscope hvalid hnow hswept hfound hpending
    hfingerprint hrequest hexpires hin.2 hstate, hentries, hread.withReview hscope ?_⟩
  exact readsBack_reviewRequest (hscope ▸ hinj) (acceptsPlan_planFor hnow hin.1.1.1 hin.1.1.2
    hin.1.2) hstate

theorem yields_cancelChildContactExchange
    (hpersonas : scope.personas.length ≤ 32) (hnow : stamp now = true)
    (hfound : planOf w.plans requestId = some plan) (hstatus : plan.status ≠ .cancelled) :
    ∃ a row, Yields (cancelChildContactExchange scope requestId now) w a
        { w with store := w.store.withReview row } ∧
      (row.entries = w.plans.map fun p =>
        if p.requestId = requestId then { p with status := .cancelled, updatedAt := now } else p) ∧
      ((∀ p ∈ w.plans, p.createdAt ≤ now) → Readable keys (w.store.withReview row)) := by
  have hparse := parseReview_getD fun row h => hread.review row h scope hscope
  obtain ⟨row, hrow, hentries⟩ : ∃ row, cancelPlan scope requestId now w.store.review = .ok row ∧
      row.entries = w.plans.map fun p =>
        if p.requestId = requestId then { p with status := .cancelled, updatedAt := now } else p := by
    rw [planOf] at hfound
    rw [cancelPlan, hparse]
    simp only [Bind.bind, Except.bind, entriesOf_eq, hfound]
    rw [if_neg hstatus]
    exact ⟨_, rfl, rfl⟩
  have hcommit : (Change.cancelPlan scope requestId now).onStore w.store
      = .ok (w.store.withReview row) := by
    rw [Change.onStore, hrow]
    rfl
  refine ⟨row.entries.find? fun p => p.requestId = requestId, row, ?_, hentries, fun hclock =>
    hread.withReview hscope (readsBack_cancelPlan hnow (fun p hp _ _ => hclock p hp) hrow)⟩
  unfold cancelChildContactExchange
  exact yields_throwIf_bind (decide_eq_false (not_lt.mpr hpersonas))
    (yields_throwIf_bind (by rw [hnow]; rfl)
      ((yields_commit_of_none hcommit rfl).bind (yields_check_bind (yields_pure _))))

theorem yields_transition_of_pending (hvalid : scope.validScope = true) (hnow : stamp now = true)
    (hswept : Swept scope now w.receipts)
    (hfound : w.receipts.find? (fun r => r.id = requestId) = some receipt)
    (hpending : receipt.status = .pending) {target : ChildRequestStatus} (htarget : target ≠ .pending) :
    ∃ a row, Yields (transitionChildContactReceipt scope requestId [.pending] target now) w a
        { w with store := w.store.withInbox row } ∧
      row.entries = w.receipts.map (fun r =>
        if r.id = requestId then r.settle target (max now r.updatedAt) else r) ∧
      Readable keys (w.store.withInbox row) := by
  obtain ⟨previous, hprevious⟩ : ∃ row, w.store.inbox = some row := by
    cases hrow : w.store.inbox with
    | none =>
      rw [World.receipts, hrow] at hfound
      cases hfound
    | some row => exact ⟨row, rfl⟩
  have hreceipts : w.receipts = previous.entries := by
    rw [World.receipts, hprevious]
    rfl
  rw [hreceipts] at hswept hfound ⊢
  have hparse := (hread.inbox previous hprevious scope hscope).2
  obtain ⟨row, hrow, hentries⟩ : ∃ row,
      transitionReceipt scope requestId [.pending] target now (some previous) = .ok row ∧
        row.entries = previous.entries.map (fun r =>
          if r.id = requestId then r.settle target (max now r.updatedAt) else r) := by
    have hexpired : expire previous scope now = previous := by
      show { previous with entries := (expire previous scope now).entries } = previous
      rw [hswept.expire_entries]
    have hne : receipt.status ≠ target := fun h => htarget (h.symm.trans hpending)
    rw [transitionReceipt, hparse]
    simp only [Bind.bind, Except.bind, hexpired, hfound]
    rw [if_neg hne, if_neg (by simp [hpending])]
    exact ⟨_, rfl, rfl⟩
  have hcommit : (Change.transition scope requestId [.pending] target now).onStore w.store
      = .ok (w.store.withInbox row) := by
    rw [Change.onStore, hprevious, hrow]
    rfl
  refine ⟨row.entries.find? fun r => r.id = requestId, row, ?_, hentries,
    hread.withInbox hscope ?_⟩
  · unfold transitionChildContactReceipt
    exact yields_throwIf_bind (by rw [hvalid]; rfl) (yields_throwIf_bind (by simp [hnow, htarget])
      (yields_check_bind ((yields_commit_of_none hcommit rfl).bind
        (yields_check_bind (yields_pure _)))))
  · have hmoves : ∀ a ∈ [ChildRequestStatus.pending], Moves (fun _ _ => True) a target := by
      intro a ha
      exact .transition trivial htarget
    refine readsBack_transitionReceipt ?_ hnow hmoves hrow
    rintro _ ⟨⟩
    exact hparse

end Operations

/-! ## A pairing for examples -/

/-- Invites for examples, each by its recipient. -/
@[reducible] def sampleInvites : InviteSdk where
  ContactInvite := Hex64
  recipient := id
  expiresAt _ := none
  jsonBytes _ := 900
  parseContactInvite := some

/-- Signatures for examples: every event counts as signed. -/
@[reducible] def sampleSignatures : Signatures where
  verifyEvent _ := true

/-- A hash for examples: the hexadecimal digits its text ends in, then zeros. -/
@[reducible] def echoSha256 : Sync.Sha256 where
  hex s :=
    if h : isHexOf 32 (s.drop (s.length - 32)) = true then
      ⟨s.drop (s.length - 32) ++ (Hex.repeated 32 0).val, by
        have hz := (Hex.repeated 32 0).property
        rw [isHexOf, Bool.and_eq_true, beq_iff_eq] at h hz ⊢
        exact ⟨by rw [List.length_append, h.1, hz.1], by rw [List.all_append, h.2, hz.2]; rfl⟩⟩
    else Hex.repeated 64 0

theorem tagOfHash_echo (front : JsString) (id : Hex32) :
    Sync.tagOfHash (echoSha256.hex (front ++ id.val)) = id := by
  have hlen : id.val.length = 32 := by
    have h := id.property
    rw [isHexOf, Bool.and_eq_true, beq_iff_eq] at h
    exact h.1
  have hdrop : (front ++ id.val).drop ((front ++ id.val).length - 32) = id.val := by
    rw [List.length_append, hlen, Nat.add_sub_cancel, List.drop_left]
  have hhex : (echoSha256.hex (front ++ id.val)).val = id.val ++ (Hex.repeated 32 0).val := by
    have h : isHexOf 32 ((front ++ id.val).drop ((front ++ id.val).length - 32)) = true := by
      rw [hdrop]
      exact id.property
    exact (congrArg Subtype.val (dif_pos h)).trans (congrArg (· ++ _) hdrop)
  apply Subtype.ext
  show (echoSha256.hex _).val.take 32 = id.val
  rw [hhex]
  exact List.take_left' hlen

theorem exchangeId_echo (keys : PairingKeys) (id : Hex32) :
    @exchangeId echoSha256 keys id = id := by
  unfold exchangeId
  exact tagOfHash_echo _ id

theorem exchangeId_echo_injective (keys : PairingKeys) :
    Function.Injective (@exchangeId echoSha256 keys) := by
  intro a b h
  rwa [exchangeId_echo, exchangeId_echo] at h

theorem lawful_sampleInvites : @LawfulInviteSdk sampleInvites :=
  @LawfulInviteSdk.mk sampleInvites fun _ => rfl

def sampleScope : ChildRequestScope where
  guardian := Hex.repeated 64 1
  child := Hex.repeated 64 2
  endpoint := Hex.repeated 64 3
  client := Hex.repeated 64 4
  personas := [Hex.repeated 64 5]

/-- Ids told apart by their first digits, up to 32. -/
def sampleId (n : ℕ) : Hex32 :=
  ⟨List.replicate (min n 32) (hexDigit 10) ++ List.replicate (32 - n) (hexDigit 11), by
    rw [isHexOf, Bool.and_eq_true, beq_iff_eq, List.all_append, List.length_append,
      List.length_replicate, List.length_replicate]
    refine ⟨by omega, ?_⟩
    simp [isHexDigit_hexDigit]⟩

theorem sampleId_inj {m n : ℕ} (hm : m ≤ 32) (hn : n ≤ 32) (h : sampleId m = sampleId n) :
    m = n := by
  have hcount := congrArg (fun s : Hex32 => s.val.count (hexDigit 10)) h
  have hne : hexDigit 11 ≠ hexDigit 10 := by decide
  simp only [sampleId, List.count_append, List.count_replicate_self, List.count_replicate,
    beq_eq_false_iff_ne.mpr hne, Bool.false_eq_true, if_false, Nat.add_zero] at hcount
  omega

def sampleEvent : NostrEvent where
  id := (Hex.repeated 64 0).val
  pubkey := (Hex.repeated 64 0).val
  kind := 0
  createdAt := 0
  tags := []
  content := []
  sig := (Hex.repeated 128 0).val

theorem parseEvent_sampleEvent : parseEvent sampleEvent = true := by
  simp only [parseEvent, sampleEvent, (Hex.repeated 64 0).property, (Hex.repeated 128 0).property,
    Bool.true_and, Bool.and_true]
  decide

section Sample

attribute [local instance] sampleInvites sampleSignatures echoSha256

def sampleRequest (n : ℕ) (createdAt expiresAt : ℤ) : ChildContactRequest :=
  { id := sampleId n, guardian := sampleScope.guardian, endpoint := sampleScope.endpoint,
    client := sampleScope.client, persona := Hex.repeated 64 5, revision := 1, createdAt, expiresAt,
    invite := Hex.repeated 64 6 }

theorem parse_sampleRequest (n : ℕ) {t u : ℤ} (ht : stamp t = true) (hu : stamp u = true)
    (h : t < u) (hlife : u ≤ t + ttl) :
    parseChildContactRequest (sampleRequest n t u) = some (sampleRequest n t u) := by
  have hbytes : ¬ maxBytes < requestBytes (sampleRequest n t u) := by
    have h1 : numeralLength 1 ≤ 12 := numeralLength_le rfl
    have ht : numeralLength t ≤ 12 := numeralLength_le ht
    have hu : numeralLength u ≤ 12 := numeralLength_le hu
    show ¬ 12000 < 404 + numeralLength 1 + numeralLength t + numeralLength u + 900
    omega
  have hne : (Hex.repeated 64 6 : Hex64) ≠ Hex.repeated 64 5 := by decide
  rw [parseChildContactRequest, if_neg hbytes, if_neg]
  · show (if _ then none else some (sampleRequest n t u)) = _
    exact if_neg (by simp [sampleRequest, InviteSdk.recipient, InviteSdk.expiresAt, hne])
  · simp only [Bool.or_eq_true, Bool.not_eq_true', decide_eq_true_eq, not_or, Bool.not_eq_false]
    exact ⟨⟨⟨⟨⟨rfl, lt_irrefl 1⟩, ht⟩, hu⟩, not_le.mpr h⟩, by
      show ¬ ttl < u - t
      omega⟩

theorem inScope_sampleRequest (n : ℕ) (t u : ℤ) :
    childContactRequestInScope (sampleRequest n t u) sampleScope = true := by
  simp [childContactRequestInScope, sampleRequest, sampleScope]

/-- A key for examples. -/
abbrev sampleKey : Hex64 := Hex.repeated 64 0

def lateExpiry (_ : ℕ) : ℤ := 600

section Filled

-- When the requests expire.
variable (expires : ℕ → ℤ)

def sampleReceipt (n : ℕ) : ChildRequestReceipt :=
  newReceipt (sampleRequest n 0 (expires n)) sampleKey 10

def samplePlan (n : ℕ) : ChildContactExchangePlan :=
  planFor sampleScope (sampleRequest n 0 (expires n)) sampleKey .approve 10 sampleKey sampleKey

theorem sampleExchange (n : ℕ) : (samplePlan expires n).exchangeId = sampleId n := exchangeId_echo _ _

/-- The rows once requests were stored, approved and signed at 10, each kind from the first on. -/
structure Filled (stored approved signed : ℕ) (w : World) : Prop where
  readable : Readable sampleScope.toPairingKeys w.store
  receipts : w.receipts = (List.range stored).map (sampleReceipt expires)
  plans : w.plans = (List.range approved).map (samplePlan expires)
  executions : w.executions = (List.range signed).map fun n =>
    signedExecution (samplePlan expires n) sampleEvent 10
  replies : w.replies = []

variable {expires} {n : ℕ} {w : World} (hexpires : ∀ n, 10 < expires n ∧ expires n ≤ ttl)

theorem filled_initial : Filled expires 0 0 0 World.initial where
  readable := readable_initial
  receipts := rfl
  plans := rfl
  executions := rfl
  replies := rfl

variable {m : ℕ}

theorem find?_range_map {α : Type} (f : ℕ → α) (key : α → Hex32) (hkey : ∀ n, key (f n) = sampleId n) (hm : m ≤ 33) {n : ℕ} (hn : n ≤ 32) :
    ((List.range m).map f).find? (fun a => key a = sampleId n)
      = if n < m then some (f n) else none := by
  induction m with
  | zero => rfl
  | succ m ih =>
    rw [List.range_succ, List.map_append, List.map_singleton, find?_concat_of_key, ih (by omega),
      hkey]
    rcases lt_trichotomy n m with h | h | h
    · rw [if_pos h, if_pos (show n < m + 1 by omega)]
      rfl
    · rw [h, if_neg (lt_irrefl m), if_pos rfl, if_pos (Nat.lt_succ_self m)]
      rfl
    · rw [if_neg (show ¬ n < m by omega), if_neg (fun hid => ?_), if_neg (show ¬ n < m + 1 by omega)]
      · rfl
      · have := sampleId_inj (by omega) hn hid
        omega

theorem find?_sampleReceipt (hm : m ≤ 33) (hn : n ≤ 32) :
    ((List.range m).map (sampleReceipt expires)).find? (fun r => r.id = sampleId n)
      = if n < m then some (sampleReceipt expires n) else none :=
  find?_range_map _ ChildRequestReceipt.id (fun _ => rfl) hm hn

theorem planOf_samplePlan (hm : m ≤ 33) (hn : n ≤ 32) :
    planOf ((List.range m).map (samplePlan expires)) (sampleId n)
      = if n < m then some (samplePlan expires n) else none :=
  find?_range_map _ ChildContactExchangePlan.requestId (fun _ => rfl) hm hn

include hexpires

theorem stamp_expires : stamp (expires n) = true := by
  have := hexpires n
  exact stamp_iff.mpr ⟨by omega, this.2.trans (by decide)⟩

theorem parse_expires : parseChildContactRequest (sampleRequest n 0 (expires n))
    = some (sampleRequest n 0 (expires n)) := by
  have := hexpires n
  exact parse_sampleRequest n rfl (stamp_expires hexpires) (by omega) (by omega)

theorem Filled.swept {r p e : ℕ} (h : Filled expires r p e w) : Swept sampleScope 10 w.receipts := by
  intro x hx
  rw [h.receipts] at hx
  obtain ⟨m, -, rfl⟩ := List.mem_map.mp hx
  have hm := (hexpires m).1
  have hlate : ¬ expires m ≤ 10 := not_le.mpr hm
  simp [overdue, sampleReceipt, newReceipt, sampleRequest, sampleScope, hlate]

omit hexpires in
theorem lateExpiry_lt : ∀ n : ℕ, 10 < lateExpiry n ∧ lateExpiry n ≤ ttl :=
  fun _ => ⟨show (10 : ℤ) < 600 by decide, le_refl _⟩

theorem Filled.store (h : Filled expires n n n w) (hn : n < 32) :
    ∃ a row, Yields (storeChildContactRequest sampleScope (sampleRequest n 0 (expires n)) sampleKey
        10) w a { w with store := w.store.withInbox row } ∧
      Filled expires (n + 1) n n { w with store := w.store.withInbox row } := by
  have := lawful_sampleInvites
  have hnew : statusOf w.receipts (sampleId n) = none := by
    rw [statusOf, h.receipts, find?_sampleReceipt (by omega) hn.le,
      if_neg (lt_irrefl n)]
    rfl
  have hlen : w.receipts.length = n := by rw [h.receipts, List.length_map, List.length_range]
  have hpending := List.length_filter_le isPending w.receipts
  obtain ⟨a, row, hyields, hentries, hreadable⟩ := yields_store_of_room h.readable rfl sampleKey
    (parse_expires hexpires) (inScope_sampleRequest n 0 (expires n)) rfl rfl
    (show (0 : ℤ) ≤ 10 + 300 by omega) (hexpires n).1 (h.swept hexpires) hnew
    (show w.receipts.length < 1024 by omega) (hpending.trans_lt (hlen.trans_lt hn))
  refine ⟨a, row, hyields, hreadable, ?_, h.plans, h.executions, h.replies⟩
  rw [List.range_succ, List.map_append]
  exact hentries.trans (congrArg (· ++ _) h.receipts)

theorem Filled.review (h : Filled expires (n + 1) n n w) (hn : n < 32) :
    ∃ a row, Yields (reviewChildContactRequest sampleScope (sampleId n) sampleKey .approve 10) w a
        { w with store := w.store.withReview row } ∧
      Filled expires (n + 1) (n + 1) n { w with store := w.store.withReview row } := by
  have hfound : w.receipts.find? (fun r => r.id = sampleId n) = some (sampleReceipt expires n) := by
    rw [h.receipts, find?_sampleReceipt (by omega) hn.le,
      if_pos (Nat.lt_succ_self n)]
  have hnew : planOf w.plans (sampleId n) = none := by
    rw [h.plans, planOf_samplePlan (by omega) hn.le,
      if_neg (lt_irrefl n)]
  have hlen : w.plans.length = n := by rw [h.plans, List.length_map, List.length_range]
  have hlive := List.length_filter_le (fun p : ChildContactExchangePlan =>
    !(settledAmong w.plans w.receipts w.replies 10).contains p.requestId) w.plans
  obtain ⟨a, row, hyields, hentries, hreadable⟩ := yields_review_of_room h.readable rfl
    (exchangeId_echo_injective _) (inScope_sampleRequest n 0 (expires n)) rfl rfl (hexpires n).1
    (h.swept hexpires) hfound rfl rfl rfl hnew (hlive.trans_lt (hlen.trans_lt hn))
    (show w.plans.length < 1024 by omega) .approve sampleKey sampleKey
  refine ⟨a, row, hyields, hreadable, h.receipts, ?_, h.executions, h.replies⟩
  rw [List.range_succ, List.map_append]
  exact hentries.trans (congrArg (· ++ _) h.plans)

theorem Filled.execute (h : Filled expires (n + 1) (n + 1) n w) (hn : n < 32) :
    ∃ a w', Yields (executeChildContactPlan sampleScope (sampleId n) 10) w a w' ∧
      Filled expires (n + 1) (n + 1) (n + 1) w' ∧ w'.signed = w.signed ++ [sampleId n] := by
  have hfound : planOf w.plans (sampleId n) = some (samplePlan expires n) := by
    rw [h.plans, planOf_samplePlan (by omega) hn.le,
      if_pos (Nat.lt_succ_self n)]
  have hid := sampleExchange expires
  have hnew : (samplePlan expires n).exchangeId ∉ w.executions.map (·.exchangeId) := by
    rw [h.executions, List.map_map]
    intro hmem
    obtain ⟨m, hm, hmn⟩ := List.mem_map.mp hmem
    have hm := List.mem_range.mp hm
    have := sampleId_inj (by omega) (by omega) ((hid m).symm.trans (hmn.trans (hid n)))
    omega
  have hlen : w.executions.length = n := by
    rw [h.executions, List.length_map, List.length_range]
  have hkept : keptExecutions w.plans (settledAmong w.plans w.receipts w.replies 10) w.executions
      = w.executions := by
    rw [keptExecutions, if_neg (not_le.mpr (hlen.trans_lt hn))]
  obtain ⟨a, row, hyields, hreadable, hentries⟩ := yields_executeChildContactPlan h.readable rfl rfl
    rfl (h.swept hexpires) hfound rfl hnew (by rw [hkept]; exact hlen.trans_lt hn) parseEvent_sampleEvent
  refine ⟨a, _, hyields, ⟨hreadable, h.receipts, h.plans, ?_, h.replies⟩,
    congrArg (w.signed ++ [·]) (hid n)⟩
  rw [List.range_succ, List.map_append]
  exact hentries.trans (congrArg (· ++ _) (hkept.trans h.executions))

section Runs

variable {C : Conduct} (hkeys : C.keys = sampleScope.toPairingKeys)

include hkeys

variable {log : List (Async.Did Action World)}

theorem Filled.run_store (hrun : PairingRun C log w []) (h : Filled expires n n n w) (hn : n < 32) :
    ∃ log w', PairingRun C log w' [] ∧ Filled expires (n + 1) n n w' ∧ w'.signed = w.signed := by
  obtain ⟨a, row, hyields, h'⟩ := h.store hexpires hn
  obtain ⟨log', hrun'⟩ := hrun.alone hyields (.store sampleScope hkeys.symm _ _
    (parse_expires hexpires) sampleKey 10)
  exact ⟨_, _, hrun', h', rfl⟩

theorem Filled.run_review (hrun : PairingRun C log w [])
    (h : Filled expires (n + 1) n n w) (hn : n < 32) :
    ∃ log w', PairingRun C log w' [] ∧ Filled expires (n + 1) (n + 1) n w' ∧
      w'.signed = w.signed := by
  obtain ⟨a, row, hyields, h'⟩ := h.review hexpires hn
  obtain ⟨log', hrun'⟩ := hrun.alone hyields
    (.review sampleScope hkeys.symm (sampleId n) sampleKey .approve 10)
  exact ⟨_, _, hrun', h', rfl⟩

theorem exists_run_filled (hn : n ≤ 32) :
    ∃ log w, PairingRun C log w [] ∧ Filled expires n n n w ∧
      w.signed = (List.range n).map sampleId := by
  induction n with
  | zero => exact ⟨[], World.initial, .init, filled_initial, rfl⟩
  | succ n ih =>
    obtain ⟨log, w, hrun, h, hsigned⟩ := ih (by omega)
    obtain ⟨log₁, w₁, hrun₁, h₁, hsigned₁⟩ := h.run_store hexpires hkeys hrun hn
    obtain ⟨log₂, w₂, hrun₂, h₂, hsigned₂⟩ := h₁.run_review hexpires hkeys hrun₁ hn
    obtain ⟨a, w₃, hyields, h₃, hsigned₃⟩ := h₂.execute hexpires hn
    obtain ⟨log₃, hrun₃⟩ := hrun₂.alone hyields (.execute sampleScope hkeys.symm (sampleId n) 10)
    refine ⟨_, w₃, hrun₃, h₃, ?_⟩
    rw [hsigned₃, hsigned₂, hsigned₁, hsigned, List.range_succ, List.map_append]
    rfl

end Runs

end Filled

end Sample

end SignetApp.Pairing
