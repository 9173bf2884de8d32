import SignetApp.Pairing.Progress

/-!
# Rows that read back, and queues that recover

A row stays readable while the clock does not run backwards under it. Once all that came before has
expired, was completed or was delivered, a fresh request finds room in four of the five bounded
rows, unless a cancelled plan left its receipt approved or delivered replies have not expired. The
child's outbox frees no slot.
-/

namespace SignetApp.Pairing

open SignetApp.Js SignetApp.Contacts

/-! ## Rows that read back -/

section Sample

attribute [local instance] sampleInvites sampleSignatures echoSha256

end Sample

/-! ## Queues at rest -/

section Rest

variable [InviteSdk] {keys : PairingKeys} {w : World} {scope : ChildRequestScope} {now : ℤ}
  {request : ChildContactRequest} {fingerprint : Hex64}

/-- Every earlier request has expired, every approved plan was completed or cancelled, and every
queued reply has expired or was delivered. -/
structure AtRest (w : World) (now : ℤ) : Prop where
  receipts_length : w.receipts.length < retainLimit
  receipts : ∀ r ∈ w.receipts, ∀ q ∈ r.request, q.expiresAt ≤ now
  plans : ∀ p ∈ w.plans, p.request.expiresAt ≤ now
  outbox : ∀ e ∈ entriesOf w.store.outbox, e.request.expiresAt ≤ now
  completed : ∀ p ∈ w.plans, p.status = .approved →
    statusOf w.receipts p.requestId = some .completed
  replies : ∀ e ∈ w.replies, e.acknowledged = true ∨ ∃ r ∈ e.reply, r.expiresAt ≤ now

/-- A current request of this scope that no row knows. -/
structure Fresh [Sync.Sha256] (w : World) (scope : ChildRequestScope) (request : ChildContactRequest)
    (now : ℤ) : Prop where
  parsed : parseChildContactRequest request = some request
  inScope : childContactRequestInScope request scope = true
  created : request.createdAt ≤ now + 300
  expires : now < request.expiresAt
  receipts : statusOf w.receipts request.id = none
  executions : exchangeId scope.toPairingKeys request.id ∉ w.executions.map (·.exchangeId)
  replies : ∀ e ∈ w.replies, e.id ≠ request.id
  outbox : ∀ e ∈ entriesOf w.store.outbox, e.request.id ≠ request.id

/-- The plans whose receipt is still approved. -/
def awaiting (w : World) : List ChildContactExchangePlan :=
  w.plans.filter fun p => statusOf w.receipts p.requestId = some .approved

/-! ## Receipts after a sweep -/

theorem statusOf_expire {row : Inbox} {id : Hex32} :
    statusOf (expire row scope now).entries id
      = (row.entries.find? fun r => r.id = id).map fun r =>
          if overdue scope now r then .expired else r.status := by
  show statusOf (row.entries.map fun r => if overdue scope now r then r.settle .expired now else r)
    id = _
  rw [statusOf, find?_map_of_key (fun r => by split_ifs <;> rfl), Option.map_map]
  congr 1
  funext r
  show (if overdue scope now r then r.settle .expired now else r).status = _
  split_ifs <;> rfl

variable {r : ChildRequestReceipt}

theorem overdue_of_expired (h : ∀ q ∈ r.request, q.expiresAt ≤ now) :
    overdue scope now r = isPending r := by
  rw [overdue]
  have hall : (r.request.all fun q => q.expiresAt ≤ now || !scope.personas.contains q.persona)
      = true := by
    cases hr : r.request with
    | none => rfl
    | some q =>
      have := h q hr
      simp [this]
  rw [hall, Bool.and_true]

theorem isPending_expire {row : Inbox} (h : ∀ r ∈ row.entries, ∀ q ∈ r.request, q.expiresAt ≤ now) :
    ∀ r ∈ (expire row scope now).entries, isPending r = false := by
  intro x hx
  obtain ⟨r, hr, rfl⟩ := List.mem_map.mp hx
  rw [overdue_of_expired (h r hr)]
  split_ifs with hp
  · rfl
  · simpa using hp

theorem swept_stored {row : Inbox} (h : ∀ r ∈ row.entries, ∀ q ∈ r.request, q.expiresAt ≤ now)
    (hexpires : now < request.expiresAt) (hpersona : scope.personas.contains request.persona = true) :
    Swept scope now (stored scope request fingerprint now row).entries := by
  intro r hr
  rcases List.mem_append.mp hr with hr | hr
  · rw [overdue, isPending_expire h r hr, Bool.false_and]
  · rw [List.mem_singleton.mp hr]
    simp only [overdue, newReceipt, Option.all_some, hpersona, Bool.not_true, Bool.or_false,
      Bool.and_eq_false_iff, decide_eq_false_iff_not]
    exact .inr (by omega)

/-! ## Settled plans -/

variable {p : ChildContactExchangePlan}

theorem childContactPlanSettled_at_rest
    {entry : Option ChildContactReplyOutboxEntry} (hpending : r.status ≠ .pending)
    (happroved : r.status ≠ .approved) (hcompleted : p.status = .approved → r.status = .completed)
    (hexpired : p.request.expiresAt ≤ now)
    (hentry : ∀ e ∈ entry, e.acknowledged = true ∨ ∃ q ∈ e.reply, q.expiresAt ≤ now) :
    childContactPlanSettled p (some r) entry now = true := by
  rw [childContactPlanSettled, if_neg (by simp [hpending, happroved]), if_neg]
  · simp only [Option.bind_some]
    split
    · next found hfound =>
      obtain ⟨hmem, -⟩ := Option.filter_eq_some_iff.mp hfound
      rcases hentry found hmem with hack | ⟨q, hq, hle⟩
      · rw [hack]
        rfl
      · rw [Option.mem_def] at hq
        simp [hq, hle]
    · simp [hexpired]
  · intro h
    simp only [Option.any_some, Bool.and_eq_true, decide_eq_true_eq, Bool.not_eq_true',
      decide_eq_false_iff_not] at h
    exact h.2 (hcompleted h.1)

variable (scope request fingerprint) in
/-- Once the fresh request is stored, every plan that is not awaiting completion is settled. -/
theorem mem_settledAmong (hrest : AtRest w now) {row : Inbox} (hrow : row.entries = w.receipts)
    {plans : List ChildContactExchangePlan} (hp : p ∈ w.plans)
    (hmem : p ∈ plans) (hreceived : (statusOf w.receipts p.requestId).isSome)
    (hawaiting : p ∉ awaiting w) :
    p.requestId ∈ settledAmong plans (stored scope request fingerprint now row).entries w.replies
      now := by
  refine List.mem_map.mpr ⟨p, List.mem_filter.mpr ⟨hmem, ?_⟩, rfl⟩
  rw [statusOf, Option.isSome_map] at hreceived
  obtain ⟨r, hr⟩ := Option.isSome_iff_exists.mp hreceived
  have hstatus : statusOf w.receipts p.requestId = some r.status := by
    rw [statusOf, hr]
    rfl
  have hnot : r.status ≠ .approved := fun h =>
    hawaiting (List.mem_filter.mpr ⟨hp, by rw [hstatus, h]; exact decide_eq_true rfl⟩)
  have hover : overdue scope now r = isPending r :=
    overdue_of_expired (hrest.receipts r (List.mem_of_find?_eq_some hr))
  have hfind : (stored scope request fingerprint now row).entries.find?
      (fun x => x.id = p.requestId)
        = some (if isPending r then r.settle .expired now else r) := by
    rw [stored, List.find?_append]
    show ((row.entries.map fun r => if overdue scope now r then r.settle .expired now else r).find?
      _).or _ = _
    rw [find?_map_of_key (fun r => by split_ifs <;> rfl), hrow, hr, Option.map_some, hover]
    rfl
  rw [hfind]
  refine childContactPlanSettled_at_rest ?_ ?_ (fun happroved => ?_) (hrest.plans p hp)
    fun e he => hrest.replies e (List.mem_of_find?_eq_some he)
  · split_ifs with h
    · exact ChildRequestStatus.noConfusion
    · simpa [isPending] using h
  · split_ifs
    · exact ChildRequestStatus.noConfusion
    · exact hnot
  · have hdone := hrest.completed p hp happroved
    rw [hstatus] at hdone
    have hcompleted : r.status = .completed := Option.some.inj hdone
    rw [if_neg (by simp [isPending, hcompleted])]
    exact hcompleted

end Rest

section Recovery

variable [InviteSdk] [Sync.Sha256] [Signatures] {C : Conduct} {w : World} {scope : ChildRequestScope}
  {now : ℤ} {request : ChildContactRequest} {fingerprint : Hex64}

omit [Signatures] in
theorem Tidy.plans_length_le (h : Tidy C w) : w.plans.length ≤ w.receipts.length := by
  have hsub : w.plans.map (·.requestId) ⊆ w.receipts.map (·.id) := by
    intro x hx
    obtain ⟨p, hp, rfl⟩ := List.mem_map.mp hx
    exact statusOf_isSome_iff.mp (h.plans_received p hp)
  have hlen := (List.subperm_of_subset h.plans_nodup hsub).length_le
  rwa [List.length_map, List.length_map] at hlen

/-- The operations on a fresh request, one after the other: the child queues it, the guardian stores
and reviews it, executes it if it was approved, and queues a reply. -/
def Recovers (scope : ChildRequestScope) (request : ChildContactRequest) (sent fingerprint : Hex64)
    (decision : Decision) (now : ℤ) (event : NostrEvent) (reply : ChildContactReply)
    (relays : List JsString) (w : World) : Prop :=
  ∃ w₁ w₂ w₃ w₄ w₅,
    (∃ a, Yields (queueChildContactRequest scope request sent now) w a w₁) ∧
    (∃ a, Yields (storeChildContactRequest scope request fingerprint now) w₁ a w₂) ∧
    (∃ a, Yields (reviewChildContactRequest scope request.id fingerprint decision now) w₂ a w₃) ∧
    (if decision = .approve then
      ∃ a, Yields (executeChildContactPlan scope request.id now) w₃ a w₄
    else w₄ = w₃) ∧
    ∃ a, Yields (queueChildContactReply scope request.id event reply relays now false) w₄ a w₅

section Stages

variable {keys : PairingKeys} {u : World} {row : Inbox} (htidy : Tidy keys.exported w)
  (hrest : AtRest w now) (hfresh : Fresh w scope request now) (hrow : row.entries = w.receipts)
  (hread : Readable keys u.store) (hscope : scope.toPairingKeys = keys)
  (hvalid : scope.validScope = true) (hnow : stamp now = true)
  (hreceipts : u.receipts = (stored scope request fingerprint now row).entries)
  (hreplies : u.replies = w.replies) (hawaiting : (awaiting w).length < liveLimit)

include hfresh in
omit [Signatures] in
theorem contains_persona : scope.personas.contains request.persona = true := by
  have h := hfresh.inScope
  simp only [childContactRequestInScope, Bool.and_eq_true] at h
  exact h.2

include hrest hfresh hrow hreceipts in
omit [Signatures] in
theorem swept_of_stored : Swept scope now u.receipts := by
  rw [hreceipts]
  exact swept_stored (fun r hr => hrest.receipts r (hrow ▸ hr)) hfresh.expires
    (contains_persona hfresh)

include hfresh hrow hreceipts in
omit [Signatures] in
theorem find?_stored : u.receipts.find? (fun r => r.id = request.id)
    = some (newReceipt request fingerprint now) := by
  have hnone : (expire row scope now).entries.find? (fun r => r.id = request.id) = none := by
    have h := hfresh.receipts
    rw [statusOf, Option.map_eq_none_iff] at h
    show (row.entries.map _).find? _ = none
    rw [find?_map_of_key (fun r => by split_ifs <;> rfl), hrow, h]
    rfl
  rw [hreceipts, stored, find?_concat_of_key, hnone]
  exact if_pos rfl

include htidy hrest hfresh hrow hread hscope hvalid hnow hreceipts hreplies hawaiting in
/-- A review finds room for the plan of the request. -/
theorem yields_review_stored (hinj : Function.Injective (exchangeId keys))
    (hplans : u.plans = w.plans) (decision : Decision) :
    ∃ a state, Yields (reviewChildContactRequest scope request.id fingerprint decision now) u a
        { u with store := u.store.withReview state } ∧
      state.entries = w.plans
        ++ [planFor scope request fingerprint decision now fingerprint fingerprint] ∧
      Readable keys (u.store.withReview state) := by
  have hnew : planOf w.plans request.id = none := by
    rw [← Option.not_isSome_iff_eq_none, planOf_isSome_iff, List.mem_map]
    rintro ⟨p, hp, hid⟩
    have h := htidy.plans_received p hp
    rw [hid, hfresh.receipts] at h
    cases h
  have hlive : ((entriesOf u.store.review).filter fun p =>
      !(settledAmong u.plans u.receipts u.replies now).contains p.requestId).length < liveLimit := by
    refine lt_of_le_of_lt ?_ hawaiting
    show (u.plans.filter _).length ≤ _
    rw [hplans, hreceipts, hreplies, awaiting, ← List.countP_eq_length_filter,
      ← List.countP_eq_length_filter]
    refine List.countP_mono_left fun p hp hunsettled => ?_
    by_contra hnot
    have hmem := mem_settledAmong scope request fingerprint hrest hrow hp hp
      (htidy.plans_received p hp) fun hawait => hnot (List.mem_filter.mp hawait).2
    rw [List.contains_iff_mem.mpr hmem] at hunsettled
    cases hunsettled
  have hlen : (entriesOf u.store.review).length < retainLimit := by
    show u.plans.length < retainLimit
    rw [hplans]
    exact lt_of_le_of_lt htidy.plans_length_le hrest.receipts_length
  obtain ⟨a, state, hyields, hentries, hreadable⟩ := yields_review_of_room hread hscope hinj
    hfresh.inScope hvalid hnow hfresh.expires (swept_of_stored hrest hfresh hrow hreceipts)
    (find?_stored hfresh hrow hreceipts) rfl rfl rfl (hplans ▸ hnew) hlive hlen decision fingerprint
    fingerprint
  exact ⟨a, state, hyields, hentries.trans (congrArg (· ++ _) hplans), hreadable⟩

theorem executions_nodup (hread : Readable keys w.store) (hscope : scope.toPairingKeys = keys) :
    (w.executions.map (·.exchangeId)).Nodup := by
  have h := parseExecutions_getD fun row hrow => hread.execution row hrow scope hscope
  obtain ⟨-, -, -, -, hnodup⟩ := parseExecutions_eq_ok.mp h
  rwa [entriesOf_eq] at hnodup

include htidy hrest hfresh hrow hread hscope hvalid hnow hreceipts hreplies hawaiting in
/-- An execution finds room for the exchange of the request. -/
theorem yields_execute_stored {nonce replySecret : Hex64} (hplans : u.plans = w.plans
      ++ [planFor scope request fingerprint .approve now nonce replySecret])
    (hexecutions : u.executions = w.executions) :
    ∃ a u', Yields (executeChildContactPlan scope request.id now) u a u' ∧
      u'.store.replies = u.store.replies := by
  have hnew : planOf w.plans request.id = none := by
    rw [← Option.not_isSome_iff_eq_none, planOf_isSome_iff, List.mem_map]
    rintro ⟨p, hp, hid⟩
    have h := htidy.plans_received p hp
    rw [hid, hfresh.receipts] at h
    cases h
  have hfound : planOf u.plans request.id
      = some (planFor scope request fingerprint .approve now nonce replySecret) := by
    rw [planOf] at hnew ⊢
    rw [hplans, find?_concat_of_key, hnew]
    exact if_pos rfl
  have hroom : (keptExecutions u.plans (settledAmong u.plans u.receipts u.replies now)
      u.executions).length < liveLimit := by
    rw [keptExecutions]
    split_ifs with hfull
    · -- Each row kept is one of an exchange that awaits completion.
      refine lt_of_le_of_lt ?_ hawaiting
      have hsub : (u.executions.filter fun e => !finished u.plans
          (settledAmong u.plans u.receipts u.replies now) e).map (·.exchangeId)
            ⊆ (awaiting w).map (·.exchangeId) := by
        intro x hx
        obtain ⟨e, he, rfl⟩ := List.mem_map.mp hx
        obtain ⟨hmem, hunfinished⟩ := List.mem_filter.mp he
        simp only [finished, Bool.not_or, Bool.not_not, Bool.and_eq_true, List.any_eq_true,
          decide_eq_true_eq, Bool.not_eq_true'] at hunfinished
        obtain ⟨-, p, hp, hpx, hunsettled⟩ := hunfinished
        rw [hplans] at hp
        rcases List.mem_append.mp hp with hp | hp
        · refine List.mem_map.mpr ⟨p, ?_, hpx⟩
          by_contra hnot
          have hmem' : p ∈ u.plans := by
            rw [hplans]
            exact List.mem_append_left _ hp
          have hsettled := mem_settledAmong scope request fingerprint hrest hrow hp hmem'
            (htidy.plans_received p hp) hnot
          rw [← hreceipts, ← hreplies] at hsettled
          rw [List.contains_iff_mem.mpr hsettled] at hunsettled
          cases hunsettled
        · rw [List.mem_singleton.mp hp] at hpx
          rw [hexecutions] at hmem
          exact absurd (List.mem_map.mpr ⟨e, hmem, hpx.symm⟩) hfresh.executions
      have hnodup : ((u.executions.filter fun e => !finished u.plans
          (settledAmong u.plans u.receipts u.replies now) e).map (·.exchangeId)).Nodup :=
        (executions_nodup hread hscope).sublist (List.filter_sublist.map _)
      have hlen := (List.subperm_of_subset hnodup hsub).length_le
      rwa [List.length_map, List.length_map] at hlen
    · exact not_le.mp hfull
  obtain ⟨a, state, hyields, -, -⟩ := yields_executeChildContactPlan hread hscope hvalid hnow
    (swept_of_stored hrest hfresh hrow hreceipts) hfound rfl
    (by rw [hexecutions]; exact hfresh.executions) hroom parseEvent_sampleEvent
  exact ⟨a, _, hyields, rfl⟩

end Stages

/-- There is room: fewer than 32 requests were ever queued by the child, fewer than 32 plans await
completion, and fewer than 32 queued replies are still current. -/
def HasRoom (w : World) (now : ℤ) : Prop :=
  (entriesOf w.store.outbox).length < liveLimit ∧ (awaiting w).length < liveLimit ∧
    (w.replies.filter (undelivered now)).length < liveLimit

variable {sent : Hex64}

theorem recovers_of_room [LawfulInviteSdk] {keys : PairingKeys}
    (hinj : Function.Injective (exchangeId keys)) (htidy : Tidy keys.exported w)
    (hread : Readable keys w.store) (hscope : scope.toPairingKeys = keys)
    (hvalid : scope.validScope = true) (hnow : stamp now = true) (hrest : AtRest w now)
    (hfresh : Fresh w scope request now) {decision : Decision} {event : NostrEvent}
    {reply : ChildContactReply} {relays : List JsString}
    (hmay : mayQueueReply scope request.id event reply relays now = .ok ())
    (hroom : HasRoom w now) :
    Recovers scope request sent fingerprint decision now event reply relays w := by
  obtain ⟨houtbox, hawaiting, hundelivered⟩ := hroom
  have haddressed := hfresh.inScope
  simp only [childContactRequestInScope, Bool.and_eq_true, decide_eq_true_eq] at haddressed
  have hpersonas : scope.personas.length ≤ 32 := by
    simp only [ChildRequestScope.validScope, Bool.and_eq_true, decide_eq_true_eq] at hvalid
    exact hvalid.1
  -- The child queues the request.
  obtain ⟨box, hbox, -⟩ := queueRequest_eq_ok sent now
    (parseOutbox_getD fun row h => hread.outbox row h scope hscope) hfresh.outbox houtbox
  have hread₁ : Readable keys (w.store.withOutbox box) := hread.withOutbox hscope
    (readsBack_queueRequest (fun row h => hread.outbox row h scope hscope) hnow hfresh.parsed
      haddressed.1.2 haddressed.1.1.1 hbox)
  -- The guardian stores it: everything that was pending has expired.
  have hrow : (w.store.inbox.getD scope.empty).entries = w.receipts := entriesOf_eq _ _
  have hinbox := parseInbox_getD fun row h => (hread.inbox row h scope hscope).2
  have hidle : ∀ r ∈ (expire (w.store.inbox.getD scope.empty) scope now).entries,
      isPending r = false :=
    isPending_expire fun r hr => hrest.receipts r (hrow ▸ hr)
  have hstored : storeRequest scope request fingerprint now w.store.inbox
      = .ok (stored scope request fingerprint now (w.store.inbox.getD scope.empty)) := by
    refine storeRequest_eq_ok fingerprint hinbox ?_ ?_ ?_
    · rw [statusOf_expire, Option.map_eq_none_iff, hrow]
      have h := hfresh.receipts
      rwa [statusOf, Option.map_eq_none_iff] at h
    · show (List.map _ _).length < retainLimit
      rw [List.length_map, hrow]
      exact hrest.receipts_length
    · rw [List.filter_eq_nil_iff.mpr fun r hr => by rw [hidle r hr]; exact Bool.false_ne_true]
      exact Nat.zero_lt_succ 31
  have hread₂ := hread₁.withInbox hscope (readsBack_storeRequest
    (fun row h => (hread.inbox row h scope hscope).2) hnow hfresh.inScope hfresh.parsed hstored)
  obtain ⟨stored', hstore⟩ := yields_storeChildContactRequest
    (w := { w with store := w.store.withOutbox box }) hfresh.parsed hfresh.inScope hvalid hnow
    hfresh.created hfresh.expires hstored
  -- The plan of the request finds room, and so does its execution.
  obtain ⟨reviewed, state, hreview, hplans, hread₃⟩ := yields_review_stored
    (u := { w with store := ((w.store.withOutbox box).withInbox
        (stored scope request fingerprint now (w.store.inbox.getD scope.empty))) })
    htidy hrest hfresh hrow hread₂ hscope hvalid hnow rfl rfl hawaiting hinj rfl decision
  have hqueue : ∀ u : World, u.store.replies = w.store.replies → ∃ a u',
      Yields (queueChildContactReply scope request.id event reply relays now false) u a u' := by
    intro u hu
    obtain ⟨outbox, houtbox, -⟩ := queueReply_eq_ok false
      (parseReplyOutbox_getD fun row h => hread.replies row h scope hscope) hfresh.replies
      hundelivered
    exact ⟨_, _, yields_queueChildContactReply hmay (hu ▸ houtbox)⟩
  have hrequested := yields_queueChildContactRequest (w := w) hfresh.parsed haddressed.1.2
    haddressed.1.1.1 hnow hfresh.expires hpersonas hbox
  cases decision with
  | approve =>
    obtain ⟨executed, u₄, hexecute, hreplies₄⟩ := yields_execute_stored
      (u := { w with store := (((w.store.withOutbox box).withInbox
          (stored scope request fingerprint now (w.store.inbox.getD scope.empty))).withReview
            state) })
      htidy hrest hfresh hrow hread₃ hscope hvalid hnow rfl rfl hawaiting hplans rfl
    obtain ⟨queued, u₅, hqueued⟩ := hqueue u₄ hreplies₄
    refine ⟨_, _, _, u₄, u₅, ⟨_, hrequested⟩, ⟨_, hstore⟩, ⟨_, hreview⟩, ?_, ⟨_, hqueued⟩⟩
    rw [if_pos rfl]
    exact ⟨_, hexecute⟩
  | deny =>
    obtain ⟨queued, u₅, hqueued⟩ := hqueue { w with
      store := (((w.store.withOutbox box).withInbox
        (stored scope request fingerprint now (w.store.inbox.getD scope.empty))).withReview
          state) } rfl
    refine ⟨_, _, _, _, u₅, ⟨_, hrequested⟩, ⟨_, hstore⟩, ⟨_, hreview⟩, ?_, ⟨_, hqueued⟩⟩
    rw [if_neg (fun h => Decision.noConfusion h)]

/-- What the child's outbox lacks when it takes a request. -/
theorem room_of_yields_queueChildContactRequest {a : Option ChildContactOutboxEntry}
    {w' : World} (hparse : parseChildContactRequest request = some request)
    (hread : ∀ row ∈ w.store.outbox, parseOutbox row scope = .ok row)
    (hnew : ∀ e ∈ entriesOf w.store.outbox, e.request.id ≠ request.id)
    (h : Yields (queueChildContactRequest scope request sent now) w a w') :
    (entriesOf w.store.outbox).length < liveLimit := by
  unfold queueChildContactRequest at h
  simp only [hparse] at h
  obtain ⟨_, w₁, hthrow₁, h₁⟩ := of_yields_bind h
  obtain ⟨-, hw₁⟩ := of_yields_throwIf hthrow₁
  obtain ⟨_, w₂, hcheck, h₂⟩ := of_yields_bind h₁
  have hw₂ := of_yields_check hcheck
  obtain ⟨_, w₃, hthrow₂, h₃⟩ := of_yields_bind h₂
  obtain ⟨-, hw₃⟩ := of_yields_throwIf hthrow₂
  obtain ⟨saved, w₄, hcommit, -⟩ := of_yields_bind h₃
  obtain ⟨s, hs⟩ := of_yields_commit hcommit
  rw [hw₃, hw₂, hw₁] at hs
  obtain ⟨state, hstate, -⟩ := Except.map_eq_ok hs
  obtain ⟨box, hbox, hcases⟩ := queueRequest_cases hstate
  rw [parseOutbox_getD hread] at hbox
  cases hbox
  rw [entriesOf_eq] at hcases
  rcases hcases with ⟨hfound, -⟩ | ⟨-, hroom, -⟩
  · obtain ⟨e, he⟩ := Option.isSome_iff_exists.mp hfound
    have hid : e.request.id = request.id := by simpa using List.find?_some he
    exact absurd hid (hnew e (List.mem_of_find?_eq_some he))
  · exact hroom

end Recovery

section Sample

attribute [local instance] sampleInvites sampleSignatures echoSha256

/-- A reply to a request that was denied. -/
def sampleReply (n : ℕ) (now : ℤ) : ChildContactReply where
  requestId := sampleId n
  guardian := sampleScope.guardian
  endpoint := sampleScope.endpoint
  client := sampleScope.client
  persona := Hex.repeated 64 5
  revision := 1
  createdAt := now
  expiresAt := now + ttl
  status := .denied
  exchangeId := none
  contactId := none

def sampleReplyEvent (n : ℕ) (now : ℤ) : NostrEvent where
  id := (Hex.repeated 64 0).val
  pubkey := sampleScope.endpoint.val
  kind := 30078
  createdAt := now
  tags := [[lit "d", replyPrefix ++ (sampleId n).val], [lit "p", sampleScope.client.val]]
  content := []
  sig := (Hex.repeated 128 0).val

theorem mayQueue_sampleReply (n : ℕ) :
    mayQueueReply sampleScope (sampleId n) (sampleReplyEvent n 600) (sampleReply n 600)
      [lit "wss://relay.example"] 600 = .ok () := by
  have hd : (sampleReplyEvent n 600).dTag = some (replyPrefix ++ (sampleId n).val) := rfl
  have hid : isHexOf 32 ((replyPrefix ++ (sampleId n).val).drop replyPrefix.length) = true := by
    rw [List.drop_left]
    exact (sampleId n).property
  have hprefix : replyPrefix.isPrefixOf (replyPrefix ++ (sampleId n).val) = true :=
    List.isPrefixOf_iff_prefix.mpr (List.prefix_append _ _)
  have hevent : validEvent (sampleReplyEvent n 600) sampleScope = true := by
    simp only [validEvent, hd, Option.any_some, hprefix, hid, Bool.and_eq_true, decide_eq_true_eq]
    exact ⟨⟨⟨⟨⟨⟨⟨⟨(Hex.repeated 64 0).property, rfl⟩, rfl⟩, Nat.zero_le _⟩, rfl⟩, rfl⟩, trivial, trivial⟩,
      rfl⟩, rfl⟩
  have hreply : parseChildContactReply (sampleReply n 600) = some (sampleReply n 600) := rfl
  rw [mayQueueReply, hevent, hd, hreply, if_neg (by decide), if_neg]
  simp [ChildContactReply.belongs, sampleReply, sampleReplyEvent, sampleScope]

/-- The child's outbox after its first requests, queued at 0. -/
structure Queued (n : ℕ) (w : World) : Prop where
  readable : Readable sampleScope.toPairingKeys w.store
  outbox : entriesOf w.store.outbox = (List.range n).map fun m =>
    { request := sampleRequest m 0 600, fingerprint := sampleKey, event := none, createdAt := 0 }
  receipts : w.receipts = []
  plans : w.plans = []
  executions : w.executions = []
  replies : w.replies = []

theorem exists_run_queued {n : ℕ} (hn : n ≤ 32) :
    ∃ log w, PairingRun sampleScope.toPairingKeys.exported log w [] ∧ Queued n w := by
  have := lawful_sampleInvites
  induction n with
  | zero => exact ⟨[], World.initial, .init, readable_initial, rfl, rfl, rfl, rfl, rfl⟩
  | succ n ih =>
    obtain ⟨log, w, hrun, h⟩ := ih (by omega)
    have hparse := parse_sampleRequest n (t := 0) (u := 600) rfl rfl (by decide) (by decide)
    have hread := fun row hrow => h.readable.outbox row hrow sampleScope rfl
    have hnew : ∀ e ∈ entriesOf w.store.outbox, e.request.id ≠ (sampleRequest n 0 600).id := by
      intro e he hid
      rw [h.outbox] at he
      obtain ⟨m, hm, rfl⟩ := List.mem_map.mp he
      have hm := List.mem_range.mp hm
      have := sampleId_inj (by omega) (by omega) hid
      omega
    obtain ⟨box, hbox, hentries⟩ := queueRequest_eq_ok sampleKey 0 (parseOutbox_getD hread) hnew
      (by rw [h.outbox, List.length_map, List.length_range]; exact hn)
    have hyields := yields_queueChildContactRequest hparse rfl rfl rfl
      (show (0 : ℤ) < 600 by decide) (show 1 ≤ 32 by decide) hbox
    obtain ⟨log', hrun'⟩ := hrun.alone hyields (.queueRequest sampleScope rfl _ _ hparse sampleKey 0)
    refine ⟨_, _, hrun', h.readable.withOutbox rfl ?_, ?_, h.receipts, h.plans, h.executions,
      h.replies⟩
    · exact readsBack_queueRequest hread rfl hparse rfl rfl hbox
    · rw [List.range_succ, List.map_append]
      exact hentries.trans (congrArg (· ++ _) h.outbox)

end Sample

end SignetApp.Pairing
