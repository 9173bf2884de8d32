import SignetApp.Pairing.Writers

/-!
# How the rows evolve

What one change does to the receipts, the plans and the replies, whatever its arguments: a receipt
never goes and never returns to pending, a plan keeps its verdict until it is cancelled, a reply
outbox entry advances from pending to one result.
-/

namespace SignetApp.Pairing

open SignetApp.Js SignetApp.Contacts

variable [InviteSdk]

/-! ## Receipts -/

/-- The status of record of a request. -/
def statusOf (receipts : List ChildRequestReceipt) (id : Hex32) : Option ChildRequestStatus :=
  (receipts.find? fun r => r.id = id).map (·.status)

theorem statusOf_eq_of_map_eq {xs ys : List ChildRequestReceipt}
    (h : xs.map (fun r => (r.id, r.status)) = ys.map fun r => (r.id, r.status)) (id : Hex32) :
    statusOf xs id = statusOf ys id := by
  have hview : ∀ zs : List ChildRequestReceipt, statusOf zs id
      = ((zs.map fun r => (r.id, r.status)).find? fun p => p.1 = id).map Prod.snd := by
    intro zs
    rw [List.find?_map, Option.map_map]
    rfl
  rw [hview, hview, h]

variable {id : Hex32}

theorem statusOf_isSome_iff {receipts : List ChildRequestReceipt} :
    (statusOf receipts id).isSome ↔ id ∈ receipts.map (·.id) := by
  rw [statusOf, Option.isSome_map, List.find?_isSome, List.mem_map]
  simp

/-- How the writers may move a receipt: expiry, an altered copy of the request, or one of the
transitions their callers ask for. -/
inductive Moves (transitions : ChildRequestStatus → ChildRequestStatus → Prop) :
    ChildRequestStatus → ChildRequestStatus → Prop where
  | expire : Moves transitions .pending .expired
  | conflict (a : ChildRequestStatus) : Moves transitions a .conflict
  | transition {a b : ChildRequestStatus} (h : transitions a b) (hb : b ≠ .pending) :
    Moves transitions a b

abbrev Becomes (transitions : ChildRequestStatus → ChildRequestStatus → Prop) :=
  Relation.ReflTransGen (Moves transitions)

variable {a b : ChildRequestStatus}

omit [InviteSdk] in
theorem Moves.ne_pending {transitions : ChildRequestStatus → ChildRequestStatus → Prop} (h : Moves transitions a b) : b ≠ .pending := by
  cases h with
  | expire => exact ChildRequestStatus.noConfusion
  | conflict => exact ChildRequestStatus.noConfusion
  | transition _ hb => exact hb

omit [InviteSdk] in
theorem Becomes.ne_pending {transitions : ChildRequestStatus → ChildRequestStatus → Prop} (h : Becomes transitions a b) (ha : a ≠ .pending) : b ≠ .pending := by
  induction h with
  | refl => exact ha
  | tail _ hm _ => exact hm.ne_pending

/-- What a writer does to the receipts. -/
structure InboxStep (transitions : ChildRequestStatus → ChildRequestStatus → Prop)
    (before after : List ChildRequestReceipt) : Prop where
  nodup : (after.map (·.id)).Nodup
  length_le : after.length ≤ retainLimit
  becomes : ∀ id a, statusOf before id = some a →
    ∃ b, statusOf after id = some b ∧ Becomes transitions a b

section Inbox

variable {transitions : ChildRequestStatus → ChildRequestStatus → Prop} {scope : ChildRequestScope}
  {now : ℤ} {raw inbox : Inbox}

theorem inboxStep_parse (h : parseInbox raw scope = .ok inbox) :
    InboxStep transitions raw.entries inbox.entries := by
  obtain ⟨-, hlen, hnodup, -, -, hall⟩ := parseInbox_eq_ok.mp h
  have hids : inbox.entries.map (·.id) = raw.entries.map (·.id) :=
    map_eq_of_forall₂ hall fun _ _ hr => (readReceipt_ok hr).1
  refine ⟨hids ▸ hnodup, hall.length_eq ▸ hlen, fun id a ha => ⟨a, ?_, .refl⟩⟩
  rw [← ha]
  refine statusOf_eq_of_map_eq (map_eq_of_forall₂ hall fun r x hr => ?_) id
  rw [(readReceipt_ok hr).1, (readReceipt_ok hr).2.1]

theorem InboxStep.trans {xs ys zs : List ChildRequestReceipt} (h : InboxStep transitions xs ys)
    (h' : InboxStep transitions ys zs) : InboxStep transitions xs zs := by
  refine ⟨h'.nodup, h'.length_le, fun id a ha => ?_⟩
  obtain ⟨b, hb, hab⟩ := h.becomes id a ha
  obtain ⟨c, hc, hbc⟩ := h'.becomes id b hb
  exact ⟨c, hc, hab.trans hbc⟩

theorem inboxStep_settle {xs : List ChildRequestReceipt} (hnodup : (xs.map (·.id)).Nodup)
    (hlen : xs.length ≤ retainLimit) (p : ChildRequestReceipt → Prop) [DecidablePred p]
    {status : ChildRequestStatus} (settledAt : ChildRequestReceipt → ℤ)
    (hmoves : ∀ r ∈ xs, p r → Moves transitions r.status status) :
    InboxStep transitions xs (xs.map fun r => if p r then r.settle status (settledAt r) else r) := by
  have hid : ∀ r : ChildRequestReceipt,
      (if p r then r.settle status (settledAt r) else r).id = r.id := by
    intro r
    split_ifs <;> rfl
  refine ⟨?_, ?_, fun id a ha => ?_⟩
  · rw [map_map_of_key hid]
    exact hnodup
  · rw [List.length_map]
    exact hlen
  · obtain ⟨r, hr, rfl⟩ := Option.map_eq_some_iff.mp ha
    rw [statusOf, find?_map_of_key hid, hr]
    refine ⟨_, rfl, ?_⟩
    show Becomes transitions r.status (if p r then r.settle status (settledAt r) else r).status
    by_cases hp : p r
    · rw [if_pos hp]
      exact .single (hmoves r (List.mem_of_find?_eq_some hr) hp)
    · rw [if_neg hp]

theorem inboxStep_expire {xs : Inbox} (hnodup : (xs.entries.map (·.id)).Nodup)
    (hlen : xs.entries.length ≤ retainLimit) :
    InboxStep transitions xs.entries (expire xs scope now).entries := by
  refine inboxStep_settle hnodup hlen (fun r => overdue scope now r = true) (fun _ => now)
    fun r _ hr => ?_
  simp only [overdue, isPending, Bool.and_eq_true, decide_eq_true_eq] at hr
  rw [hr.1]
  exact .expire

theorem inboxStep_readAndExpire (h : parseInbox raw scope = .ok inbox) :
    InboxStep transitions raw.entries (expire inbox scope now).entries :=
  have hread : InboxStep transitions raw.entries inbox.entries := inboxStep_parse h
  hread.trans (inboxStep_expire hread.nodup hread.length_le)

theorem inboxStep_expireInbox {previous : Option Inbox}
    (h : expireInbox scope now previous = .ok inbox) :
    InboxStep transitions (entriesOf previous) inbox.entries := by
  obtain ⟨row, parsed, rfl, hp, rfl⟩ := expireInbox_cases h
  exact inboxStep_readAndExpire hp

theorem inboxStep_storeRequest {request : ChildContactRequest} {fingerprint : Hex64}
    {previous : Option Inbox} (h : storeRequest scope request fingerprint now previous = .ok inbox) :
    InboxStep transitions (entriesOf previous) inbox.entries := by
  obtain ⟨parsed, hp, hcases⟩ := storeRequest_cases h
  have hstep : InboxStep transitions (previous.getD scope.empty).entries
      (expire parsed scope now).entries := inboxStep_readAndExpire hp
  rw [entriesOf_eq] at hstep
  rcases hcases with rfl | rfl | ⟨hnone, hlen, -, rfl⟩
  · exact hstep
  · exact hstep.trans (inboxStep_settle hstep.nodup hstep.length_le (fun r => r.id = request.id)
      (fun _ => now) fun r _ _ => .conflict _)
  · refine hstep.trans ⟨?_, ?_, fun id a ha => ⟨a, ?_, .refl⟩⟩
    · exact nodup_concat_of_key hstep.nodup hnone
    · rw [List.length_append, List.length_singleton]
      omega
    · obtain ⟨r, hr, rfl⟩ := Option.map_eq_some_iff.mp ha
      rw [statusOf, find?_concat_of_key, hr]
      rfl

theorem transitionReceipt_ok {requestId : Hex32} {source : List ChildRequestStatus}
    {target : ChildRequestStatus} {previous : Option Inbox}
    (h : transitionReceipt scope requestId source target now previous = .ok inbox)
    (hmoves : ∀ a ∈ source, Moves transitions a target) :
    InboxStep transitions (entriesOf previous) inbox.entries ∧
      statusOf inbox.entries requestId = some target := by
  obtain ⟨row, parsed, receipt, rfl, hp, hfound, hcases⟩ := transitionReceipt_cases h
  have hstep : InboxStep transitions row.entries (expire parsed scope now).entries :=
    inboxStep_readAndExpire hp
  have hrid : receipt.id = requestId := by simpa using List.find?_some hfound
  rcases hcases with ⟨htarget, rfl⟩ | ⟨hsource, rfl⟩
  · refine ⟨hstep, ?_⟩
    rw [statusOf, hfound, ← htarget]
    rfl
  · constructor
    · refine hstep.trans (inboxStep_settle hstep.nodup hstep.length_le (fun r => r.id = requestId)
        (fun r => max now r.updatedAt) fun r hr hp => ?_)
      -- Ids are distinct, so the receipt changed is the one that was found.
      have hsame : r = receipt := List.inj_on_of_nodup_map hstep.nodup hr
        (List.mem_of_find?_eq_some hfound) (hp.trans hrid.symm)
      rw [hsame]
      exact hmoves _ hsource
    · have hid : ∀ r : ChildRequestReceipt, (if r.id = requestId then
          r.settle target (max now r.updatedAt) else r).id = r.id := by
        intro r
        split_ifs <;> rfl
      rw [statusOf, find?_map_of_key hid, hfound]
      simp [hrid, ChildRequestReceipt.settle]

end Inbox

/-! ## Plans -/

theorem planOf_isSome_iff {plans : List ChildContactExchangePlan} :
    (planOf plans id).isSome ↔ id ∈ plans.map (·.requestId) := by
  rw [planOf, List.find?_isSome, List.mem_map]
  simp

/-- What a plan turns into: itself, or the same plan cancelled. -/
def Follows (p q : ChildContactExchangePlan) : Prop :=
  q.exchangeId = p.exchangeId ∧ q.fingerprint = p.fingerprint ∧
    (q.status = p.status ∨ q.status = .cancelled)

theorem Follows.refl (p : ChildContactExchangePlan) : Follows p p := ⟨rfl, rfl, .inl rfl⟩

theorem Follows.trans {p q r : ChildContactExchangePlan} (h : Follows p q) (h' : Follows q r) :
    Follows p r := by
  obtain ⟨hx, hf, hs⟩ := h
  obtain ⟨hx', hf', hs'⟩ := h'
  refine ⟨hx'.trans hx, hf'.trans hf, ?_⟩
  rcases hs' with hs' | hs'
  · rcases hs with hs | hs
    · exact .inl (hs'.trans hs)
    · exact .inr (hs'.trans hs)
  · exact .inr hs'

/-- What a writer does to the plans. -/
structure ReviewStep (before after : List ChildContactExchangePlan) : Prop where
  nodup : (after.map (·.requestId)).Nodup
  follows : ∀ id p, planOf before id = some p → ∃ q, planOf after id = some q ∧ Follows p q

variable [Sync.Sha256]

theorem reviewStep_cancelPlan {scope : ChildRequestScope} {requestId : Hex32} {now : ℤ}
    {previous : Option ReviewState} {state : ReviewState}
    (h : cancelPlan scope requestId now previous = .ok state) :
    ReviewStep (entriesOf previous) state.entries ∧
      (∃ p, planOf state.entries requestId = some p ∧ p.status = .cancelled) ∧
      ∀ p ∈ state.entries, ∃ q ∈ entriesOf previous,
        q.requestId = p.requestId ∧ q.exchangeId = p.exchangeId := by
  obtain ⟨plan, hp, -, hfound, hcases⟩ := cancelPlan_cases h
  obtain ⟨-, -, -, -, hnodup, -⟩ := parseReview_eq_ok.mp hp
  rw [entriesOf_eq] at hnodup
  have hrid : plan.requestId = requestId := by simpa using List.find?_some hfound
  rcases hcases with ⟨hc, hentries⟩ | ⟨-, hentries⟩
  · rw [hentries]
    exact ⟨⟨hnodup, fun id p hp => ⟨p, hp, .refl p⟩⟩, ⟨plan, hfound, hc⟩,
      fun p hp => ⟨p, hp, rfl, rfl⟩⟩
  · rw [hentries]
    have hid : ∀ p : ChildContactExchangePlan, (if p.requestId = requestId then
        { p with status := .cancelled, updatedAt := now } else p).requestId = p.requestId := by
      intro p
      split_ifs <;> rfl
    refine ⟨⟨?_, fun id p hp => ?_⟩, ?_, fun p hp => ?_⟩
    · rw [map_map_of_key hid]
      exact hnodup
    · refine ⟨_, by rw [planOf, find?_map_of_key hid]; exact congrArg _ hp, ?_⟩
      beta_reduce
      by_cases hpid : p.requestId = requestId
      · rw [if_pos hpid]
        exact ⟨rfl, rfl, .inr rfl⟩
      · rw [if_neg hpid]
        exact .refl p
    · refine ⟨_, by rw [planOf, find?_map_of_key hid]; exact congrArg _ hfound, ?_⟩
      beta_reduce
      rw [if_pos hrid]
    · obtain ⟨q, hq, rfl⟩ := List.mem_map.mp hp
      refine ⟨q, hq, ?_⟩
      split_ifs <;> exact ⟨rfl, rfl⟩

/-- A review adds its plan, or finds one with the same verdict; while fewer plans are retained than
the bound, it evicts none. -/
theorem reviewStep_reviewRequest {scope : ChildRequestScope} {plan : ChildContactExchangePlan}
    {settled : List Hex32} {previous : Option ReviewState} {state : ReviewState}
    (h : reviewRequest scope plan settled previous = .ok state)
    (hroom : planOf (entriesOf previous) plan.requestId = none →
      (entriesOf previous).length < retainLimit) :
    ReviewStep (entriesOf previous) state.entries ∧
      (∃ p, planOf state.entries plan.requestId = some p ∧ p.fingerprint = plan.fingerprint ∧
        p.status = plan.status) ∧
      (state.entries = entriesOf previous ∨
        planOf (entriesOf previous) plan.requestId = none ∧
          state.entries = entriesOf previous ++ [plan]) := by
  obtain ⟨hp, -, hcases⟩ := reviewRequest_cases h
  obtain ⟨-, -, -, -, hnodup, -⟩ := parseReview_eq_ok.mp hp
  rw [entriesOf_eq] at hnodup
  rcases hcases with ⟨existing, hfound, hf, hs, hentries⟩ | ⟨hnone, kept, -, -, hkept, hentries⟩
  · rw [hentries]
    exact ⟨⟨hnodup, fun id p hp => ⟨p, hp, .refl p⟩⟩, ⟨existing, hfound, hf, hs⟩, .inl rfl⟩
  · rw [hkept (hroom hnone)] at hentries
    rw [hentries]
    refine ⟨⟨?_, fun id p hp => ⟨p, ?_, .refl p⟩⟩, ⟨plan, ?_, rfl, rfl⟩, .inr ⟨hnone, rfl⟩⟩
    · exact nodup_concat_of_key hnodup hnone
    · rw [planOf, find?_concat_of_key]
      rw [planOf] at hp
      rw [hp]
      rfl
    · rw [planOf] at hnone ⊢
      rw [find?_concat_of_key, hnone, if_pos rfl]
      rfl

/-! ## Replies -/

section Replies

variable [Signatures] {scope : ChildRequestScope} {now : ℤ} {previous : Option ReplyOutbox}
  {state : ReplyOutbox}

omit [InviteSdk] [Sync.Sha256]

variable {e : ChildContactReplyOutboxEntry} {replaceUnreconciled : Bool} {relays : List JsString}
variable {reply : ChildContactReply} {event : NostrEvent} {requestId : Hex32}

theorem mem_queueReply
    (h : queueReply scope requestId event reply relays now replaceUnreconciled previous = .ok state) (he : e ∈ state.entries) :
    e ∈ entriesOf previous ∨ e = queuedEntry requestId event reply relays now := by
  obtain ⟨-, -, hentries | ⟨old, -, -, hentries⟩ | ⟨-, kept, hkept, -, hentries⟩⟩ :=
    queueReply_cases h
  · exact .inl (hentries ▸ he)
  · rw [hentries] at he
    obtain ⟨e', he', rfl⟩ := List.mem_map.mp he
    split_ifs
    · exact .inr rfl
    · exact .inl he'
  · rw [hentries] at he
    rcases List.mem_append.mp he with he | he
    · exact .inl (hkept.subset he)
    · exact .inr (List.mem_singleton.mp he)

theorem nodup_queueReply
    (h : queueReply scope requestId event reply relays now replaceUnreconciled previous = .ok state) :
    (state.entries.map (·.id)).Nodup := by
  obtain ⟨hp, -, hcases⟩ := queueReply_cases h
  obtain ⟨-, -, -, -, hids⟩ := parseReplyOutbox_eq_ok.mp hp
  rw [entriesOf_eq] at hids
  rcases hcases with hentries | ⟨old, -, -, hentries⟩ | ⟨hnone, kept, hkept, -, hentries⟩
  · exact hentries ▸ hids
  · rw [hentries, map_map_of_key fun e => by split_ifs with h; exacts [h.symm, rfl]]
    exact hids
  · rw [hentries]
    refine nodup_concat_of_key (hids.sublist (hkept.map _)) ?_
    rw [List.find?_eq_none] at hnone ⊢
    exact fun e he => hnone e (hkept.subset he)

variable {eventId : JsString} {id : Hex32}

theorem nodup_acknowledgeReply (h : acknowledgeReply scope id eventId now previous = .ok state) :
    (state.entries.map (·.id)).Nodup := by
  obtain ⟨row, rfl, hp, -, hentries⟩ := acknowledgeReply_cases h
  rw [hentries, map_map_of_key fun e => by split_ifs <;> rfl]
  exact (parseReplyOutbox_eq_ok.mp hp).2.2.2.2

theorem mem_acknowledgeReply
    (h : acknowledgeReply scope id eventId now previous = .ok state) (he : e ∈ state.entries) :
    ∃ e' ∈ entriesOf previous, e.id = e'.id ∧ e.requestId = e'.requestId ∧ e.event = e'.event ∧
      e.reply = e'.reply := by
  obtain ⟨row, rfl, -, -, hentries⟩ := acknowledgeReply_cases h
  rw [hentries] at he
  obtain ⟨e', he', rfl⟩ := List.mem_map.mp he
  refine ⟨e', he', ?_⟩
  split_ifs <;> exact ⟨rfl, rfl, rfl, rfl⟩

end Replies

end SignetApp.Pairing
