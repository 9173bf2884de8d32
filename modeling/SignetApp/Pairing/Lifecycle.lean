import SignetApp.Pairing.Progress

/-!
# What a child is told

Receipts and plans only move forward. An exchange proceeds on a plan and a receipt that were read
one after the other, and a reply goes out as it was read from the outbox, so the rest holds as long
as neither was overtaken meanwhile.
-/

namespace SignetApp.Pairing

open SignetApp.Js SignetApp.Contacts

section Runs

variable [InviteSdk] [Sync.Sha256] [Signatures]

/-- The operations of one pairing, with the receipt transitions and the replies of the lifecycle. -/
def PairingKeys.lifecycle (keys : PairingKeys) : Conduct :=
  { keys, transitions := Asked, ownReplies := True }

/-! ## The property -/

/-- The step may queue a reply that refuses this request. -/
def Refuses (a : Action) (id : Hex32) : Prop :=
  ∃ scope event reply relays now replaceUnreconciled,
    a = .commit (.queueReply scope id event reply relays now replaceUnreconciled) ∧
      (reply.status = .denied ∨ reply.status = .expired)

/-- The step answers 'go' for the exchange of this request. -/
def Proceeds (a : Action) (id : Hex32) : Prop :=
  ∃ plan receipt, a = .go plan receipt ∧ plan.requestId = id

/-- The replies published for one request, in order. -/
def repliesTo (w : World) (id : Hex32) : List (Option ChildContactReply) :=
  (w.published.filter fun e => e.id = id).map (·.reply)

/-- The same reply again, or the result after a pending one. -/
def Answers (a b : Option ChildContactReply) : Prop :=
  b = a ∨ ∃ p q, a = some p ∧ b = some q ∧ p.status = .pending ∧ q.status ≠ .pending

/-- What holds of a run in which an exchange proceeds only while it is approved, and the child is
never told otherwise. -/
structure Truthful (log : List (Async.Did Action World)) (w : World) : Prop where
  receipts : ∀ did ∈ log, ∀ id a, statusOf did.before.receipts id = some a → a ≠ .pending →
    ∃ b, statusOf did.after.receipts id = some b ∧ b ≠ .pending
  plans : ∀ did ∈ log, ∀ id p, planOf did.before.plans id = some p →
    ∃ q, planOf did.after.plans id = some q ∧ (q.status = p.status ∨ q.status = .cancelled)
  authority : ∀ did ∈ log, ∀ id, Proceeds did.label id →
    (∃ p, planOf did.before.plans id = some p ∧ p.status = .approved) ∧
      (statusOf did.before.receipts id = some .approved ∨
        statusOf did.before.receipts id = some .completed)
  refused : log.Pairwise fun did did' => ∀ id, Refuses did.label id → ¬ Proceeds did'.label id
  replies : ∀ id, (repliesTo w id).Pairwise Answers

/-- The step rests on rows that still are as they were read: an answer 'go' on the plan and the
receipt, a publication on the outbox entry; and a reply is queued to a request that was answered
only while the answer is in the outbox. -/
def NotOvertaken (w : World) (a : Action) : Prop :=
  (∀ plan receipt, a = .go plan receipt →
    (∃ p, planOf w.plans plan.requestId = some p ∧ p.status = plan.status) ∧
      statusOf w.receipts plan.requestId = some receipt.status) ∧
  (∀ entry, a = .publish entry → ∃ e ∈ w.replies, e.id = entry.id ∧ e.reply = entry.reply) ∧
  ∀ scope requestId event reply relays now replaceUnreconciled,
    a = .commit (.queueReply scope requestId event reply relays now replaceUnreconciled) →
      ∀ e ∈ w.published, e.id = requestId → ∃ e' ∈ w.replies, e'.id = requestId

variable {keys : PairingKeys} {w w' : World} {log : List (Async.Did Action World)}

/-! ## Refusals -/

/-- A receipt that was refused, or that two requests contend for. -/
def Refused (w : World) (id : Hex32) : Prop :=
  ∃ a, statusOf w.receipts id = some a ∧ (a = .denied ∨ a = .expired ∨ a = .conflict)

omit [InviteSdk] [Sync.Sha256] [Signatures] in
theorem Becomes.refused {a b : ChildRequestStatus} (h : Becomes Asked a b)
    (ha : a = .denied ∨ a = .expired ∨ a = .conflict) : b = .denied ∨ b = .expired ∨ b = .conflict := by
  induction h with
  | refl => exact ha
  | tail _ hm ih =>
    cases hm with
    | expire => simp at ih
    | conflict => exact .inr (.inr rfl)
    | transition hasked _ => cases hasked <;> simp at ih

omit [Sync.Sha256] [Signatures] in
theorem Refused.evolve {id : Hex32} (h : Refused w id) (hw : Evolves keys.lifecycle w w') :
    Refused w' id := by
  obtain ⟨a, ha, hrefused⟩ := h
  obtain ⟨b, hb, hab⟩ := hw.receipts id a ha
  exact ⟨b, hb, Becomes.refused hab hrefused⟩

theorem Refuses.refused {a : Action} {id : Hex32} (h : Refuses a id)
    (hg : Guarantee keys.lifecycle w a w') : Refused w id := by
  obtain ⟨scope, event, reply, relays, now, replaceUnreconciled, rfl, hstatus⟩ := h
  obtain ⟨r, b, hreply, hb, hbecomes⟩ := hg.2.1 trivial
  refine ⟨b, hb, Becomes.refused hbecomes ?_⟩
  rcases hstatus with hs | hs <;> rw [hs] at hreply <;> cases r <;> simp [childReplyForReceipt] at hreply ⊢

/-! ## Replies -/

omit [InviteSdk] [Sync.Sha256] [Signatures] in
theorem childContactReplyTransition_advance {previous next : ChildContactReply}
    (h : childContactReplyTransition previous next = .ok .advance) :
    previous.status = .pending ∧ next.status ≠ .pending := by
  rw [childContactReplyTransition] at h
  split_ifs at h with hscope hstale hsame hconflict
  · cases h
  · cases h
  · simp only [Bool.or_eq_true, decide_eq_true_eq, not_or, not_not] at hconflict
    exact ⟨hconflict.1.1, hconflict.1.2⟩

/-- What was published is what the outbox holds, or the pending reply before it. -/
structure Told (w : World) : Prop where
  nodup : (w.replies.map (·.id)).Nodup
  known : ∀ e ∈ w.replies, e.reply.isSome
  current : ∀ e ∈ w.published, ∀ e' ∈ w.replies, e'.id = e.id → Answers e.reply e'.reply
  answers : ∀ id, (repliesTo w id).Pairwise Answers

omit [Sync.Sha256] [Signatures] in
theorem Told.publish (h : Told w) {entry e : ChildContactReplyOutboxEntry} (he : e ∈ w.replies)
    (hid : e.id = entry.id) (hreply : e.reply = entry.reply) :
    Told { w with published := w.published ++ [entry] } where
  nodup := h.nodup
  known := h.known
  current := by
    intro p hp e' he' hid'
    rcases List.mem_append.mp hp with hp | hp
    · exact h.current p hp e' he' hid'
    · rw [List.mem_singleton.mp hp] at hid' ⊢
      have hsame : e' = e := List.inj_on_of_nodup_map h.nodup he' he (hid'.trans hid.symm)
      exact .inl (by rw [hsame, hreply])
  answers := by
    intro id
    rw [repliesTo, List.filter_append, List.map_append, List.pairwise_append]
    refine ⟨h.answers id, ?_, fun a ha b hb => ?_⟩
    · by_cases hentry : entry.id = id <;> simp [hentry]
    · obtain ⟨p, hp, rfl⟩ := List.mem_map.mp ha
      obtain ⟨q, hq, rfl⟩ := List.mem_map.mp hb
      rw [List.mem_filter, decide_eq_true_eq] at hp hq
      rw [List.mem_singleton.mp hq.1, ← hreply]
      refine h.current p hp.1 e he ?_
      rw [hid, hp.2, ← hq.2, List.mem_singleton.mp hq.1]

omit [Sync.Sha256] [Signatures] in
theorem Told.of_same (h : Told w) (hreplies : w'.replies = w.replies)
    (hpublished : w'.published = w.published) : Told w' where
  nodup := hreplies ▸ h.nodup
  known := hreplies ▸ h.known
  current := by
    rw [hreplies, hpublished]
    exact h.current
  answers id := by
    rw [repliesTo, hpublished]
    exact h.answers id

omit [Sync.Sha256] in
/-- What queueing a reply leaves, when a request that was answered keeps its answer. -/
theorem Told.queueReply (h : Told w) {scope : ChildRequestScope} {requestId : Hex32}
    {event : NostrEvent} {reply : ChildContactReply} {relays : List JsString} {now : ℤ}
    {replaceUnreconciled : Bool} {state : ReplyOutbox}
    (hwrite : queueReply scope requestId event reply relays now replaceUnreconciled w.store.replies
      = .ok state)
    (hkept : ∀ e ∈ w.published, e.id = requestId → ∃ e' ∈ w.replies, e'.id = requestId)
    (hreplies : w'.replies = state.entries) (hpublished : w'.published = w.published) : Told w' where
  nodup := hreplies ▸ nodup_queueReply hwrite
  known := by
    intro e he
    rcases mem_queueReply hwrite (hreplies ▸ he) with he | rfl
    · exact h.known e he
    · rfl
  current := by
    intro p hp e' he' hid
    rw [hpublished] at hp
    rw [hreplies] at he'
    obtain ⟨-, -, hentries | ⟨old, hold, hadvance, hentries⟩ | ⟨hnone, kept, hsub, -, hentries⟩⟩ :=
      queueReply_cases hwrite
    · rw [hentries] at he'
      exact h.current p hp e' he' hid
    · rw [hentries] at he'
      obtain ⟨e, he, rfl⟩ := List.mem_map.mp he'
      split_ifs at hid ⊢ with heid
      · -- The entry that the new reply replaces was pending: what was published is that one.
        have hsame : e = old := by
          have holdid : old.id = requestId := by simpa using List.find?_some hold
          exact List.inj_on_of_nodup_map h.nodup he (List.mem_of_find?_eq_some hold)
            (heid.trans holdid.symm)
        obtain ⟨q, hq, hpending, hresult⟩ : ∃ q, old.reply = some q ∧ q.status = .pending ∧
            reply.status ≠ .pending := by
          rcases hadvance with hnone | ⟨q, hq, hadvance⟩
          · have hknown := h.known e he
            rw [hsame, hnone] at hknown
            cases hknown
          · exact ⟨q, hq, childContactReplyTransition_advance hadvance⟩
        have hid' : e.id = p.id := heid.trans hid
        rcases h.current p hp e he hid' with heq | ⟨a, b, -, hb, -, hb'⟩
        · refine .inr ⟨q, reply, ?_, rfl, hpending, hresult⟩
          rw [← heq, hsame, hq]
        · rw [hsame, hq] at hb
          cases hb
          exact absurd hpending hb'
      · exact h.current p hp e he hid
    · rw [hentries] at he'
      rcases List.mem_append.mp he' with he' | he'
      · exact h.current p hp e' (hsub.subset he') hid
      · rw [List.mem_singleton.mp he'] at hid
        obtain ⟨e, he, heid⟩ := hkept p hp hid.symm
        exact absurd (decide_eq_true heid) (List.find?_eq_none.mp hnone e he)
  answers id := by
    rw [repliesTo, hpublished]
    exact h.answers id

theorem Told.step (h : Told w) {a : Action} (hg : Guarantee keys.lifecycle w a w')
    (hcondition : NotOvertaken w a) : Told w' := by
  obtain ⟨-, hpublish, hqueue⟩ := hcondition
  cases a with
  | outside | read =>
    obtain rfl : w' = w := hg
    exact h
  | go plan receipt =>
    obtain rfl : w' = w := hg.2
    exact h
  | sign plan =>
    obtain rfl : w' = _ := hg.2
    exact h.of_same rfl rfl
  | publish entry =>
    obtain rfl : w' = _ := hg
    obtain ⟨e, he, hid, hreply⟩ := hpublish entry rfl
    exact h.publish he hid hreply
  | commit c =>
    obtain ⟨-, -, rfl | happly⟩ := hg
    · exact h
    obtain ⟨s, hs, rfl⟩ := Except.map_eq_ok happly
    cases c with
    | queueReply scope requestId event reply relays now replaceUnreconciled =>
      obtain ⟨state, hstate, rfl⟩ := Except.map_eq_ok hs
      exact h.queueReply hstate
        (hqueue scope requestId event reply relays now replaceUnreconciled rfl) rfl rfl
    | acknowledge scope id eventId now =>
      obtain ⟨state, hstate, rfl⟩ := Except.map_eq_ok hs
      refine ⟨nodup_acknowledgeReply hstate, fun e he => ?_, fun p hp e he hid => ?_, h.answers⟩
      · obtain ⟨e', he', -, -, -, hreply⟩ := mem_acknowledgeReply hstate he
        rw [hreply]
        exact h.known e' he'
      · obtain ⟨e', he', hid', -, -, hreply⟩ := mem_acknowledgeReply hstate he
        rw [hreply]
        exact h.current p hp e' he' (hid'.symm.trans hid)
    | reserve scope plan plans settled now =>
      obtain ⟨state, -, rfl⟩ := Except.map_eq_ok hs
      exact h.of_same rfl rfl
    | _ =>
      obtain ⟨state, -, rfl⟩ := Except.map_eq_ok hs
      exact h.of_same rfl rfl

/-! ## Runs -/

omit [InviteSdk] [Sync.Sha256] [Signatures] in
theorem told_initial [InviteSdk] : Told World.initial where
  nodup := List.nodup_nil
  known _ he := absurd he List.not_mem_nil
  current _ hp := absurd hp List.not_mem_nil
  answers _ := List.Pairwise.nil

omit [InviteSdk] [Sync.Sha256] [Signatures] in
theorem pairwise_concat {α : Type} {R : α → α → Prop} {xs : List α} {x : α} (h : xs.Pairwise R)
    (hx : ∀ y ∈ xs, R y x) : (xs ++ [x]).Pairwise R := by
  rw [List.pairwise_append]
  refine ⟨h, List.pairwise_singleton R x, fun y hy z hz => ?_⟩
  rw [List.mem_singleton.mp hz]
  exact hx y hy

end Runs

section Sample

attribute [local instance] sampleInvites sampleSignatures echoSha256

end Sample

end SignetApp.Pairing
