import SignetApp.Pairing.Guarantees
import Mathlib.Algebra.Order.BigOperators.Group.List

/-!
# Rows their readers accept

Every reader takes its row as a whole and throws on one bad entry. Each writer, given a row its
reader returns unchanged, leaves another; where a writer stamps a time or keeps a text its reader
bounds, under the condition its operation does not check.
-/

namespace SignetApp.Pairing

open SignetApp.Js SignetApp.Contacts

/-! ## The size of an inbox -/

theorem numeralLength_le {n : ℤ} (h : stamp n = true) : numeralLength n ≤ 12 := by
  rw [stamp_iff] at h
  have hdigits : (Nat.toDigits 10 n.natAbs).length ≤ 12 :=
    (Nat.length_toDigits_le_iff (by omega) (by omega)).mpr (by omega)
  rw [numeralLength, if_neg (by omega)]
  exact hdigits

theorem length_text_le (s : ChildRequestStatus) : s.text.length ≤ 9 := by
  cases s <;> decide

section
variable [InviteSdk] {scope : ChildRequestScope}

theorem requestBytes_le {r q : ChildContactRequest} (h : parseChildContactRequest r = some q) :
    requestBytes r ≤ 12000 := by
  by_contra hlong
  rw [parseChildContactRequest, if_pos (not_le.mp hlong)] at h
  cases h

variable {x : ChildRequestReceipt}

theorem readReceipt_stamps {r : ChildRequestReceipt} (h : readReceipt scope r = .ok x) :
    stamp r.revision = true ∧ stamp r.updatedAt = true := by
  rw [readReceipt] at h
  split_ifs at h with hbad
  all_goals
    simp only [Bool.or_eq_true, Bool.not_eq_true', not_or, Bool.not_eq_false] at hbad
    exact ⟨hbad.1.1, hbad.2⟩

theorem receiptBytes_le {r : ChildRequestReceipt} (h : readReceipt scope r = .ok x) :
    receiptBytes r ≤ 192 + if isPending r then 12011 else 0 := by
  obtain ⟨hrevision, hupdated⟩ := readReceipt_stamps h
  have h₁ := numeralLength_le hrevision
  have h₂ := numeralLength_le hupdated
  have h₃ := length_text_le r.status
  have hrequest : r.request.elim 0 (fun q => 11 + requestBytes q)
      ≤ if isPending r then 12011 else 0 := by
    cases hr : r.request with
    | none => exact Nat.zero_le _
    | some q =>
      simp only [readReceipt, hr, Option.isSome_some, if_true, Option.bind_some] at h
      split_ifs at h with _ hpending hmatches
      have hq : ∃ q', parseChildContactRequest q = some q' := by
        cases hparse : parseChildContactRequest q with
        | none => rw [hparse] at hmatches; cases hmatches
        | some q' => exact ⟨q', rfl⟩
      obtain ⟨q', hq⟩ := hq
      have := requestBytes_le hq
      rw [if_pos (by simpa [isPending] using hpending)]
      show 11 + requestBytes q ≤ 12011
      omega
  rw [receiptBytes]
  omega

theorem sum_receiptBytes_le {xs : List ChildRequestReceipt}
    (h : ∀ r ∈ xs, receiptBytes r ≤ 192 + if isPending r then 12011 else 0) :
    (xs.map receiptBytes).sum ≤ 192 * xs.length + 12011 * (xs.filter isPending).length := by
  induction xs with
  | nil => exact Nat.zero_le _
  | cons r xs ih =>
    have hr := h r List.mem_cons_self
    have hxs := ih fun r hr => h r (List.mem_cons_of_mem _ hr)
    rw [List.map_cons, List.sum_cons, List.length_cons]
    by_cases hp : isPending r = true
    · rw [if_pos hp] at hr
      rw [List.filter_cons_of_pos hp, List.length_cons]
      omega
    · rw [if_neg hp] at hr
      rw [List.filter_cons_of_neg hp]
      omega

theorem inboxBytes_le {raw inbox : Inbox} (h : parseInbox raw scope = .ok inbox) :
    inboxBytes raw ≤ 1024 * 1024 := by
  obtain ⟨-, hlen, -, hpending, -, hall⟩ := parseInbox_eq_ok.mp h
  rw [retainLimit] at hlen
  rw [liveLimit] at hpending
  have hsum : (raw.entries.map receiptBytes).sum
      ≤ 192 * raw.entries.length + 12011 * (raw.entries.filter isPending).length := by
    refine sum_receiptBytes_le fun r hr => ?_
    obtain ⟨x, -, hx⟩ := exists_of_mem_left hall hr
    exact receiptBytes_le hx
  rw [inboxBytes]
  omega

end

/-! ## The inbox -/

section Inbox

variable [InviteSdk] {scope : ChildRequestScope} {now : ℤ}

/-- Receipts the inbox's reader returns as they are. -/
structure SoundReceipts (scope : ChildRequestScope) (xs : List ChildRequestReceipt) : Prop where
  length_le : xs.length ≤ retainLimit
  nodup : (xs.map (·.id)).Nodup
  pending_le : (xs.filter isPending).length ≤ liveLimit
  read : ∀ r ∈ xs, readReceipt scope r = .ok r

theorem parseInbox_self_iff {row : Inbox} :
    parseInbox row scope = .ok row ↔
      row.toPairingKeys = scope.toPairingKeys ∧ SoundReceipts scope row.entries := by
  rw [parseInbox_eq_ok, List.forall₂_same]
  constructor
  · rintro ⟨hkeys, hlen, hnodup, hpending, -, hall⟩
    exact ⟨hkeys, hlen, hnodup, hpending, hall⟩
  · rintro ⟨hkeys, hlen, hnodup, hpending, hall⟩
    exact ⟨hkeys, hlen, hnodup, hpending, hkeys, hall⟩

variable {status : ChildRequestStatus}

theorem readReceipt_settle {r : ChildRequestReceipt} {t : ℤ}
    (h : readReceipt scope r = .ok r) (ht : stamp t = true) (hs : status ≠ .pending) :
    readReceipt scope (r.settle status t) = .ok (r.settle status t) := by
  obtain ⟨hrevision, -⟩ := readReceipt_stamps h
  have hone : ¬ r.revision < 1 := by
    rw [readReceipt] at h
    split_ifs at h with hbad
    all_goals
      simp only [Bool.or_eq_true, decide_eq_true_eq, not_or] at hbad
      exact hbad.1.2
  simp [readReceipt, ChildRequestReceipt.settle, hrevision, hone, ht, hs]

theorem SoundReceipts.settle {xs : List ChildRequestReceipt} (h : SoundReceipts scope xs)
    (p : ChildRequestReceipt → Prop) [DecidablePred p] (settledAt : ChildRequestReceipt → ℤ)
    (ht : ∀ r ∈ xs, p r → stamp (settledAt r) = true ∧ status ≠ .pending) :
    SoundReceipts scope (xs.map fun r => if p r then r.settle status (settledAt r) else r) where
  length_le := by
    rw [List.length_map]
    exact h.length_le
  nodup := by
    rw [map_map_of_key fun r => by split_ifs <;> rfl]
    exact h.nodup
  pending_le := by
    refine le_trans ?_ h.pending_le
    rw [← List.countP_eq_length_filter, ← List.countP_eq_length_filter, List.countP_map]
    refine List.countP_mono_left fun r hr hpending => ?_
    rw [Function.comp_apply] at hpending
    split_ifs at hpending with hp
    · exact absurd (of_decide_eq_true hpending) (ht r hr hp).2
    · exact hpending
  read := by
    intro x hx
    obtain ⟨r, hr, rfl⟩ := List.mem_map.mp hx
    split_ifs with hp
    · exact readReceipt_settle (h.read r hr) (ht r hr hp).1 (ht r hr hp).2
    · exact h.read r hr

theorem SoundReceipts.expire {inbox : Inbox} (h : SoundReceipts scope inbox.entries)
    (hnow : stamp now = true) : SoundReceipts scope (expire inbox scope now).entries :=
  h.settle (fun r => overdue scope now r = true) (fun _ => now)
    fun _ _ _ => ⟨hnow, ChildRequestStatus.noConfusion⟩

omit [InviteSdk] in
theorem stamp_max {a b : ℤ} (ha : stamp a = true) (hb : stamp b = true) :
    stamp (max a b) = true := by
  rw [stamp_iff] at *
  omega

variable {previous : Option Inbox} {inbox : Inbox}

theorem soundReceipts_empty : SoundReceipts scope [] where
  length_le := Nat.zero_le _
  nodup := List.nodup_nil
  pending_le := Nat.zero_le _
  read _ hr := absurd hr List.not_mem_nil

theorem parseInbox_getD (h : ∀ row ∈ previous, parseInbox row scope = .ok row) :
    parseInbox (previous.getD scope.empty) scope = .ok (previous.getD scope.empty) := by
  cases previous with
  | none => exact parseInbox_self_iff.mpr ⟨rfl, soundReceipts_empty⟩
  | some row => exact h row rfl

theorem readsBack_expireInbox (h : ∀ row ∈ previous, parseInbox row scope = .ok row)
    (hnow : stamp now = true) (hwrite : expireInbox scope now previous = .ok inbox) :
    parseInbox inbox scope = .ok inbox := by
  obtain ⟨row, parsed, rfl, hp, rfl⟩ := expireInbox_cases hwrite
  rw [h row rfl] at hp
  cases hp
  obtain ⟨hkeys, hsound⟩ := parseInbox_self_iff.mp (h row rfl)
  exact parseInbox_self_iff.mpr ⟨hkeys, hsound.expire hnow⟩

theorem readsBack_storeRequest {request : ChildContactRequest} {fingerprint : Hex64}
    (h : ∀ row ∈ previous, parseInbox row scope = .ok row) (hnow : stamp now = true)
    (hscope : childContactRequestInScope request scope = true)
    (hparse : parseChildContactRequest request = some request)
    (hwrite : storeRequest scope request fingerprint now previous = .ok inbox) :
    parseInbox inbox scope = .ok inbox := by
  obtain ⟨parsed, hp, hcases⟩ := storeRequest_cases hwrite
  rw [parseInbox_getD h] at hp
  cases hp
  obtain ⟨hkeys, hsound⟩ := parseInbox_self_iff.mp (parseInbox_getD h)
  have hexpired := hsound.expire hnow
  rcases hcases with rfl | rfl | ⟨hnone, hlen, hpending, rfl⟩
  · exact parseInbox_self_iff.mpr ⟨hkeys, hexpired⟩
  · exact parseInbox_self_iff.mpr ⟨hkeys, hexpired.settle (fun r => r.id = request.id)
      (fun _ => now) fun _ _ _ => ⟨hnow, ChildRequestStatus.noConfusion⟩⟩
  · refine parseInbox_self_iff.mpr ⟨hkeys, ?_, nodup_concat_of_key hexpired.nodup hnone, ?_, ?_⟩
    · rw [List.length_append, List.length_singleton]
      omega
    · rw [List.filter_append, List.length_append]
      have hone := List.length_filter_le isPending [({
        id := request.id, fingerprint, revision := request.revision, status := .pending,
        updatedAt := now, request := some request } : ChildRequestReceipt)]
      rw [List.length_singleton] at hone
      omega
    · intro r hr
      rcases List.mem_append.mp hr with hr | hr
      · exact hexpired.read r hr
      · rw [List.mem_singleton.mp hr]
        simp only [childContactRequestInScope, Bool.and_eq_true, decide_eq_true_eq] at hscope
        have hrevision : stamp request.revision = true ∧ ¬ request.revision < 1 := by
          rw [parseChildContactRequest] at hparse
          split_ifs at hparse with _ hbad
          simp only [Bool.or_eq_true, Bool.not_eq_true', decide_eq_true_eq, not_or,
            Bool.not_eq_false] at hbad
          exact ⟨hbad.1.1.1.1.1, hbad.1.1.1.1.2⟩
        simp [readReceipt, hparse, hrevision, hnow, hscope]

theorem readsBack_transitionReceipt {transitions : ChildRequestStatus → ChildRequestStatus → Prop}
    {requestId : Hex32} {source : List ChildRequestStatus} {target : ChildRequestStatus}
    (h : ∀ row ∈ previous, parseInbox row scope = .ok row) (hnow : stamp now = true)
    (hmoves : ∀ a ∈ source, Moves transitions a target)
    (hwrite : transitionReceipt scope requestId source target now previous = .ok inbox) :
    parseInbox inbox scope = .ok inbox := by
  obtain ⟨row, parsed, receipt, rfl, hp, -, hcases⟩ := transitionReceipt_cases hwrite
  rw [h row rfl] at hp
  cases hp
  obtain ⟨hkeys, hsound⟩ := parseInbox_self_iff.mp (h row rfl)
  have hexpired := hsound.expire hnow
  rcases hcases with ⟨-, rfl⟩ | ⟨hsource, rfl⟩
  · exact parseInbox_self_iff.mpr ⟨hkeys, hexpired⟩
  · have htarget : target ≠ .pending := (hmoves _ hsource).ne_pending
    refine parseInbox_self_iff.mpr ⟨hkeys, hexpired.settle (fun r => r.id = requestId)
      (fun r => max now r.updatedAt) fun r hr _ => ⟨?_, htarget⟩⟩
    exact stamp_max hnow (readReceipt_stamps (hexpired.read r hr)).2

end Inbox

/-! ## The review row -/

section Review

variable [InviteSdk] [Sync.Sha256] {scope : ChildRequestScope} {previous : Option ReviewState}
  {state : ReviewState}

theorem parseReview_getD (h : ∀ row ∈ previous, parseReview row scope = .ok row) :
    parseReview (previous.getD scope.empty) scope = .ok (previous.getD scope.empty) := by
  cases previous with
  | none =>
    exact parseReview_eq_ok.mpr ⟨rfl, rfl, Nat.zero_le _, fun p hp => absurd hp List.not_mem_nil,
      List.nodup_nil, List.nodup_nil⟩
  | some row => exact h row rfl

theorem readsBack_cancelPlan {requestId : Hex32} {now : ℤ} (hnow : stamp now = true)
    (hclock : ∀ p ∈ entriesOf previous, p.requestId = requestId → p.status ≠ .cancelled →
      p.createdAt ≤ now) (hwrite : cancelPlan scope requestId now previous = .ok state) :
    parseReview state scope = .ok state := by
  obtain ⟨plan, hp, hkeys, hfound, hcases⟩ := cancelPlan_cases hwrite
  obtain ⟨-, -, hlen, haccepts, hids, hexchanges⟩ := parseReview_eq_ok.mp hp
  rw [entriesOf_eq] at hlen haccepts hids hexchanges
  rcases hcases with ⟨-, hentries⟩ | ⟨hstatus, hentries⟩
  · rw [← hentries] at hlen haccepts hids hexchanges
    exact parseReview_eq_ok.mpr ⟨rfl, hkeys, hlen, haccepts, hids, hexchanges⟩
  · refine parseReview_eq_ok.mpr ⟨rfl, hkeys, ?_, fun p hp => ?_, ?_, ?_⟩
    · rw [hentries, List.length_map]
      exact hlen
    · rw [hentries] at hp
      obtain ⟨q, hq, rfl⟩ := List.mem_map.mp hp
      split_ifs with hqid
      · -- The plan cancelled is the one that was found, not cancelled before.
        have hsame : q = plan := by
          have hid : plan.requestId = requestId := by simpa using List.find?_some hfound
          exact List.inj_on_of_nodup_map hids hq (List.mem_of_find?_eq_some hfound)
            (hqid.trans hid.symm)
        have hle := hclock q hq hqid (hsame ▸ hstatus)
        have hq := haccepts q hq
        simp only [acceptsPlan, Bool.and_eq_true, decide_eq_true_eq] at hq ⊢
        simp [hq, hnow, hle]
      · exact haccepts q hq
    · rw [hentries, map_map_of_key fun p => by split_ifs <;> rfl]
      exact hids
    · rw [hentries, map_map_of_key fun p => by split_ifs <;> rfl]
      exact hexchanges

theorem readsBack_reviewRequest (hinj : Function.Injective (exchangeId scope.toPairingKeys))
    {plan : ChildContactExchangePlan} {settled : List Hex32} (hplan : acceptsPlan scope plan = true)
    (hwrite : reviewRequest scope plan settled previous = .ok state) :
    parseReview state scope = .ok state := by
  obtain ⟨hp, hkeys, hcases⟩ := reviewRequest_cases hwrite
  obtain ⟨-, -, hlen, haccepts, hids, hexchanges⟩ := parseReview_eq_ok.mp hp
  rw [entriesOf_eq] at hlen haccepts hids hexchanges
  rcases hcases with ⟨-, -, -, -, hentries⟩ | ⟨hnone, kept, hkept, hroom, -, hentries⟩
  · rw [← hentries] at hlen haccepts hids hexchanges
    exact parseReview_eq_ok.mpr ⟨rfl, hkeys, hlen, haccepts, hids, hexchanges⟩
  · have haccepts' : ∀ p ∈ state.entries, acceptsPlan scope p = true := by
      intro p hp
      rw [hentries] at hp
      rcases List.mem_append.mp hp with hp | hp
      · exact haccepts p (hkept.subset hp)
      · rw [List.mem_singleton.mp hp]
        exact hplan
    have hids' : (state.entries.map (·.requestId)).Nodup := by
      rw [hentries]
      refine nodup_concat_of_key (hids.sublist (hkept.map _)) ?_
      rw [planOf] at hnone
      rw [List.find?_eq_none] at hnone ⊢
      exact fun p hp => hnone p (hkept.subset hp)
    refine parseReview_eq_ok.mpr ⟨rfl, hkeys, ?_, haccepts', hids', ?_⟩
    · rw [hentries, List.length_append, List.length_singleton]
      omega
    · -- Exchange ids are the hashes of the request ids.
      have hhash : state.entries.map (·.exchangeId)
          = (state.entries.map (·.requestId)).map (exchangeId scope.toPairingKeys) := by
        rw [List.map_map]
        refine List.map_congr_left fun p hp => ?_
        have hp := haccepts' p hp
        simp only [acceptsPlan, Bool.and_eq_true, decide_eq_true_eq] at hp
        exact hp.1.1.1.1.1.1.2.symm
      rw [hhash]
      exact hids'.map hinj

end Review

/-! ## The execution row -/

section Execution

variable {scope : ChildRequestScope} {now : ℤ} {previous : Option ExecutionState}
  {state : ExecutionState}

theorem parseExecutions_getD (h : ∀ row ∈ previous, parseExecutions row scope = .ok row) :
    parseExecutions (previous.getD scope.empty) scope = .ok (previous.getD scope.empty) := by
  cases previous with
  | none =>
    exact parseExecutions_eq_ok.mpr ⟨rfl, rfl, Nat.zero_le _,
      fun e he => absurd he List.not_mem_nil, List.nodup_nil⟩
  | some row => exact h row rfl

theorem readsBack_reserve [InviteSdk] {plan : ChildContactExchangePlan}
    {plans : List ChildContactExchangePlan} {settled : List Hex32} {inserted : Bool}
    (hnow : stamp now = true)
    (hwrite : reserve scope plan plans settled now previous = .ok (state, inserted)) :
    parseExecutions state scope = .ok state := by
  obtain ⟨hp, hkeys, hcases⟩ := reserve_cases hwrite
  obtain ⟨-, -, hlen, haccepts, hexchanges⟩ := parseExecutions_eq_ok.mp hp
  rw [entriesOf_eq] at hlen haccepts hexchanges
  rcases hcases with ⟨-, -, hentries⟩ | ⟨-, hnew, kept, hkept, hroom, -, hentries⟩
  · rw [← hentries] at hlen haccepts hexchanges
    exact parseExecutions_eq_ok.mpr ⟨rfl, hkeys, hlen, haccepts, hexchanges⟩
  · refine parseExecutions_eq_ok.mpr ⟨rfl, hkeys, ?_, fun e he => ?_, ?_⟩
    · rw [hentries, List.length_append, List.length_singleton]
      omega
    · rw [hentries] at he
      rcases List.mem_append.mp he with he | he
      · exact haccepts e (hkept.subset he)
      · rw [List.mem_singleton.mp he]
        simp [acceptsExecution, hnow]
    · rw [hentries]
      refine nodup_concat_of_key (hexchanges.sublist (hkept.map _)) ?_
      rw [List.find?_eq_none]
      intro e he hx
      exact hnew (List.mem_map.mpr ⟨e, hkept.subset he, by simpa using hx⟩)

theorem readsBack_mark {row : ExecutionState} (p : ChildContactExecution → Prop) [DecidablePred p]
    (mark : ChildContactExecution → ChildContactExecution)
    (hparse : parseExecutions row scope = .ok row) (hkeys : state.toPairingKeys = row.toPairingKeys)
    (hid : ∀ e, (mark e).exchangeId = e.exchangeId)
    (haccepts : ∀ e ∈ row.entries, p e → acceptsExecution e = true →
      acceptsExecution (mark e) = true)
    (hentries : state.entries = row.entries.map fun e => if p e then mark e else e) :
    parseExecutions state scope = .ok state := by
  obtain ⟨-, hrow, hlen, hall, hexchanges⟩ := parseExecutions_eq_ok.mp hparse
  refine parseExecutions_eq_ok.mpr ⟨rfl, hkeys.trans hrow, ?_, fun e he => ?_, ?_⟩
  · rw [hentries, List.length_map]
    exact hlen
  · rw [hentries] at he
    obtain ⟨e', he', rfl⟩ := List.mem_map.mp he
    split_ifs with hp
    · exact haccepts e' he' hp (hall e' he')
    · exact hall e' he'
  · rw [hentries, map_map_of_key fun e => by split_ifs; exacts [hid e, rfl]]
    exact hexchanges

variable {exchangeId : Hex32}

theorem readsBack_recordSigned {event : NostrEvent} (hnow : stamp now = true)
    (hevent : parseEvent event = true)
    (hclock : ∀ e ∈ entriesOf previous, e.exchangeId = exchangeId → e.status = .planned →
      e.createdAt ≤ now) (hwrite : recordSigned scope exchangeId event now previous = .ok state) :
    parseExecutions state scope = .ok state := by
  obtain ⟨row, current, rfl, hp, hkeys, hfound, hcases⟩ := recordSigned_cases hwrite
  obtain ⟨-, hrow, hlen, hall, hexchanges⟩ := parseExecutions_eq_ok.mp hp
  rcases hcases with ⟨-, hentries⟩ | ⟨hplanned, hentries⟩
  · rw [← hentries] at hlen hall hexchanges
    exact parseExecutions_eq_ok.mpr ⟨rfl, hkeys, hlen, hall, hexchanges⟩
  · refine readsBack_mark (fun e => e.exchangeId = exchangeId)
      (fun e => { e with status := .signed, updatedAt := now, event := some event }) hp
      (hkeys.trans hrow.symm) (fun _ => rfl) (fun e he hx haccepts => ?_) hentries
    have hsame : e = current := by
      have hid : current.exchangeId = exchangeId := by simpa using List.find?_some hfound
      exact List.inj_on_of_nodup_map hexchanges he (List.mem_of_find?_eq_some hfound)
        (hx.trans hid.symm)
    have hle := hclock e he hx (hsame ▸ hplanned)
    simp only [acceptsExecution, Bool.and_eq_true, decide_eq_true_eq] at haccepts ⊢
    simp [haccepts, hnow, hle, hevent]

theorem readsBack_cancelExecution (hnow : stamp now = true)
    (hclock : ∀ e ∈ entriesOf previous, e.exchangeId = exchangeId → e.status = .planned →
      e.createdAt ≤ now) (hwrite : cancelExecution scope exchangeId now previous = .ok state) :
    parseExecutions state scope = .ok state := by
  obtain ⟨hp, hkeys, hentries⟩ := cancelExecution_cases hwrite
  obtain ⟨-, hrow, -⟩ := parseExecutions_eq_ok.mp hp
  rw [← entriesOf_eq previous scope] at hentries
  refine readsBack_mark (fun e => (e.exchangeId = exchangeId && e.status = .planned) = true)
    (fun e => { e with status := .cancelled, updatedAt := now }) hp (hkeys.trans hrow.symm)
    (fun _ => rfl) (fun e he hx haccepts => ?_) hentries
  rw [Bool.and_eq_true, decide_eq_true_eq, decide_eq_true_eq] at hx
  have hle := hclock e (entriesOf_eq previous scope ▸ he) hx.1 hx.2
  simp only [acceptsExecution, hx.2, Bool.and_eq_true, decide_eq_true_eq] at haccepts ⊢
  simpa [haccepts, hnow, hle] using haccepts.2

end Execution

/-! ## Replies -/

section Replies

variable [Signatures] {scope : ChildRequestScope} {now : ℤ} {previous : Option ReplyOutbox}
  {state : ReplyOutbox}

theorem parseReplyOutbox_getD (h : ∀ row ∈ previous, parseReplyOutbox row scope = .ok row) :
    parseReplyOutbox (previous.getD scope.empty) scope = .ok (previous.getD scope.empty) := by
  cases previous with
  | none =>
    exact parseReplyOutbox_eq_ok.mpr ⟨rfl, rfl, Nat.zero_le _,
      fun e he => absurd he List.not_mem_nil, List.nodup_nil⟩
  | some row => exact h row rfl

variable {relays : List JsString} {reply : ChildContactReply} {event : NostrEvent}
variable {requestId : Hex32}

theorem acceptsReplyEntry_queued
    (hmay : mayQueueReply scope requestId event reply relays now = .ok ())
    (hrelays : ∀ r ∈ relays, r.length ≤ 500) :
    acceptsReplyEntry scope (queuedEntry requestId event reply relays now) = true := by
  rw [mayQueueReply] at hmay
  split_ifs at hmay with hentry hreply
  simp only [Bool.or_eq_true, Bool.not_eq_true', decide_eq_true_eq, not_or, Bool.not_eq_false,
    not_lt] at hentry
  cases hparse : parseChildContactReply reply with
  | none => simp [hparse] at hreply
  | some parsed =>
    simp only [hparse, Option.any_some, Bool.not_eq_true', Bool.not_eq_false, Bool.and_eq_true,
      decide_eq_true_eq] at hreply
    have hrelays' : relays.all (fun r => r.length ≤ 500) = true := by simpa using hrelays
    simp only [acceptsReplyEntry, queuedEntry, Option.all_some, Option.all_none, hparse,
      Option.any_some, hreply, hentry, hrelays', decide_true, Bool.and_self]

theorem readsBack_queueReply {replaceUnreconciled : Bool}
    (hmay : mayQueueReply scope requestId event reply relays now = .ok ())
    (hrelays : ∀ r ∈ relays, r.length ≤ 500)
    (hwrite : queueReply scope requestId event reply relays now replaceUnreconciled previous
      = .ok state) : parseReplyOutbox state scope = .ok state := by
  obtain ⟨hp, hkeys, hcases⟩ := queueReply_cases hwrite
  obtain ⟨-, -, hlen, hall, -⟩ := parseReplyOutbox_eq_ok.mp hp
  rw [entriesOf_eq] at hlen hall
  have haccepts : ∀ e ∈ state.entries, acceptsReplyEntry scope e = true := by
    intro e he
    rcases mem_queueReply hwrite he with he | rfl
    · exact hall e he
    · exact acceptsReplyEntry_queued hmay hrelays
  refine parseReplyOutbox_eq_ok.mpr ⟨rfl, hkeys, ?_, haccepts, nodup_queueReply hwrite⟩
  rcases hcases with hentries | ⟨old, -, -, hentries⟩ | ⟨-, kept, -, hroom, hentries⟩
  · rw [hentries]
    exact hlen
  · rw [hentries, List.length_map]
    exact hlen
  · rw [hentries, List.length_append, List.length_singleton]
    omega

theorem readsBack_acknowledgeReply {id : Hex32} {eventId : JsString} (hnow : stamp now = true)
    (hwrite : acknowledgeReply scope id eventId now previous = .ok state) :
    parseReplyOutbox state scope = .ok state := by
  obtain ⟨row, hrow, hp, hkeys, hentries⟩ := acknowledgeReply_cases hwrite
  obtain ⟨-, -, hlen, hall, -⟩ := parseReplyOutbox_eq_ok.mp hp
  refine parseReplyOutbox_eq_ok.mpr ⟨rfl, hkeys, ?_, fun e he => ?_, nodup_acknowledgeReply hwrite⟩
  · rw [hentries, List.length_map]
    exact hlen
  · rw [hentries] at he
    obtain ⟨e', he', rfl⟩ := List.mem_map.mp he
    have haccepts := hall e' he'
    split_ifs
    · simp only [acceptsReplyEntry, Bool.and_eq_true, Option.all_some] at haccepts ⊢
      exact ⟨⟨haccepts.1.1, hnow⟩, haccepts.2⟩
    · exact haccepts

end Replies

/-! ## The child's rows -/

section Outbox

variable [Signatures] [InviteSdk] {scope : ChildRequestScope} {previous : Option Outbox}
  {state : Outbox}

theorem parseOutbox_self_iff {row : Outbox} :
    parseOutbox row scope = .ok row ↔
      row.toPairingKeys = scope.toPairingKeys ∧ row.entries.length ≤ liveLimit ∧
        (row.entries.map (·.request.id)).Nodup ∧
        ∀ e ∈ row.entries, readOutboxEntry scope e = .ok e := by
  rw [parseOutbox_eq_ok, List.forall₂_same]
  constructor
  · rintro ⟨hkeys, hlen, -, hnodup, hall⟩
    exact ⟨hkeys, hlen, hnodup, hall⟩
  · rintro ⟨hkeys, hlen, hnodup, hall⟩
    exact ⟨hkeys, hlen, hkeys, hnodup, hall⟩

theorem parseOutbox_getD (h : ∀ row ∈ previous, parseOutbox row scope = .ok row) :
    parseOutbox (previous.getD scope.empty) scope = .ok (previous.getD scope.empty) := by
  cases previous with
  | none =>
    exact parseOutbox_self_iff.mpr ⟨rfl, Nat.zero_le _, List.nodup_nil,
      fun e he => absurd he List.not_mem_nil⟩
  | some row => exact h row rfl

theorem readsBack_queueRequest {request : ChildContactRequest} {fingerprint : Hex64} {now : ℤ}
    (h : ∀ row ∈ previous, parseOutbox row scope = .ok row) (hnow : stamp now = true)
    (hparse : parseChildContactRequest request = some request)
    (hclient : request.client = scope.client) (hguardian : request.guardian = scope.guardian)
    (hwrite : queueRequest scope request fingerprint now previous = .ok state) :
    parseOutbox state scope = .ok state := by
  obtain ⟨box, hp, hcases⟩ := queueRequest_cases hwrite
  rw [parseOutbox_getD h] at hp
  cases hp
  obtain ⟨hkeys, hlen, hnodup, hall⟩ := parseOutbox_self_iff.mp (parseOutbox_getD h)
  rcases hcases with ⟨-, rfl⟩ | ⟨hnone, hroom, rfl⟩
  · exact parseOutbox_getD h
  · refine parseOutbox_self_iff.mpr ⟨hkeys, ?_, ?_, fun e he => ?_⟩
    · rw [List.length_append, List.length_singleton]
      omega
    · exact nodup_concat_of_key hnodup hnone
    · rcases List.mem_append.mp he with he | he
      · exact hall e he
      · rw [List.mem_singleton.mp he]
        simp [readOutboxEntry, hparse, hclient, hguardian, hnow]

theorem readsBack_attachEvent {requestId : Hex32} {event : NostrEvent}
    (h : ∀ row ∈ previous, parseOutbox row scope = .ok row)
    (hshape : eventShape event requestPrefix scope.client none = true)
    (hverify : Signatures.verifyEvent event = true)
    (hwrite : attachEvent scope requestId event previous = .ok state) :
    parseOutbox state scope = .ok state := by
  obtain ⟨box, entry, hp, hfound, hcreated, hdTag, rfl⟩ := attachEvent_cases hwrite
  rw [parseOutbox_getD h] at hp
  cases hp
  obtain ⟨hkeys, hlen, hnodup, hall⟩ := parseOutbox_self_iff.mp (parseOutbox_getD h)
  refine parseOutbox_self_iff.mpr ⟨hkeys, ?_, ?_, fun e he => ?_⟩
  · rw [List.length_map]
    exact hlen
  · rw [map_map_of_key fun e => by split_ifs <;> rfl]
    exact hnodup
  · obtain ⟨e', he', rfl⟩ := List.mem_map.mp he
    split_ifs with hid
    · have hsame : e' = entry := by
        have hentry : entry.request.id = requestId := by simpa using List.find?_some hfound
        exact List.inj_on_of_nodup_map hnodup he' (List.mem_of_find?_eq_some hfound)
          (hid.trans hentry.symm)
      obtain ⟨request, hparse, heq, hclient, hguardian, hstamp, -⟩ :=
        readOutboxEntry_ok (hall e' he')
      have hrequest : e'.request = request := congrArg ChildContactOutboxEntry.request heq
      rw [← hrequest] at hparse hclient hguardian
      simp [readOutboxEntry, hparse, hclient, hguardian, hstamp, hshape, hverify, hdTag, hid,
        hcreated, ← hsame]
    · exact hall e' he'

end Outbox

section ReplyInbox

variable {scope : ChildRequestScope} {state : ReplyInbox}

/-- The reply inbox as its reader demands it, the personas of the replies apart. -/
structure SoundReplyInbox (keys : PairingKeys) (row : ReplyInbox) : Prop where
  keys_eq : row.toPairingKeys = keys
  length_le : row.entries.length ≤ retainLimit
  nodup : (row.entries.map (·.id)).Nodup
  accepts : ∀ r ∈ row.entries, isSafeInteger r.receivedAt = true ∧ r.reply.requestId = r.id ∧
    r.reply.guardian = keys.guardian ∧ r.reply.endpoint = keys.endpoint ∧
    r.reply.client = keys.client

theorem SoundReplyInbox.parse_iff {row : ReplyInbox} (h : SoundReplyInbox scope.toPairingKeys row) :
    parseReplyInbox row scope = .ok row ↔ ∀ r ∈ row.entries, r.reply.persona ∈ scope.personas := by
  rw [parseReplyInbox_eq_ok]
  constructor
  · rintro ⟨-, -, -, haccepts, -⟩ r hr
    have hr := haccepts r hr
    simp only [acceptsReplyReceipt, Bool.and_eq_true, List.contains_iff_mem] at hr
    exact hr.1.2
  · intro hpersonas
    refine ⟨rfl, h.keys_eq, h.length_le, fun r hr => ?_, h.nodup⟩
    obtain ⟨hclock, hid, hguardian, hendpoint, hclient⟩ := h.accepts r hr
    simp [acceptsReplyReceipt, ChildContactReply.belongs, hclock, hid, hguardian, hendpoint, hclient,
      hpersonas r hr]

theorem sound_saveReplyReceipt {receipt : ChildContactReplyReceipt} {previous : Option ReplyInbox}
    (hreceipt : acceptsReplyReceipt scope receipt = true)
    (hwrite : saveReplyReceipt scope receipt previous = .ok state) :
    SoundReplyInbox scope.toPairingKeys state := by
  obtain ⟨hp, hkeys, hcases⟩ := saveReplyReceipt_cases hwrite
  obtain ⟨-, -, hlen, hall, hids⟩ := parseReplyInbox_eq_ok.mp hp
  rw [entriesOf_eq] at hlen hall hids
  have hentries : ∀ r ∈ state.entries, r ∈ entriesOf previous ∨ r = receipt := by
    intro r hr
    rcases hcases with h | h | ⟨-, -, h⟩ <;> rw [h] at hr
    · exact .inl hr
    · obtain ⟨r', hr', rfl⟩ := List.mem_map.mp hr
      split_ifs
      · exact .inr rfl
      · exact .inl hr'
    · exact (List.mem_append.mp hr).imp id List.mem_singleton.mp
  refine ⟨hkeys, ?_, ?_, fun r hr => ?_⟩
  · rcases hcases with h | h | ⟨-, hroom, h⟩ <;> rw [h]
    · exact hlen
    · rw [List.length_map]
      exact hlen
    · rw [List.length_append, List.length_singleton]
      omega
  · rcases hcases with h | h | ⟨hnone, -, h⟩ <;> rw [h]
    · exact hids
    · rw [map_map_of_key fun r => by split_ifs with h; exacts [h.symm, rfl]]
      exact hids
    · exact nodup_concat_of_key hids hnone
  · have haccepts : acceptsReplyReceipt scope r = true := by
      rcases hentries r hr with hr | rfl
      · exact hall r hr
      · exact hreceipt
    simp only [acceptsReplyReceipt, ChildContactReply.belongs, Bool.and_eq_true,
      decide_eq_true_eq] at haccepts
    exact ⟨haccepts.2, haccepts.1.1.1.1.1, haccepts.1.1.1.1.2, haccepts.1.1.1.2, haccepts.1.1.2⟩

end ReplyInbox

/-! ## Runs -/

section Runs

variable [InviteSdk] [Sync.Sha256] [Signatures]

theorem parse_congr {scope scope' : ChildRequestScope}
    (h : scope.toPairingKeys = scope'.toPairingKeys) :
    (∀ row, parseInbox row scope = parseInbox row scope') ∧
      (∀ row, parseReview row scope = parseReview row scope') ∧
      (∀ row, parseExecutions row scope = parseExecutions row scope') ∧
      (∀ row, parseReplyOutbox row scope = parseReplyOutbox row scope') ∧
      ∀ row, parseOutbox row scope = parseOutbox row scope' := by
  obtain ⟨keys, personas⟩ := scope
  obtain ⟨keys', personas'⟩ := scope'
  obtain rfl : keys = keys' := h
  exact ⟨fun _ => rfl, fun _ => rfl, fun _ => rfl, fun _ => rfl, fun _ => rfl⟩

/-- Every stored row is one its reader returns as it is, whatever personas are in scope; the reply
inbox while the scope names the personas of its replies. -/
structure Readable (keys : PairingKeys) (s : Store) : Prop where
  inbox : ∀ row ∈ s.inbox, ∀ scope : ChildRequestScope, scope.toPairingKeys = keys →
    inboxBytes row ≤ 1024 * 1024 ∧ parseInbox row scope = .ok row
  review : ∀ row ∈ s.review, ∀ scope : ChildRequestScope, scope.toPairingKeys = keys →
    parseReview row scope = .ok row
  execution : ∀ row ∈ s.execution, ∀ scope : ChildRequestScope, scope.toPairingKeys = keys →
    parseExecutions row scope = .ok row
  replies : ∀ row ∈ s.replies, ∀ scope : ChildRequestScope, scope.toPairingKeys = keys →
    parseReplyOutbox row scope = .ok row
  outbox : ∀ row ∈ s.outbox, ∀ scope : ChildRequestScope, scope.toPairingKeys = keys →
    parseOutbox row scope = .ok row
  replyInbox : ∀ row ∈ s.replyInbox, ∀ scope : ChildRequestScope, scope.toPairingKeys = keys →
    (parseReplyInbox row scope = .ok row ↔ ∀ r ∈ row.entries, r.reply.persona ∈ scope.personas)

/-- What the writers do not check: a cancellation or a signature is not recorded at a time before
its row was made, and no relay has a name of more than 500 characters. -/
def WritesInOrder (w : World) (a : Action) : Prop :=
  (∀ scope requestId now, a = .commit (.cancelPlan scope requestId now) →
    ∀ p ∈ w.plans, p.requestId = requestId → p.status ≠ .cancelled → p.createdAt ≤ now) ∧
  (∀ scope exchangeId event now, a = .commit (.recordSigned scope exchangeId event now) →
    ∀ e ∈ w.executions, e.exchangeId = exchangeId → e.status = .planned → e.createdAt ≤ now) ∧
  (∀ scope exchangeId now, a = .commit (.cancelExecution scope exchangeId now) →
    ∀ e ∈ w.executions, e.exchangeId = exchangeId → e.status = .planned → e.createdAt ≤ now) ∧
  ∀ scope requestId event reply relays now replaceUnreconciled,
    a = .commit (.queueReply scope requestId event reply relays now replaceUnreconciled) →
      ∀ r ∈ relays, r.length ≤ 500

variable {C : Conduct} {w : World} {s' : Store} {scope : ChildRequestScope}

section Rows
variable {keys : PairingKeys} {s : Store} (h : Readable keys s) (hscope : scope.toPairingKeys = keys)

include h hscope

theorem Readable.withInbox {row : Inbox} (hrow : parseInbox row scope = .ok row) :
    Readable keys (s.withInbox row) :=
  { h with
    inbox := by
      rintro _ ⟨⟩ scope' hscope'
      exact ⟨inboxBytes_le hrow, by rw [(parse_congr (hscope'.trans hscope.symm)).1, hrow]⟩ }

theorem Readable.withReview {row : ReviewState} (hrow : parseReview row scope = .ok row) :
    Readable keys (s.withReview row) :=
  { h with
    review := by
      rintro _ ⟨⟩ scope' hscope'
      rw [(parse_congr (hscope'.trans hscope.symm)).2.1, hrow] }

theorem Readable.withExecution {row : ExecutionState} (hrow : parseExecutions row scope = .ok row) :
    Readable keys (s.withExecution row) :=
  { h with
    execution := by
      rintro _ ⟨⟩ scope' hscope'
      rw [(parse_congr (hscope'.trans hscope.symm)).2.2.1, hrow] }

theorem Readable.withReplies {row : ReplyOutbox} (hrow : parseReplyOutbox row scope = .ok row) :
    Readable keys (s.withReplies row) :=
  { h with
    replies := by
      rintro _ ⟨⟩ scope' hscope'
      rw [(parse_congr (hscope'.trans hscope.symm)).2.2.2.1, hrow] }

theorem Readable.withOutbox {row : Outbox} (hrow : parseOutbox row scope = .ok row) :
    Readable keys (s.withOutbox row) :=
  { h with
    outbox := by
      rintro _ ⟨⟩ scope' hscope'
      rw [(parse_congr (hscope'.trans hscope.symm)).2.2.2.2, hrow] }

omit hscope in
theorem Readable.withReplyInbox {row : ReplyInbox} (hrow : SoundReplyInbox keys row) :
    Readable keys (s.withReplyInbox row) :=
  { h with
    replyInbox := by
      rintro _ ⟨⟩ scope' rfl
      exact hrow.parse_iff }

end Rows

variable [LawfulInviteSdk]

omit [Sync.Sha256] [Signatures] in
theorem parseChildContactRequest_parsed {raw given request : ChildContactRequest}
    (hraw : parseChildContactRequest raw = some given)
    (hgiven : parseChildContactRequest given = some request) :
    parseChildContactRequest request = some request := by
  have hinvite : ∃ i, InviteSdk.parseContactInvite i = some given.invite := by
    rw [parseChildContactRequest] at hraw
    split_ifs at hraw
    cases hi : InviteSdk.parseContactInvite raw.invite with
    | none => simp [hi] at hraw
    | some invite =>
      simp only [hi] at hraw
      split_ifs at hraw
      cases hraw
      exact ⟨raw.invite, hi⟩
  obtain ⟨i, hi⟩ := hinvite
  have hfixed : InviteSdk.parseContactInvite given.invite = some given.invite :=
    LawfulInviteSdk.parse_parsed hi
  have hsame : request = given := by
    rw [parseChildContactRequest] at hgiven
    split_ifs at hgiven
    simp only [hfixed] at hgiven
    split_ifs at hgiven
    cases hgiven
    rfl
  rw [hsame] at hgiven ⊢
  exact hgiven

/-- A change that is argued, and written in order, leaves readable rows. -/
theorem Readable.onStore (hinj : Function.Injective (exchangeId C.keys))
    (h : Readable C.keys w.store) {c : Change} (hargued : c.Argued C)
    (hcondition : WritesInOrder w (.commit c)) (hwrite : c.onStore w.store = .ok s') :
    Readable C.keys s' := by
  obtain ⟨hcancel, hsigned, hcancelled, hrelays⟩ := hcondition
  cases c with
  | expire scope now =>
    obtain ⟨row, hrow, rfl⟩ := Except.map_eq_ok hwrite
    exact h.withInbox hargued.1
      (readsBack_expireInbox (fun r hr => (h.inbox r hr scope hargued.1).2) hargued.2 hrow)
  | store scope request fingerprint now =>
    obtain ⟨row, hrow, rfl⟩ := Except.map_eq_ok hwrite
    obtain ⟨hscope, hnow, hin, given, raw, hraw, hgiven⟩ := hargued
    exact h.withInbox hscope (readsBack_storeRequest
      (fun r hr => (h.inbox r hr scope hscope).2) hnow hin
      (parseChildContactRequest_parsed hraw hgiven) hrow)
  | transition scope requestId source target now =>
    obtain ⟨row, hrow, rfl⟩ := Except.map_eq_ok hwrite
    exact h.withInbox hargued.1 (readsBack_transitionReceipt
      (fun r hr => (h.inbox r hr scope hargued.1).2) hargued.2.1 hargued.2.2 hrow)
  | review scope plan settled =>
    obtain ⟨row, hrow, rfl⟩ := Except.map_eq_ok hwrite
    exact h.withReview hargued.1 (readsBack_reviewRequest (hargued.1 ▸ hinj) hargued.2 hrow)
  | cancelPlan scope requestId now =>
    obtain ⟨row, hrow, rfl⟩ := Except.map_eq_ok hwrite
    exact h.withReview hargued.1
      (readsBack_cancelPlan hargued.2 (hcancel scope requestId now rfl) hrow)
  | reserve scope plan plans settled now =>
    obtain ⟨⟨row, inserted⟩, hrow, rfl⟩ := Except.map_eq_ok hwrite
    exact h.withExecution hargued.1 (readsBack_reserve hargued.2.1 hrow)
  | recordSigned scope exchangeId event now =>
    obtain ⟨row, hrow, rfl⟩ := Except.map_eq_ok hwrite
    exact h.withExecution hargued.1 (readsBack_recordSigned hargued.2.1 hargued.2.2
      (hsigned scope exchangeId event now rfl) hrow)
  | cancelExecution scope exchangeId now =>
    obtain ⟨row, hrow, rfl⟩ := Except.map_eq_ok hwrite
    exact h.withExecution hargued.1
      (readsBack_cancelExecution hargued.2 (hcancelled scope exchangeId now rfl) hrow)
  | queueReply scope requestId event reply relays now replaceUnreconciled =>
    obtain ⟨row, hrow, rfl⟩ := Except.map_eq_ok hwrite
    exact h.withReplies hargued.1 (readsBack_queueReply hargued.2
      (hrelays scope requestId event reply relays now replaceUnreconciled rfl) hrow)
  | acknowledge scope id eventId now =>
    obtain ⟨row, hrow, rfl⟩ := Except.map_eq_ok hwrite
    exact h.withReplies hargued.1 (readsBack_acknowledgeReply hargued.2 hrow)
  | queueRequest scope request fingerprint now =>
    obtain ⟨row, hrow, rfl⟩ := Except.map_eq_ok hwrite
    obtain ⟨hscope, hnow, hclient, hguardian, given, raw, hraw, hgiven⟩ := hargued
    exact h.withOutbox hscope (readsBack_queueRequest (fun r hr => h.outbox r hr scope hscope) hnow
      (parseChildContactRequest_parsed hraw hgiven) hclient hguardian hrow)
  | attachEvent scope requestId event =>
    obtain ⟨row, hrow, rfl⟩ := Except.map_eq_ok hwrite
    exact h.withOutbox hargued.1 (readsBack_attachEvent (fun r hr => h.outbox r hr scope hargued.1)
      hargued.2.1 hargued.2.2 hrow)
  | saveReply scope receipt =>
    obtain ⟨row, hrow, rfl⟩ := Except.map_eq_ok hwrite
    refine h.withReplyInbox ?_
    rw [← hargued.1]
    exact sound_saveReplyReceipt hargued.2 hrow

omit [LawfulInviteSdk] in
theorem readable_initial {keys : PairingKeys} : Readable keys World.initial.store where
  inbox _ h := absurd h (Option.not_mem_none _)
  review _ h := absurd h (Option.not_mem_none _)
  execution _ h := absurd h (Option.not_mem_none _)
  replies _ h := absurd h (Option.not_mem_none _)
  outbox _ h := absurd h (Option.not_mem_none _)
  replyInbox _ h := absurd h (Option.not_mem_none _)

theorem Readable.step (hinj : Function.Injective (exchangeId C.keys)) {w' : World} {a : Action}
    (h : Readable C.keys w.store) (hg : Guarantee C w a w') (hcondition : WritesInOrder w a) :
    Readable C.keys w'.store := by
  cases a with
  | outside | read =>
    obtain rfl : w' = w := hg
    exact h
  | go plan receipt =>
    obtain rfl : w' = w := hg.2
    exact h
  | sign plan =>
    obtain rfl : w' = _ := hg.2
    exact h
  | publish entry =>
    obtain rfl : w' = _ := hg
    exact h
  | commit c =>
    obtain ⟨hargued, -, rfl | happly⟩ := hg
    · exact h
    · obtain ⟨s', hs', rfl⟩ := Except.map_eq_ok happly
      exact h.onStore hinj hargued hcondition hs'

theorem PairingRun.readable {keys : PairingKeys} (hinj : Function.Injective (exchangeId keys))
    {log : List (Async.Did Action World)} {w : World} {ts : List (Op Unit)}
    (h : PairingRun keys.exported log w ts)
    (hcondition : ∀ did ∈ log, WritesInOrder did.before did.label) :
    Readable keys w.store ∧ ∀ did ∈ log, Readable keys did.after.store := by
  refine PairingRun.induction (P := fun log w => Readable keys w.store ∧
    ∀ did ∈ log, Readable keys did.after.store) (fun _ => trivial)
    ⟨readable_initial, fun _ h => absurd h List.not_mem_nil⟩ ?_ h hcondition
  rintro log w a w' _ _ hg _ hcond ⟨hread, hlog⟩
  have hnext : Readable keys w'.store := Readable.step (C := keys.exported) hinj hread hg hcond
  refine ⟨hnext, fun did hdid => ?_⟩
  rcases List.mem_append.mp hdid with hdid | hdid
  · exact hlog did hdid
  · rw [List.mem_singleton.mp hdid]
    exact hnext

end Runs

end SignetApp.Pairing
