import SignetApp.Pairing.Operations

/-!
# What the writers write

For every reader, what it demands of a stored row; for every writer, what it leaves in the row it
was given, case by case.
-/

namespace SignetApp.Pairing

open SignetApp.Js SignetApp.Contacts

/-! ## Reading a list of rows -/

section Lists

variable {α β : Type}

variable {ys : List β} {xs : List α}

theorem forall₂_of_mapM_ok {ε : Type} {f : α → Except ε β}
    (h : xs.mapM f = .ok ys) : List.Forall₂ (fun x y => f x = .ok y) xs ys := by
  induction xs generalizing ys with
  | nil =>
    cases h
    exact .nil
  | cons x xs ih =>
    rw [List.mapM_cons] at h
    cases hx : f x with
    | error e => rw [hx] at h; cases h
    | ok y =>
      cases hxs : xs.mapM f with
      | error e => rw [hx, hxs] at h; cases h
      | ok zs =>
        rw [hx, hxs] at h
        cases h
        exact .cons hx (ih hxs)

theorem mapM_ok_of_forall₂ {ε : Type} {f : α → Except ε β}
    (h : List.Forall₂ (fun x y => f x = .ok y) xs ys) : xs.mapM f = .ok ys := by
  induction h with
  | nil => rfl
  | cons hx _ ih =>
    rw [List.mapM_cons, hx, ih]
    rfl

variable {R : α → β → Prop}

theorem map_eq_of_forall₂ {γ : Type} {f : α → γ} {g : β → γ} (h : List.Forall₂ R xs ys) (hR : ∀ x y, R x y → g y = f x) :
    ys.map g = xs.map f := by
  induction h with
  | nil => rfl
  | cons hxy _ ih => rw [List.map_cons, List.map_cons, ih, hR _ _ hxy]

theorem exists_of_mem_right (h : List.Forall₂ R xs ys) {y : β} (hy : y ∈ ys) : ∃ x ∈ xs, R x y := by
  induction h with
  | nil => cases hy
  | cons hxy _ ih =>
    rcases List.mem_cons.mp hy with rfl | hy
    · exact ⟨_, List.mem_cons_self, hxy⟩
    · obtain ⟨x, hx, hR⟩ := ih hy
      exact ⟨x, List.mem_cons_of_mem _ hx, hR⟩

theorem exists_of_mem_left (h : List.Forall₂ R xs ys) {x : α} (hx : x ∈ xs) : ∃ y ∈ ys, R x y :=
  exists_of_mem_right h.flip hx

variable {a : α} {κ : Type} {key : α → κ}

theorem find?_of_mem_of_nodup [DecidableEq κ]
    (h : (xs.map key).Nodup) (ha : a ∈ xs) : xs.find? (fun b => key b = key a) = some a := by
  obtain ⟨b, hb⟩ := Option.isSome_iff_exists.mp
    (List.find?_isSome.mpr ⟨a, ha, decide_eq_true rfl⟩ : (xs.find? fun b => key b = key a).isSome)
  have hkey : key b = key a := by simpa using List.find?_some hb
  rw [hb, List.inj_on_of_nodup_map h (List.mem_of_find?_eq_some hb) ha hkey]

theorem find?_map_of_key [DecidableEq κ] {f : α → α}
    (hf : ∀ a, key (f a) = key a) (xs : List α) (k : κ) :
    (xs.map f).find? (fun a => key a = k) = (xs.find? fun a => key a = k).map f := by
  rw [List.find?_map]
  have hkey : ((fun a => decide (key a = k)) ∘ f) = fun a => decide (key a = k) :=
    funext fun a => by rw [Function.comp_apply, hf]
  rw [hkey]

theorem map_map_of_key {f : α → α} (hf : ∀ a, key (f a) = key a)
    (xs : List α) : (xs.map f).map key = xs.map key := by
  rw [List.map_map]
  exact congrArg (List.map · xs) (funext hf)

theorem find?_concat_of_key [DecidableEq κ] {k : κ} :
    (xs ++ [a]).find? (fun a => key a = k)
      = (xs.find? fun a => key a = k).or (if key a = k then some a else none) := by
  rw [List.find?_append]
  congr 1
  by_cases h : key a = k <;> simp [h]

theorem nodup_concat_of_key [DecidableEq κ]
    (h : (xs.map key).Nodup) (hnone : xs.find? (fun b => key b = key a) = none) :
    ((xs ++ [a]).map key).Nodup := by
  rw [List.map_append, List.map_singleton, List.nodup_append]
  refine ⟨h, List.nodup_singleton _, fun k hk k' hk' heq => ?_⟩
  obtain ⟨b, hb, rfl⟩ := List.mem_map.mp hk
  have hne := List.find?_eq_none.mp hnone b hb
  rw [List.mem_singleton.mp hk'] at heq
  simp [heq] at hne

end Lists

/-! ## Readers that return the row they are given -/

theorem checked_eq_ok {α : Type} {p₁ p₂ p₃ : Bool} {m₁ m₂ m₃ : String} {raw row : α} :
    (if p₁ then .error m₁ else if p₂ then .error m₂ else if p₃ then .error m₃ else .ok raw :
      Except String α) = .ok row ↔ row = raw ∧ p₁ = false ∧ p₂ = false ∧ p₃ = false := by
  cases p₁ <;> cases p₂ <;> cases p₃ <;> simp [eq_comm]

theorem entriesOf_eq {E : Type} (previous : Option (PairingRow E)) (scope : ChildRequestScope) :
    (previous.getD scope.empty).entries = entriesOf previous := by
  cases previous <;> rfl

/-! ## The inbox -/

section Inbox

variable [InviteSdk]

theorem readReceipt_ok {scope : ChildRequestScope} {r x : ChildRequestReceipt}
    (h : readReceipt scope r = .ok x) :
    x.id = r.id ∧ x.status = r.status ∧ x.fingerprint = r.fingerprint ∧ x.revision = r.revision ∧
      x.updatedAt = r.updatedAt := by
  simp only [readReceipt] at h
  split_ifs at h <;> cases h <;> exact ⟨rfl, rfl, rfl, rfl, rfl⟩

/-- What the inbox's reader demands of a row, and what it returns. -/
theorem parseInbox_eq_ok {raw inbox : Inbox} {scope : ChildRequestScope} :
    parseInbox raw scope = .ok inbox ↔
      raw.toPairingKeys = scope.toPairingKeys ∧ raw.entries.length ≤ retainLimit ∧
        (raw.entries.map (·.id)).Nodup ∧ (raw.entries.filter isPending).length ≤ liveLimit ∧
        inbox.toPairingKeys = scope.toPairingKeys ∧
        List.Forall₂ (fun r x => readReceipt scope r = .ok x) raw.entries inbox.entries := by
  rw [parseInbox]
  split_ifs with hbad
  · simp only [false_iff]
    rintro ⟨h₁, h₂, h₃, h₄, -⟩
    simp only [Bool.or_eq_true, decide_eq_true_eq, Bool.not_eq_true', decide_eq_false_iff_not]
      at hbad
    rcases hbad with ((h | h) | h) | h
    · exact h h₁
    · omega
    · exact h h₃
    · omega
  · simp only [Bool.or_eq_true, decide_eq_true_eq, Bool.not_eq_true', decide_eq_false_iff_not,
      not_or, not_not, not_lt] at hbad
    obtain ⟨⟨⟨h₁, h₂⟩, h₃⟩, h₄⟩ := hbad
    constructor
    · intro h
      cases hm : raw.entries.mapM (readReceipt scope) with
      | error e => rw [hm] at h; cases h
      | ok xs =>
        rw [hm] at h
        cases h
        exact ⟨h₁, h₂, h₃, h₄, rfl, forall₂_of_mapM_ok hm⟩
    · rintro ⟨-, -, -, -, hkeys, hall⟩
      rw [mapM_ok_of_forall₂ hall]
      cases inbox
      subst hkeys
      rfl


variable {scope : ChildRequestScope} {now : ℤ} {previous : Option Inbox} {inbox : Inbox}

theorem expireInbox_cases (h : expireInbox scope now previous = .ok inbox) :
    ∃ row parsed, previous = some row ∧ parseInbox row scope = .ok parsed ∧
      inbox = expire parsed scope now := by
  cases previous with
  | none => cases h
  | some row =>
    rw [expireInbox] at h
    cases hp : parseInbox row scope with
    | error e => rw [hp] at h; cases h
    | ok parsed =>
      rw [hp] at h
      cases h
      exact ⟨row, parsed, rfl, hp, rfl⟩

/-- A request is known already, an altered copy of a known one, or new. -/
theorem storeRequest_cases {request : ChildContactRequest} {fingerprint : Hex64}
    (h : storeRequest scope request fingerprint now previous = .ok inbox) :
    ∃ parsed, parseInbox (previous.getD scope.empty) scope = .ok parsed ∧
      (inbox = expire parsed scope now ∨
        inbox = { expire parsed scope now with
          entries := (expire parsed scope now).entries.map fun r =>
            if r.id = request.id then r.settle .conflict now else r } ∨
        (expire parsed scope now).entries.find? (fun r => r.id = request.id) = none ∧
          (expire parsed scope now).entries.length < retainLimit ∧
          ((expire parsed scope now).entries.filter isPending).length < liveLimit ∧
          inbox = { expire parsed scope now with
            entries := (expire parsed scope now).entries ++ [{
              id := request.id, fingerprint, revision := request.revision, status := .pending,
              updatedAt := now, request := some request }] }) := by
  rw [storeRequest] at h
  cases hp : parseInbox (previous.getD scope.empty) scope with
  | error e => rw [hp] at h; cases h
  | ok parsed =>
    rw [hp] at h
    simp only [Bind.bind, Except.bind] at h
    refine ⟨parsed, rfl, ?_⟩
    cases hfind : (expire parsed scope now).entries.find? fun r => r.id = request.id with
    | some existing =>
      simp only [hfind] at h
      split_ifs at h
      · cases h
        exact .inl rfl
      · cases h
        exact .inr (.inl rfl)
    | none =>
      simp only [hfind] at h
      split_ifs at h with hfull
      cases h
      simp only [Bool.or_eq_true, decide_eq_true_eq, not_or, not_le] at hfull
      exact .inr (.inr ⟨rfl, hfull.1, hfull.2, rfl⟩)

/-- A receipt has the status asked for already, or one it may be moved from. -/
theorem transitionReceipt_cases {requestId : Hex32} {source : List ChildRequestStatus}
    {target : ChildRequestStatus}
    (h : transitionReceipt scope requestId source target now previous = .ok inbox) :
    ∃ row parsed receipt, previous = some row ∧ parseInbox row scope = .ok parsed ∧
      (expire parsed scope now).entries.find? (fun r => r.id = requestId) = some receipt ∧
      (receipt.status = target ∧ inbox = expire parsed scope now ∨
        receipt.status ∈ source ∧ inbox = { expire parsed scope now with
          entries := (expire parsed scope now).entries.map fun r =>
            if r.id = requestId then r.settle target (max now r.updatedAt) else r }) := by
  cases previous with
  | none => cases h
  | some row =>
    rw [transitionReceipt] at h
    cases hp : parseInbox row scope with
    | error e => rw [hp] at h; cases h
    | ok parsed =>
      rw [hp] at h
      simp only [Bind.bind, Except.bind] at h
      cases hfind : (expire parsed scope now).entries.find? fun r => r.id = requestId with
      | none => simp only [hfind] at h; cases h
      | some receipt =>
        simp only [hfind] at h
        refine ⟨row, parsed, receipt, rfl, hp, hfind, ?_⟩
        split_ifs at h with htarget hsource
        · cases h
          exact .inl ⟨htarget, rfl⟩
        · cases h
          exact .inr ⟨by simpa using hsource, rfl⟩

end Inbox

/-! ## The review row -/

/-- The plan of record for a request. -/
def planOf [InviteSdk] (plans : List ChildContactExchangePlan) (id : Hex32) :
    Option ChildContactExchangePlan := plans.find? fun p => p.requestId = id

section Review

variable [InviteSdk] [Sync.Sha256] {scope : ChildRequestScope} {previous : Option ReviewState}
  {state : ReviewState}

theorem parseReview_eq_ok {raw : ReviewState} :
    parseReview raw scope = .ok state ↔
      state = raw ∧ raw.toPairingKeys = scope.toPairingKeys ∧ raw.entries.length ≤ retainLimit ∧
        (∀ p ∈ raw.entries, acceptsPlan scope p = true) ∧
        (raw.entries.map (·.requestId)).Nodup ∧ (raw.entries.map (·.exchangeId)).Nodup := by
  rw [parseReview, checked_eq_ok]
  simp only [Bool.or_eq_false_iff, decide_eq_false_iff_not, not_not, not_lt, Bool.not_eq_false',
    List.all_eq_true, decide_eq_true_eq, and_assoc]

theorem cancelPlan_cases {requestId : Hex32} {now : ℤ}
    (h : cancelPlan scope requestId now previous = .ok state) :
    ∃ plan, parseReview (previous.getD scope.empty) scope = .ok (previous.getD scope.empty) ∧
      state.toPairingKeys = scope.toPairingKeys ∧
      planOf (entriesOf previous) requestId = some plan ∧
      (plan.status = .cancelled ∧ state.entries = entriesOf previous ∨
        plan.status ≠ .cancelled ∧ state.entries = (entriesOf previous).map fun p =>
          if p.requestId = requestId then { p with status := .cancelled, updatedAt := now }
          else p) := by
  rw [cancelPlan] at h
  cases hp : parseReview (previous.getD scope.empty) scope with
  | error e => rw [hp] at h; cases h
  | ok parsed =>
    obtain ⟨rfl, hkeys, -⟩ := parseReview_eq_ok.mp hp
    rw [hp] at h
    simp only [Bind.bind, Except.bind, entriesOf_eq] at h
    cases hfind : (entriesOf previous).find? fun p => p.requestId = requestId with
    | none => simp only [hfind] at h; cases h
    | some plan =>
      simp only [hfind] at h
      split_ifs at h with hc
      · cases h
        exact ⟨plan, rfl, hkeys, hfind, .inl ⟨hc, entriesOf_eq _ _⟩⟩
      · cases h
        exact ⟨plan, rfl, hkeys, hfind, .inr ⟨hc, rfl⟩⟩

/-- The request was reviewed already with the same verdict, or its plan is new: then at most one
settled plan makes room for it, and only in a row that is full. -/
theorem reviewRequest_cases {plan : ChildContactExchangePlan} {settled : List Hex32}
    (h : reviewRequest scope plan settled previous = .ok state) :
    parseReview (previous.getD scope.empty) scope = .ok (previous.getD scope.empty) ∧
      state.toPairingKeys = scope.toPairingKeys ∧
      ((∃ existing, planOf (entriesOf previous) plan.requestId = some existing ∧
          existing.fingerprint = plan.fingerprint ∧ existing.status = plan.status ∧
          state.entries = entriesOf previous) ∨
        planOf (entriesOf previous) plan.requestId = none ∧
          ∃ kept, kept.Sublist (entriesOf previous) ∧ kept.length < retainLimit ∧
            ((entriesOf previous).length < retainLimit → kept = entriesOf previous) ∧
            state.entries = kept ++ [plan]) := by
  rw [reviewRequest] at h
  cases hp : parseReview (previous.getD scope.empty) scope with
  | error e => rw [hp] at h; cases h
  | ok parsed =>
    obtain ⟨rfl, hkeys, hlen, -, -, -⟩ := parseReview_eq_ok.mp hp
    rw [hp] at h
    rw [entriesOf_eq] at hlen
    simp only [Bind.bind, Except.bind, entriesOf_eq] at h
    cases hfind : (entriesOf previous).find? fun p => p.requestId = plan.requestId with
    | some existing =>
      simp only [hfind] at h
      split_ifs at h with hf hs
      cases h
      exact ⟨rfl, hkeys, .inl ⟨existing, hfind, not_not.mp hf, not_not.mp hs, entriesOf_eq _ _⟩⟩
    | none =>
      simp only [hfind] at h
      split_ifs at h with hlive hfull
      · split at h
        · cases h
        · next oldest holdest =>
          cases h
          refine ⟨rfl, hkeys, .inr ⟨hfind, _, List.filter_sublist, ?_, fun hlt => ?_, rfl⟩⟩
          · have hmem := List.mem_of_mem_head? (Option.mem_def.mpr holdest)
            rw [List.mem_insertionSort] at hmem
            have hmem' := List.mem_of_mem_filter hmem
            refine lt_of_lt_of_le (List.length_filter_lt_length_iff_exists.mpr
              ⟨oldest, hmem', ?_⟩) hlen
            simp
          · exact absurd hlt (not_lt.mpr hfull)
      · cases h
        exact ⟨rfl, hkeys, .inr ⟨hfind, _, .refl _, not_le.mp hfull, fun _ => rfl, rfl⟩⟩

end Review

/-! ## The execution row -/

section Execution

variable {scope : ChildRequestScope} {now : ℤ} {previous : Option ExecutionState}
  {state : ExecutionState}

theorem parseExecutions_eq_ok {raw : ExecutionState} :
    parseExecutions raw scope = .ok state ↔
      state = raw ∧ raw.toPairingKeys = scope.toPairingKeys ∧ raw.entries.length ≤ liveLimit ∧
        (∀ e ∈ raw.entries, acceptsExecution e = true) ∧
        (raw.entries.map (·.exchangeId)).Nodup := by
  rw [parseExecutions, checked_eq_ok]
  simp only [Bool.or_eq_false_iff, decide_eq_false_iff_not, not_not, not_lt, Bool.not_eq_false',
    List.all_eq_true, decide_eq_true_eq, and_assoc]

/-- A reservation finds the exchange's row, or puts one in; then finished rows make room for it, and
only in a row that is full. -/
theorem reserve_cases [InviteSdk] {plan : ChildContactExchangePlan}
    {plans : List ChildContactExchangePlan} {settled : List Hex32} {inserted : Bool}
    (h : reserve scope plan plans settled now previous = .ok (state, inserted)) :
    parseExecutions (previous.getD scope.empty) scope = .ok (previous.getD scope.empty) ∧
      state.toPairingKeys = scope.toPairingKeys ∧
      (inserted = false ∧ plan.exchangeId ∈ (entriesOf previous).map (·.exchangeId) ∧
          state.entries = entriesOf previous ∨
        inserted = true ∧ plan.exchangeId ∉ (entriesOf previous).map (·.exchangeId) ∧
          ∃ kept, kept.Sublist (entriesOf previous) ∧ kept.length < liveLimit ∧
            (∀ e ∈ entriesOf previous, e ∈ kept ∨
              liveLimit ≤ (entriesOf previous).length ∧ finished plans settled e = true) ∧
            state.entries = kept ++ [{
              requestId := plan.requestId, exchangeId := plan.exchangeId, status := .planned,
              createdAt := now, updatedAt := now, event := none }]) := by
  rw [reserve] at h
  cases hp : parseExecutions (previous.getD scope.empty) scope with
  | error e => rw [hp] at h; cases h
  | ok parsed =>
    obtain ⟨rfl, hkeys, -⟩ := parseExecutions_eq_ok.mp hp
    rw [hp] at h
    simp only [Bind.bind, Except.bind, entriesOf_eq] at h
    have hold : ((entriesOf previous).find? fun e => e.exchangeId = plan.exchangeId).isSome = true ↔
        plan.exchangeId ∈ (entriesOf previous).map (·.exchangeId) := by
      rw [List.find?_isSome, List.mem_map]
      simp
    split_ifs at h with hfound hfull hroom
    · cases h
      exact ⟨rfl, hkeys, .inl ⟨rfl, hold.mp hfound, entriesOf_eq _ _⟩⟩
    · cases h
      refine ⟨rfl, hkeys, .inr ⟨rfl, fun hmem => hfound (hold.mpr hmem), _, List.filter_sublist,
        not_le.mp hroom, fun e he => ?_, rfl⟩⟩
      by_cases hf : finished plans settled e = true
      · exact .inr ⟨hfull, hf⟩
      · exact .inl (List.mem_filter.mpr ⟨he, by simpa using hf⟩)
    · cases h
      exact ⟨rfl, hkeys, .inr ⟨rfl, fun hmem => hfound (hold.mpr hmem), _, .refl _,
        not_le.mp hfull, fun e he => .inl he, rfl⟩⟩

/-- The signed event of a row still planned is recorded. -/
theorem recordSigned_cases {exchangeId : Hex32} {event : NostrEvent}
    (h : recordSigned scope exchangeId event now previous = .ok state) :
    ∃ row current, previous = some row ∧ parseExecutions row scope = .ok row ∧
      state.toPairingKeys = scope.toPairingKeys ∧
      row.entries.find? (fun e => e.exchangeId = exchangeId) = some current ∧
      (current.status = .signed ∧ state.entries = row.entries ∨
        current.status = .planned ∧ state.entries = row.entries.map fun e =>
          if e.exchangeId = exchangeId then
            { e with status := .signed, updatedAt := now, event := some event }
          else e) := by
  cases previous with
  | none => cases h
  | some row =>
    rw [recordSigned] at h
    cases hp : parseExecutions row scope with
    | error e => rw [hp] at h; cases h
    | ok parsed =>
      obtain ⟨hrow, hkeys, -⟩ := parseExecutions_eq_ok.mp hp
      subst hrow
      rw [hp] at h
      simp only [Bind.bind, Except.bind] at h
      cases hfind : parsed.entries.find? fun e => e.exchangeId = exchangeId with
      | none => simp only [hfind] at h; cases h
      | some current =>
        simp only [hfind] at h
        refine ⟨parsed, current, rfl, hp, ?_⟩
        cases hs : current.status <;> simp only [hs] at h
        · cases h
          exact ⟨hkeys, hfind, .inr ⟨rfl, rfl⟩⟩
        · cases h
          exact ⟨hkeys, hfind, .inl ⟨rfl, rfl⟩⟩
        · cases h

theorem cancelExecution_cases {exchangeId : Hex32}
    (h : cancelExecution scope exchangeId now previous = .ok state) :
    parseExecutions (previous.getD scope.empty) scope = .ok (previous.getD scope.empty) ∧
      state.toPairingKeys = scope.toPairingKeys ∧
      state.entries = (entriesOf previous).map fun e =>
        if e.exchangeId = exchangeId && e.status = .planned then
          { e with status := .cancelled, updatedAt := now }
        else e := by
  rw [cancelExecution] at h
  cases hp : parseExecutions (previous.getD scope.empty) scope with
  | error e => rw [hp] at h; cases h
  | ok parsed =>
    obtain ⟨rfl, hkeys, -⟩ := parseExecutions_eq_ok.mp hp
    rw [hp] at h
    cases h
    exact ⟨rfl, hkeys, by rw [← entriesOf_eq previous scope]⟩

end Execution

/-! ## The guardian's replies -/

section Replies

variable [Signatures] {scope : ChildRequestScope} {now : ℤ} {previous : Option ReplyOutbox}
  {state : ReplyOutbox}

theorem parseReplyOutbox_eq_ok {raw : ReplyOutbox} :
    parseReplyOutbox raw scope = .ok state ↔
      state = raw ∧ raw.toPairingKeys = scope.toPairingKeys ∧ raw.entries.length ≤ liveLimit ∧
        (∀ e ∈ raw.entries, acceptsReplyEntry scope e = true) ∧ (raw.entries.map (·.id)).Nodup := by
  rw [parseReplyOutbox, checked_eq_ok]
  simp only [Bool.or_eq_false_iff, decide_eq_false_iff_not, not_not, not_lt, Bool.not_eq_false',
    List.all_eq_true, decide_eq_true_eq, and_assoc]

/-- The entry of a reply newly queued. -/
def queuedEntry (requestId : Hex32) (event : NostrEvent) (reply : ChildContactReply)
    (relays : List JsString) (now : ℤ) : ChildContactReplyOutboxEntry :=
  { id := requestId, requestId, event, reply := some reply, relays, createdAt := now,
    acknowledgedAt := none }

/-- The reply changes nothing, takes the place of an older one, or is the first to its request; then
expired replies make room for it, and only in a row that is full. -/
theorem queueReply_cases {requestId : Hex32} {event : NostrEvent} {reply : ChildContactReply}
    {relays : List JsString} {replaceUnreconciled : Bool}
    (h : queueReply scope requestId event reply relays now replaceUnreconciled previous = .ok state) :
    parseReplyOutbox (previous.getD scope.empty) scope = .ok (previous.getD scope.empty) ∧
      state.toPairingKeys = scope.toPairingKeys ∧
      (state.entries = entriesOf previous ∨
        (∃ old, (entriesOf previous).find? (fun e => e.id = requestId) = some old ∧
          (old.reply = none ∨ ∃ oldReply, old.reply = some oldReply ∧
            childContactReplyTransition oldReply reply = .ok .advance) ∧
          state.entries = (entriesOf previous).map fun e =>
            if e.id = requestId then queuedEntry requestId event reply relays now else e) ∨
        (entriesOf previous).find? (fun e => e.id = requestId) = none ∧
          ∃ kept, kept.Sublist (entriesOf previous) ∧ kept.length < liveLimit ∧
            state.entries = kept ++ [queuedEntry requestId event reply relays now]) := by
  rw [queueReply] at h
  cases hp : parseReplyOutbox (previous.getD scope.empty) scope with
  | error e => rw [hp] at h; cases h
  | ok parsed =>
    obtain ⟨rfl, hkeys, -⟩ := parseReplyOutbox_eq_ok.mp hp
    rw [hp] at h
    simp only [Bind.bind, Except.bind, entriesOf_eq] at h
    refine ⟨rfl, ?_⟩
    have hsame : (previous.getD scope.empty).entries = entriesOf previous := entriesOf_eq _ _
    cases hfind : (entriesOf previous).find? fun e => e.id = requestId with
    | some old =>
      cases hold : old.reply with
      | none =>
        simp only [hfind, hold] at h
        split_ifs at h
        · cases h
          exact ⟨hkeys, .inl hsame⟩
        · cases h
          exact ⟨hkeys, .inr (.inl ⟨old, rfl, .inl hold, rfl⟩)⟩
      | some oldReply =>
        cases ht : childContactReplyTransition oldReply reply with
        | error m =>
          simp only [hfind, hold, ht] at h
          split_ifs at h
          cases h
          exact ⟨hkeys, .inl hsame⟩
        | ok t =>
          simp only [hfind, hold, ht] at h
          split_ifs at h with _ _ hadvance
          · cases h
            exact ⟨hkeys, .inl hsame⟩
          · cases h
            exact ⟨hkeys, .inl hsame⟩
          · cases h
            refine ⟨hkeys, .inr (.inl ⟨old, rfl, .inr ⟨oldReply, hold, ?_⟩, rfl⟩)⟩
            rw [ht, not_not.mp hadvance]
    | none =>
      simp only [hfind] at h
      split_ifs at h with hfull hroom
      · cases h
        exact ⟨hkeys, .inr (.inr ⟨rfl, _, List.filter_sublist, not_le.mp hroom, rfl⟩)⟩
      · cases h
        exact ⟨hkeys, .inr (.inr ⟨rfl, _, .refl _, not_le.mp hfull, rfl⟩)⟩

theorem acknowledgeReply_cases {id : Hex32} {eventId : JsString}
    (h : acknowledgeReply scope id eventId now previous = .ok state) :
    ∃ row, previous = some row ∧ parseReplyOutbox row scope = .ok row ∧
      state.toPairingKeys = scope.toPairingKeys ∧
      state.entries = row.entries.map fun e =>
        if e.id = id then { e with acknowledgedAt := some now } else e := by
  cases previous with
  | none => cases h
  | some row =>
    rw [acknowledgeReply] at h
    cases hp : parseReplyOutbox row scope with
    | error e => rw [hp] at h; cases h
    | ok parsed =>
      obtain ⟨hrow, hkeys, -⟩ := parseReplyOutbox_eq_ok.mp hp
      subst hrow
      rw [hp] at h
      simp only [Bind.bind, Except.bind] at h
      split_ifs at h
      cases h
      exact ⟨parsed, rfl, hp, hkeys, rfl⟩

end Replies

/-! ## The child's side -/

section Child

variable [Signatures] [InviteSdk] {scope : ChildRequestScope} {now : ℤ}

theorem readOutboxEntry_ok {e x : ChildContactOutboxEntry} (h : readOutboxEntry scope e = .ok x) :
    ∃ request, parseChildContactRequest e.request = some request ∧ x = { e with request } ∧
      request.client = scope.client ∧ request.guardian = scope.guardian ∧
      stamp e.createdAt = true ∧ ∀ event ∈ e.event,
        eventShape event requestPrefix scope.client none = true ∧
          Signatures.verifyEvent event = true ∧
          event.dTag = some (requestPrefix ++ request.id.val) ∧
          event.createdAt = request.createdAt := by
  rw [readOutboxEntry] at h
  cases hparse : parseChildContactRequest e.request with
  | none => rw [hparse] at h; cases h
  | some request =>
    rw [hparse] at h
    simp only at h
    split_ifs at h with hfields hevent
    cases h
    simp only [Bool.or_eq_true, decide_eq_true_eq, not_or, not_not, Bool.not_eq_true',
      Bool.not_eq_false] at hfields
    refine ⟨request, rfl, rfl, hfields.1.1, hfields.1.2, hfields.2, fun event hmem => ?_⟩
    rw [Option.mem_def] at hmem
    rw [hmem] at hevent
    simpa [and_assoc] using hevent

/-- What the outbox's reader demands of a row, and what it returns. -/
theorem parseOutbox_eq_ok {raw box : Outbox} :
    parseOutbox raw scope = .ok box ↔
      raw.toPairingKeys = scope.toPairingKeys ∧ raw.entries.length ≤ liveLimit ∧
        box.toPairingKeys = scope.toPairingKeys ∧ (box.entries.map (·.request.id)).Nodup ∧
        List.Forall₂ (fun e x => readOutboxEntry scope e = .ok x) raw.entries box.entries := by
  rw [parseOutbox]
  split_ifs with hbad
  · simp only [false_iff]
    rintro ⟨h₁, h₂, -⟩
    simp only [Bool.or_eq_true, decide_eq_true_eq] at hbad
    rcases hbad with h | h
    · exact h h₁
    · omega
  · simp only [Bool.or_eq_true, decide_eq_true_eq, not_or, not_not, not_lt] at hbad
    constructor
    · intro h
      cases hm : raw.entries.mapM (readOutboxEntry scope) with
      | error e => rw [hm] at h; cases h
      | ok xs =>
        rw [hm] at h
        simp only [Bind.bind, Except.bind] at h
        split_ifs at h with hnodup
        cases h
        exact ⟨hbad.1, hbad.2, rfl, by simpa using hnodup, forall₂_of_mapM_ok hm⟩
    · rintro ⟨-, -, hkeys, hnodup, hall⟩
      rw [mapM_ok_of_forall₂ hall]
      simp only [Bind.bind, Except.bind, hnodup, decide_true, Bool.not_true, Bool.false_eq_true,
        if_false]
      cases box
      subst hkeys
      rfl

/-- A request is queued already, or newly in a row that has room. -/
theorem queueRequest_cases {request : ChildContactRequest} {fingerprint : Hex64}
    {previous : Option Outbox} {state : Outbox}
    (h : queueRequest scope request fingerprint now previous = .ok state) :
    ∃ box, parseOutbox (previous.getD scope.empty) scope = .ok box ∧
      ((box.entries.find? fun e => e.request.id = request.id).isSome ∧ state = box ∨
        box.entries.find? (fun e => e.request.id = request.id) = none ∧
          box.entries.length < liveLimit ∧ state = { box with
            entries := box.entries ++ [{ request, fingerprint, event := none, createdAt := now }] })
    := by
  rw [queueRequest] at h
  cases hp : parseOutbox (previous.getD scope.empty) scope with
  | error e => rw [hp] at h; cases h
  | ok box =>
    rw [hp] at h
    simp only [Bind.bind, Except.bind] at h
    refine ⟨box, rfl, ?_⟩
    cases hfind : box.entries.find? fun e => e.request.id = request.id with
    | some existing =>
      simp only [hfind] at h
      split_ifs at h
      cases h
      exact .inl ⟨rfl, rfl⟩
    | none =>
      simp only [hfind] at h
      split_ifs at h with hfull
      cases h
      exact .inr ⟨rfl, not_le.mp hfull, rfl⟩

theorem attachEvent_cases {requestId : Hex32} {event : NostrEvent} {previous : Option Outbox}
    {state : Outbox} (h : attachEvent scope requestId event previous = .ok state) :
    ∃ box entry, parseOutbox (previous.getD scope.empty) scope = .ok box ∧
      box.entries.find? (fun e => e.request.id = requestId) = some entry ∧
      event.createdAt = entry.request.createdAt ∧
      event.dTag = some (requestPrefix ++ requestId.val) ∧
      state = { box with
        entries := box.entries.map fun e =>
          if e.request.id = requestId then { e with event := some event } else e } := by
  rw [attachEvent] at h
  cases hp : parseOutbox (previous.getD scope.empty) scope with
  | error e => rw [hp] at h; cases h
  | ok box =>
    rw [hp] at h
    simp only [Bind.bind, Except.bind] at h
    cases hfind : box.entries.find? fun e => e.request.id = requestId with
    | none => simp only [hfind] at h; cases h
    | some entry =>
      simp only [hfind] at h
      split_ifs at h with hchanged hconflict
      cases h
      simp only [Bool.or_eq_true, decide_eq_true_eq, not_or, not_not] at hchanged
      exact ⟨box, entry, rfl, hfind, hchanged.1, hchanged.2, rfl⟩

end Child

section ReplyInbox

variable {scope : ChildRequestScope} {state : ReplyInbox}

theorem parseReplyInbox_eq_ok {raw : ReplyInbox} :
    parseReplyInbox raw scope = .ok state ↔
      state = raw ∧ raw.toPairingKeys = scope.toPairingKeys ∧ raw.entries.length ≤ retainLimit ∧
        (∀ r ∈ raw.entries, acceptsReplyReceipt scope r = true) ∧
        (raw.entries.map (·.id)).Nodup := by
  rw [parseReplyInbox, checked_eq_ok]
  simp only [Bool.or_eq_false_iff, decide_eq_false_iff_not, not_not, not_lt, Bool.not_eq_false',
    List.all_eq_true, decide_eq_true_eq, and_assoc]

/-- The reply is known or stale, takes the place of an older one, or is the first to its request. -/
theorem saveReplyReceipt_cases {receipt : ChildContactReplyReceipt} {previous : Option ReplyInbox}
    (h : saveReplyReceipt scope receipt previous = .ok state) :
    parseReplyInbox (previous.getD scope.empty) scope = .ok (previous.getD scope.empty) ∧
      state.toPairingKeys = scope.toPairingKeys ∧
      (state.entries = entriesOf previous ∨
        state.entries = (entriesOf previous).map (fun r =>
          if r.id = receipt.id then receipt else r) ∨
        (entriesOf previous).find? (fun r => r.id = receipt.id) = none ∧
          (entriesOf previous).length < retainLimit ∧
          state.entries = entriesOf previous ++ [receipt]) := by
  rw [saveReplyReceipt] at h
  cases hp : parseReplyInbox (previous.getD scope.empty) scope with
  | error e => rw [hp] at h; cases h
  | ok parsed =>
    obtain ⟨rfl, hkeys, -⟩ := parseReplyInbox_eq_ok.mp hp
    rw [hp] at h
    simp only [Bind.bind, Except.bind, entriesOf_eq] at h
    refine ⟨rfl, ?_⟩
    have hsame : (previous.getD scope.empty).entries = entriesOf previous := entriesOf_eq _ _
    cases hfind : (entriesOf previous).find? fun r => r.id = receipt.id with
    | some old =>
      cases ht : childContactReplyTransition old.reply receipt.reply with
      | error m =>
        simp only [hfind, ht] at h
        split_ifs at h
        cases h
        exact ⟨hkeys, .inl hsame⟩
      | ok t =>
        simp only [hfind, ht] at h
        split_ifs at h
        · cases h
          exact ⟨hkeys, .inl hsame⟩
        · cases h
          exact ⟨hkeys, .inl hsame⟩
        · cases h
          exact ⟨hkeys, .inr (.inl rfl)⟩
    | none =>
      simp only [hfind] at h
      split_ifs at h with hfull
      cases h
      exact ⟨hkeys, .inr (.inr ⟨rfl, not_le.mp hfull, rfl⟩)⟩

end ReplyInbox

end SignetApp.Pairing
