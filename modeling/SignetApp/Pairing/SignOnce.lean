import SignetApp.Pairing.Progress

/-!
# One signature for one exchange

The signer is called once for each reservation, so an exchange is signed at most once while it is
reserved at most once. The row of a reservation is evicted when the store is full, and nothing else
stops a second one. What would: that only open requests are reserved, and no open one is evicted.
-/

namespace SignetApp.Pairing

open SignetApp.Js SignetApp.Contacts

section Runs

variable [InviteSdk] [Sync.Sha256]

/-- The exchange's plan is approved, and its receipt is still pending. -/
def Open (w : World) (x : Hex32) : Prop :=
  ∃ p ∈ w.plans, p.exchangeId = x ∧ p.status = .approved ∧
    statusOf w.receipts p.requestId = some .pending

/-- The exchange has a plan. -/
def HasPlan (w : World) (x : Hex32) : Prop := ∃ p ∈ w.plans, p.exchangeId = x

/-- An action that reserves an exchange does so while it is open, and evicts no row of one that
is. -/
def ReservesOpen (w : World) (a : Action) : Prop :=
  ∀ scope plan plans settled now, a = .commit (.reserve scope plan plans settled now) →
    (Change.reserve scope plan plans settled now).reserves w.store ≠ [] →
      Open w plan.exchangeId ∧ (liveLimit ≤ w.executions.length → ∀ e ∈ w.executions,
        finished plans settled e = true → ¬ Open w e.exchangeId)

variable {C : Conduct} {w w' : World}

variable {x : Hex32}

theorem HasPlan.evolve (htidy : Tidy C w) (hw : Evolves C w w') (h : HasPlan w x) :
    HasPlan w' x := by
  obtain ⟨p, hp, hx⟩ := h
  obtain ⟨q, hq, hpq⟩ := hw.plans _ p (find?_of_mem_of_nodup htidy.plans_nodup hp)
  exact ⟨q, List.mem_of_find?_eq_some hq, hpq.1.trans hx⟩

/-- An exchange that is open was open ever since it has its plan: no receipt returns to pending, no
plan to approved. -/
theorem Open.of_evolves (hinj : Function.Injective (exchangeId C.keys)) (htidy : Tidy C w)
    (htidy' : Tidy C w') (hw : Evolves C w w') (hplan : HasPlan w x) (h : Open w' x) :
    Open w x := by
  obtain ⟨p, hp, hx⟩ := hplan
  obtain ⟨q, hq, hpq⟩ := hw.plans _ p (find?_of_mem_of_nodup htidy.plans_nodup hp)
  obtain ⟨q', hq', hx', happroved, hpending⟩ := h
  have hid : q'.requestId = p.requestId := by
    apply hinj
    rw [← htidy'.plans_exchange q' hq', ← htidy.plans_exchange p hp, hx', hx]
  have hqid : q.requestId = p.requestId := by simpa using List.find?_some hq
  have hsame : q' = q := List.inj_on_of_nodup_map htidy'.plans_nodup hq'
    (List.mem_of_find?_eq_some hq) (hid.trans hqid.symm)
  refine ⟨p, hp, hx, ?_, ?_⟩
  · rcases hpq.2.2 with hs | hs
    · rw [← hs, ← hsame, happroved]
    · rw [← hsame, happroved] at hs
      cases hs
  · obtain ⟨a, ha⟩ := Option.isSome_iff_exists.mp (htidy.plans_received p hp)
    obtain ⟨b, hb, hab⟩ := hw.receipts _ a ha
    rw [hid, hb] at hpending
    cases hpending
    by_cases hne : a = .pending
    · rw [ha, hne]
    · exact absurd rfl (hab.ne_pending hne)

/-- Only a reservation changes which exchanges have a row. -/
theorem executions_apply [Signatures] {c : Change} (h : c.apply w = .ok w') :
    (∃ scope plan plans settled now, c = .reserve scope plan plans settled now) ∨
      w'.reserved = w.reserved ∧
        w'.executions.map (·.exchangeId) = w.executions.map (·.exchangeId) := by
  obtain ⟨s, hs, rfl⟩ := Except.map_eq_ok h
  cases c with
  | reserve scope plan plans settled now => exact .inl ⟨scope, plan, plans, settled, now, rfl⟩
  | recordSigned scope exchangeId event now =>
    right
    obtain ⟨state, hstate, rfl⟩ := Except.map_eq_ok hs
    obtain ⟨row, current, hrow, -, -, -, ⟨-, hentries⟩ | ⟨-, hentries⟩⟩ := recordSigned_cases hstate
    all_goals
      refine ⟨List.append_nil _, ?_⟩
      show state.entries.map _ = (entriesOf w.store.execution).map _
      rw [hentries, hrow]
    · rfl
    · exact map_map_of_key (fun e => by split_ifs <;> rfl) _
  | cancelExecution scope exchangeId now =>
    right
    obtain ⟨state, hstate, rfl⟩ := Except.map_eq_ok hs
    obtain ⟨-, -, hentries⟩ := cancelExecution_cases hstate
    refine ⟨List.append_nil _, ?_⟩
    show state.entries.map _ = _
    rw [hentries]
    exact map_map_of_key (fun e => by split_ifs <;> rfl) _
  | _ =>
    obtain ⟨state, -, rfl⟩ := Except.map_eq_ok hs
    exact .inr ⟨List.append_nil _, rfl⟩

/-- Every exchange was reserved once, for its plan, and has its row as long as it is open. -/
structure Reserved (w : World) : Prop where
  nodup : w.reserved.Nodup
  planned : ∀ x ∈ w.reserved, HasPlan w x
  kept : ∀ x ∈ w.reserved, Open w x → x ∈ w.executions.map (·.exchangeId)

omit [Sync.Sha256] in
theorem reserved_initial : Reserved World.initial where
  nodup := List.nodup_nil
  planned _ hx := absurd hx List.not_mem_nil
  kept _ hx := absurd hx List.not_mem_nil

theorem Reserved.of_same (hinj : Function.Injective (exchangeId C.keys)) (h : Reserved w)
    (htidy : Tidy C w) (htidy' : Tidy C w') (hw : Evolves C w w') (hres : w'.reserved = w.reserved)
    (hrows : w'.executions.map (·.exchangeId) = w.executions.map (·.exchangeId)) : Reserved w' := by
  refine ⟨hres ▸ h.nodup, fun x hx => ?_, fun x hx hopen => ?_⟩
  · exact (h.planned x (hres ▸ hx)).evolve htidy hw
  · rw [hres] at hx
    rw [hrows]
    exact h.kept x hx (hopen.of_evolves hinj htidy htidy' hw (h.planned x hx))

variable [Signatures]

variable {now : ℤ} {settled : List Hex32} {plans : List ChildContactExchangePlan}
variable {plan : ChildContactExchangePlan} {scope : ChildRequestScope}

theorem reserve_apply (h : (Change.reserve scope plan plans settled now).apply w = .ok w') :
    ∃ state inserted, reserve scope plan plans settled now w.store.execution = .ok (state, inserted) ∧
      (Change.reserve scope plan plans settled now).reserves w.store
        = (if inserted then [plan.exchangeId] else []) ∧
      w'.reserved = w.reserved ++ (if inserted then [plan.exchangeId] else []) ∧
      w'.executions = state.entries := by
  obtain ⟨s, hs, rfl⟩ := Except.map_eq_ok h
  obtain ⟨⟨state, inserted⟩, hstate, rfl⟩ := Except.map_eq_ok hs
  have hreserves : (Change.reserve scope plan plans settled now).reserves w.store
      = if inserted then [plan.exchangeId] else [] := by
    simp only [Change.reserves, hstate]
    cases inserted <;> rfl
  exact ⟨state, inserted, hstate, hreserves, by rw [hreserves], rfl⟩

theorem Reserved.of_reserve (hinj : Function.Injective (exchangeId C.keys)) (h : Reserved w)
    (htidy : Tidy C w) (htidy' : Tidy C w') (hw : Evolves C w w') (hground : (Change.reserve scope plan plans settled now).Grounded C w)
    (happly : (Change.reserve scope plan plans settled now).apply w = .ok w')
    (hcondition : ReservesOpen w (.commit (.reserve scope plan plans settled now))) :
    Reserved w' := by
  obtain ⟨state, inserted, hstate, hreserves, hres, hexec⟩ := reserve_apply happly
  obtain ⟨-, -, ⟨rfl, hmem, hentries⟩ | ⟨rfl, hnew, kept, -, -, hkept, hentries⟩⟩ :=
    reserve_cases hstate
  · refine h.of_same hinj htidy htidy' hw (hres.trans (List.append_nil _)) ?_
    rw [hexec, hentries]
  · rw [if_pos rfl] at hreserves hres
    obtain ⟨hplan, hevict⟩ := hcondition _ _ _ _ _ rfl
      (by rw [hreserves]; exact List.cons_ne_nil _ _)
    have hplanned : ∀ x ∈ w.reserved ++ [plan.exchangeId], HasPlan w x := by
      intro x hx
      rcases List.mem_append.mp hx with hx | hx
      · exact h.planned x hx
      · obtain ⟨p, hp, hpx⟩ := hground
        rw [List.mem_singleton.mp hx]
        exact ⟨p, List.mem_of_find?_eq_some hp, hpx⟩
    refine ⟨?_, fun x hx => ?_, fun x hx hopen => ?_⟩
    · rw [hres, List.nodup_append]
      refine ⟨h.nodup, List.nodup_singleton _, fun x hx y hy hxy => ?_⟩
      -- It is open: had it been reserved before, its row would be there.
      rw [List.mem_singleton.mp hy] at hxy
      exact hnew (hxy ▸ h.kept x hx (hxy ▸ hplan))
    · exact (hplanned x (hres ▸ hx)).evolve htidy hw
    · rw [hres] at hx
      have hwas := hopen.of_evolves hinj htidy htidy' hw (hplanned x hx)
      rw [hexec, hentries, List.map_append, List.mem_append]
      rcases List.mem_append.mp hx with hx | hx
      · obtain ⟨e, he, rfl⟩ := List.mem_map.mp (h.kept x hx hwas)
        rcases hkept e he with hk | ⟨hfull, hfinished⟩
        · exact .inl (List.mem_map_of_mem hk)
        · exact absurd hwas (hevict hfull e he hfinished)
      · exact .inr (by simpa using hx)

theorem Reserved.step (hinj : Function.Injective (exchangeId C.keys)) {a : Action}
    (h : Reserved w) (htidy : Tidy C w) (hg : Guarantee C w a w') (hw : Evolves C w w')
    (hcondition : ReservesOpen w a) : Reserved w' := by
  cases a with
  | outside | read =>
    obtain rfl : w' = w := hg
    exact h
  | go plan receipt =>
    obtain rfl : w' = w := hg.2
    exact h
  | sign plan =>
    obtain rfl : w' = _ := hg.2
    exact ⟨h.nodup, h.planned, h.kept⟩
  | publish entry =>
    obtain rfl : w' = _ := hg
    exact ⟨h.nodup, h.planned, h.kept⟩
  | commit c =>
    obtain ⟨hargued, hground, rfl | happly⟩ := hg
    · exact h
    have htidy' : Tidy C w' := (htidy.apply hargued hground happly).1
    rcases executions_apply happly with ⟨scope, plan, plans, settled, now, rfl⟩ | ⟨hres, hrows⟩
    · exact h.of_reserve hinj htidy htidy' hw hground happly hcondition
    · exact h.of_same hinj htidy htidy' hw hres hrows

end Runs

section Sample

attribute [local instance] sampleInvites sampleSignatures echoSha256

/-- The first two requests expire at 100, the others at 600. -/
def earlyExpiry (n : ℕ) : ℤ := if n < 2 then 100 else 600

theorem earlyExpiry_lt : ∀ n : ℕ, 10 < earlyExpiry n ∧ earlyExpiry n ≤ ttl := by
  intro n
  rw [earlyExpiry]
  split_ifs <;> exact ⟨by decide, by decide⟩

/-- The first two requests are completed. -/
def completedReceipt (n : ℕ) : ChildRequestReceipt :=
  if n < 2 then (sampleReceipt earlyExpiry n).settle .completed 10 else sampleReceipt earlyExpiry n

theorem length_filter_le_of_two {α : Type} {f : ℕ → α} {P : α → Bool} (h₀ : P (f 0) = false)
    (h₁ : P (f 1) = false) (n : ℕ) :
    (((List.range (n + 2)).map f).filter P).length ≤ n := by
  rw [List.range_succ_eq_map, List.range_succ_eq_map]
  simp only [List.map_cons, List.map_map, List.filter_cons, h₀, h₁, Bool.false_eq_true, if_false]
  refine (List.length_filter_le _ _).trans ?_
  rw [List.length_map, List.length_range]

/-- 32 requests signed, the first two completed and expired at 100. -/
structure Completed (w : World) : Prop where
  readable : Readable sampleScope.toPairingKeys w.store
  receipts : w.receipts = (List.range 32).map completedReceipt
  plans : w.plans = (List.range 32).map (samplePlan earlyExpiry)
  executions : w.executions = (List.range 32).map fun n =>
    signedExecution (samplePlan earlyExpiry n) sampleEvent 10
  replies : w.replies = []
  signed : w.signed = (List.range 32).map sampleId

theorem exists_run_completed : ∃ log w,
    PairingRun sampleScope.toPairingKeys.exported log w [] ∧ Completed w := by
  obtain ⟨log, w, hrun, h, hsigned⟩ := exists_run_filled earlyExpiry_lt
    (C := sampleScope.toPairingKeys.exported) rfl (le_refl 32)
  have hswept := h.swept earlyExpiry_lt
  have hfound : w.receipts.find? (fun r => r.id = sampleId 0)
      = some (sampleReceipt earlyExpiry 0) := by
    rw [h.receipts, find?_sampleReceipt (by decide) (by decide)]
    rfl
  obtain ⟨a, row, hyields, hentries, hread⟩ := yields_transition_of_pending h.readable rfl rfl rfl
    hswept hfound rfl (show ChildRequestStatus.completed ≠ .pending by decide)
  obtain ⟨log₁, hrun₁⟩ := hrun.alone hyields (.transition sampleScope rfl (sampleId 0) _ _ 10
    fun _ _ => trivial)
  -- The second one is found as it was.
  have hswept₁ : Swept sampleScope 10 row.entries := by
    intro r hr
    rw [hentries] at hr
    obtain ⟨r', hr', rfl⟩ := List.mem_map.mp hr
    split_ifs
    · rfl
    · exact hswept r' hr'
  have hfound₁ : row.entries.find? (fun r => r.id = sampleId 1)
      = some (sampleReceipt earlyExpiry 1) := by
    rw [hentries, find?_map_of_key (fun r => by split_ifs <;> rfl), h.receipts,
      find?_sampleReceipt (by decide) (by decide)]
    have hne : (sampleReceipt earlyExpiry 1).id ≠ sampleId 0 := fun hid => by
      have := sampleId_inj (by decide) (by decide) hid
      omega
    rw [if_pos (by decide), Option.map_some, if_neg hne]
  obtain ⟨a₁, row₁, hyields₁, hentries₁, hread₁⟩ := yields_transition_of_pending
    (w := { w with store := w.store.withInbox row }) hread rfl rfl rfl hswept₁ hfound₁ rfl
    (show ChildRequestStatus.completed ≠ .pending by decide)
  obtain ⟨log₂, hrun₂⟩ := hrun₁.alone hyields₁ (.transition sampleScope rfl (sampleId 1) _ _ 10
    fun _ _ => trivial)
  refine ⟨_, _, hrun₂, hread₁, ?_, h.plans, h.executions, h.replies, hsigned⟩
  show row₁.entries = (List.range 32).map completedReceipt
  rw [hentries₁]
  show row.entries.map _ = _
  rw [hentries, h.receipts, List.map_map, List.map_map]
  refine List.map_congr_left fun n hn => ?_
  have hn : n ≤ 32 := (List.mem_range.mp hn).le
  have hid : ∀ m, m ≤ 32 → ((sampleReceipt earlyExpiry n).id = sampleId m ↔ n = m) := fun m hm =>
    ⟨fun h => sampleId_inj hn hm h, fun h => h ▸ rfl⟩
  rw [completedReceipt]
  rcases n with _ | _ | n
  · rw [Function.comp_apply, Function.comp_apply, if_pos ((hid 0 (by decide)).mpr rfl), if_neg,
      if_pos (by decide)]
    · rfl
    · intro h
      have := sampleId_inj (by decide) (by decide) h
      omega
  · rw [Function.comp_apply, Function.comp_apply,
      if_neg (fun h => absurd ((hid 0 (by decide)).mp h) (by decide)),
      if_pos ((hid 1 (by decide)).mpr rfl), if_pos (by decide)]
    rfl
  · rw [Function.comp_apply, Function.comp_apply,
      if_neg (fun h => absurd ((hid 0 (by decide)).mp h) (by omega)),
      if_neg (fun h => absurd ((hid 1 (by decide)).mp h) (by omega)), if_neg (by omega)]

theorem Completed.swept {w : World} (h : Completed w) : Swept sampleScope 100 w.receipts := by
  intro r hr
  rw [h.receipts] at hr
  obtain ⟨n, -, rfl⟩ := List.mem_map.mp hr
  rw [completedReceipt]
  split_ifs with hn
  · rfl
  · have hlate : earlyExpiry n = 600 := if_neg hn
    simp [overdue, sampleReceipt, newReceipt, sampleRequest, sampleScope, hlate]

variable {n : ℕ}

theorem mem_settled_of_completed {plans : List ChildContactExchangePlan}
    {receipts : List ChildRequestReceipt} (hn : n < 2) (hplan : samplePlan earlyExpiry n ∈ plans)
    (hfound : receipts.find? (fun r => r.id = sampleId n) = some (completedReceipt n)) :
    sampleId n ∈ settledAmong plans receipts [] 100 := by
  refine List.mem_map.mpr ⟨samplePlan earlyExpiry n, List.mem_filter.mpr ⟨hplan, ?_⟩, rfl⟩
  have hid : (samplePlan earlyExpiry n).requestId = sampleId n := rfl
  have hexpired : earlyExpiry n = 100 := if_pos hn
  rw [hid, hfound, completedReceipt, if_pos hn]
  simp [childContactPlanSettled, ChildRequestReceipt.settle, childReplyForReceipt, samplePlan, planFor,
    sampleRequest, hexpired]

theorem find?_completedReceipt {m : ℕ} (hm : m ≤ 33) (hn : n ≤ 32) :
    ((List.range m).map completedReceipt).find? (fun r => r.id = sampleId n)
      = if n < m then some (completedReceipt n) else none := by
  refine find?_range_map _ ChildRequestReceipt.id (fun k => ?_) hm hn
  rw [completedReceipt]
  split_ifs <;> rfl

/-- The 33rd request is stored and approved at 100. -/
theorem Completed.run_review {log : List (Async.Did Action World)} {w : World}
    (hrun : PairingRun sampleScope.toPairingKeys.exported log w []) (h : Completed w) :
    ∃ log w' receipt plan, PairingRun sampleScope.toPairingKeys.exported log w' [] ∧
      Readable sampleScope.toPairingKeys w'.store ∧
      w'.receipts = (List.range 32).map completedReceipt ++ [receipt] ∧
      w'.plans = (List.range 32).map (samplePlan earlyExpiry) ++ [plan] ∧
      (receipt.id = sampleId 32 ∧ overdue sampleScope 100 receipt = false) ∧
      (plan.requestId = sampleId 32 ∧ plan.exchangeId = sampleId 32 ∧ plan.status = .approved) ∧
      w'.executions = w.executions ∧ w'.replies = [] ∧ w'.signed = w.signed := by
  have := lawful_sampleInvites
  have hparse := parse_sampleRequest 32 (t := 0) (u := 600) rfl rfl (by decide) (by decide)
  have hnew : statusOf w.receipts (sampleId 32) = none := by
    rw [statusOf, h.receipts, find?_completedReceipt (by decide) (le_refl 32), if_neg (lt_irrefl 32)]
    rfl
  have hpending : (w.receipts.filter isPending).length ≤ 30 := by
    rw [h.receipts]
    exact length_filter_le_of_two rfl rfl 30
  have hlen : w.receipts.length = 32 := by rw [h.receipts, List.length_map, List.length_range]
  obtain ⟨a, row, hyields, hentries, hread⟩ := yields_store_of_room h.readable rfl sampleKey hparse
    (inScope_sampleRequest 32 0 600) rfl (show stamp 100 = true from rfl)
    (show (0 : ℤ) ≤ 100 + 300 by decide) (show (100 : ℤ) < 600 by decide) h.swept hnew (show w.receipts.length < 1024 by omega)
    (show (w.receipts.filter isPending).length < 32 by omega)
  obtain ⟨log₁, hrun₁⟩ := hrun.alone hyields (.store sampleScope rfl _ _ hparse sampleKey 100)
  have hoverdue : overdue sampleScope 100 (newReceipt (sampleRequest 32 0 600) sampleKey 100)
      = false := by
    simp [overdue, newReceipt, sampleRequest, sampleScope]
  have hswept : Swept sampleScope 100 row.entries := by
    intro r hr
    rw [hentries] at hr
    rcases List.mem_append.mp hr with hr | hr
    · exact h.swept r hr
    · rw [List.mem_singleton.mp hr]
      exact hoverdue
  have hfound : row.entries.find? (fun r => r.id = sampleId 32)
      = some (newReceipt (sampleRequest 32 0 600) sampleKey 100) := by
    rw [statusOf, Option.map_eq_none_iff] at hnew
    rw [hentries, find?_concat_of_key, hnew, Option.none_or]
    exact if_pos rfl
  have hnone : planOf w.plans (sampleId 32) = none := by
    rw [h.plans, planOf_samplePlan (by decide) (le_refl 32), if_neg (lt_irrefl 32)]
  have hsettled : ∀ n, n < 2 → sampleId n ∈ settledAmong w.plans row.entries w.replies 100 := by
    intro n hn
    rw [h.replies]
    refine mem_settled_of_completed hn ?_ ?_
    · rw [h.plans]
      exact List.mem_map_of_mem (List.mem_range.mpr (by omega))
    · rw [hentries, List.find?_append, h.receipts, find?_completedReceipt (by decide) (by omega),
        if_pos (by omega)]
      rfl
  have hlength : w.plans.length = 32 := by rw [h.plans, List.length_map, List.length_range]
  have hlive : (w.plans.filter fun p => !(settledAmong w.plans row.entries w.replies 100).contains
      p.requestId).length ≤ 30 := by
    have hout : ∀ n, n < 2 → (!(settledAmong w.plans row.entries w.replies 100).contains
        (samplePlan earlyExpiry n).requestId) = false := by
      intro n hn
      rw [Bool.not_eq_false', List.contains_iff_mem]
      exact hsettled n hn
    generalize settledAmong w.plans row.entries w.replies 100 = settled at hout ⊢
    rw [h.plans]
    exact length_filter_le_of_two (hout 0 (by decide)) (hout 1 (by decide)) 30
  obtain ⟨a₁, state, hyields₁, hplans, hread₁⟩ := yields_review_of_room
    (w := { w with store := w.store.withInbox row }) hread rfl (exchangeId_echo_injective _)
    (inScope_sampleRequest 32 0 600) rfl (show stamp 100 = true from rfl)
    (show (100 : ℤ) < 600 by decide) hswept hfound rfl rfl rfl hnone (hlive.trans_lt (by decide))
    (show w.plans.length < 1024 by omega) .approve sampleKey sampleKey
  obtain ⟨log₂, hrun₂⟩ := hrun₁.alone hyields₁
    (.review sampleScope rfl (sampleId 32) sampleKey .approve 100)
  rw [h.receipts] at hentries
  have hplans : state.entries = (List.range 32).map (samplePlan earlyExpiry) ++ [_] :=
    hplans.trans (congrArg (· ++ _) h.plans)
  exact ⟨_, { w with store := (w.store.withInbox row).withReview state }, _, _, hrun₂, hread₁,
    hentries, hplans, ⟨rfl, hoverdue⟩, ⟨rfl, exchangeId_echo _ _, rfl⟩, rfl, h.replies, rfl⟩

end Sample

end SignetApp.Pairing
