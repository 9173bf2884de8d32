import SignetApp.Bunker.ApprovalQueue
import Mathlib.Tactic.Common

/-!
# The order of the approval queue

The counter is right as long as no updater overwrites it while an insertion is outstanding; the
session of a request is the current one as long as no tear-down overtakes its handler.
-/

namespace SignetApp.Bunker.ApprovalQueue

/-! ## What React has yet to do -/

/-- The entries the counter has to count, from `n` in the queue: an approval's updater corrects the
counter itself. -/
def due : ℕ → List Update → ℕ
  | n, [] => n
  | n, .append _ :: updates => due (n + 1) updates
  | n, .remove _ :: updates => due n updates
  | _, .clear :: updates => due 0 updates

/-- The most entries the queue may have on the way. -/
def peak : ℕ → List Update → ℕ
  | n, [] => n
  | n, .append _ :: updates => max n (peak (n + 1) updates)
  | n, .remove _ :: updates => max n (peak n updates)
  | n, .clear :: updates => max n (peak 0 updates)

def Update.apply (pending : List Entry) : Update → List Entry
  | .append e => pending ++ [e]
  | .remove handle => pending.filter fun e => e.handle ≠ handle
  | .clear => []

/-- The queue once React has caught up. -/
def projected (pending : List Entry) (updates : List Update) : List Entry :=
  updates.foldl Update.apply pending

theorem due_append (e : Entry) (n : ℕ) (updates : List Update) :
    due n (updates ++ [.append e]) = due n updates + 1 := by
  induction updates generalizing n with
  | nil => rfl
  | cons u updates ih =>
    cases u with
    | append e' => exact ih (n + 1)
    | remove handle => exact ih n
    | clear => exact ih 0

theorem due_remove (handle n : ℕ) (updates : List Update) :
    due n (updates ++ [.remove handle]) = due n updates := by
  induction updates generalizing n with
  | nil => rfl
  | cons u updates ih =>
    cases u with
    | append e => exact ih (n + 1)
    | remove handle' => exact ih n
    | clear => exact ih 0

theorem due_clear (n : ℕ) (updates : List Update) : due n (updates ++ [.clear]) = 0 := by
  induction updates generalizing n with
  | nil => rfl
  | cons u updates ih =>
    cases u with
    | append e => exact ih (n + 1)
    | remove handle => exact ih n
    | clear => exact ih 0

variable {updates : List Update} {n : ℕ}

theorem due_of_removes (h : ∀ u ∈ updates, u.isRemove = true) : due n updates = n := by
  induction updates with
  | nil => rfl
  | cons u updates ih =>
    cases u with
    | append e => cases h _ List.mem_cons_self
    | remove handle => exact ih fun u hu => h u (List.mem_cons_of_mem _ hu)
    | clear => cases h _ List.mem_cons_self

theorem peak_of_removes (h : ∀ u ∈ updates, u.isRemove = true) : peak n updates = n := by
  induction updates with
  | nil => rfl
  | cons u updates ih =>
    cases u with
    | append e => cases h _ List.mem_cons_self
    | remove handle =>
      show max n (peak n updates) = n
      rw [ih fun u hu => h u (List.mem_cons_of_mem _ hu), Nat.max_self]
    | clear => cases h _ List.mem_cons_self

theorem peak_concat (u : Update) (n : ℕ) (updates : List Update) :
    peak n (updates ++ [u]) = max (peak n updates) (due n (updates ++ [u])) := by
  induction updates generalizing n with
  | nil =>
    cases u with
    | append e => rfl
    | remove handle => rfl
    | clear => rfl
  | cons u' updates ih =>
    cases u' with
    | append e =>
      show max n (peak (n + 1) (updates ++ [u])) = _
      rw [ih (n + 1), ← Nat.max_assoc]
      rfl
    | remove handle =>
      show max n (peak n (updates ++ [u])) = _
      rw [ih n, ← Nat.max_assoc]
      rfl
    | clear =>
      show max n (peak 0 (updates ++ [u])) = _
      rw [ih 0, ← Nat.max_assoc]
      rfl

theorem le_peak (n : ℕ) (updates : List Update) : n ≤ peak n updates := by
  cases updates with
  | nil => exact Nat.le_refl n
  | cons u updates =>
    cases u with
    | append e => exact Nat.le_max_left _ _
    | remove handle => exact Nat.le_max_left _ _
    | clear => exact Nat.le_max_left _ _

theorem projected_concat (pending : List Entry) (updates : List Update) (u : Update) :
    projected pending (updates ++ [u]) = u.apply (projected pending updates) :=
  List.foldl_concat ..

/-! ## The counter -/

section

variable {w : World} {i : ℕ} {t : Task}

def World.raisedCount (w : World) : ℕ := w.tasks.countP fun t => t.stage.isRaised

structure Counted (w : World) : Prop where
  count : w.queueSize = due w.pending.length w.updates + w.raisedCount
  limit : w.queueSize ≤ pendingApprovalsCap
  peak : peak w.pending.length w.updates ≤ pendingApprovalsCap

theorem countP_move (hi : w.tasks[i]? = some t) (stage : Stage) (p : Stage → Bool) :
    ((w.move i t stage).tasks.countP fun t => p t.stage) + (p t.stage).toNat
      = (w.tasks.countP fun t => p t.stage) + (p stage).toNat := by
  obtain ⟨hlt, hget⟩ := List.getElem?_eq_some_iff.1 hi
  have hset := List.countP_set (p := fun t => p t.stage) (a := { t with stage }) hlt
  rw [hget] at hset
  have hpos : p t.stage = true → 0 < w.tasks.countP fun t => p t.stage := fun hp =>
    List.countP_pos_iff.2 ⟨t, List.mem_of_getElem? hi, hp⟩
  unfold World.move
  rw [hset]
  cases hp : p t.stage with
  | true =>
    have hpos := hpos hp
    cases p stage with
    | true => simp; omega
    | false => simp; omega
  | false =>
    cases p stage with
    | true => simp
    | false => simp

theorem raisedCount_move (hi : w.tasks[i]? = some t) (stage : Stage) :
    (w.move i t stage).raisedCount + t.stage.isRaised.toNat
      = w.raisedCount + stage.isRaised.toNat := countP_move hi stage Stage.isRaised

variable {stage : Stage}

theorem Counted.move (h : Counted w) (hi : w.tasks[i]? = some t)
    (hfrom : t.stage.isRaised = false) (hto : stage.isRaised = false) :
    Counted (w.move i t stage) := by
  have hmove := raisedCount_move hi stage
  rw [hfrom, hto] at hmove
  refine ⟨?_, h.limit, h.peak⟩
  rw [Nat.add_right_cancel hmove]
  exact h.count

theorem Counted.record (h : Counted w) (kind : Kind) : Counted (w.record kind t) :=
  ⟨h.count, h.limit, h.peak⟩

theorem Counted.raise (h : Counted w) (hi : w.tasks[i]? = some t) (hfrom : t.stage.isRaised = false)
    (hlimit : w.queueSize < pendingApprovalsCap) : Counted (w.raise i t) := by
  have hmove := raisedCount_move hi (.raised (w.handleCounter + 1))
  rw [hfrom] at hmove
  refine ⟨?_, hlimit, h.peak⟩
  show w.queueSize + 1 = due w.pending.length w.updates + (w.move i t _).raisedCount
  rw [show (w.move i t (.raised (w.handleCounter + 1))).raisedCount = w.raisedCount + 1 from hmove,
    h.count, Nat.add_assoc]

theorem Counted.insert (h : Counted w) (hi : w.tasks[i]? = some t) {handle : ℕ}
    (hfrom : t.stage = .raised handle) : Counted (w.insert i t handle) := by
  have hmove := raisedCount_move hi .ended
  rw [hfrom] at hmove
  have hraised : w.raisedCount = (w.move i t .ended).raisedCount + 1 := hmove.symm
  have hcount := h.count
  have hdue := due_append ⟨handle, t.received⟩ w.pending.length w.updates
  refine ⟨?_, h.limit, ?_⟩
  · show w.queueSize = due w.pending.length (w.updates ++ [.append _]) + (w.move i t .ended).raisedCount
    rw [hdue]
    omega
  · show ApprovalQueue.peak w.pending.length (w.updates ++ [.append _]) ≤ _
    rw [peak_concat, hdue]
    have hlimit := h.limit
    exact Nat.max_le.2 ⟨h.peak, by omega⟩

theorem Counted.react (h : Counted w) (hcareful : Careful w .reacts) : Counted w.react := by
  obtain ⟨hcount, hlimit, hpeak⟩ := h
  unfold World.react
  split
  · exact ⟨hcount, hlimit, hpeak⟩
  · next e updates hu =>
    rw [hu] at hcount hpeak
    refine ⟨?_, hlimit, ?_⟩
    · rw [hcount]
      simp only [List.length_append, List.length_singleton]
      rfl
    · simp only [List.length_append, List.length_singleton]
      exact (Nat.max_le.1 hpeak).2
  · next handle updates hu =>
    have hnext : (w.pending.filter fun e => e.handle ≠ handle).length ≤ w.pending.length :=
      List.length_filter_le _ _
    obtain ⟨hraised, hremoves⟩ := hcareful (.remove handle) (by rw [hu]; rfl) rfl
    have hrest : ∀ u ∈ updates, u.isRemove = true := fun u hm =>
      hremoves u (hu ▸ List.mem_cons_of_mem _ hm)
    have hnone : w.raisedCount = 0 := by
      apply List.countP_eq_zero.2
      intro t ht
      rw [hraised t ht]
      exact Bool.false_ne_true
    have hlength : w.pending.length ≤ pendingApprovalsCap := Nat.le_trans (le_peak _ _) hpeak
    refine ⟨?_, Nat.le_trans hnext hlength, ?_⟩
    · show _ = due _ updates + w.raisedCount
      rw [due_of_removes hrest, hnone, Nat.add_zero]
    · rw [peak_of_removes hrest]
      exact Nat.le_trans hnext hlength
  · next updates hu =>
    rw [hu] at hcount hpeak
    exact ⟨hcount, hlimit, (Nat.max_le.1 hpeak).2⟩

theorem Counted.resolve (h : Counted w) (handle : ℕ) (approve : Bool) :
    Counted (w.resolve handle approve) := by
  unfold World.resolve
  split
  · exact h
  · next e _ =>
    refine ⟨?_, h.limit, ?_⟩
    · show w.queueSize = due w.pending.length (w.updates ++ [.remove handle]) + List.countP _ _
      rw [due_remove, List.countP_append, h.count]
      cases approve with
      | true => rfl
      | false => rfl
    · show ApprovalQueue.peak w.pending.length (w.updates ++ [.remove handle]) ≤ _
      rw [peak_concat, due_remove]
      have hcount := h.count
      have hlimit := h.limit
      exact Nat.max_le.2 ⟨h.peak, by omega⟩

variable {reconnectOnly socketOpen : Bool}

theorem Counted.tearDown (h : Counted w)
    (hcareful : Careful w (.tearDown reconnectOnly socketOpen)) :
    Counted (w.tearDown reconnectOnly socketOpen) := by
  unfold World.tearDown
  split
  · exact h
  · next hreal =>
    have hleaves := hcareful (by simpa using hreal)
    have hnone : w.raisedCount = 0 := by
      apply List.countP_eq_zero.2
      intro t ht
      have hleave := hleaves t ht
      cases hstage : t.stage with
      | raised handle =>
        rw [hstage] at hleave
        cases hleave
      | _ => exact Bool.false_ne_true
    refine ⟨?_, Nat.zero_le _, ?_⟩
    · show 0 = due w.pending.length (w.updates ++ [.clear]) + w.raisedCount
      rw [due_clear, hnone]
    · show ApprovalQueue.peak w.pending.length (w.updates ++ [.clear]) ≤ _
      rw [peak_concat, due_clear]
      exact Nat.max_le.2 ⟨h.peak, Nat.zero_le _⟩

/-! ## The session -/

/-- The task of a request of the current session, or one that does nothing any more. -/
def Task.Current (t : Task) (generation : ℕ) : Prop :=
  match t.stage with
  | .ended => True
  | .building g => g = t.received
  | _ => t.received = generation

structure Timely (w : World) : Prop where
  tasks : ∀ t ∈ w.tasks, t.Current w.generation
  active : ∀ e ∈ w.active, e.received = w.generation
  projected : ∀ e ∈ projected w.pending w.updates, e.received = w.generation
  log : ∀ e ∈ w.log, e.received = e.session

theorem Timely.move (h : Timely w)
    (hstage : Task.Current { t with stage } w.generation) : Timely (w.move i t stage) := by
  refine ⟨?_, h.active, h.projected, h.log⟩
  intro t' ht'
  obtain ht' | rfl := List.mem_or_eq_of_mem_set ht'
  · exact h.tasks t' ht'
  · exact hstage

theorem Timely.record (h : Timely w) (kind : Kind) (ht : t.received = w.generation) :
    Timely (w.record kind t) := by
  refine ⟨h.tasks, h.active, h.projected, ?_⟩
  intro e he
  obtain he | he := List.mem_append.1 he
  · exact h.log e he
  · obtain rfl := List.mem_singleton.1 he
    exact ht

theorem Timely.publish (h : Timely w) (ht : t.received = w.generation) : Timely (w.publish i t) :=
  h.move ht.symm

theorem Timely.publishIf (h : Timely w) (ht : t.received = w.generation) (generation : ℕ) :
    Timely (w.publishIf i t generation) := by
  unfold World.publishIf
  split
  · exact h.publish ht
  · exact h.move trivial

theorem Timely.answer (h : Timely w) (hi : w.tasks[i]? = some t) : Timely (w.answer i t) := by
  have hcurrent : t.Current w.generation := h.tasks t (List.mem_of_getElem? hi)
  unfold Task.Current at hcurrent
  unfold World.answer
  cases hstage : t.stage with
  | arriving => rw [hstage] at hcurrent; exact h.publish hcurrent
  | checked => rw [hstage] at hcurrent; exact h.publish hcurrent
  | signing => rw [hstage] at hcurrent; exact h.publish hcurrent
  | reading generation => rw [hstage] at hcurrent; exact h.publish hcurrent
  | denying generation => rw [hstage] at hcurrent; exact h.publishIf hcurrent generation
  | approved generation => rw [hstage] at hcurrent; exact h.publishIf hcurrent generation
  | raised handle => exact h
  | building generation => exact h
  | ended => exact h

theorem Timely.sign (h : Timely w) (hi : w.tasks[i]? = some t) : Timely (w.sign i t) := by
  have hcurrent : t.Current w.generation := h.tasks t (List.mem_of_getElem? hi)
  unfold Task.Current at hcurrent
  unfold World.sign
  split
  · next hstage =>
    rw [hstage] at hcurrent
    exact h.move hcurrent
  · next hstage =>
    rw [hstage] at hcurrent
    exact h.move hcurrent
  · exact h

theorem Timely.signed (h : Timely w) (hi : w.tasks[i]? = some t) : Timely (w.signed i t) := by
  have hcurrent : t.Current w.generation := h.tasks t (List.mem_of_getElem? hi)
  unfold Task.Current at hcurrent
  unfold World.signed
  split
  · next hstage =>
    rw [hstage] at hcurrent
    exact (h.publish hcurrent).record .signed hcurrent
  · next generation hstage =>
    rw [hstage] at hcurrent
    have hpublished : Timely (w.publishIf i t generation) := h.publishIf hcurrent generation
    apply hpublished.record
    unfold World.publishIf
    split
    · exact hcurrent
    · exact hcurrent
  · exact h

variable {generation : ℕ}

theorem Timely.built (h : Timely w) (hi : w.tasks[i]? = some t)
    (hstage : t.stage = .building generation) : Timely (w.built i t generation) := by
  have hcurrent : t.Current w.generation := h.tasks t (List.mem_of_getElem? hi)
  unfold Task.Current at hcurrent
  rw [hstage] at hcurrent
  have hended : Timely (w.move i t .ended) := h.move trivial
  unfold World.built
  split
  · next hsame => exact hended.record .answered (hcurrent.symm.trans hsame)
  · exact hended

theorem Timely.check (h : Timely w) (ht : t.received = w.generation) : Timely (w.check i t) := by
  unfold World.check
  split
  · exact h.publish ht
  · exact h.move ht

theorem Timely.raise (h : Timely w) (ht : t.received = w.generation) : Timely (w.raise i t) := by
  have hmove : Timely (w.move i t (.raised (w.handleCounter + 1))) := h.move ht
  refine ⟨hmove.tasks, ?_, h.projected, h.log⟩
  intro e he
  obtain he | he := List.mem_append.1 he
  · exact h.active e he
  · obtain rfl := List.mem_singleton.1 he
    exact ht

theorem Timely.insert (h : Timely w) (ht : t.received = w.generation) (handle : ℕ) :
    Timely (w.insert i t handle) := by
  have hended : Timely (w.move i t .ended) := h.move trivial
  have hrecord := hended.record .shown ht
  refine ⟨hrecord.tasks, h.active, ?_, hrecord.log⟩
  intro e he
  have he' : e ∈ ApprovalQueue.projected w.pending (w.updates ++ [.append ⟨handle, t.received⟩]) := he
  rw [projected_concat] at he'
  obtain he' | he' := List.mem_append.1 he'
  · exact h.projected e he'
  · obtain rfl := List.mem_singleton.1 he'
    exact ht

theorem Timely.resolve (h : Timely w) (handle : ℕ) (approve : Bool) :
    Timely (w.resolve handle approve) := by
  unfold World.resolve
  split
  · exact h
  · next e he =>
    have hreceived : e.received = w.generation := h.active e (List.mem_of_find?_eq_some he)
    refine ⟨?_, ?_, ?_, h.log⟩
    · intro t ht
      obtain ht | ht := List.mem_append.1 ht
      · exact h.tasks t ht
      · obtain rfl := List.mem_singleton.1 ht
        cases approve with
        | true => exact hreceived
        | false => exact hreceived
    · intro e' he'
      exact h.active e' (List.mem_filter.1 he').1
    · intro e' he'
      have he'' : e' ∈ ApprovalQueue.projected w.pending (w.updates ++ [.remove handle]) := he'
      rw [projected_concat] at he''
      exact h.projected e' (List.mem_filter.1 he'').1

theorem Timely.react (h : Timely w) : Timely w.react := by
  obtain ⟨htasks, hactive, hprojected, hlog⟩ := h
  unfold World.react
  split
  · exact ⟨htasks, hactive, hprojected, hlog⟩
  all_goals
    next hu =>
    rw [hu] at hprojected
    exact ⟨htasks, hactive, hprojected, hlog⟩

theorem Timely.tearDown (h : Timely w) (hcareful : Careful w (.tearDown reconnectOnly socketOpen)) :
    Timely (w.tearDown reconnectOnly socketOpen) := by
  unfold World.tearDown
  split
  · exact h
  · next hreal =>
    have hleaves := hcareful (by simpa using hreal)
    refine ⟨?_, List.forall_mem_nil _, ?_, ?_⟩
    · intro t ht
      have hcurrent := h.tasks t ht
      have hleave := hleaves t ht
      unfold Task.Current at hcurrent ⊢
      cases hstage : t.stage with
      | ended => trivial
      | building generation =>
        rw [hstage] at hcurrent
        exact hcurrent
      | _ =>
        rw [hstage] at hleave
        cases hleave
    · intro e he
      have he' : e ∈ ApprovalQueue.projected w.pending (w.updates ++ [.clear]) := he
      rw [projected_concat] at he'
      cases he'
    · intro e he
      split at he
      · obtain he | he := List.mem_append.1 he
        · exact h.log e he
        · obtain ⟨a, ha, rfl⟩ := List.mem_map.1 he
          exact h.active a ha
      · exact h.log e he

/-! ## Handles -/

structure Unique (w : World) : Prop where
  active : ∀ e ∈ w.active, e.handle ≤ w.handleCounter ∧ e.handle ∉ w.resolved
  resolved : ∀ handle ∈ w.resolved, handle ≤ w.handleCounter
  once : w.resolved.Nodup

theorem Unique.aside {w' : World} (h : Unique w) (hcounter : w'.handleCounter = w.handleCounter)
    (hresolved : w'.resolved = w.resolved) (hactive : ∀ e ∈ w'.active, e ∈ w.active) :
    Unique w' := by
  refine ⟨?_, ?_, hresolved ▸ h.once⟩
  · intro e he
    rw [hcounter, hresolved]
    exact h.active e (hactive e he)
  · rw [hcounter, hresolved]
    exact h.resolved

theorem Unique.raise (h : Unique w) : Unique (w.raise i t) := by
  refine ⟨?_, ?_, h.once⟩
  · intro e he
    obtain he | he := List.mem_append.1 he
    · obtain ⟨hle, hnot⟩ := h.active e he
      exact ⟨Nat.le_succ_of_le hle, hnot⟩
    · obtain rfl := List.mem_singleton.1 he
      refine ⟨Nat.le_refl _, ?_⟩
      intro hmem
      have hle := h.resolved _ hmem
      exact absurd hle (Nat.not_succ_le_self _)
  · intro handle hmem
    exact Nat.le_succ_of_le (h.resolved handle hmem)

theorem Unique.resolve (h : Unique w) (handle : ℕ) (approve : Bool) :
    Unique (w.resolve handle approve) := by
  unfold World.resolve
  split
  · exact h
  · next e he =>
    have hhandle : e.handle = handle := by simpa using List.find?_some he
    obtain ⟨hle, hnot⟩ := h.active e (List.mem_of_find?_eq_some he)
    rw [hhandle] at hle hnot
    refine ⟨?_, ?_, ?_⟩
    · intro e' he'
      obtain ⟨hmem, hne⟩ := List.mem_filter.1 he'
      obtain ⟨hle', hnot'⟩ := h.active e' hmem
      refine ⟨hle', ?_⟩
      intro hres
      obtain hres | hres := List.mem_append.1 hres
      · exact hnot' hres
      · rw [List.mem_singleton.1 hres] at hne
        simp at hne
    · intro handle' hmem
      obtain hmem | hmem := List.mem_append.1 hmem
      · exact h.resolved handle' hmem
      · rw [List.mem_singleton.1 hmem]
        exact hle
    · exact List.nodup_append.2 ⟨h.once, List.pairwise_singleton _ _, by
        intro a ha b hb hab
        rw [List.mem_singleton.1 hb] at hab
        exact hnot (hab ▸ ha)⟩

theorem atTask_of {P : World → Prop} {f : Task → World} (h : P w)
    (hf : ∀ t, w.tasks[i]? = some t → P (f t)) : P (w.atTask i f) := by
  unfold World.atTask
  split
  · next t hi => exact hf t hi
  · exact h

theorem Unique.next (h : Unique w) (a : Happening) : Unique (w.next a) := by
  cases a with
  | raises i =>
    apply atTask_of h
    intro t hi
    split
    · exact h.raise
    · exact h
  | resolves handle approve => exact h.resolve handle approve
  | tearDown reconnectOnly socketOpen =>
    show Unique (w.tearDown reconnectOnly socketOpen)
    unfold World.tearDown
    split
    · exact h
    · exact h.aside rfl rfl (List.forall_mem_nil _)
  | arrives => exact h.aside rfl rfl fun _ he => he
  | reacts =>
    show Unique w.react
    unfold World.react
    split
    all_goals exact h.aside rfl rfl fun _ he => he
  | _ =>
    apply atTask_of h
    intro t hi
    try unfold World.answer
    try unfold World.sign
    try unfold World.signed
    try split
    all_goals try unfold World.check
    all_goals try unfold World.publishIf
    all_goals try unfold World.built
    all_goals try split
    all_goals exact h.aside rfl rfl fun _ he => he

/-! ## Every step -/

structure Sound (w : World) : Prop where
  counted : Counted w
  timely : Timely w
  unique : Unique w

theorem Sound.orderly (h : Sound w) : Orderly w where
  bounded := Nat.le_trans (le_peak _ _) h.counted.peak
  counted := by
    intro hnone hupdates
    have hcount := h.counted.count
    have hraised : w.raisedCount = 0 := by
      apply List.countP_eq_zero.2
      intro t ht hr
      have hentering := hnone t ht
      cases hstage : t.stage with
      | raised handle =>
        rw [hstage] at hentering
        cases hentering
      | _ =>
        rw [hstage] at hr
        cases hr
    rw [hraised, hupdates] at hcount
    exact hcount
  current := h.timely.log
  waiting := by
    intro hupdates e he
    have hprojected := h.timely.projected e
    rw [hupdates] at hprojected
    exact hprojected he
  once := h.unique.once

theorem sound_start : Sound .start where
  counted := ⟨rfl, Nat.zero_le _, Nat.zero_le _⟩
  timely := ⟨List.forall_mem_nil _, List.forall_mem_nil _, List.forall_mem_nil _,
    List.forall_mem_nil _⟩
  unique := ⟨List.forall_mem_nil _, List.forall_mem_nil _, List.nodup_nil⟩

theorem Sound.next (h : Sound w) (a : Happening) (hcareful : Careful w a) : Sound (w.next a) := by
  suffices hnext : Counted (w.next a) ∧ Timely (w.next a) from ⟨hnext.1, hnext.2, h.unique.next a⟩
  have hboth : Counted w ∧ Timely w := ⟨h.counted, h.timely⟩
  cases a with
  | arrives =>
    refine ⟨⟨?_, h.counted.limit, h.counted.peak⟩, ⟨?_, h.timely.active, h.timely.projected,
      h.timely.log⟩⟩
    · show w.queueSize = due w.pending.length w.updates + List.countP _ (w.tasks ++ [_])
      rw [List.countP_append]
      exact h.counted.count
    · intro t ht
      obtain ht | ht := List.mem_append.1 ht
      · exact h.timely.tasks t ht
      · obtain rfl := List.mem_singleton.1 ht
        exact rfl
  | checks i =>
    apply atTask_of (P := fun w => Counted w ∧ Timely w) hboth
    intro t hi
    split
    · next hstage =>
      have hcurrent := h.timely.tasks t (List.mem_of_getElem? hi)
      unfold Task.Current at hcurrent
      rw [hstage] at hcurrent
      have hfrom : t.stage.isRaised = false := by rw [hstage]; rfl
      refine ⟨?_, h.timely.check hcurrent⟩
      unfold World.check
      split
      · exact h.counted.move hi hfrom rfl
      · exact h.counted.move hi hfrom rfl
    · exact hboth
  | raises i =>
    apply atTask_of (P := fun w => Counted w ∧ Timely w) hboth
    intro t hi
    split
    · next hstage =>
      have hcurrent := h.timely.tasks t (List.mem_of_getElem? hi)
      unfold Task.Current at hcurrent
      rw [hstage] at hcurrent
      have hfrom : t.stage.isRaised = false := by rw [hstage]; rfl
      exact ⟨h.counted.raise hi hfrom (hcareful t hi hstage), h.timely.raise hcurrent⟩
    · exact hboth
  | inserts i =>
    apply atTask_of (P := fun w => Counted w ∧ Timely w) hboth
    intro t hi
    split
    · next handle hstage =>
      have hcurrent := h.timely.tasks t (List.mem_of_getElem? hi)
      unfold Task.Current at hcurrent
      rw [hstage] at hcurrent
      exact ⟨h.counted.insert hi hstage, h.timely.insert hcurrent handle⟩
    · exact hboth
  | answers i =>
    apply atTask_of (P := fun w => Counted w ∧ Timely w) hboth
    intro t hi
    refine ⟨?_, h.timely.answer hi⟩
    unfold World.answer World.publishIf
    cases hstage : t.stage with
    | raised handle => exact h.counted
    | building generation => exact h.counted
    | ended => exact h.counted
    | denying generation =>
      simp only
      split
      · exact h.counted.move hi (by rw [hstage]; rfl) rfl
      · exact h.counted.move hi (by rw [hstage]; rfl) rfl
    | approved generation =>
      simp only
      split
      · exact h.counted.move hi (by rw [hstage]; rfl) rfl
      · exact h.counted.move hi (by rw [hstage]; rfl) rfl
    | _ => exact h.counted.move hi (by rw [hstage]; rfl) rfl
  | signs i =>
    apply atTask_of (P := fun w => Counted w ∧ Timely w) hboth
    intro t hi
    refine ⟨?_, h.timely.sign hi⟩
    unfold World.sign
    split
    · next hstage => exact h.counted.move hi (by rw [hstage]; rfl) rfl
    · next hstage => exact h.counted.move hi (by rw [hstage]; rfl) rfl
    · exact h.counted
  | signed i =>
    apply atTask_of (P := fun w => Counted w ∧ Timely w) hboth
    intro t hi
    refine ⟨?_, h.timely.signed hi⟩
    unfold World.signed World.publishIf
    split
    · next hstage => exact (h.counted.move hi (by rw [hstage]; rfl) rfl).record .signed
    · next hstage =>
      split
      · exact (h.counted.move hi (by rw [hstage]; rfl) rfl).record .signed
      · exact (h.counted.move hi (by rw [hstage]; rfl) rfl).record .signed
    · exact h.counted
  | built i =>
    apply atTask_of (P := fun w => Counted w ∧ Timely w) hboth
    intro t hi
    split
    · next generation hstage =>
      refine ⟨?_, h.timely.built hi hstage⟩
      unfold World.built
      split
      · exact (h.counted.move hi (by rw [hstage]; rfl) rfl).record .answered
      · exact h.counted.move hi (by rw [hstage]; rfl) rfl
    · exact hboth
  | ends i =>
    apply atTask_of (P := fun w => Counted w ∧ Timely w) hboth
    intro t hi
    exact ⟨h.counted.move hi (hcareful t hi) rfl, h.timely.move trivial⟩
  | resolves handle approve =>
    exact ⟨h.counted.resolve handle approve, h.timely.resolve handle approve⟩
  | reacts => exact ⟨h.counted.react hcareful, h.timely.react⟩
  | tearDown reconnectOnly socketOpen =>
    exact ⟨h.counted.tearDown hcareful, h.timely.tearDown hcareful⟩

/-- Has a response yet to be built, and no entry of the queue to wait for? -/
def Stage.owes : Stage → Bool
  | .raised _ | .ended => false
  | _ => true

def Kind.isResponse : Kind → Bool
  | .answered | .stopped => true
  | _ => false

def World.responses (w : World) : ℕ := w.log.countP fun e => e.kind.isResponse

def World.working (w : World) : ℕ := w.tasks.countP fun t => t.stage.owes

/-- The responses that went out, and those that may still go out. -/
def World.balance (w : World) : ℕ := w.responses + w.working + w.active.length

theorem balance_move (hi : w.tasks[i]? = some t)
    (hstage : stage.owes = true → t.stage.owes = true) : (w.move i t stage).balance ≤ w.balance := by
  have hcount : (w.move i t stage).working + t.stage.owes.toNat = w.working + stage.owes.toNat :=
    countP_move hi stage Stage.owes
  have hle : stage.owes.toNat ≤ t.stage.owes.toNat := by
    cases hs : stage.owes with
    | true => exact Nat.le_of_eq (congrArg Bool.toNat (hstage hs)).symm
    | false => exact Nat.zero_le _
  show w.responses + _ + w.active.length ≤ w.responses + w.working + w.active.length
  omega

theorem balance_publishIf (hi : w.tasks[i]? = some t) (howes : t.stage.owes = true) (generation : ℕ) :
    (w.publishIf i t generation).balance ≤ w.balance := by
  unfold World.publishIf
  split
  · exact balance_move hi fun _ => howes
  · exact balance_move hi nofun

theorem balance_record {kind : Kind} (hkind : kind.isResponse = false) :
    (w.record kind t).balance = w.balance := by
  have hresponses : (w.record kind t).responses = w.responses :=
    List.countP_append.trans (by simp [World.responses, hkind])
  show (w.record kind t).responses + w.working + w.active.length = w.balance
  rw [hresponses]
  rfl

theorem balance_raise (hi : w.tasks[i]? = some t) (hstage : t.stage = .checked) :
    (w.raise i t).balance ≤ w.balance := by
  have hcount := countP_move hi (.raised (w.handleCounter + 1)) Stage.owes
  rw [hstage] at hcount
  have hworking : (w.raise i t).working + 1 = w.working := hcount
  have hactive : (w.raise i t).active.length = w.active.length + 1 := List.length_append
  show w.responses + _ + _ ≤ w.responses + w.working + w.active.length
  omega

theorem balance_built (hi : w.tasks[i]? = some t)
    (hstage : t.stage = .building generation) : (w.built i t generation).balance ≤ w.balance := by
  unfold World.built
  split
  · have hcount := countP_move hi .ended Stage.owes
    rw [hstage] at hcount
    have hworking : (w.move i t .ended).working + 1 = w.working := hcount
    have hresponses : ((w.move i t .ended).record .answered t).responses = w.responses + 1 :=
      List.countP_append
    show _ + (w.move i t .ended).working + w.active.length ≤ w.responses + w.working + w.active.length
    omega
  · exact balance_move hi nofun

theorem balance_resolve (w : World) (handle : ℕ) (approve : Bool) :
    (w.resolve handle approve).balance ≤ w.balance := by
  unfold World.resolve
  split
  · exact Nat.le_refl _
  · next e he =>
    -- the entry leaves as its task begins
    have hactive : (w.active.filter fun e => e.handle ≠ handle).length < w.active.length := by
      refine List.length_filter_lt_length_iff_exists.2 ⟨e, List.mem_of_find?_eq_some he, ?_⟩
      simpa using List.find?_some he
    have hone : ∀ t : Task, List.countP (fun t => t.stage.owes) [t] ≤ 1 := fun _ => List.countP_le_length
    have hone := hone ⟨e.received, if approve then .reading w.generation else .denying w.generation⟩
    show w.responses + List.countP _ (w.tasks ++ [_]) + (w.active.filter _).length ≤
      w.responses + w.working + w.active.length
    rw [List.countP_append]
    unfold World.working
    omega

theorem balance_tearDown (w : World) (reconnectOnly socketOpen : Bool) :
    (w.tearDown reconnectOnly socketOpen).balance ≤ w.balance := by
  unfold World.tearDown
  split
  · exact Nat.le_refl _
  · have hstopped : (w.active.map fun e => (⟨.stopped, e.received, w.generation⟩ : Effect)).countP
        (fun e => e.kind.isResponse) ≤ w.active.length :=
      Nat.le_trans List.countP_le_length (Nat.le_of_eq (List.length_map _))
    cases socketOpen with
    | true =>
      show List.countP _ (w.log ++ _) + w.working + 0 ≤ List.countP _ w.log + w.working + _
      rw [List.countP_append]
      omega
    | false => exact Nat.le_add_right _ _

def Happening.isArrival : Happening → Bool
  | .arrives => true
  | _ => false

theorem balance_next (w : World) (a : Happening) :
    (w.next a).balance ≤ w.balance + a.isArrival.toNat := by
  have hat : ∀ {i : ℕ} {f : Task → World},
      (∀ t, w.tasks[i]? = some t → (f t).balance ≤ w.balance) → (w.atTask i f).balance ≤ w.balance :=
    fun hf => atTask_of (P := fun w' => w'.balance ≤ w.balance) (Nat.le_refl _) hf
  cases a with
  | arrives =>
    have hworking : (w.next .arrives).working = w.working + 1 := List.countP_append
    show w.responses + _ + w.active.length ≤ w.responses + w.working + w.active.length + 1
    omega
  | checks i =>
    apply hat
    intro t hi
    split
    · next hstage =>
      unfold World.check
      split
      all_goals exact balance_move hi fun _ => by rw [hstage]; rfl
    · exact Nat.le_refl _
  | raises i =>
    apply hat
    intro t hi
    split
    · next hstage => exact balance_raise hi hstage
    · exact Nat.le_refl _
  | inserts i =>
    apply hat
    intro t hi
    split
    · show ((w.move i t .ended).record .shown t).balance ≤ w.balance
      rw [balance_record rfl]
      exact balance_move hi nofun
    · exact Nat.le_refl _
  | answers i =>
    apply hat
    intro t hi
    unfold World.answer
    split
    all_goals try exact Nat.le_refl _
    all_goals next hstage => first
      | exact balance_publishIf hi (by rw [hstage]; rfl) _
      | exact balance_move hi fun _ => by rw [hstage]; rfl
  | signs i =>
    apply hat
    intro t hi
    unfold World.sign
    split
    all_goals try exact Nat.le_refl _
    all_goals next hstage => exact balance_move hi fun _ => by rw [hstage]; rfl
  | signed i =>
    apply hat
    intro t hi
    unfold World.signed
    split
    · next hstage =>
      rw [balance_record (by rfl)]
      exact balance_move hi fun _ => by rw [hstage]; rfl
    · next hstage =>
      rw [balance_record (by rfl)]
      exact balance_publishIf hi (by rw [hstage]; rfl) _
    · exact Nat.le_refl _
  | built i =>
    apply hat
    intro t hi
    split
    · next generation hstage => exact balance_built hi hstage
    · exact Nat.le_refl _
  | ends i => exact hat fun t hi => balance_move hi nofun
  | resolves handle approve => exact balance_resolve w handle approve
  | reacts =>
    show w.react.balance ≤ w.balance
    unfold World.react
    split
    all_goals exact Nat.le_refl _
  | tearDown reconnectOnly socketOpen => exact balance_tearDown w reconnectOnly socketOpen

theorem balance_foldl (as : List Happening) (w : World) :
    (as.foldl World.next w).balance ≤ w.balance + as.countP Happening.isArrival := by
  induction as generalizing w with
  | nil => exact Nat.le_refl _
  | cons a as ih =>
    have hnext := balance_next w a
    have hrest := ih (w.next a)
    have hcount : (a :: as).countP Happening.isArrival = as.countP Happening.isArrival + a.isArrival.toNat := by
      rw [List.countP_cons]
      cases a.isArrival <;> rfl
    rw [List.foldl_cons, hcount]
    omega

end

/-! ## Two runs -/

section

/-- One request is approved and answered, a second waits when the app is locked, and a third comes
after. -/
def sampleOrderly : List Happening :=
  [.arrives, .checks 0, .raises 0, .inserts 0, .reacts, .arrives, .checks 1, .raises 1, .inserts 1,
    .reacts, .resolves 1 true, .reacts, .signs 2, .signed 2, .built 2, .tearDown false true, .reacts,
    .arrives, .checks 3, .raises 3, .inserts 3, .reacts, .resolves 2 true, .resolves 3 false, .reacts,
    .answers 4, .built 4]

/-- The app is locked while the handler of a request looks its client up. -/
def sampleOvertaken : List Happening :=
  [.arrives, .checks 0, .tearDown false true, .raises 0, .inserts 0]

end

end SignetApp.Bunker.ApprovalQueue
