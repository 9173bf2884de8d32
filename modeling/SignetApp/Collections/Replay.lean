import SignetApp.Collections.OrderedMap

/-!
# Replaying a log over a keyed map

Each entry of the log addresses one key, and a step function computes the new value at that key
from the old one, or refuses (`none`) and leaves the map alone. The value at a key after a replay
is then a fold of the entries addressed to it, whatever else the log holds.
-/

namespace SignetApp

variable {κ α ο : Type}

/-! ## One key -/

/-- One entry at its key: a refused entry leaves the value as it was. -/
def advance (step : Option α → ο → Option α) (s : Option α) (op : ο) : Option α :=
  (step s op).or s

/-- The value at a key after the entries addressed to it. -/
def runAt (step : Option α → ο → Option α) (s : Option α) (ops : List ο) : Option α :=
  ops.foldl (advance step) s

section RunAt

variable {step : Option α → ο → Option α}

@[simp] theorem runAt_nil (s : Option α) : runAt step s [] = s := rfl

@[simp] theorem runAt_cons (s : Option α) (op : ο) (ops : List ο) :
    runAt step s (op :: ops) = runAt step (advance step s op) ops := rfl

theorem runAt_append (s : Option α) (xs ys : List ο) :
    runAt step s (xs ++ ys) = runAt step (runAt step s xs) ys :=
  List.foldl_append

variable {s : Option α}

theorem advance_of_some {op : ο} {a : α} (h : step s op = some a) :
    advance step s op = some a := by rw [advance, h]; rfl

theorem advance_of_none {op : ο} (h : step s op = none) :
    advance step s op = s := by rw [advance, h]; rfl

theorem isSome_advance (h : s.isSome) (op : ο) : (advance step s op).isSome := by
  unfold advance
  cases step s op with
  | none => exact h
  | some a => rfl

theorem isSome_runAt (h : s.isSome) (ops : List ο) : (runAt step s ops).isSome := by
  induction ops generalizing s with
  | nil => exact h
  | cons op ops ih => exact ih (isSome_advance h op)

variable {ops : List ο}

theorem isSome_runAt_iff (creates : ο → Prop)
    (hsome : ∀ op ∈ ops, creates op → (step none op).isSome)
    (hnone : ∀ op ∈ ops, ¬ creates op → step none op = none) :
    (runAt step none ops).isSome ↔ ∃ op ∈ ops, creates op := by
  induction ops with
  | nil => simp
  | cons op ops ih =>
    rw [runAt_cons]
    by_cases hc : creates op
    · have h := hsome op List.mem_cons_self hc
      obtain ⟨a, ha⟩ := Option.isSome_iff_exists.mp h
      rw [advance_of_some ha]
      exact ⟨fun _ => ⟨op, List.mem_cons_self, hc⟩, fun _ => isSome_runAt rfl ops⟩
    · rw [advance_of_none (hnone op List.mem_cons_self hc),
        ih (fun o ho => hsome o (List.mem_cons_of_mem _ ho))
          (fun o ho => hnone o (List.mem_cons_of_mem _ ho))]
      simp [hc]

/-- **The invariant rule.** What holds at the start and is kept by every step of the run holds at
its end. -/
theorem runAt_invariant {P : Option α → Prop} (h₀ : P s)
    (hstep : ∀ s, P s → ∀ op ∈ ops, ∀ a, step s op = some a → P (some a)) :
    P (runAt step s ops) := by
  induction ops generalizing s with
  | nil => exact h₀
  | cons op ops ih =>
    refine ih ?_ (fun s hs o ho => hstep s hs o (List.mem_cons_of_mem _ ho))
    cases h : step s op with
    | none => rw [advance_of_none h]; exact h₀
    | some a => rw [advance_of_some h]; exact hstep s h₀ op List.mem_cons_self a h

theorem runAt_forall {P : α → Prop}
    (hstep : ∀ s, (∀ a ∈ s, P a) → ∀ op ∈ ops, ∀ a, step s op = some a → P a) (h₀ : ∀ a ∈ s, P a) : ∀ a ∈ runAt step s ops, P a :=
  runAt_invariant (P := fun s => ∀ a ∈ s, P a) h₀ fun s hs op ho a ha b hb => by
    cases hb
    exact hstep s hs op ho a ha

theorem runAt_congr {step' : Option α → ο → Option α}
    (h : ∀ s, ∀ op ∈ ops, step s op = step' s op) (s : Option α) :
    runAt step s ops = runAt step' s ops := by
  induction ops generalizing s with
  | nil => rfl
  | cons op ops ih =>
    have hop : advance step s op = advance step' s op := by
      rw [advance, advance, h s op List.mem_cons_self]
    rw [runAt_cons, runAt_cons, hop]
    exact ih (fun s o ho => h s o (List.mem_cons_of_mem _ ho)) _

theorem runAt_kept {P : Option α → Prop} (h : P s)
    (hkeep : ∀ s, ∀ op ∈ ops, P s → P (advance step s op)) : P (runAt step s ops) := by
  induction ops generalizing s with
  | nil => exact h
  | cons op ops ih =>
    exact ih (hkeep s op List.mem_cons_self h) fun s o ho => hkeep s o (List.mem_cons_of_mem _ ho)

/-- **The latch rule.** A property that did not hold at the start and holds at the end was set by
some entry, and no entry after that cleared it. -/
theorem exists_set_of_runAt {P : Option α → Prop} {clears : ο → Prop}
    (h₀ : ¬ P s) (hclear : ∀ s, ∀ op ∈ ops, clears op → ¬ P (advance step s op))
    (hend : P (runAt step s ops)) :
    ∃ pre op post, ops = pre ++ op :: post ∧ ¬ P (runAt step s pre) ∧
      P (advance step (runAt step s pre) op) ∧ ∀ e ∈ post, ¬ clears e := by
  induction ops using List.reverseRecOn with
  | nil => exact absurd hend h₀
  | append_singleton ops last ih =>
    rw [runAt_append] at hend
    by_cases hprev : P (runAt step s ops)
    · obtain ⟨pre, op, post, rfl, hpre, hop, hpost⟩ :=
        ih (fun s op ho => hclear s op (List.mem_append_left _ ho)) hprev
      refine ⟨pre, op, post ++ [last], by simp, hpre, hop, fun e he => ?_⟩
      rcases List.mem_append.mp he with he | he
      · exact hpost e he
      · rw [List.mem_singleton.mp he]
        exact fun hc => hclear _ last (by simp) hc hend
    · exact ⟨ops, last, [], rfl, hprev, hend, fun e he => by cases he⟩

end RunAt

/-! ## The whole map -/

section Replay

variable [DecidableEq κ] {keyOf : ο → κ} {step : Option α → ο → Option α}

/-- One entry of the log. -/
def replayStep (keyOf : ο → κ) (step : Option α → ο → Option α) (m : OrderedMap κ α) (op : ο) :
    OrderedMap κ α :=
  match step (m.get (keyOf op)) op with
  | none => m
  | some a => m.set (keyOf op) a

/-- The whole log. -/
def replay (keyOf : ο → κ) (step : Option α → ο → Option α) (m : OrderedMap κ α) (ops : List ο) :
    OrderedMap κ α :=
  ops.foldl (replayStep keyOf step) m

theorem get_replayStep (m : OrderedMap κ α) (op : ο) (k : κ) :
    (replayStep keyOf step m op).get k
      = if keyOf op = k then advance step (m.get k) op else m.get k := by
  unfold replayStep
  by_cases hk : keyOf op = k
  · subst hk
    rw [if_pos rfl]
    cases h : step (m.get (keyOf op)) op with
    | none => rw [advance_of_none h]
    | some a => rw [advance_of_some h, OrderedMap.get_set_self]
  · rw [if_neg hk]
    cases step (m.get (keyOf op)) op with
    | none => rfl
    | some a => exact OrderedMap.get_set_of_ne m a (Ne.symm hk)

theorem get_replay (m : OrderedMap κ α) (ops : List ο) (k : κ) :
    (replay keyOf step m ops).get k
      = runAt step (m.get k) (ops.filter fun op => keyOf op = k) := by
  induction ops generalizing m with
  | nil => rfl
  | cons op ops ih =>
    rw [replay, List.foldl_cons]
    change (replay keyOf step (replayStep keyOf step m op) ops).get k = _
    rw [ih, get_replayStep]
    by_cases hk : keyOf op = k
    · rw [if_pos hk, List.filter_cons_of_pos (by simpa using hk), runAt_cons]
    · rw [if_neg hk, List.filter_cons_of_neg (by simpa using hk)]

/-- The keys of a replay: those of the entries that create a value, the first of each kept. -/
theorem keys_replay (creates : ο → Bool) (hsome : ∀ op, creates op = true → (step none op).isSome)
    (hnone : ∀ op, creates op = false → step none op = none) (ops : List ο) :
    (replay keyOf step .empty ops).keys = distinct ((ops.filter creates).map keyOf) := by
  induction ops using List.reverseRecOn with
  | nil => rfl
  | append_singleton ops op ih =>
    have hrun : replay keyOf step .empty (ops ++ [op])
        = replayStep keyOf step (replay keyOf step .empty ops) op := List.foldl_append
    set m := replay keyOf step .empty ops
    rw [hrun, List.filter_append, List.map_append]
    have hold : m.get (keyOf op) ≠ none → keyOf op ∈ m.keys := fun h =>
      OrderedMap.mem_keys_iff.mpr (Option.isSome_iff_ne_none.mpr h)
    cases hc : creates op with
    | true =>
      have happend : distinct (((ops.filter creates).map keyOf) ++ [keyOf op])
          = insertNew (distinct ((ops.filter creates).map keyOf)) (keyOf op) := List.foldl_append
      rw [List.filter_cons_of_pos (by exact hc)]
      change _ = distinct (_ ++ [keyOf op])
      rw [happend, ← ih]
      unfold replayStep
      cases hstep : step (m.get (keyOf op)) op with
      | some a => exact OrderedMap.keys_set m (keyOf op) a
      | none =>
        -- A key that is missing would have been created.
        have hne : m.get (keyOf op) ≠ none := by
          intro hmissing
          have hsome := hsome op hc
          rw [hmissing] at hstep
          rw [hstep] at hsome
          cases hsome
        exact (if_pos (hold hne)).symm
    | false =>
      rw [List.filter_cons_of_neg (by simp [hc])]
      simp only [List.filter_nil, List.map_nil, List.append_nil]
      rw [← ih]
      unfold replayStep
      cases hstep : step (m.get (keyOf op)) op with
      | none => rfl
      | some a =>
        have hne : m.get (keyOf op) ≠ none := by
          intro hmissing
          rw [hmissing, hnone op hc] at hstep
          cases hstep
        exact (OrderedMap.keys_set m (keyOf op) a).trans (if_pos (hold hne))

end Replay

/-! ## Sorting a log -/

section Sorting

variable {r : ο → ο → Prop} [DecidableRel r] [Std.Total r] [IsTrans ο r]

theorem insertionSort_eq_of_perm {xs ys : List ο} (h : xs.Perm ys)
    (hanti : ∀ a ∈ xs, ∀ b ∈ xs, r a b → r b a → a = b) :
    xs.insertionSort r = ys.insertionSort r := by
  have hx := List.perm_insertionSort r xs
  have hy := List.perm_insertionSort r ys
  refine List.Perm.eq_of_pairwise (fun a b ha hb => ?_) (List.pairwise_insertionSort r xs)
    (List.pairwise_insertionSort r ys) (hx.trans (h.trans hy.symm))
  exact hanti a (hx.mem_iff.mp ha) b (h.mem_iff.mpr (hy.mem_iff.mp hb))

theorem filter_insertionSort (p : ο → Bool) {xs : List ο}
    (hanti : ∀ a ∈ xs, ∀ b ∈ xs, r a b → r b a → a = b) :
    (xs.insertionSort r).filter p = (xs.filter p).insertionSort r := by
  have hx := List.perm_insertionSort r xs
  refine List.Perm.eq_of_pairwise (fun a b ha hb => ?_)
    ((List.pairwise_insertionSort r xs).sublist List.filter_sublist)
    (List.pairwise_insertionSort r (xs.filter p))
    ((hx.filter p).trans (List.perm_insertionSort r _).symm)
  refine hanti a (hx.mem_iff.mp (List.mem_of_mem_filter ha)) b ?_
  exact List.mem_of_mem_filter ((List.perm_insertionSort r _).mem_iff.mp hb)

end Sorting

end SignetApp
