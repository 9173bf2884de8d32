import Mathlib.Data.List.Basic

/-!
# Effects one after the other

The state after the first effects of a list. What every effect keeps, the rest of the list keeps; what
comes about only by some of the effects comes about at one of them.
-/

namespace SignetApp

variable {σ α : Type*}

/-- The state after the first `n` effects. -/
def afterFirst (f : σ → α → σ) (s : σ) (as : List α) (n : ℕ) : σ := (as.take n).foldl f s

namespace afterFirst

variable {f : σ → α → σ} {s : σ} {as : List α}

theorem succ {n : ℕ} {a : α} (ha : as[n]? = some a) :
    afterFirst f s as (n + 1) = f (afterFirst f s as n) a := by
  unfold afterFirst
  rw [List.take_add_one, ha, Option.toList_some, List.foldl_append]
  rfl

theorem succ_of_length_le {n : ℕ} (h : as.length ≤ n) :
    afterFirst f s as (n + 1) = afterFirst f s as n := by
  unfold afterFirst
  rw [List.take_of_length_le h, List.take_of_length_le (Nat.le_succ_of_le h)]

theorem append {n : ℕ} (a : α) (h : n ≤ as.length) :
    afterFirst f s (as ++ [a]) n = afterFirst f s as n := by
  unfold afterFirst
  rw [List.take_append_of_le_length h]

theorem length : afterFirst f s as as.length = as.foldl f s := by
  unfold afterFirst
  rw [List.take_length]

theorem keeps {R : σ → Prop} (hstep : ∀ s a, R s → R (f s a)) {n m : ℕ} (hnm : n ≤ m)
    (hn : R (afterFirst f s as n)) : R (afterFirst f s as m) := by
  induction hnm with
  | refl => exact hn
  | @step m _ ih =>
    cases ha : as[m]? with
    | some a =>
      rw [succ ha]
      exact hstep _ a ih
    | none =>
      rw [succ_of_length_le (List.getElem?_eq_none_iff.1 ha)]
      exact ih

theorem comesByKeeping {I Q : σ → Prop} {A : α → Prop} (hI : ∀ s a, I s → I (f s a))
    (hstep : ∀ s a, I s → Q (f s a) → Q s ∨ A a) {n m : ℕ} (hnm : n ≤ m) (hs : I (afterFirst f s as n))
    (hn : ¬ Q (afterFirst f s as n)) (hm : Q (afterFirst f s as m)) :
    ∃ j a, n ≤ j ∧ j < m ∧ as[j]? = some a ∧ A a := by
  induction hnm with
  | refl => exact absurd hm hn
  | @step m hle ih =>
    have hearlier : Q (afterFirst f s as m) →
        ∃ j a, n ≤ j ∧ j < m + 1 ∧ as[j]? = some a ∧ A a := by
      intro hq
      obtain ⟨j, a, hnj, hjm, ha, hA⟩ := ih hq
      exact ⟨j, a, hnj, Nat.lt_succ_of_lt hjm, ha, hA⟩
    cases ha : as[m]? with
    | some a =>
      rw [succ ha] at hm
      obtain hq | hA := hstep _ a (keeps hI hle hs) hm
      · exact hearlier hq
      · exact ⟨m, a, hle, Nat.lt_succ_self m, ha, hA⟩
    | none =>
      rw [succ_of_length_le (List.getElem?_eq_none_iff.1 ha)] at hm
      exact hearlier hm

theorem comesBy {Q : σ → Prop} {A : α → Prop} (hstep : ∀ s a, Q (f s a) → Q s ∨ A a) {n m : ℕ}
    (hnm : n ≤ m) (hn : ¬ Q (afterFirst f s as n)) (hm : Q (afterFirst f s as m)) :
    ∃ j a, n ≤ j ∧ j < m ∧ as[j]? = some a ∧ A a :=
  comesByKeeping (I := fun _ => True) (fun _ _ _ => trivial) (fun s a _ => hstep s a) hnm trivial hn hm

end afterFirst

end SignetApp
