import Mathlib

/-!
# Sweeps over groups

A sweep visits one group of a state after another. Where a step touches its own group alone, what
one step makes of a group is what the whole sweep makes of it.
-/

namespace SignetApp

variable {σ ι π γ : Type}

/-- A step settles the group it visits and leaves the others, while `Inv n` holds of the state and
`n` counts the visits to come. -/
structure Sweeping (group : ι → σ → γ) (key : π → ι) (step : σ → π → σ) (Inv : ℕ → σ → Prop)
    (Settles : π → γ → γ → Prop) : Prop where
  inv : ∀ {n s} p, Inv (n + 1) s → Inv n (step s p)
  frame : ∀ {n s p i}, Inv (n + 1) s → i ≠ key p → group i (step s p) = group i s
  own : ∀ {n s} p, Inv (n + 1) s → Settles p (group (key p) s) (group (key p) (step s p))

namespace Sweeping

variable {group : ι → σ → γ} {key : π → ι} {step : σ → π → σ} {Inv : ℕ → σ → Prop}
  {Settles : π → γ → γ → Prop}

theorem frame_foldl (h : Sweeping group key step Inv Settles) {i : ι} :
    ∀ {ps : List π} {s : σ}, Inv ps.length s → (∀ p ∈ ps, i ≠ key p) →
      group i (ps.foldl step s) = group i s := by
  intro ps
  induction ps with
  | nil => intro s _ _; rfl
  | cons p ps ih =>
    intro s hinv hi
    rw [List.foldl_cons, ih (h.inv p hinv) fun q hq => hi q (List.mem_cons_of_mem p hq)]
    exact h.frame hinv (hi p List.mem_cons_self)

/-- A group that is visited once is settled. -/
theorem own_foldl (h : Sweeping group key step Inv Settles) {p : π} :
    ∀ {ps : List π} {s : σ}, Inv ps.length s → (ps.map key).Nodup → p ∈ ps →
      Settles p (group (key p) s) (group (key p) (ps.foldl step s)) := by
  intro ps
  induction ps with
  | nil => intro s _ _ hp; cases hp
  | cons q ps ih =>
    intro s hinv hnodup hp
    rw [List.map_cons, List.nodup_cons] at hnodup
    rw [List.foldl_cons]
    by_cases hq : key p = key q
    · -- Later visits are to other groups.
      have hlater : ∀ r ∈ ps, key p ≠ key r := fun r hr hpr =>
        hnodup.1 (List.mem_map.2 ⟨r, hr, by rw [← hpr, hq]⟩)
      have hpq : p = q := by
        rcases List.mem_cons.1 hp with rfl | hmem
        · rfl
        · exact absurd rfl (hlater p hmem)
      subst hpq
      rw [h.frame_foldl (h.inv p hinv) hlater]
      exact h.own p hinv
    · have hmem : p ∈ ps := by
        rcases List.mem_cons.1 hp with rfl | hmem
        · exact absurd rfl hq
        · exact hmem
      have hown := ih (h.inv q hinv) hnodup.2 hmem
      rw [h.frame hinv hq] at hown
      exact hown

end Sweeping

theorem foldl_of_still {step : σ → π → σ} {s : σ} :
    ∀ {ps : List π}, (∀ p ∈ ps, step s p = s) → ps.foldl step s = s := by
  intro ps
  induction ps with
  | nil => intro _; rfl
  | cons p ps ih =>
    intro h
    rw [List.foldl_cons, h p List.mem_cons_self]
    exact ih fun q hq => h q (List.mem_cons_of_mem p hq)

variable {α : Type} {as : List α} {le : α → α → Bool}

theorem head?_mergeSort {a : α} (htrans : ∀ a b c, le a b = true → le b c = true → le a c = true)
    (htotal : ∀ a b, (le a b || le b a) = true) (hhead : (as.mergeSort le).head? = some a) :
    a ∈ as ∧ ∀ b ∈ as, le a b = true := by
  have hsorted : (as.mergeSort le).Pairwise fun a b => le a b = true :=
    List.pairwise_mergeSort htrans htotal as
  have hmem : a ∈ as := List.mem_mergeSort.1 (List.mem_of_mem_head? hhead)
  refine ⟨hmem, fun b hb => ?_⟩
  have hb' : b ∈ as.mergeSort le := List.mem_mergeSort.2 hb
  cases hs : as.mergeSort le with
  | nil => rw [hs] at hhead; cases hhead
  | cons c rest =>
    rw [hs, List.head?_cons, Option.some.injEq] at hhead
    rw [hs] at hsorted hb'
    subst hhead
    rcases List.mem_cons.1 hb' with rfl | hrest
    · simpa using htotal b b
    · exact (List.pairwise_cons.1 hsorted).1 b hrest

theorem head?_mergeSort_eq_none : (as.mergeSort le).head? = none ↔ as = [] := by
  rw [List.head?_eq_none_iff]
  constructor
  · intro h
    have hlen : (as.mergeSort le).length = as.length := List.length_mergeSort as
    rw [h] at hlen
    exact List.eq_nil_of_length_eq_zero hlen.symm
  · rintro rfl
    exact List.mergeSort_nil

end SignetApp
