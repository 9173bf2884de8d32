import Mathlib.Data.List.Induction
import Mathlib.Logic.Relation

/-!
# The states a machine reaches

A machine is a step function on states, with an action for everything its surroundings may do. Not
every action may be taken in every state: `allow` says which. What every allowed step preserves
holds of every state reached.
-/

namespace SignetApp

variable {σ α : Type*}

/-- The states reached from `s` by allowed actions. -/
inductive Reaches (step : σ → α → σ) (allow : σ → α → Prop) (s : σ) : σ → Prop where
  | refl : Reaches step allow s s
  | tail {t : σ} {a : α} (h : Reaches step allow s t) (ha : allow t a) :
      Reaches step allow s (step t a)

namespace Reaches

variable {step : σ → α → σ} {allow : σ → α → Prop} {s t u : σ}

theorem tail_eq {a : α} (h : Reaches step allow s t) (ha : allow t a) (hu : step t a = u) :
    Reaches step allow s u :=
  hu ▸ h.tail ha

theorem trans (h : Reaches step allow s t) (h' : Reaches step allow t u) :
    Reaches step allow s u := by
  induction h' with
  | refl => exact h
  | tail _ ha ih => exact ih.tail ha

theorem mono {allow' : σ → α → Prop} (hmono : ∀ t a, allow t a → allow' t a)
    (h : Reaches step allow s t) : Reaches step allow' s t := by
  induction h with
  | refl => exact .refl
  | tail _ ha ih => exact ih.tail (hmono _ _ ha)

theorem invariant {I : σ → Prop} (h₀ : I s) (hstep : ∀ t a, I t → allow t a → I (step t a))
    (h : Reaches step allow s t) : I t := by
  induction h with
  | refl => exact h₀
  | tail _ ha ih => exact hstep _ _ ih ha

theorem run {as : List α} (h : ∀ n a, as[n]? = some a → allow ((as.take n).foldl step s) a) :
    Reaches step allow s (as.foldl step s) := by
  induction as using List.reverseRecOn with
  | nil => exact .refl
  | append_singleton as a ih =>
    rw [List.foldl_append]
    have hlast := h as.length a (by simp)
    rw [List.take_left] at hlast
    refine (ih ?_).tail hlast
    intro n b hb
    have hlt : n < as.length := (List.getElem?_eq_some_iff.1 hb).1
    have hb' := h n b (by rw [List.getElem?_append_left hlt, hb])
    rwa [List.take_append_of_le_length (Nat.le_of_lt hlt)] at hb'

theorem evolves {R : σ → σ → Prop} (hrefl : ∀ t, R t t) (htrans : ∀ {t u v}, R t u → R u v → R t v)
    (hstep : ∀ t a, R t (step t a)) (h : Reaches step allow s t) : R s t := by
  induction h with
  | refl => exact hrefl _
  | tail _ _ ih => exact htrans ih (hstep _ _)

end Reaches

end SignetApp
