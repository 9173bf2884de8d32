import Mathlib.Order.Lattice
import Mathlib.Data.Prod.Basic

/-!
# Dated and marked values

Two values that differ are met, and the outcome is marked as a compromise; the mark stays. Of two
dated values the later one stands, and values of one date are joined. Both are joins.
-/

namespace SignetApp

/-! ## Marks -/

/-- A value, and whether it is a compromise between values that differed. -/
@[ext] structure Marked (α : Type*) where
  value : α
  conflicted : Bool
  deriving DecidableEq

namespace Marked

variable {α : Type*}

variable {a b : Marked α}

theorem ext_iff_conflicted (hvalue : a.value = b.value)
    (hmark : a.conflicted = true ↔ b.conflicted = true) : a = b := by
  apply Marked.ext hvalue
  exact Bool.eq_iff_iff.2 hmark

variable [SemilatticeInf α] [DecidableEq α]

instance : Max (Marked α) where
  max a b := ⟨a.value ⊓ b.value, a.conflicted || b.conflicted || decide (a.value ≠ b.value)⟩

@[simp] theorem value_sup (a b : Marked α) : (a ⊔ b).value = a.value ⊓ b.value := rfl

theorem conflicted_sup_iff : (a ⊔ b).conflicted = true ↔
    a.conflicted = true ∨ b.conflicted = true ∨ a.value ≠ b.value := by
  show (a.conflicted || b.conflicted || decide (a.value ≠ b.value)) = true ↔ _
  simp [or_assoc]

instance : SemilatticeSup (Marked α) := by
  apply SemilatticeSup.mk'
  · intro a b
    apply ext_iff_conflicted
    · exact inf_comm ..
    · rw [conflicted_sup_iff, conflicted_sup_iff, ne_comm, or_left_comm]
  · intro a b c
    apply ext_iff_conflicted
    · exact inf_assoc ..
    · rw [conflicted_sup_iff, conflicted_sup_iff, conflicted_sup_iff, conflicted_sup_iff, value_sup,
        value_sup]
      -- Where the first two agree their meet is either of them, and so for the last two.
      by_cases hab : a.value = b.value
      · by_cases hbc : b.value = c.value
        · simp [hab, hbc, or_assoc]
        · simp [hab, hbc]
      · by_cases hbc : b.value = c.value
        · have hac : a.value ≠ c.value := hbc ▸ hab
          simp [hac, hbc]
        · simp [hab, hbc]
  · intro a
    apply ext_iff_conflicted
    · exact inf_idem _
    · rw [conflicted_sup_iff]
      simp

theorem value_le_of_le (h : a ≤ b) : b.value ≤ a.value := by
  have hsup : a ⊔ b = b := sup_eq_right.2 h
  rw [← hsup]
  exact inf_le_left

theorem conflicted_of_le (h : a ≤ b) (ha : a.conflicted = true) : b.conflicted = true := by
  have hsup : a ⊔ b = b := sup_eq_right.2 h
  rw [← hsup, conflicted_sup_iff]
  exact .inl ha

theorem conflicted_of_ne {c : Marked α} (ha : a ≤ c) (hb : b ≤ c) (hne : a ≠ b) :
    c.conflicted = true := by
  apply conflicted_of_le (sup_le ha hb)
  rw [conflicted_sup_iff]
  by_contra hnot
  obtain ⟨hca, hcb, hvalue⟩ : a.conflicted = false ∧ b.conflicted = false ∧ a.value = b.value := by
    simpa using hnot
  exact hne (Marked.ext hvalue (hca.trans hcb.symm))

end Marked

/-! ## Dates -/

@[ext] structure Dated (τ α : Type*) where
  date : τ
  value : α
  deriving DecidableEq

namespace Dated

variable {τ α : Type*} [LinearOrder τ] [SemilatticeSup α]

instance : Max (Dated τ α) where
  max a b := if b.date < a.date then a else if a.date < b.date then b else ⟨a.date, a.value ⊔ b.value⟩

variable {a b : Dated τ α}

theorem sup_of_lt (h : a.date < b.date) : a ⊔ b = b := by
  show (if b.date < a.date then a else if a.date < b.date then b else _) = b
  rw [if_neg h.asymm, if_pos h]

theorem sup_of_gt (h : b.date < a.date) : a ⊔ b = a := by
  show (if b.date < a.date then a else _) = a
  rw [if_pos h]

theorem sup_of_eq {a b : Dated τ α} (h : a.date = b.date) : a ⊔ b = ⟨a.date, a.value ⊔ b.value⟩ := by
  show (if b.date < a.date then a else if a.date < b.date then b else _) = _
  rw [if_neg h.not_gt, if_neg h.not_lt]

theorem date_sup (a b : Dated τ α) : (a ⊔ b).date = max a.date b.date := by
  obtain h | h | h := lt_trichotomy a.date b.date
  · rw [sup_of_lt h, max_eq_right h.le]
  · rw [sup_of_eq h, h, max_self]
  · rw [sup_of_gt h, max_eq_left h.le]

instance : SemilatticeSup (Dated τ α) := by
  apply SemilatticeSup.mk'
  · intro a b
    obtain h | h | h := lt_trichotomy a.date b.date
    · rw [sup_of_lt h, sup_of_gt h]
    · rw [sup_of_eq h, sup_of_eq h.symm, h, sup_comm]
    · rw [sup_of_gt h, sup_of_lt h]
  · intro a b c
    obtain h | h | h := lt_trichotomy a.date b.date
    · rw [sup_of_lt h]
      have hbc : a.date < (b ⊔ c).date := by
        rw [date_sup]
        exact h.trans_le (le_max_left _ _)
      rw [sup_of_lt hbc]
    · obtain h' | h' | h' := lt_trichotomy b.date c.date
      · have hab : (a ⊔ b).date < c.date := by
          rw [date_sup, h, max_self]
          exact h'
        rw [sup_of_lt hab, sup_of_lt h', sup_of_lt (h.trans_lt h')]
      · rw [sup_of_eq h, sup_of_eq h', @sup_of_eq _ _ _ _ ⟨a.date, a.value ⊔ b.value⟩ c (h.trans h'),
          @sup_of_eq _ _ _ _ a ⟨b.date, b.value ⊔ c.value⟩ h, sup_assoc]
      · have hab : c.date < (a ⊔ b).date := by
          rw [date_sup, h, max_self]
          exact h'
        rw [sup_of_gt hab, sup_of_gt h']
    · rw [sup_of_gt h]
      obtain h' | h' | h' := lt_trichotomy b.date c.date
      · rw [sup_of_lt h']
      · have hbc : (b ⊔ c).date < a.date := by
          rw [date_sup, ← h', max_self]
          exact h
        rw [sup_of_gt hbc, sup_of_gt (h' ▸ h)]
      · rw [sup_of_gt h', sup_of_gt h, sup_of_gt (h'.trans h)]
  · intro a
    rw [sup_of_eq rfl, sup_idem]

theorem date_le (h : a ≤ b) : a.date ≤ b.date := by
  have hsup : a ⊔ b = b := sup_eq_right.2 h
  rw [← hsup, date_sup]
  exact le_max_left _ _

theorem value_le (h : a ≤ b) (hdate : a.date = b.date) : a.value ≤ b.value := by
  have hsup : a ⊔ b = b := sup_eq_right.2 h
  rw [sup_of_eq hdate] at hsup
  exact sup_eq_right.1 (congrArg Dated.value hsup)

end Dated

end SignetApp
