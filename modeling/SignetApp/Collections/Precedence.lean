import Mathlib.Data.List.Basic

/-!
# Lookup by levels

Elements are looked up level by level, the most specific first; among those that meet a level some
are preferred. What is found stands: no preferred element meets its level or one before it, unless
it is preferred itself.
-/

namespace SignetApp

variable {α : Type}

/-- Of the first level that any element meets, the first preferred one, else the first one. -/
def best (preferred : α → Bool) (levels : List (α → Bool)) (as : List α) : Option α :=
  levels.findSome? fun level => ((as.filter level).find? preferred).or (as.filter level).head?

/-- No preferred element is at least as specific as `a`. -/
def Stands (preferred : α → Bool) (levels : List (α → Bool)) (as : List α) (a : α) : Prop :=
  ∃ before level after, levels = before ++ level :: after ∧ level a = true
    ∧ ∀ b ∈ as, preferred b = true → ∀ l ∈ before ++ [level], l b = false

variable {as : List α}

theorem or_head?_eq_none_iff {p : α → Bool} : (as.find? p).or as.head? = none ↔ as = [] := by
  cases as with
  | nil => simp
  | cons a as => simp

variable {levels : List (α → Bool)} {preferred : α → Bool}

theorem best_eq_none_iff :
    best preferred levels as = none ↔ ∀ level ∈ levels, ∀ a ∈ as, level a = false := by
  unfold best
  rw [List.findSome?_eq_none_iff]
  constructor
  · intro h level hlevel a ha
    have hnil := or_head?_eq_none_iff.mp (h level hlevel)
    simpa using List.filter_eq_nil_iff.mp hnil a ha
  · intro h level hlevel
    rw [or_head?_eq_none_iff, List.filter_eq_nil_iff]
    intro a ha
    simp [h level hlevel a ha]

variable {a : α}

theorem mem_filter_of_best
    (h : best preferred levels as = some a) : ∃ level ∈ levels, a ∈ as.filter level := by
  obtain ⟨level, hlevel, hfound⟩ := List.exists_of_findSome?_eq_some h
  rw [Option.or_eq_some_iff] at hfound
  refine ⟨level, hlevel, ?_⟩
  rcases hfound with hfound | ⟨_, hfound⟩
  · exact List.mem_of_find?_eq_some hfound
  · exact List.mem_of_head? hfound

theorem mem_of_best_eq_some (h : best preferred levels as = some a) : a ∈ as := by
  obtain ⟨level, -, hmem⟩ := mem_filter_of_best h
  exact List.mem_of_mem_filter hmem

/-- What is found without being preferred stands. -/
theorem stands_of_best (h : best preferred levels as = some a) (ha : preferred a = false) :
    Stands preferred levels as a := by
  induction levels with
  | nil => cases h
  | cons level levels ih =>
    unfold best at h
    rw [List.findSome?_cons] at h
    cases hfirst : ((as.filter level).find? preferred).or (as.filter level).head? with
    | none =>
      -- Nobody meets this level.
      rw [hfirst] at h
      have hnil := List.filter_eq_nil_iff.mp (or_head?_eq_none_iff.mp hfirst)
      obtain ⟨before, found, after, rfl, hmeets, hnone⟩ := ih h
      refine ⟨level :: before, found, after, rfl, hmeets, ?_⟩
      intro b hb hpreferred l hl
      rw [List.cons_append, List.mem_cons] at hl
      rcases hl with rfl | hl
      · simpa using hnil b hb
      · exact hnone b hb hpreferred l hl
    | some first =>
      rw [hfirst] at h
      obtain rfl := Option.some.inj h
      rw [Option.or_eq_some_iff] at hfirst
      rcases hfirst with hfirst | ⟨hnone, hhead⟩
      · rw [List.find?_some hfirst] at ha
        cases ha
      · refine ⟨[], level, levels, rfl, ?_, ?_⟩
        · exact (List.mem_filter.mp (List.mem_of_head? hhead)).2
        · intro b hb hpreferred l hl
          obtain rfl := List.mem_singleton.mp hl
          by_contra hmeets
          have hmem : b ∈ as.filter l := List.mem_filter.mpr ⟨hb, by simpa using hmeets⟩
          exact List.find?_eq_none.mp hnone b hmem hpreferred

end SignetApp
