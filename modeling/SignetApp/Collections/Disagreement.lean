import Mathlib.Order.Bounds.Basic

/-!
# The newest value, and what is left where the newest disagree

Values that come in any order and more than once are merged into one: a newer value replaces an older one, and
two values of one age that differ leave what they have in common. What is left depends on which values came, not
on their order.
-/

namespace SignetApp

/-- How values that disagree are settled: by the age that they have, and by what they have in common. -/
structure Disagreement (α L : Type*) [SemilatticeSup L] where
  age : α → ℕ
  common : α → L
  settle : ℕ → L → α
  age_settle : ∀ n l, age (settle n l) = n
  common_settle : ∀ n l, common (settle n l) = l

namespace Disagreement

variable {α L : Type*} [SemilatticeSup L] (d : Disagreement α L)

def merge [DecidableEq α] (a b : α) : α :=
  if d.age b < d.age a then a
  else if d.age a < d.age b then b
  else if a = b then a
  else d.settle (d.age a) (d.common a ⊔ d.common b)

/-- What those of one age have in common. -/
def ofAge (as : List α) (n : ℕ) : Set L := {l | ∃ a ∈ as, d.age a = n ∧ d.common a = l}

/-- **What is left of values**: the newest, where there is one only, and otherwise what the newest have in
common. -/
inductive Left (as : List α) : α → Prop where
  | one {a : α} (ha : a ∈ as) (hle : ∀ b ∈ as, d.age b ≤ d.age a) (hone : ∀ b ∈ as, d.age b = d.age a → b = a) :
      Left as a
  | settled {a b : α} {l : L} (ha : a ∈ as) (hb : b ∈ as) (hage : d.age b = d.age a) (hne : a ≠ b)
      (hle : ∀ c ∈ as, d.age c ≤ d.age a) (hlub : IsLUB (d.ofAge as (d.age a)) l) :
      Left as (d.settle (d.age a) l)

variable {d}

namespace Left

variable {as as' : List α} {a b : α}

theorem age_le (h : d.Left as a) : ∀ b ∈ as, d.age b ≤ d.age a := by
  cases h with
  | one ha hle hone => exact hle
  | settled ha hb hage hne hle hlub =>
    rw [d.age_settle]
    exact hle

theorem exists_age_eq (h : d.Left as a) : ∃ b ∈ as, d.age b = d.age a := by
  cases h with
  | one ha hle hone => exact ⟨a, ha, rfl⟩
  | settled ha hb hage hne hle hlub => exact ⟨_, ha, (d.age_settle _ _).symm⟩

theorem common_le (h : d.Left as a) (hb : b ∈ as) (hage : d.age b = d.age a) : d.common b ≤ d.common a := by
  cases h with
  | one ha hle hone => rw [hone b hb hage]
  | settled ha hb' hage' hne hle hlub =>
    rw [d.age_settle] at hage
    rw [d.common_settle]
    exact hlub.1 ⟨b, hb, hage, rfl⟩

theorem ofAge_congr (h : ∀ a, a ∈ as ↔ a ∈ as') (n : ℕ) : d.ofAge as n = d.ofAge as' n := by
  ext l
  simp only [ofAge, h]

theorem unique (h : d.Left as a) (h' : d.Left as' b) (hmem : ∀ c, c ∈ as ↔ c ∈ as') : a = b := by
  have hage : d.age a = d.age b := by
    obtain ⟨c, hc, hca⟩ := h.exists_age_eq
    obtain ⟨c', hc', hcb⟩ := h'.exists_age_eq
    exact le_antisymm (hca ▸ h'.age_le c ((hmem c).1 hc)) (hcb ▸ h.age_le c' ((hmem c').2 hc'))
  cases h with
  | one ha hle hone =>
    cases h' with
    | one hb hle' hone' => exact hone' a ((hmem a).1 ha) hage
    | settled hb hc hbc hne hle' hlub =>
      rw [d.age_settle] at hage
      have hfst := hone _ ((hmem _).2 hb) hage.symm
      exact absurd (hfst.trans (hone _ ((hmem _).2 hc) (hbc.trans hage.symm)).symm) hne
  | settled ha hc hac hne hle hlub =>
    rw [d.age_settle] at hage
    cases h' with
    | one hb hle' hone' =>
      have hfst := hone' _ ((hmem _).1 ha) hage
      exact absurd (hfst.trans (hone' _ ((hmem _).1 hc) (hac.trans hage)).symm) hne
    | settled hb hc' hbc hne' hle' hlub' =>
      rw [d.age_settle] at hage
      rw [ofAge_congr hmem, hage] at hlub
      rw [hage, hlub.unique hlub']

theorem ofAge_concat (n : ℕ) (hb : d.age b = n) :
    d.ofAge (as ++ [b]) n = insert (d.common b) (d.ofAge as n) := by
  ext l
  simp only [ofAge, List.mem_append, List.mem_singleton, Set.mem_ofPred_eq, Set.mem_insert_iff]
  constructor
  · rintro ⟨a, ha | rfl, hn, rfl⟩
    · exact .inr ⟨a, ha, hn, rfl⟩
    · exact .inl rfl
  · rintro (rfl | ⟨a, ha, hn, rfl⟩)
    · exact ⟨b, .inr rfl, hb, rfl⟩
    · exact ⟨a, .inl ha, hn, rfl⟩

theorem ofAge_concat_of_ne {n : ℕ} (hb : d.age b ≠ n) : d.ofAge (as ++ [b]) n = d.ofAge as n := by
  ext l
  simp only [ofAge, List.mem_append, List.mem_singleton, Set.mem_ofPred_eq]
  constructor
  · rintro ⟨a, ha | rfl, hn, rfl⟩
    · exact ⟨a, ha, hn, rfl⟩
    · exact absurd hn hb
  · rintro ⟨a, ha, hn, rfl⟩
    exact ⟨a, .inl ha, hn, rfl⟩

theorem singleton (a : α) : d.Left [a] a :=
  .one List.mem_cons_self (fun b hb => by rw [List.mem_singleton.1 hb]) fun b hb _ => List.mem_singleton.1 hb

theorem forall_concat {p : α → Prop} (h : ∀ c ∈ as, p c) (hb : p b) : ∀ c ∈ as ++ [b], p c := by
  intro c hc
  rcases List.mem_append.1 hc with hc | hc
  · exact h c hc
  · rw [List.mem_singleton.1 hc]
    exact hb

/-- One more value comes. -/
theorem concat [DecidableEq α] (h : d.Left as a) (b : α) : d.Left (as ++ [b]) (d.merge a b) := by
  have hmem : b ∈ as ++ [b] := List.mem_append_right _ List.mem_cons_self
  have hold : ∀ {c}, c ∈ as → c ∈ as ++ [b] := fun hc => List.mem_append_left _ hc
  rcases lt_trichotomy (d.age a) (d.age b) with hlt | heq | hgt
  · rw [merge, if_neg (Nat.not_lt_of_lt hlt), if_pos hlt]
    refine .one hmem (forall_concat (fun c hc => (h.age_le c hc).trans hlt.le) le_rfl) ?_
    exact forall_concat (fun c hc hcb => absurd ((h.age_le c hc).trans_lt hlt) hcb.not_lt) fun _ => rfl
  · have hle : ∀ c ∈ as ++ [b], d.age c ≤ d.age a := forall_concat h.age_le heq.ge
    rw [merge, if_neg heq.not_gt, if_neg heq.not_lt]
    split
    · rename_i hab
      cases h with
      | one ha _ hone => exact .one (hold ha) hle (forall_concat hone fun _ => hab.symm)
      | settled ha hc hac hne _ hlub =>
        rw [d.age_settle] at hle heq
        refine .settled (hold ha) (hold hc) hac hne hle ?_
        rw [ofAge_concat _ heq.symm]
        have hcommon := congrArg d.common hab
        rw [d.common_settle] at hcommon
        have hinsert := hlub.insert (d.common b)
        rw [← hcommon] at hinsert ⊢
        rwa [sup_idem] at hinsert
    · rename_i hab
      cases h with
      | one ha _ hone =>
        refine .settled (hold ha) hmem heq.symm hab hle ?_
        rw [ofAge_concat _ heq.symm]
        have hsingle : d.ofAge as (d.age a) = {d.common a} := by
          ext l
          constructor
          · rintro ⟨c, hc, hca, rfl⟩
            rw [hone c hc hca]
            rfl
          · rintro rfl
            exact ⟨a, ha, rfl, rfl⟩
        rw [hsingle, sup_comm]
        exact isLUB_singleton.insert _
      | settled ha hc hac hne _ hlub =>
        rw [d.age_settle] at hle heq ⊢
        rw [d.common_settle, sup_comm]
        refine .settled (hold ha) (hold hc) hac hne hle ?_
        rw [ofAge_concat _ heq.symm]
        exact hlub.insert _
  · rw [merge, if_pos hgt]
    have hle : ∀ c ∈ as ++ [b], d.age c ≤ d.age a := forall_concat h.age_le hgt.le
    cases h with
    | one ha _ hone => exact .one (hold ha) hle (forall_concat hone fun hba => absurd hba hgt.ne)
    | settled ha hc hac hne _ hlub =>
      rw [d.age_settle] at hle hgt
      refine .settled (hold ha) (hold hc) hac hne hle ?_
      rwa [ofAge_concat_of_ne hgt.ne]

theorem foldl [DecidableEq α] (h : d.Left as a) (bs : List α) : d.Left (as ++ bs) (bs.foldl d.merge a) := by
  induction bs generalizing as a with
  | nil =>
    rw [List.append_nil]
    exact h
  | cons b bs ih =>
    have hnext := ih (h.concat b)
    rwa [List.append_assoc] at hnext

end Left

/-! ## Merging as values come -/

/-- A step that merges the values of `P` into the one that is kept. -/
structure Merges [DecidableEq α] (d : Disagreement α L) (P : α → Prop) (step : Option α → α → Option α) : Prop where
  first : ∀ {b}, P b → step none b = some b
  next : ∀ {a b}, P a → P b → step (some a) b = some (d.merge a b)
  keeps : ∀ {a b}, P a → P b → P (d.merge a b)

/-- The values are merged as they come; `none` where a step fails. -/
def mergeAll (step : Option α → α → Option α) (as : List α) : Option (Option α) :=
  as.foldlM (fun previous incoming => (step previous incoming).map some) none

namespace Merges

variable [DecidableEq α] {P : α → Prop} {step : Option α → α → Option α}

theorem foldlM_eq (h : d.Merges P step) {as : List α} (has : ∀ a ∈ as, P a) {a : α} (ha : P a) :
    as.foldlM (fun previous incoming => (step previous incoming).map some) (some a) =
      some (some (as.foldl d.merge a)) ∧ P (as.foldl d.merge a) := by
  induction as generalizing a with
  | nil => exact ⟨rfl, ha⟩
  | cons b as ih =>
    have hb := has b List.mem_cons_self
    rw [List.foldlM_cons, h.next ha hb]
    exact ih (fun c hc => has c (List.mem_cons_of_mem _ hc)) (h.keeps ha hb)

theorem left (h : d.Merges P step) {as : List α} (has : ∀ a ∈ as, P a) (hne : as ≠ []) :
    ∃ a, mergeAll step as = some (some a) ∧ d.Left as a ∧ P a := by
  cases as with
  | nil => exact absurd rfl hne
  | cons a as =>
    have ha := has a List.mem_cons_self
    obtain ⟨hfold, hP⟩ := h.foldlM_eq (fun c hc => has c (List.mem_cons_of_mem _ hc)) ha
    refine ⟨as.foldl d.merge a, ?_, (Left.singleton a).foldl as, hP⟩
    rw [mergeAll, List.foldlM_cons, h.first ha]
    exact hfold

theorem congr (h : d.Merges P step) {as as' : List α} (has : ∀ a ∈ as, P a) (hmem : ∀ a, a ∈ as ↔ a ∈ as') :
    mergeAll step as = mergeAll step as' := by
  by_cases hne : as = []
  · have hne' : as' = [] := by
      rw [List.eq_nil_iff_forall_not_mem]
      intro a ha
      rw [hne] at hmem
      exact absurd ((hmem a).2 ha) List.not_mem_nil
    rw [hne, hne']
  · have hne' : as' ≠ [] := by
      intro heq
      rw [heq] at hmem
      exact hne (List.eq_nil_iff_forall_not_mem.2 fun a ha => absurd ((hmem a).1 ha) List.not_mem_nil)
    obtain ⟨a, hfold, hleft, -⟩ := h.left has hne
    obtain ⟨a', hfold', hleft', -⟩ := h.left (fun b hb => has b ((hmem b).2 hb)) hne'
    rw [hfold, hfold', hleft.unique hleft' hmem]

end Merges

end Disagreement

end SignetApp
