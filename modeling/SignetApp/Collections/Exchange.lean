import Mathlib.Order.Bounds.Lattice

/-!
# Exchanging states

Parties hold states and merge them pairwise, in any order and nesting. When a merge reads as a join
of what the states show, the outcome shows the least upper bound of what the parties started from.
-/

namespace SignetApp

/-- How a party came by its state: its own, or a merge of two. -/
inductive Exchange (α : Type) where
  | holds (a : α)
  | merge (own remote : Exchange α)

namespace Exchange

variable {α β : Type} [SemilatticeSup β] {m : α → α → α} {view : α → β} {P : α → Prop}

/-- The states the parties started from. -/
def sources : Exchange α → List α
  | holds a => [a]
  | merge own remote => own.sources ++ remote.sources

/-- The state at the root. -/
def outcome (m : α → α → α) : Exchange α → α
  | holds a => a
  | merge own remote => m (own.outcome m) (remote.outcome m)

theorem outcome_of_sources (hm : ∀ a b, P a → P b → P (m a b)) {t : Exchange α}
    (h : ∀ a ∈ t.sources, P a) : P (t.outcome m) := by
  induction t with
  | holds a => exact h a List.mem_cons_self
  | merge own remote ihOwn ihRemote =>
    exact hm _ _ (ihOwn fun a ha => h a (List.mem_append_left _ ha))
      (ihRemote fun a ha => h a (List.mem_append_right _ ha))

theorem isLUB_outcome (hm : ∀ a b, P a → P b → P (m a b))
    (hview : ∀ a b, P a → P b → view (m a b) = view a ⊔ view b) {t : Exchange α}
    (h : ∀ a ∈ t.sources, P a) : IsLUB (Set.image view {a | a ∈ t.sources}) (view (t.outcome m)) := by
  induction t with
  | holds a =>
    have hsingle : {b | b ∈ sources (holds a)} = {a} := by ext b; simp [sources]
    rw [hsingle, Set.image_singleton]
    exact isLUB_singleton
  | merge own remote ihOwn ihRemote =>
    have hown : ∀ a ∈ own.sources, P a := fun a ha => h a (List.mem_append_left _ ha)
    have hremote : ∀ a ∈ remote.sources, P a := fun a ha => h a (List.mem_append_right _ ha)
    have hunion : {a | a ∈ sources (merge own remote)}
        = {a | a ∈ own.sources} ∪ {a | a ∈ remote.sources} := by ext a; simp [sources]
    rw [hunion, Set.image_union, outcome, hview _ _ (outcome_of_sources hm hown)
      (outcome_of_sources hm hremote)]
    exact (ihOwn hown).union (ihRemote hremote)

theorem view_outcome_eq (hm : ∀ a b, P a → P b → P (m a b))
    (hview : ∀ a b, P a → P b → view (m a b) = view a ⊔ view b) {t u : Exchange α}
    (ht : ∀ a ∈ t.sources, P a) (hsame : ∀ a, a ∈ t.sources ↔ a ∈ u.sources) :
    view (t.outcome m) = view (u.outcome m) := by
  have hu : ∀ a ∈ u.sources, P a := fun a ha => ht a ((hsame a).mpr ha)
  have hset : {a | a ∈ t.sources} = {a | a ∈ u.sources} := Set.ext hsame
  have htlub := isLUB_outcome hm hview ht
  rw [hset] at htlub
  exact htlub.unique (isLUB_outcome hm hview hu)

end Exchange

end SignetApp
