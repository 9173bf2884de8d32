import Mathlib.Data.List.Induction

/-!
# What is replaced

A log of things with addresses: what comes later under an address takes the place of what stood
there. `standing` is what is left of a log. `firstOfEach` goes the other way, and keeps what comes
first under a key.
-/

namespace SignetApp

variable {α κ : Type} [DecidableEq κ]

/-! ## The last of each address -/

section Standing

variable (address : α → κ)

/-- `a` takes its place. -/
def replace (held : List α) (a : α) : List α := held.filter (fun b => address b ≠ address a) ++ [a]

/-- What stands after a log. -/
def standing (log : List α) : List α := log.foldl (replace address) []

variable {address} {log : List α} {a b : α}

@[simp]
theorem standing_nil : standing address [] = [] := rfl

theorem standing_concat (log : List α) (a : α) :
    standing address (log ++ [a]) = replace address (standing address log) a := by
  show (log ++ [a]).foldl (replace address) [] = _
  rw [List.foldl_append]
  rfl

theorem mem_replace {held : List α} :
    b ∈ replace address held a ↔ b ∈ held ∧ address b ≠ address a ∨ b = a := by
  simp [replace]

theorem mem_standing_concat :
    b ∈ standing address (log ++ [a]) ↔ b ∈ standing address log ∧ address b ≠ address a ∨ b = a := by
  rw [standing_concat, mem_replace]

theorem mem_of_mem_standing (h : a ∈ standing address log) : a ∈ log := by
  induction log using List.reverseRecOn with
  | nil => exact h
  | append_singleton log b ih =>
    rcases mem_standing_concat.1 h with ⟨h, -⟩ | rfl
    · exact List.mem_append_left _ (ih h)
    · exact List.mem_append_right _ (List.mem_singleton_self _)

theorem exists_standing_of_split (before after : List α) (a : α) :
    ∃ b ∈ standing address (before ++ a :: after), address b = address a ∧ (b = a ∨ b ∈ after) := by
  induction after using List.reverseRecOn with
  | nil => exact ⟨a, mem_standing_concat.2 (.inr rfl), rfl, .inl rfl⟩
  | append_singleton after c ih =>
    rw [show before ++ a :: (after ++ [c]) = (before ++ a :: after) ++ [c] by simp]
    by_cases hc : address c = address a
    · exact ⟨c, mem_standing_concat.2 (.inr rfl), hc, .inr (List.mem_append_right _ (List.mem_singleton_self c))⟩
    · obtain ⟨b, hb, haddress, hwhich⟩ := ih
      refine ⟨b, mem_standing_concat.2 (.inl ⟨hb, ?_⟩), haddress, hwhich.imp_right (List.mem_append_left _)⟩
      rw [haddress]
      exact Ne.symm hc

theorem eq_of_standing (ha : a ∈ standing address log) (hb : b ∈ standing address log)
    (haddress : address a = address b) : a = b := by
  induction log using List.reverseRecOn with
  | nil => cases ha
  | append_singleton log c ih =>
    rcases mem_standing_concat.1 ha with ⟨ha, hac⟩ | rfl <;>
      rcases mem_standing_concat.1 hb with ⟨hb, hbc⟩ | rfl
    · exact ih ha hb
    · exact absurd haddress hac
    · exact absurd haddress.symm hbc
    · rfl

end Standing

/-! ## The first of each key -/

section First

variable (key : α → κ)

def firstOfEach : List α → List α
  | [] => []
  | a :: as => a :: (firstOfEach as).filter fun b => key b ≠ key a

variable {key}

theorem mem_of_mem_firstOfEach {as : List α} {a : α} (h : a ∈ firstOfEach key as) : a ∈ as := by
  induction as with
  | nil => cases h
  | cons b as ih =>
    rcases List.mem_cons.1 h with rfl | h
    · exact List.mem_cons_self
    · exact List.mem_cons_of_mem _ (ih (List.mem_filter.1 h).1)

theorem mem_firstOfEach {as : List α} (hkey : ∀ a ∈ as, ∀ b ∈ as, key a = key b → a = b) {a : α} :
    a ∈ firstOfEach key as ↔ a ∈ as := by
  refine ⟨mem_of_mem_firstOfEach, ?_⟩
  intro h
  induction as with
  | nil => exact h
  | cons b as ih =>
    by_cases hb : key a = key b
    · obtain rfl := hkey a h b List.mem_cons_self hb
      exact List.mem_cons_self
    · rcases List.mem_cons.1 h with rfl | h
      · exact absurd rfl hb
      · apply List.mem_cons_of_mem
        apply List.mem_filter.2
        refine ⟨ih (fun c hc d hd => hkey c (List.mem_cons_of_mem _ hc) d (List.mem_cons_of_mem _ hd)) h, ?_⟩
        exact decide_eq_true hb

end First

end SignetApp
