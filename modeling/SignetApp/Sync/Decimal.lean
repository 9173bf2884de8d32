import SignetApp.Js.SafeUrl
import SignetApp.Sync.Wire

/-!
# Decimal numerals

The text of a natural number: digits, read back as the number, with no leading zero.
-/

namespace SignetApp.Sync

open SignetApp.Js

theorem isPrefixOf?_append {α : Type} [BEq α] [LawfulBEq α] (p s : List α) :
    p.isPrefixOf? (p ++ s) = some s := by
  induction p with
  | nil => rfl
  | cons a p ih =>
    show (if a == a then p.isPrefixOf? (p ++ s) else none) = some s
    rw [if_pos (beq_self_eq_true a), ih]

theorem head?_toDigits_ne {n : ℕ} (hn : 0 < n) : (Nat.toDigits 10 n).head? ≠ some '0' := by
  induction n using Nat.strongRecOn with
  | ind n ih =>
    by_cases hlt : n < 10
    · rw [Nat.toDigits_of_lt_base hlt]
      interval_cases n <;> decide
    · rw [Nat.toDigits_of_base_le (by omega) (by omega), List.head?_append_of_ne_nil _ Nat.toDigits_ne_nil]
      exact ih (n / 10) (by omega) (by omega)

theorem digitsValue_digitsText (n : ℕ) :
    (digitsText n).all isDigit = true ∧ digitsText n ≠ [] ∧
      digitsValue 10 (digitsText n) = n := by
  have hread := readDigits_digitsText n
  unfold readDigits at hread
  split at hread
  · next h =>
    obtain ⟨hne, hall⟩ := h
    refine ⟨hall, hne, ?_⟩
    have hfold : ∀ (us : JsString) (start : ℕ), us.all isDigit = true →
        us.foldl (fun n u => 10 * n + digitValue u) start
          = us.foldl (fun n u => 10 * n + (u.val - 48)) start := by
      intro us
      induction us with
      | nil => intro start _; rfl
      | cons u us ih =>
        intro start hus
        obtain ⟨hu, hus⟩ := Bool.and_eq_true_iff.1 hus
        rw [List.foldl_cons, List.foldl_cons, ih _ hus]
        unfold digitValue
        rw [if_pos hu]
    unfold digitsValue
    rw [hfold _ _ hall]
    exact_mod_cast Option.some.inj hread
  · cases hread

theorem head?_digitsText {n : ℕ} (hn : 0 < n) : (digitsText n).head? ≠ some (unit '0') := by
  intro h
  unfold digitsText at h
  rw [List.head?_map] at h
  obtain ⟨c, hc, hunit⟩ := Option.map_eq_some_iff.1 h
  have hdigit := Nat.isDigit_of_mem_toDigits (by decide) (by decide) (List.mem_of_mem_head? hc)
  have hval := congrArg Fin.val hunit
  rw [(val_unit_of_isDigit hdigit).1] at hval
  have hzero : c = '0' := by
    apply Char.toNat_inj.1
    exact hval
  exact head?_toDigits_ne hn (hzero ▸ hc)

end SignetApp.Sync
