import Mathlib.Algebra.GroupWithZero.Nat
import Mathlib.Data.List.Forall2
import Mathlib.Algebra.Order.BigOperators.Group.List

/-!
# Filling one bin after another

Items are put into bins in order, a bin being closed when the next item does not fit. A bin's own head may depend
on how many were closed before it. Fewer and smaller items never need more bins, wherever they are left out.
-/

namespace SignetApp

/-- What a bin takes for itself, how much it holds, and how many items. -/
structure NextFit where
  head : ℕ → ℕ
  capacity : ℕ
  room : ℕ

/-- The bins that are closed, what they take together, and the bin that is being filled. -/
structure Bins where
  filled : ℕ
  closed : ℕ
  count : ℕ
  sum : ℕ

namespace NextFit

variable (f : NextFit)

/-- One bin, empty. -/
def start : Bins := ⟨0, 0, 0, 0⟩

/-- What a bin takes with its items and what stands between them. -/
def level (b : Bins) : ℕ := f.head b.filled + b.sum + (b.count - 1)

/-- One item more; `none` if no bin holds it. -/
def put (b : Bins) (item : ℕ) : Option Bins :=
  if b.count + 1 ≤ f.room ∧ f.head b.filled + b.sum + item + b.count ≤ f.capacity then
    some { b with count := b.count + 1, sum := b.sum + item }
  else if b.count = 0 then none
  else if f.capacity < f.head (b.filled + 1) + item then none
  else some ⟨b.filled + 1, b.closed + f.level b, 1, item⟩

/-- All bins together. -/
def total (b : Bins) : ℕ := b.closed + f.level b

/-! ## Further on -/

/-- `b` is no further than `c`. -/
def Within (b c : Bins) : Prop :=
  b.filled < c.filled ∨ b.filled = c.filled ∧ b.count ≤ c.count ∧ b.sum ≤ c.sum

theorem Within.refl (b : Bins) : Within b b := .inr ⟨rfl, le_rfl, le_rfl⟩

theorem Within.trans {a b c : Bins} (h : Within a b) (h' : Within b c) : Within a c := by
  rcases h with h | ⟨h, hcount, hsum⟩
  · rcases h' with h' | ⟨h', -, -⟩
    · exact .inl (h.trans h')
    · exact .inl (h' ▸ h)
  · rcases h' with h' | ⟨h', hcount', hsum'⟩
    · exact .inl (h ▸ h')
    · exact .inr ⟨h.trans h', hcount.trans hcount', hsum.trans hsum'⟩

theorem Within.filled_le {b c : Bins} (h : Within b c) : b.filled ≤ c.filled := by
  rcases h with h | ⟨h, -, -⟩
  · exact h.le
  · exact h.le

/-- An empty bin holds nothing. -/
def Sound (b : Bins) : Prop := b.count = 0 → b.sum = 0

variable {f} {b b' c c' : Bins} {item item' : ℕ}

theorem sound_start : Sound start := fun _ => rfl

theorem put_cases (h : f.put b item = some c) :
    (b.count + 1 ≤ f.room ∧ f.head b.filled + b.sum + item + b.count ≤ f.capacity ∧
      c = { b with count := b.count + 1, sum := b.sum + item }) ∨
    (b.count ≠ 0 ∧ f.head (b.filled + 1) + item ≤ f.capacity ∧
      ¬ (b.count + 1 ≤ f.room ∧ f.head b.filled + b.sum + item + b.count ≤ f.capacity) ∧
      c = ⟨b.filled + 1, b.closed + f.level b, 1, item⟩) := by
  unfold put at h
  split at h
  · rename_i hfits
    cases h
    exact .inl ⟨hfits.1, hfits.2, rfl⟩
  · rename_i hfull
    split at h
    · cases h
    · rename_i hcount
      split at h
      · cases h
      · rename_i hheld
        cases h
        exact .inr ⟨hcount, not_lt.mp hheld, hfull, rfl⟩

theorem count_pos_of_put (h : f.put b item = some c) : 0 < c.count := by
  obtain ⟨-, -, rfl⟩ | ⟨-, -, -, rfl⟩ := put_cases h
  · exact Nat.succ_pos _
  · exact Nat.one_pos

theorem Sound.put (h : f.put b item = some c) : Sound c := fun hzero =>
  absurd hzero (count_pos_of_put h).ne'

theorem within_of_put (h : f.put b item = some c) : Within b c := by
  obtain ⟨-, -, rfl⟩ | ⟨-, -, -, rfl⟩ := put_cases h
  · exact .inr ⟨rfl, Nat.le_succ _, Nat.le_add_right _ _⟩
  · exact .inl (Nat.lt_succ_self _)

/-- **A smaller item goes where bins are less full, if a larger one goes where they are fuller.** -/
theorem put_mono (hroom : 0 < f.room) (hwithin : Within b b') (hsound : Sound b) (hitem : item ≤ item')
    (h : f.put b' item' = some c') (hhead : ∀ i j, i ≤ j → j ≤ c'.filled → f.head i ≤ f.head j) :
    ∃ c, f.put b item = some c ∧ Within c c' := by
  have hnext : ∀ n, n ≤ c'.filled → f.head n + item ≤ f.capacity → b.filled + 1 ≤ n →
      ¬ f.capacity < f.head (b.filled + 1) + item := by
    intro n hn hheld hle
    have := hhead (b.filled + 1) n hle hn
    omega
  unfold put
  obtain ⟨hcount', hheld', rfl⟩ | ⟨hsome', hheld', hfull', rfl⟩ := put_cases h
  · rcases hwithin with hlt | ⟨heq, hcount, hsum⟩
    · -- the larger one went into a later bin
      have hheld := hnext b'.filled le_rfl (by omega) hlt
      split
      · exact ⟨_, rfl, .inl hlt⟩
      · rename_i hfull
        split
        · rename_i hzero
          have := hhead b.filled b'.filled hlt.le le_rfl
          have := hsound hzero
          exact absurd ⟨by omega, by omega⟩ hfull
        · refine ⟨_, rfl, ?_⟩
          rcases Nat.lt_or_eq_of_le (Nat.succ_le_of_lt hlt) with hlt' | heq'
          · exact .inl hlt'
          · exact .inr ⟨heq', Nat.le_add_left 1 _, hitem.trans (Nat.le_add_left _ _)⟩
    · rw [if_pos (by rw [heq]; omega)]
      exact ⟨_, rfl, .inr ⟨heq, Nat.succ_le_succ hcount, Nat.add_le_add hsum hitem⟩⟩
  · have hle := hwithin.filled_le
    have hheld := hnext (b'.filled + 1) le_rfl (by omega) (Nat.succ_le_succ hle)
    split
    · exact ⟨_, rfl, .inl (Nat.lt_succ_of_le hle)⟩
    · rename_i hfull
      split
      · rename_i hzero
        have := hhead b.filled (b'.filled + 1) (by omega) le_rfl
        have := hsound hzero
        exact absurd ⟨by omega, by omega⟩ hfull
      · refine ⟨_, rfl, ?_⟩
        rcases Nat.lt_or_eq_of_le hle with hlt | heq
        · exact .inl (Nat.succ_lt_succ hlt)
        · exact .inr ⟨congrArg (· + 1) heq, le_rfl, hitem⟩

/-! ## Many items -/

/-- Items one after another. -/
def putAll (f : NextFit) (b : Bins) (items : List ℕ) : Option Bins := items.foldlM f.put b

@[simp] theorem putAll_nil : f.putAll b [] = some b := rfl

variable {items : List ℕ}

@[simp] theorem putAll_cons :
    f.putAll b (item :: items) = (f.put b item).bind fun c => f.putAll c items := rfl

variable {items' : List ℕ}

theorem putAll_append :
    f.putAll b (items ++ items') = (f.putAll b items).bind fun c => f.putAll c items' := by
  unfold putAll
  rw [List.foldlM_append]
  rfl

theorem within_of_putAll (h : f.putAll b items = some c) : Within b c := by
  induction items generalizing b with
  | nil =>
    cases h
    exact .refl _
  | cons item items ih =>
    obtain ⟨d, hd, hc⟩ := Option.bind_eq_some_iff.1 h
    exact (within_of_put hd).trans (ih hc)

theorem sound_of_putAll (hsound : Sound b) (h : f.putAll b items = some c) : Sound c := by
  induction items generalizing b with
  | nil =>
    cases h
    exact hsound
  | cons item items ih =>
    obtain ⟨d, hd, hc⟩ := Option.bind_eq_some_iff.1 h
    exact ih (Sound.put hd) hc

theorem putAll_mono (hroom : 0 < f.room) (hitems : List.Forall₂ (· ≤ ·) items items')
    (hwithin : Within b b') (hsound : Sound b) (h : f.putAll b' items' = some c')
    (hhead : ∀ i j, i ≤ j → j ≤ c'.filled → f.head i ≤ f.head j) :
    ∃ c, f.putAll b items = some c ∧ Within c c' := by
  induction hitems generalizing b b' with
  | nil =>
    cases h
    exact ⟨b, rfl, hwithin⟩
  | cons hitem _ ih =>
    obtain ⟨d', hd', hc'⟩ := Option.bind_eq_some_iff.1 h
    have hle := (within_of_putAll hc').filled_le
    obtain ⟨d, hd, hwithin'⟩ := put_mono hroom hwithin hsound hitem hd' fun i j hij hj => hhead i j hij (hj.trans hle)
    obtain ⟨c, hc, hcc'⟩ := ih hwithin' (Sound.put hd) hc'
    exact ⟨c, by rw [putAll_cons, hd]; exact hc, hcc'⟩

theorem putAll_of_left_out (hroom : 0 < f.room) {first out rest rest' : List ℕ}
    (hitems : List.Forall₂ (· ≤ ·) rest rest') (h : f.putAll start (first ++ (out ++ rest')) = some c')
    (hhead : ∀ i j, i ≤ j → j ≤ c'.filled → f.head i ≤ f.head j) :
    ∃ c, f.putAll start (first ++ rest) = some c ∧ Within c c' := by
  rw [putAll_append] at h
  obtain ⟨b, hb, h⟩ := Option.bind_eq_some_iff.1 h
  rw [putAll_append] at h
  obtain ⟨b', hb', h⟩ := Option.bind_eq_some_iff.1 h
  obtain ⟨c, hc, hwithin⟩ := putAll_mono hroom hitems (within_of_putAll hb') (sound_of_putAll sound_start hb) h hhead
  exact ⟨c, by rw [putAll_append, hb]; exact hc, hwithin⟩

/-! ## All together -/

/-- What the bins take together: their heads, the items, and what stands between items of a bin. -/
theorem total_eq (h : f.putAll start items = some c) (hne : items ≠ []) :
    f.total c + (c.filled + 1) = ((List.range (c.filled + 1)).map f.head).sum + items.sum + items.length := by
  have hstep : ∀ {b c : Bins} {item : ℕ} {done : List ℕ}, f.put b item = some c →
      (b.count = 0 → b = start ∧ done = []) →
      (b.count ≠ 0 → f.total b + (b.filled + 1) =
        ((List.range (b.filled + 1)).map f.head).sum + done.sum + done.length) →
      f.total c + (c.filled + 1) =
        ((List.range (c.filled + 1)).map f.head).sum + (done ++ [item]).sum + (done ++ [item]).length := by
    intro b c item done hput hempty hsome
    simp only [List.sum_append, List.length_append, List.sum_cons, List.sum_nil, List.length_cons, List.length_nil]
    obtain ⟨-, -, rfl⟩ | ⟨hcount, -, -, rfl⟩ := put_cases hput
    · by_cases hcount : b.count = 0
      · obtain ⟨rfl, rfl⟩ := hempty hcount
        simp [total, level, start]
      · have hb := hsome hcount
        simp only [total, level] at hb ⊢
        omega
    · have hb := hsome hcount
      rw [List.range_succ, List.map_append, List.sum_append]
      simp only [total, level, List.map_cons, List.map_nil, List.sum_cons, List.sum_nil] at hb ⊢
      omega
  -- by what was put before
  have hrun : ∀ {items done : List ℕ} {b : Bins}, f.putAll b items = some c → items ≠ [] →
      (b.count = 0 → b = start ∧ done = []) →
      (b.count ≠ 0 → f.total b + (b.filled + 1) =
        ((List.range (b.filled + 1)).map f.head).sum + done.sum + done.length) →
      f.total c + (c.filled + 1) =
        ((List.range (c.filled + 1)).map f.head).sum + (done ++ items).sum + (done ++ items).length := by
    intro items
    induction items with
    | nil => exact fun _ hne => absurd rfl hne
    | cons item items ih =>
      intro done b h _ hempty hsome
      obtain ⟨d, hd, hc⟩ := Option.bind_eq_some_iff.1 h
      have hnext := hstep hd hempty hsome
      have hpos := (count_pos_of_put hd).ne'
      cases items with
      | nil =>
        cases hc
        exact hnext
      | cons next items =>
        have hrest := @ih (done ++ [item]) _ hc (List.cons_ne_nil _ _) (fun hzero => absurd hzero hpos)
          fun _ => hnext
        rwa [List.append_assoc] at hrest
  exact @hrun items [] _ h hne (fun _ => ⟨rfl, rfl⟩) fun hcount => absurd rfl hcount

theorem sum_head_le {f : NextFit} {m n : ℕ} (hmn : m ≤ n) (hpos : ∀ i, 1 ≤ f.head i) :
    ((List.range m).map f.head).sum + (n - m) ≤ ((List.range n).map f.head).sum := by
  induction hmn with
  | refl => omega
  | @step n hmn ih =>
    have hone := hpos n
    rw [List.range_succ, List.map_append, List.sum_append]
    simp only [List.map_cons, List.map_nil, List.sum_cons, List.sum_nil]
    have hle : m ≤ n := hmn
    omega

theorem total_le_of_within (hpos : ∀ i, 1 ≤ f.head i) (h : f.putAll start items = some c)
    (h' : f.putAll start items' = some c') (hne : items ≠ []) (hwithin : Within c c') (hsum : items.sum ≤ items'.sum)
    (hlength : items.length ≤ items'.length) : f.total c ≤ f.total c' := by
  have hne' : items' ≠ [] := by
    rintro rfl
    exact hne (List.length_eq_zero_iff.1 (Nat.le_zero.1 hlength))
  have htotal := total_eq h hne
  have htotal' := total_eq h' hne'
  have hheads := sum_head_le (Nat.succ_le_succ hwithin.filled_le) hpos
  have hfilled := hwithin.filled_le
  simp only [Nat.succ_eq_add_one] at hheads
  omega

end NextFit

end SignetApp
