import SignetApp.Follows.Unfollow

/-!
# Lamport clocks as numbers

`nextClock` adds one to the highest clock seen, in double precision. Up to 2^53 the sum is exact; from there on it
is rounded, and above 2^54 it is the clock that was seen. A guard that takes any integer for a clock lets such clocks
in.
-/

namespace SignetApp.Follows

open SignetApp.Js SignetApp.Contacts

/-! ## Rounding -/

/-- The largest number. -/
def maxDouble : ℕ := 2 ^ 1024 - 2 ^ 971

/-- An integer that is a number of its own. -/
def IsNumber (n : ℕ) : Prop := toDouble n = n ∧ n ≤ maxDouble

variable {n : ℕ}

theorem log2_eq {k : ℕ} (hlo : 2 ^ k ≤ n) (hhi : n < 2 ^ (k + 1)) : Nat.log2 n = k := by
  have hn : n ≠ 0 := by
    have hpos : 0 < 2 ^ k := Nat.two_pow_pos k
    omega
  exact (Nat.log2_eq_iff hn).2 ⟨hlo, hhi⟩

variable {x : ℕ}

theorem toDouble_even (hlo : 2 ^ 53 ≤ x) (hhi : x < 2 ^ 54) (heven : x % 2 = 0) :
    toDouble x = x := by
  unfold toDouble
  rw [log2_eq hlo hhi]
  simp [heven]
  omega

theorem toDouble_succ_even (hlo : 2 ^ 53 ≤ x) (hhi : x < 2 ^ 54) (heven : x % 2 = 0) :
    toDouble (x + 1) = if x % 4 = 2 then x + 2 else x := by
  have hlog : Nat.log2 (x + 1) = 53 := log2_eq (by omega) (by omega)
  unfold toDouble
  rw [hlog]
  have hrest : (x + 1) % 2 ^ (53 - 52) = 1 := by omega
  have hbelow : (x + 1) / 2 ^ (53 - 52) = x / 2 := by omega
  dsimp only
  rw [hrest, hbelow]
  split <;> split <;> omega

theorem even_of_toDouble (hlo : 2 ^ 53 ≤ x) (hhi : x < 2 ^ 54) (h : toDouble x = x) :
    x % 2 = 0 := by
  unfold toDouble at h
  rw [log2_eq hlo hhi] at h
  dsimp only at h
  split at h <;> omega

/-- From 2^54 on one is lost. -/
theorem toDouble_succ_large (hlo : 2 ^ 54 ≤ x) (h : toDouble x = x) : toDouble (x + 1) = x := by
  have hlog : 54 ≤ Nat.log2 x := (Nat.le_log2 (by omega)).2 hlo
  obtain ⟨k, hk⟩ : ∃ k, Nat.log2 x = k + 54 := ⟨Nat.log2 x - 54, by omega⟩
  have hunit : 2 ^ (k + 54 - 52) = 4 * 2 ^ k := by
    rw [show k + 54 - 52 = k + 2 by omega, pow_add, mul_comm]
    rfl
  have hpos : 0 < 2 ^ k := Nat.two_pow_pos k
  have hdvd : 4 * 2 ^ k ∣ x := by
    unfold toDouble at h
    rw [hk, hunit] at h
    dsimp only at h
    rw [← h]
    split <;> exact Dvd.intro_left _ rfl
  have hupper : x < 2 ^ (k + 54 + 1) := hk ▸ Nat.lt_log2_self
  have hlower : 2 ^ (k + 54) ≤ x := hk ▸ Nat.log2_self_le (by omega)
  -- The next power of two is a multiple of the unit as well, so there is room for one more.
  have hroom : x + 1 < 2 ^ (k + 54 + 1) := by
    have hpow : 2 ^ (k + 54 + 1) = 4 * 2 ^ k * 2 ^ 53 := by
      rw [show k + 54 + 1 = k + 2 + 53 by omega, pow_add, pow_add]
      ring
    obtain ⟨a, ha⟩ := hdvd
    obtain ⟨b, hb⟩ := Dvd.intro _ hpow.symm
    rw [ha, hb] at hupper
    have hab : a < b := Nat.lt_of_mul_lt_mul_left hupper
    have hmul : 4 * 2 ^ k * (a + 1) ≤ 4 * 2 ^ k * b := Nat.mul_le_mul_left _ hab
    rw [Nat.mul_add, Nat.mul_one, ← ha, ← hb] at hmul
    omega
  obtain ⟨a, ha⟩ := hdvd
  have hbelow : (x + 1) / (4 * 2 ^ k) = a := by
    rw [ha, Nat.mul_add_div (by omega), Nat.div_eq_of_lt (by omega), add_zero]
  have hrest : (x + 1) % (4 * 2 ^ k) = 1 := by
    rw [ha, Nat.mul_add_mod, Nat.mod_eq_of_lt (by omega)]
  unfold toDouble
  rw [log2_eq (by omega) hroom, hunit]
  dsimp only
  rw [hrest, hbelow, if_neg (by omega), ha, Nat.mul_comm]

theorem toDouble_of_le (h : n ≤ 2 ^ 53) : toDouble n = n := by
  rcases Nat.lt_or_eq_of_le h with hlt | rfl
  · exact toDouble_of_lt hlt
  · exact toDouble_even le_rfl (by decide) (by decide)

/-! ## One more than a number -/

/-- Does adding one change a number? -/
def CountsOn (n : ℕ) : Prop := n < 2 ^ 53 ∨ n < 2 ^ 54 ∧ n % 4 = 2

theorem addOne_cases (h : toDouble n = n) :
    (n < 2 ^ 53 ∧ addOne n = n + 1) ∨
      (2 ^ 53 ≤ n ∧ n < 2 ^ 54 ∧ n % 4 = 2 ∧ addOne n = n + 2) ∨ (¬CountsOn n ∧ addOne n = n) := by
  unfold CountsOn
  rcases Nat.lt_or_ge n (2 ^ 53) with hsmall | hlo
  · exact .inl ⟨hsmall, addOne_eq hsmall⟩
  · rcases Nat.lt_or_ge n (2 ^ 54) with hhi | hlarge
    · have heven := even_of_toDouble hlo hhi h
      have hone := toDouble_succ_even hlo hhi heven
      by_cases hmod : n % 4 = 2
      · rw [if_pos hmod] at hone
        exact .inr (.inl ⟨hlo, hhi, hmod, hone⟩)
      · rw [if_neg hmod] at hone
        exact .inr (.inr ⟨by omega, hone⟩)
    · exact .inr (.inr ⟨by omega, toDouble_succ_large hlarge h⟩)

theorem le_addOne (h : toDouble n = n) : n ≤ addOne n := by
  rcases addOne_cases h with ⟨-, h⟩ | ⟨-, -, -, h⟩ | ⟨-, h⟩ <;> omega

theorem lt_addOne_iff (h : toDouble n = n) : n < addOne n ↔ CountsOn n := by
  rcases addOne_cases h with ⟨hn, h⟩ | ⟨-, hhi, hmod, h⟩ | ⟨hn, h⟩
  · exact ⟨fun _ => .inl hn, fun _ => by omega⟩
  · exact ⟨fun _ => .inr ⟨hhi, hmod⟩, fun _ => by omega⟩
  · exact ⟨fun hlt => by omega, fun hc => absurd hc hn⟩

theorem isNumber_addOne (h : IsNumber n) : IsNumber (addOne n) := by
  obtain ⟨hn, hmax⟩ := h
  have hbig : 2 ^ 54 ≤ maxDouble := by decide +kernel
  rcases addOne_cases hn with ⟨hlt, h⟩ | ⟨hlo, hhi, hmod, h⟩ | ⟨-, h⟩
  · rw [h]
    exact ⟨toDouble_of_le (by omega), by omega⟩
  · rw [h]
    refine ⟨?_, by omega⟩
    rcases Nat.lt_or_ge (n + 2) (2 ^ 54) with hlt | hge
    · exact toDouble_even (by omega) hlt (by omega)
    · have heq : n + 2 = 2 ^ 54 := by omega
      rw [heq]
      decide
  · rw [h]
    exact ⟨hn, hmax⟩

theorem addOne_addOne (h : IsNumber n) (hlarge : 2 ^ 53 ≤ addOne n) :
    addOne (addOne n) = addOne n := by
  rcases addOne_cases (isNumber_addOne h).1 with ⟨hlt, -⟩ | ⟨-, hhi, hmod, -⟩ | ⟨-, heq⟩
  · omega
  · rcases addOne_cases h.1 with ⟨hn, hone⟩ | ⟨-, -, hn, hone⟩ | ⟨hn, hone⟩
    · omega
    · omega
    · unfold CountsOn at hn
      omega
  · exact heq

/-! ## The stamp of an edit -/

/-- The clock of the next edit: `nextClock(local, frontierOf(log).maxClock)`. -/
def stamp (own : JsValue) (log : List ContactOperation) : ℕ :=
  toDouble (nextClock own (.ofNat (frontierOf (log.map ContactOperation.toJs)).maxClock))

theorem safeClock_ofNat (n : ℕ) : safeClock (.ofNat n) = n := by
  show (if (n : ℚ) ≤ 0 then 0 else ⌊(n : ℚ)⌋.toNat) = n
  split
  · next h =>
    have hzero : n = 0 := by exact_mod_cast le_antisymm h (by positivity)
    rw [hzero]
  · rw [Int.floor_natCast, Int.toNat_natCast]

theorem maxClock_frontierOf (log : List ContactOperation) :
    (frontierOf (log.map ContactOperation.toJs)).maxClock = maxClock log := by
  have hfold : ∀ (ops : List ContactOperation) (frontier : OpFrontier),
      ((ops.map ContactOperation.toJs).foldl (fun frontier (op : RawOperation) =>
        { maxClock := max frontier.maxClock (safeClock ((JsValue.obj op).get "logicalClock"))
          opIds := insertNew frontier.opIds op.operationId }) frontier).maxClock
        = (ops.map fun op => op.logicalClock.val).foldl max frontier.maxClock := by
    intro ops
    induction ops with
    | nil => intro frontier; rfl
    | cons op ops ih =>
      intro frontier
      rw [List.map_cons, List.foldl_cons, ih, List.map_cons, List.foldl_cons]
      have hclock : safeClock ((JsValue.obj op.toJs).get "logicalClock") = op.logicalClock.val :=
        safeClock_ofNat op.logicalClock.val
      dsimp only
      rw [hclock]
  exact hfold log ⟨0, []⟩

theorem stamp_eq (own : JsValue) (log : List ContactOperation) :
    stamp own log = addOne (max (safeClock own) (maxClock log)) := by
  unfold stamp nextClock addOne
  rw [maxClock_frontierOf, safeClock_ofNat]

theorem foldl_max_spec (clocks : List ℕ) (start : ℕ) :
    (∀ c ∈ start :: clocks, c ≤ clocks.foldl max start) ∧
      clocks.foldl max start ∈ start :: clocks := by
  induction clocks generalizing start with
  | nil => simp
  | cons c clocks ih =>
    obtain ⟨hle, hmem⟩ := ih (max start c)
    rw [List.foldl_cons]
    constructor
    · intro d hd
      have hmax := hle (max start c) List.mem_cons_self
      rcases List.mem_cons.1 hd with rfl | hd
      · omega
      · rcases List.mem_cons.1 hd with rfl | hd
        · omega
        · exact hle d (List.mem_cons_of_mem _ hd)
    · rcases List.mem_cons.1 hmem with h | h
      · rw [h]
        rcases max_choice start c with h | h <;> simp [h]
      · exact List.mem_cons_of_mem _ (List.mem_cons_of_mem _ h)

variable {log : List ContactOperation}

theorem le_maxClock {op : ContactOperation} (h : op ∈ log) : op.logicalClock.val ≤ maxClock log :=
  (foldl_max_spec _ 0).1 _ (List.mem_cons_of_mem _ (List.mem_map_of_mem h))

theorem exists_maxClock (log : List ContactOperation) :
    maxClock log = 0 ∨ ∃ op ∈ log, op.logicalClock.val = maxClock log := by
  rcases List.mem_cons.1 (foldl_max_spec (log.map fun op => op.logicalClock.val) 0).2 with h | h
  · exact .inl h
  · exact .inr (List.mem_map.1 h)

theorem isNumber_maxClock
    (h : ∀ op ∈ log, IsNumber op.logicalClock.val) : IsNumber (maxClock log) := by
  rcases exists_maxClock log with hzero | ⟨op, hop, hclock⟩
  · rw [hzero]
    exact ⟨by decide, Nat.zero_le _⟩
  · rw [← hclock]
    exact h op hop

/-! ## Sorting -/

/-- Operations with this clock sort strictly after the whole log. -/
def SortsAfter (clock : ℕ) (log : List ContactOperation) : Prop :=
  ∀ op : ContactOperation, op.logicalClock.val = clock → ∀ a ∈ log, ¬operationLE op a

/-- Batches of `n` operations of one actor under `clock`, `clock + 1`, … stay in the order they
were made in. -/
def KeepsOrder (clock n : ℕ) : Prop :=
  ∀ batch : List ContactOperation,
    (batch.map fun op => op.logicalClock.val) = (List.range n).map (fun i => toDouble (clock + i)) →
    (∀ a ∈ batch, ∀ b ∈ batch, a.actorPubkey = b.actorPubkey) → sortOperations batch = batch

theorem operationLE_of_clock {a b : ContactOperation} (h : a.logicalClock.val < b.logicalClock.val) :
    operationLE a b := by
  have hclock : a.logicalClock < b.logicalClock := h
  exact (Prod.Lex.toLex_le_toLex).2 (.inl hclock)

theorem clock_le_of_operationLE {a b : ContactOperation} (h : operationLE a b) :
    a.logicalClock.val ≤ b.logicalClock.val := by
  rcases (Prod.Lex.toLex_le_toLex).1 h with hlt | ⟨heq, -⟩
  · exact le_of_lt hlt
  · exact le_of_eq (congrArg Subtype.val heq)

variable {clock : ℕ}

theorem sortsAfter_iff (hclock : 1 ≤ clock) :
    SortsAfter clock log ↔ ∀ a ∈ log, a.logicalClock.val < clock := by
  constructor
  · intro h a ha
    by_contra hle
    -- An operation like `a` itself, under the clock.
    refine h { a with logicalClock := ⟨clock, hclock⟩ } rfl a ha ?_
    rcases Nat.lt_or_eq_of_le (not_lt.1 hle) with hlt | heq
    · exact operationLE_of_clock hlt
    · have hsame : (⟨clock, hclock⟩ : LamportClock) = a.logicalClock := Subtype.ext heq
      rw [hsame]
      exact le_refl (sortKey a)
  · intro h op hop a ha hle
    have hlt := h a ha
    have hge := clock_le_of_operationLE hle
    omega

/-- An operation under a clock and an id. -/
def stamped (clock : LamportClock) (operationId : Hex32) : ContactOperation where
  operationId := operationId
  directoryId := .dependant (Hex.repeated 64 0)
  contactId := Hex.repeated 32 0
  actorPubkey := Hex.repeated 64 0
  actorRole := .owner
  actorDeviceId := Hex.repeated 32 0
  logicalClock := clock
  action := .archive
  createdAt := ⟨0, by decide⟩

theorem keepsOrder_of_exact (h : clock + n ≤ 2 ^ 53 + 1) : KeepsOrder clock n := by
  intro batch hclocks _
  have hexact : (List.range n).map (fun i => toDouble (clock + i))
      = (List.range n).map fun i => clock + i := by
    apply List.map_congr_left
    intro i hi
    have hi := List.mem_range.1 hi
    exact toDouble_of_le (by omega)
  have hincreasing : (batch.map fun op => op.logicalClock.val).Pairwise (· < ·) := by
    rw [hclocks, hexact, List.pairwise_map]
    exact List.pairwise_lt_range.imp fun h => by omega
  apply List.Pairwise.insertionSort_eq
  exact (List.pairwise_map.1 hincreasing).imp operationLE_of_clock

/-- Two operations of a batch with one clock change places if the ids say so. -/
theorem not_keepsOrder {i : ℕ} (hclock : 1 ≤ clock) (hi : i + 1 < n)
    (hsame : toDouble (clock + i) = toDouble (clock + (i + 1))) : ¬KeepsOrder clock n := by
  intro h
  let id (j : ℕ) : Hex32 := if j = i + 1 then Hex.repeated 32 0 else Hex.repeated 32 1
  let op (j : ℕ) : ContactOperation := stamped ⟨toDouble (clock + j), one_le_later hclock j⟩ (id j)
  have hsorted : sortOperations ((List.range n).map op) = (List.range n).map op := by
    apply h
    · rw [List.map_map]
      rfl
    · simp only [List.mem_map, forall_exists_index, and_imp]
      rintro _ j - rfl _ k - rfl
      rfl
  have hpairs := pairwise_sortOperations ((List.range n).map op)
  rw [hsorted, List.pairwise_map] at hpairs
  have hle : operationLE (op i) (op (i + 1)) := by
    have hget := (List.pairwise_iff_getElem.1 hpairs) i (i + 1) (by simp; omega) (by simpa using hi)
      (Nat.lt_succ_self i)
    simpa using hget
  have hback : operationLE (op (i + 1)) (op i) := by
    have hclocks : (op (i + 1)).logicalClock = (op i).logicalClock := Subtype.ext hsame.symm
    refine Prod.Lex.toLex_le_toLex.2 (.inr ⟨hclocks, Prod.Lex.toLex_le_toLex.2 (.inr ⟨rfl, ?_⟩)⟩)
    have hfirst : id (i + 1) = Hex.repeated 32 0 := if_pos rfl
    have hsecond : id i = Hex.repeated 32 1 := if_neg (by omega)
    show id (i + 1) ≤ id i
    rw [hfirst, hsecond]
    decide
  have hids := operationLE_antisymm hle hback
  have hfirst : id (i + 1) = Hex.repeated 32 0 := if_pos rfl
  have hsecond : id i = Hex.repeated 32 1 := if_neg (by omega)
  have heq : id i = id (i + 1) := hids
  rw [hfirst, hsecond] at heq
  exact absurd heq (by decide)

/-- A batch after a number keeps its order while its clocks are exact. -/
theorem keepsOrder_iff {seen : ℕ} (hseen : IsNumber seen) :
    KeepsOrder (addOne seen) n ↔ n ≤ 1 ∨ seen + n ≤ 2 ^ 53 := by
  constructor
  · intro h
    by_contra hcond
    rw [not_or, not_le, not_le] at hcond
    have hone : 1 ≤ addOne seen := one_le_toDouble (Nat.le_add_left 1 seen)
    rcases Nat.lt_or_ge (addOne seen) (2 ^ 53) with hsmall | hlarge
    · have hlt : seen < 2 ^ 53 := lt_of_le_of_lt (le_addOne hseen.1) hsmall
      have hexact := addOne_eq hlt
      have hi : addOne seen + (2 ^ 53 - addOne seen) = 2 ^ 53 := by omega
      refine not_keepsOrder hone (i := 2 ^ 53 - addOne seen) (by omega) ?_ h
      rw [← Nat.add_assoc, hi]
      decide
    · refine not_keepsOrder hone (i := 0) (by omega) ?_ h
      exact (isNumber_addOne hseen).1.trans (addOne_addOne hseen hlarge).symm
  · rintro (hshort | hexact)
    · intro batch hclocks _
      have hlength := congrArg List.length hclocks
      simp only [List.length_map, List.length_range] at hlength
      cases batch with
      | nil => rfl
      | cons op rest =>
        have hrest : rest = [] := by
          apply List.length_eq_zero_iff.1
          rw [List.length_cons] at hlength
          omega
        rw [hrest]
        rfl
    · rcases Nat.eq_zero_or_pos n with rfl | hpos
      · intro batch hclocks _
        have hnil : batch = [] := by simpa using hclocks
        rw [hnil]
        rfl
      · apply keepsOrder_of_exact
        rw [addOne_eq (by omega)]
        omega

/-- The stamp of an edit passes the guard of operations. It sorts after the log, and a batch from it on keeps its
order, exactly as far as the clocks seen leave room for exact sums. -/
theorem stamp_moves_on_iff (own : JsValue) (log : List ContactOperation) (n : ℕ)
    (hown : IsNumber (safeClock own)) (hlog : ∀ op ∈ log, IsNumber op.logicalClock.val) :
    (IsNumber (stamp own log) ∧ (isLamportClock (.ofNat (stamp own log))).isSome ∧
        SortsAfter (stamp own log) log ∧ KeepsOrder (stamp own log) n) ↔
      (maxClock log < safeClock own ∨ CountsOn (maxClock log)) ∧
        (n ≤ 1 ∨ max (safeClock own) (maxClock log) + n ≤ 2 ^ 53) := by
  have hseen : IsNumber (max (safeClock own) (maxClock log)) := by
    rcases max_choice (safeClock own) (maxClock log) with h | h <;> rw [h]
    · exact hown
    · exact isNumber_maxClock hlog
  have hone : 1 ≤ stamp own log := one_le_nextClock own _
  have hpasses : (isLamportClock (.ofNat (stamp own log))).isSome = true := by
    unfold isLamportClock
    rw [isNonNegativeInt_ofNat]
    exact (congrArg Option.isSome (dif_pos hone)).trans rfl
  have hafter : SortsAfter (stamp own log) log ↔
      maxClock log < safeClock own ∨ CountsOn (maxClock log) := by
    rw [sortsAfter_iff hone, stamp_eq]
    rcases Nat.lt_or_ge (maxClock log) (safeClock own) with hlt | hge
    · have hle := le_addOne hseen.1
      refine iff_of_true (fun a ha => ?_) (.inl hlt)
      have hclock := le_maxClock ha
      omega
    · rw [max_eq_right hge] at hseen ⊢
      rw [or_iff_right (not_lt.2 hge), ← lt_addOne_iff hseen.1]
      constructor
      · intro h
        rcases exists_maxClock log with hzero | ⟨op, hop, hclock⟩
        · rw [hzero]
          decide
        · rw [← hclock]
          rw [← hclock] at h
          exact h op hop
      · intro h a ha
        exact lt_of_le_of_lt (le_maxClock ha) h
  rw [stamp_eq] at *
  constructor
  · rintro ⟨-, -, h, hn⟩
    exact ⟨hafter.1 h, (keepsOrder_iff hseen).1 hn⟩
  · rintro ⟨h, hn⟩
    exact ⟨isNumber_addOne hseen, hpasses, hafter.2 h, (keepsOrder_iff hseen).2 hn⟩

theorem stamp_moves_on_iff_sample :
    (IsNumber (stamp (.ofNat 3) [stamped ⟨7, by decide⟩ (Hex.repeated 32 0)]) ∧
        (isLamportClock
          (.ofNat (stamp (.ofNat 3) [stamped ⟨7, by decide⟩ (Hex.repeated 32 0)]))).isSome ∧
        SortsAfter (stamp (.ofNat 3) [stamped ⟨7, by decide⟩ (Hex.repeated 32 0)])
          [stamped ⟨7, by decide⟩ (Hex.repeated 32 0)] ∧
        KeepsOrder (stamp (.ofNat 3) [stamped ⟨7, by decide⟩ (Hex.repeated 32 0)]) 4) ↔
      (maxClock [stamped ⟨7, by decide⟩ (Hex.repeated 32 0)] < safeClock (.ofNat 3) ∨
          CountsOn (maxClock [stamped ⟨7, by decide⟩ (Hex.repeated 32 0)])) ∧
        (4 ≤ 1 ∨ max (safeClock (.ofNat 3))
          (maxClock [stamped ⟨7, by decide⟩ (Hex.repeated 32 0)]) + 4 ≤ 2 ^ 53) := by
  apply stamp_moves_on_iff
  · rw [safeClock_ofNat]
    exact ⟨toDouble_of_le (by omega), by decide +kernel⟩
  · intro op hop
    rw [List.mem_singleton.1 hop]
    exact ⟨toDouble_of_le (by decide), by decide +kernel⟩

/-- After an operation under the clock 2^53 the next edit gets that clock again: it does not sort
after the operation, and two edits in one batch get it both. -/
theorem frozen_at_two_pow_53 :
    let log := [stamped ⟨2 ^ 53, by decide⟩ (Hex.repeated 32 0)]
    (∀ op ∈ log, IsNumber op.logicalClock.val) ∧ stamp (.ofNat 0) log = 2 ^ 53 ∧
      ¬SortsAfter (stamp (.ofNat 0) log) log ∧ ¬KeepsOrder (stamp (.ofNat 0) log) 2 := by
  intro log
  have hlog : ∀ op ∈ log, IsNumber op.logicalClock.val := by
    intro op hop
    rw [List.mem_singleton.1 hop]
    exact ⟨toDouble_of_le le_rfl, by decide +kernel⟩
  have hstamp : stamp (.ofNat 0) log = 2 ^ 53 := by
    rw [stamp_eq, safeClock_ofNat]
    decide +kernel
  refine ⟨hlog, hstamp, ?_, ?_⟩
  · rw [hstamp, sortsAfter_iff (by decide)]
    intro h
    exact absurd (h _ (List.mem_singleton.2 rfl)) (lt_irrefl (2 ^ 53))
  · rw [hstamp]
    refine not_keepsOrder (i := 0) (by decide) (by decide) ?_
    decide +kernel

end SignetApp.Follows
