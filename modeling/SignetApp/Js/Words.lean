import SignetApp.Js.Bytes

/-!
# Numbers read from bytes

The bit operators of JavaScript work on 32-bit integers in two's complement: `<<` and `|` give a
signed number, `>>>` an unsigned one. Bytes shifted to their places and joined by `|` make up the
number whose digits to the base 256 they are, as long as the sign bit stays clear.
-/

namespace SignetApp.Js

/-- The number with these digits to the base 256, the first the most significant. -/
def bigEndian (bytes : Bytes) : ℕ := bytes.foldl (fun n b => n * 256 + b.toNat) 0

/-- The number with these digits to the base 256, the last the most significant. -/
def littleEndian (bytes : Bytes) : ℕ := bigEndian bytes.reverse

/-- The last `w` digits of a number to the base 256, the most significant first. -/
def toBigEndian : ℕ → ℕ → Bytes
  | 0, _ => []
  | w + 1, n => toBigEndian w (n / 256) ++ [UInt8.ofNat n]

theorem length_toBigEndian (w n : ℕ) : (toBigEndian w n).length = w := by
  induction w generalizing n with
  | zero => rfl
  | succ w ih => rw [toBigEndian, List.length_append, ih, List.length_singleton]

theorem bigEndian_toBigEndian {w n : ℕ} (h : n < 256 ^ w) : bigEndian (toBigEndian w n) = n := by
  induction w generalizing n with
  | zero =>
    rw [pow_zero, Nat.lt_one_iff] at h
    rw [h]
    rfl
  | succ w ih =>
    have hlast : (UInt8.ofNat n).toNat = n % 256 := UInt8.toNat_ofNat'
    have hinit : bigEndian (toBigEndian w (n / 256)) = n / 256 :=
      ih ((Nat.div_lt_iff_lt_mul (by decide)).2 (by rwa [pow_succ] at h))
    rw [bigEndian] at hinit
    rw [toBigEndian, bigEndian, List.foldl_append, hinit, List.foldl_cons, List.foldl_nil, hlast]
    omega

/-- The last `w` digits of a number to the base 256, the least significant first. -/
def toLittleEndian (w n : ℕ) : Bytes := (toBigEndian w n).reverse

theorem littleEndian_toLittleEndian {w n : ℕ} (h : n < 256 ^ w) :
    littleEndian (toLittleEndian w n) = n := by
  rw [littleEndian, toLittleEndian, List.reverse_reverse, bigEndian_toBigEndian h]

/-- A byte as an operand of a bit operator. -/
def word (b : UInt8) : BitVec 32 := b.toBitVec.setWidth 32

theorem toNat_word (b : UInt8) : (word b).toNat = b.toNat := by
  have h := b.toNat_lt
  rw [word, BitVec.toNat_setWidth, UInt8.toNat_toBitVec, Nat.mod_eq_of_lt]
  omega

theorem toNat_word_shift (b : UInt8) {k : ℕ} (hk : k ≤ 24) :
    (word b <<< k).toNat = b.toNat * 2 ^ k := by
  have hb := b.toNat_lt
  have hpow : 2 ^ k ≤ 2 ^ 24 := Nat.pow_le_pow_right (by decide) hk
  have hlt : b.toNat * 2 ^ k < 2 ^ 32 :=
    calc b.toNat * 2 ^ k ≤ 255 * 2 ^ 24 := Nat.mul_le_mul (by omega) hpow
      _ < 2 ^ 32 := by decide
  rw [BitVec.toNat_shiftLeft, toNat_word, Nat.shiftLeft_eq, Nat.mod_eq_of_lt hlt]

theorem toNat_or_of_dvd {x y : BitVec 32} {k : ℕ} (hx : 2 ^ k ∣ x.toNat) (hy : y.toNat < 2 ^ k) :
    (x ||| y).toNat = x.toNat + y.toNat := by
  obtain ⟨c, hc⟩ := hx
  rw [BitVec.toNat_or, hc, ← Nat.two_pow_add_eq_or_of_lt hy]

theorem toInt_of_lt {x : BitVec 32} (h : x.toNat < 2 ^ 31) : x.toInt = x.toNat :=
  BitVec.toInt_eq_toNat_of_lt (by omega)

theorem toNat_or_shift (b : UInt8) {x : BitVec 32} {k : ℕ} (hk : k ≤ 24) (hx : x.toNat < 2 ^ k) :
    (x ||| word b <<< k).toNat = x.toNat + b.toNat * 2 ^ k := by
  have hb := toNat_word_shift b hk
  rw [BitVec.or_comm, toNat_or_of_dvd (hb ▸ Dvd.intro_left _ rfl) hx, hb, Nat.add_comm]

section
variable (a b c d : UInt8)

/-! ## The most significant byte first -/

theorem toNat_big₂ : (word a <<< 8 ||| word b).toNat = bigEndian [a, b] := by
  have hb := b.toNat_lt
  have ha := toNat_word_shift a (k := 8) (by decide)
  have hsum : (word a <<< 8 ||| word b).toNat = a.toNat * 2 ^ 8 + b.toNat := by
    rw [toNat_or_of_dvd (k := 8) (ha ▸ Dvd.intro_left _ rfl) (by rw [toNat_word]; omega), ha,
      toNat_word]
  rw [hsum]
  simp only [bigEndian, List.foldl_cons, List.foldl_nil]
  omega

theorem toNat_big₃ : (word a <<< 16 ||| word b <<< 8 ||| word c).toNat = bigEndian [a, b, c] := by
  have hb := b.toNat_lt
  have hc := c.toNat_lt
  have ha := toNat_word_shift a (k := 16) (by decide)
  have hb' := toNat_word_shift b (k := 8) (by decide)
  have hab : (word a <<< 16 ||| word b <<< 8).toNat = a.toNat * 2 ^ 16 + b.toNat * 2 ^ 8 := by
    rw [toNat_or_of_dvd (k := 16) (ha ▸ Dvd.intro_left _ rfl) (by omega), ha, hb']
  have hsum : (word a <<< 16 ||| word b <<< 8 ||| word c).toNat
      = a.toNat * 2 ^ 16 + b.toNat * 2 ^ 8 + c.toNat := by
    rw [toNat_or_of_dvd (k := 8) (by omega) (by rw [toNat_word]; omega), hab, toNat_word]
  rw [hsum]
  simp only [bigEndian, List.foldl_cons, List.foldl_nil]
  omega

/-! ## The least significant byte first -/

theorem toNat_little₂ : (word a ||| word b <<< 8).toNat = littleEndian [a, b] := by
  have ha := a.toNat_lt
  rw [toNat_or_shift b (by decide) (by rw [toNat_word]; omega), toNat_word]
  simp only [littleEndian, bigEndian, List.reverse_cons, List.reverse_nil, List.nil_append,
    List.cons_append, List.foldl_cons, List.foldl_nil]
  omega

theorem toNat_little₃ :
    (word a ||| word b <<< 8 ||| word c <<< 16).toNat = littleEndian [a, b, c] := by
  have ha := a.toNat_lt
  have hb := b.toNat_lt
  have hab : (word a ||| word b <<< 8).toNat = a.toNat + b.toNat * 2 ^ 8 := by
    rw [toNat_or_shift b (by decide) (by rw [toNat_word]; omega), toNat_word]
  rw [toNat_or_shift c (by decide) (by omega), hab]
  simp only [littleEndian, bigEndian, List.reverse_cons, List.reverse_nil, List.nil_append,
    List.cons_append, List.foldl_cons, List.foldl_nil]
  omega

theorem toNat_little₄ : (word a ||| word b <<< 8 ||| word c <<< 16 ||| word d <<< 24).toNat
    = littleEndian [a, b, c, d] := by
  have ha := a.toNat_lt
  have hb := b.toNat_lt
  have hc := c.toNat_lt
  have hab : (word a ||| word b <<< 8).toNat = a.toNat + b.toNat * 2 ^ 8 := by
    rw [toNat_or_shift b (by decide) (by rw [toNat_word]; omega), toNat_word]
  have habc : (word a ||| word b <<< 8 ||| word c <<< 16).toNat
      = a.toNat + b.toNat * 2 ^ 8 + c.toNat * 2 ^ 16 := by
    rw [toNat_or_shift c (by decide) (by omega), hab]
  rw [toNat_or_shift d (by decide) (by omega), habc]
  simp only [littleEndian, bigEndian, List.reverse_cons, List.reverse_nil, List.nil_append,
    List.cons_append, List.foldl_cons, List.foldl_nil]
  omega

end

end SignetApp.Js
