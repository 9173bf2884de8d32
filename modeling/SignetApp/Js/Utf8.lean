import SignetApp.Js.Bytes
import SignetApp.Js.JsonRoundTrip

/-!
# UTF-8, decoded leniently

`new TextDecoder().decode(bytes)`: a malformed sequence becomes U+FFFD, and a byte order mark at
the start is left out. Text without lone surrogates comes back as it was, but for that mark.
-/

namespace SignetApp.Js

/-! ## The decoder -/

/-- The decoder between two bytes: how many more the sequence needs, its value so far, and the range
of the next. -/
structure Decoding where
  needed : ℕ
  point : ℕ
  lower : ℕ
  upper : ℕ

/-- Between two sequences. -/
def Decoding.start : Decoding := ⟨0, 0, 0x80, 0xBF⟩

def replacementChar : JsString := [0xFFFD]

/-- The first byte of a sequence. The range of the second leaves out what is overlong, a surrogate
or too large. -/
def leadByte (b : ℕ) : JsString × Decoding :=
  if b < 0x80 then (unitsOf b, .start)
  else if 0xC2 ≤ b ∧ b ≤ 0xDF then ([], ⟨1, b - 0xC0, 0x80, 0xBF⟩)
  else if 0xE0 ≤ b ∧ b ≤ 0xEF then
    ([], ⟨2, b - 0xE0, if b = 0xE0 then 0xA0 else 0x80, if b = 0xED then 0x9F else 0xBF⟩)
  else if 0xF0 ≤ b ∧ b ≤ 0xF4 then
    ([], ⟨3, b - 0xF0, if b = 0xF0 then 0x90 else 0x80, if b = 0xF4 then 0x8F else 0xBF⟩)
  else (replacementChar, .start)

def decodeByte (st : Decoding) (b : ℕ) : JsString × Decoding :=
  if st.needed = 0 then leadByte b
  else if st.lower ≤ b ∧ b ≤ st.upper then
    if st.needed = 1 then (unitsOf (st.point * 64 + (b - 0x80)), .start)
    else ([], ⟨st.needed - 1, st.point * 64 + (b - 0x80), 0x80, 0xBF⟩)
  -- The byte that breaks a sequence off begins the next one.
  else (replacementChar ++ (leadByte b).1, (leadByte b).2)

def decodeFrom (st : Decoding) : Bytes → JsString
  | [] => if st.needed = 0 then [] else replacementChar
  | b :: rest => (decodeByte st b.toNat).1 ++ decodeFrom (decodeByte st b.toNat).2 rest

def byteOrderMark : Bytes := [0xEF, 0xBB, 0xBF]

/-- `new TextDecoder().decode(bytes)`. -/
def textDecode (bytes : Bytes) : JsString :=
  if bytes.take 3 = byteOrderMark then decodeFrom .start (bytes.drop 3)
  else decodeFrom .start bytes

/-! ## One scalar value -/

/-- A Unicode scalar value. -/
def IsScalar (n : ℕ) : Prop := n < 0x110000 ∧ ¬ (0xD800 ≤ n ∧ n < 0xE000)

theorem toNat_continuation (n : ℕ) : (continuation n).toNat = 0x80 + n % 64 := by
  rw [continuation, UInt8.toNat_ofNat_of_lt']
  show _ < 256
  omega

variable {lower n point upper : ℕ}

theorem decodeFrom_last (hlower : lower ≤ 0x80 + n % 64)
    (hupper : 0x80 + n % 64 ≤ upper) (rest : Bytes) :
    decodeFrom ⟨1, point, lower, upper⟩ (continuation n :: rest)
      = unitsOf (point * 64 + n % 64) ++ decodeFrom .start rest := by
  have hbyte : decodeByte ⟨1, point, lower, upper⟩ (continuation n).toNat
      = (unitsOf (point * 64 + n % 64), .start) := by
    rw [toNat_continuation]
    show (if lower ≤ _ ∧ _ ≤ upper then _ else _) = _
    rw [if_pos ⟨hlower, hupper⟩, Nat.add_sub_cancel_left]
    rfl
  rw [decodeFrom, hbyte]

theorem decodeFrom_more {needed : ℕ} (hlower : lower ≤ 0x80 + n % 64)
    (hupper : 0x80 + n % 64 ≤ upper) (rest : Bytes) :
    decodeFrom ⟨needed + 2, point, lower, upper⟩ (continuation n :: rest)
      = decodeFrom ⟨needed + 1, point * 64 + n % 64, 0x80, 0xBF⟩ rest := by
  have hbyte : decodeByte ⟨needed + 2, point, lower, upper⟩ (continuation n).toNat
      = ([], ⟨needed + 1, point * 64 + n % 64, 0x80, 0xBF⟩) := by
    rw [toNat_continuation]
    show (if lower ≤ _ ∧ _ ≤ upper then _ else _) = _
    rw [if_pos ⟨hlower, hupper⟩, Nat.add_sub_cancel_left]
    rfl
  rw [decodeFrom, hbyte, List.nil_append]

theorem decodeFrom_lead {b : ℕ} (hb : b < 256) (rest : Bytes) :
    decodeFrom .start (UInt8.ofNat b :: rest)
      = (leadByte b).1 ++ decodeFrom (leadByte b).2 rest := by
  have hbyte : (UInt8.ofNat b).toNat = b := UInt8.toNat_ofNat_of_lt' hb
  rw [decodeFrom, hbyte]
  rfl

/-- The decoder gives back a scalar value. -/
theorem decodeFrom_utf8Scalar (h : IsScalar n) (rest : Bytes) :
    decodeFrom .start (utf8Scalar n ++ rest) = unitsOf n ++ decodeFrom .start rest := by
  obtain ⟨hmax, hsurrogate⟩ := h
  unfold utf8Scalar
  by_cases h1 : n < 0x80
  · rw [if_pos h1, List.singleton_append, decodeFrom_lead (by omega), leadByte, if_pos h1]
  rw [if_neg h1]
  by_cases h2 : n < 0x800
  · rw [if_pos h2]
    show decodeFrom .start (UInt8.ofNat (0xC0 + n / 64) :: continuation n :: rest) = _
    have hlead : leadByte (0xC0 + n / 64) = ([], ⟨1, n / 64, 0x80, 0xBF⟩) := by
      rw [leadByte, if_neg (by omega), if_pos (by omega), Nat.add_sub_cancel_left]
    rw [decodeFrom_lead (by omega), hlead, List.nil_append,
      decodeFrom_last (by omega) (by omega)]
    congr 2
    omega
  rw [if_neg h2]
  by_cases h3 : n < 0x10000
  · rw [if_pos h3]
    show decodeFrom .start
      (UInt8.ofNat (0xE0 + n / 4096) :: continuation (n / 64) :: continuation n :: rest) = _
    have hlead : leadByte (0xE0 + n / 4096) = ([], ⟨2, n / 4096,
        if 0xE0 + n / 4096 = 0xE0 then 0xA0 else 0x80,
        if 0xE0 + n / 4096 = 0xED then 0x9F else 0xBF⟩) := by
      rw [leadByte, if_neg (by omega), if_neg (by omega), if_pos (by omega),
        Nat.add_sub_cancel_left]
    rw [decodeFrom_lead (by omega), hlead, List.nil_append,
      decodeFrom_more (by split <;> omega) (by split <;> omega),
      decodeFrom_last (by omega) (by omega)]
    congr 2
    omega
  rw [if_neg h3]
  show decodeFrom .start (UInt8.ofNat (0xF0 + n / 262144) :: continuation (n / 4096)
    :: continuation (n / 64) :: continuation n :: rest) = _
  have hlead : leadByte (0xF0 + n / 262144) = ([], ⟨3, n / 262144,
      if 0xF0 + n / 262144 = 0xF0 then 0x90 else 0x80,
      if 0xF0 + n / 262144 = 0xF4 then 0x8F else 0xBF⟩) := by
    rw [leadByte, if_neg (by omega), if_neg (by omega), if_neg (by omega), if_pos (by omega),
      Nat.add_sub_cancel_left]
  rw [decodeFrom_lead (by omega), hlead, List.nil_append,
    decodeFrom_more (by split <;> omega) (by split <;> omega),
    decodeFrom_more (by omega) (by omega), decodeFrom_last (by omega) (by omega)]
  congr 2
  omega

/-! ## Text without lone surrogates -/

/-- A code point that is not a lone surrogate. -/
def IsScalarPoint (p : JsString) : Prop :=
  (∃ u, p = [u] ∧ isHighSurrogate u = false ∧ isLowSurrogate u = false) ∨
    ∃ u v, p = [u, v] ∧ isHighSurrogate u = true ∧ isLowSurrogate v = true

def IsWellFormed (s : JsString) : Prop := ∀ p ∈ codePoints s, IsScalarPoint p

variable {u : CodeUnit}

theorem isHighSurrogate_iff : isHighSurrogate u = true ↔ 0xD800 ≤ u.val ∧ u.val ≤ 0xDBFF := by
  rw [isHighSurrogate, Bool.and_eq_true, decide_eq_true_eq, decide_eq_true_eq]
  rfl

theorem isLowSurrogate_iff : isLowSurrogate u = true ↔ 0xDC00 ≤ u.val ∧ u.val ≤ 0xDFFF := by
  rw [isLowSurrogate, Bool.and_eq_true, decide_eq_true_eq, decide_eq_true_eq]
  rfl

theorem isWellFormed_of_plain {s : JsString} (h : ∀ u ∈ s, u.val < 0xD800 ∨ 0xDFFF < u.val) :
    IsWellFormed s := by
  induction s with
  | nil => intro p hp; cases hp
  | cons u s ih =>
    have hu := h u List.mem_cons_self
    have hhigh : isHighSurrogate u = false := by
      rw [Bool.eq_false_iff, ne_eq, isHighSurrogate_iff]
      omega
    have hlow : isLowSurrogate u = false := by
      rw [Bool.eq_false_iff, ne_eq, isLowSurrogate_iff]
      omega
    intro p hp
    rw [codePoints_cons_of_not_high hhigh] at hp
    rcases List.mem_cons.1 hp with rfl | hp
    · exact .inl ⟨u, rfl, hhigh, hlow⟩
    · exact ih (fun v hv => h v (List.mem_cons_of_mem u hv)) p hp

theorem codePoints_flatten {ps : List JsString} (h : ∀ p ∈ ps, IsScalarPoint p) :
    codePoints ps.flatten = ps := by
  induction ps with
  | nil => rfl
  | cons p ps ih =>
    have hrest := ih fun q hq => h q (List.mem_cons_of_mem p hq)
    rw [List.flatten_cons]
    rcases h p List.mem_cons_self with ⟨u, rfl, hhigh, _⟩ | ⟨u, v, rfl, hhigh, hlow⟩
    · rw [List.singleton_append]
      cases hs : ps.flatten with
      | nil =>
        rw [hs] at hrest
        rw [← hrest]
        rfl
      | cons v s =>
        rw [hs] at hrest
        rw [codePoints, hhigh, Bool.false_and, if_neg Bool.false_ne_true, hrest]
    · show codePoints (u :: v :: ps.flatten) = _
      rw [codePoints, hhigh, hlow, Bool.and_self, if_pos rfl, hrest]

theorem ofNat_of_eq (h : n = u.val) : Fin.ofNat 65536 n = u := by
  apply Fin.ext
  rw [Fin.val_ofNat, h, Nat.mod_eq_of_lt u.isLt]

theorem scalarOf_single (hhigh : isHighSurrogate u = false)
    (hlow : isLowSurrogate u = false) : scalarOf [u] = u.val := by
  have hnone : ¬ (isHighSurrogate u || isLowSurrogate u) = true := by
    rw [hhigh, hlow]
    exact Bool.false_ne_true
  exact if_neg hnone

theorem unitsOf_scalarOf {p : JsString} (h : IsScalarPoint p) :
    IsScalar (scalarOf p) ∧ unitsOf (scalarOf p) = p := by
  rcases h with ⟨u, rfl, hhigh, hlow⟩ | ⟨u, v, rfl, hhigh, hlow⟩
  · rw [scalarOf_single hhigh hlow]
    have hlt := u.isLt
    have hhigh' : ¬ (0xD800 ≤ u.val ∧ u.val ≤ 0xDBFF) := fun h => by
      rw [isHighSurrogate_iff.2 h] at hhigh
      cases hhigh
    have hlow' : ¬ (0xDC00 ≤ u.val ∧ u.val ≤ 0xDFFF) := fun h => by
      rw [isLowSurrogate_iff.2 h] at hlow
      cases hlow
    refine ⟨⟨by omega, by omega⟩, ?_⟩
    rw [unitsOf, if_pos hlt, ofNat_of_eq rfl]
  · rw [isHighSurrogate_iff] at hhigh
    rw [isLowSurrogate_iff] at hlow
    show IsScalar (0x10000 + (u.val - 0xD800) * 0x400 + (v.val - 0xDC00)) ∧ _
    refine ⟨⟨by omega, by omega⟩, ?_⟩
    show unitsOf (0x10000 + (u.val - 0xD800) * 0x400 + (v.val - 0xDC00)) = _
    rw [unitsOf, if_neg (by omega), ofNat_of_eq (u := u) (by omega),
      ofNat_of_eq (u := v) (by omega)]

theorem decodeFrom_flatMap : ∀ {ps : List JsString}, (∀ p ∈ ps, IsScalarPoint p) →
    decodeFrom .start (ps.flatMap fun p => utf8Scalar (scalarOf p)) = ps.flatten := by
  intro ps
  induction ps with
  | nil => intro _; rfl
  | cons p ps ih =>
    intro h
    obtain ⟨hscalar, hunits⟩ := unitsOf_scalarOf (h p List.mem_cons_self)
    rw [List.flatMap_cons, decodeFrom_utf8Scalar hscalar, hunits, List.flatten_cons,
      ih fun q hq => h q (List.mem_cons_of_mem p hq)]

/-! ## The byte order mark -/

/-- U+FEFF, which the decoder takes for a byte order mark at the start. -/
def bom : JsString := [0xFEFF]

theorem utf8_bom : utf8Scalar (scalarOf bom) = byteOrderMark := by decide

/-- Only U+FEFF is written with the bytes of the mark. -/
theorem take_utf8Scalar (h : IsScalar n) (rest : Bytes) :
    (utf8Scalar n ++ rest).take 3 = byteOrderMark ↔ n = 0xFEFF := by
  obtain ⟨hmax, _⟩ := h
  have hbyte : ∀ {m k : ℕ}, UInt8.ofNat m = UInt8.ofNat k → m % 256 = k % 256 := fun heq =>
    congrArg UInt8.toNat heq
  constructor
  · intro heq
    unfold utf8Scalar at heq
    split at heq
    · have hfirst : UInt8.ofNat n = UInt8.ofNat 0xEF := (List.cons.inj heq).1
      have := hbyte hfirst
      omega
    split at heq
    · have hfirst : UInt8.ofNat (0xC0 + n / 64) = UInt8.ofNat 0xEF := (List.cons.inj heq).1
      have := hbyte hfirst
      omega
    split at heq
    · obtain ⟨h1, h2⟩ := List.cons.inj heq
      obtain ⟨h2, h3⟩ := List.cons.inj h2
      have hfirst : UInt8.ofNat (0xE0 + n / 4096) = UInt8.ofNat 0xEF := h1
      have hsecond : UInt8.ofNat (0x80 + n / 64 % 64) = UInt8.ofNat 0xBB := h2
      have hthird : UInt8.ofNat (0x80 + n % 64) = UInt8.ofNat 0xBF := (List.cons.inj h3).1
      have := hbyte hfirst
      have := hbyte hsecond
      have := hbyte hthird
      omega
    · have hfirst : UInt8.ofNat (0xF0 + n / 262144) = UInt8.ofNat 0xEF := (List.cons.inj heq).1
      have := hbyte hfirst
      omega
  · rintro rfl
    rfl

variable {ps : List JsString}

theorem textDecode_flatMap (h : ∀ p ∈ ps, IsScalarPoint p) :
    textDecode (ps.flatMap fun p => utf8Scalar (scalarOf p))
      = if ps.head? = some bom then ps.tail.flatten else ps.flatten := by
  cases ps with
  | nil => rfl
  | cons p ps =>
    obtain ⟨hscalar, hunits⟩ := unitsOf_scalarOf (h p List.mem_cons_self)
    have hmark := take_utf8Scalar hscalar (ps.flatMap fun p => utf8Scalar (scalarOf p))
    unfold textDecode
    by_cases hbom : p = bom
    · subst hbom
      have hdrop : (utf8Scalar (scalarOf bom)
          ++ ps.flatMap fun p => utf8Scalar (scalarOf p)).drop 3
          = ps.flatMap fun p => utf8Scalar (scalarOf p) := by
        rw [utf8_bom]
        rfl
      rw [List.flatMap_cons, if_pos (hmark.2 rfl), hdrop,
        decodeFrom_flatMap fun q hq => h q (List.mem_cons_of_mem _ hq)]
      rfl
    · have hnot : scalarOf p ≠ 0xFEFF := by
        intro heq
        rw [heq] at hunits
        exact hbom hunits.symm
      have hhead : ¬ (p :: ps).head? = some bom := fun heq => hbom (Option.some.inj heq)
      rw [List.flatMap_cons, if_neg fun heq => hnot (hmark.1 heq), if_neg hhead,
        ← List.flatMap_cons (f := fun p => utf8Scalar (scalarOf p)), decodeFrom_flatMap h]

theorem textDecode_encodeUtf8 (h : ∀ p ∈ ps, IsScalarPoint p) :
    textDecode (encodeUtf8 ps.flatten)
      = if ps.head? = some bom then ps.tail.flatten else ps.flatten := by
  rw [encodeUtf8, codePoints_flatten h]
  exact textDecode_flatMap h

end SignetApp.Js
