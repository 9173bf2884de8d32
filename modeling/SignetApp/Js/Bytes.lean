import SignetApp.Js.Guards
import SignetApp.Js.SafeUrl

/-!
# Bytes

A `Uint8Array` is the list of its bytes. The encodings between bytes and strings are those of
`TextEncoder`, of `TextDecoder` with `fatal` set, and the hexadecimal of `bytesToHex`.
-/

namespace SignetApp.Js

abbrev Bytes := List UInt8

/-! ## UTF-8 -/

/-- The scalar value of one of the `codePoints`: a lone surrogate becomes U+FFFD. -/
def scalarOf : JsString → ℕ
  | [u, v] => 0x10000 + (u.val - 0xD800) * 0x400 + (v.val - 0xDC00)
  | [u] => if isHighSurrogate u || isLowSurrogate u then 0xFFFD else u.val
  | _ => 0xFFFD

/-- A continuation byte holding the low six bits. -/
def continuation (n : ℕ) : UInt8 := UInt8.ofNat (0x80 + n % 64)

/-- UTF-8 of one scalar value. -/
def utf8Scalar (n : ℕ) : Bytes :=
  if n < 0x80 then [UInt8.ofNat n]
  else if n < 0x800 then [UInt8.ofNat (0xC0 + n / 64), continuation n]
  else if n < 0x10000 then
    [UInt8.ofNat (0xE0 + n / 4096), continuation (n / 64), continuation n]
  else [UInt8.ofNat (0xF0 + n / 262144), continuation (n / 4096), continuation (n / 64),
    continuation n]

/-- `new TextEncoder().encode(s)`. -/
def encodeUtf8 (s : JsString) : Bytes := (codePoints s).flatMap fun p => utf8Scalar (scalarOf p)

/-- UTF-16 of a scalar value. -/
def unitsOf (n : ℕ) : JsString :=
  if n < 0x10000 then [Fin.ofNat 65536 n]
  else [Fin.ofNat 65536 (0xD800 + (n - 0x10000) / 0x400),
    Fin.ofNat 65536 (0xDC00 + (n - 0x10000) % 0x400)]

/-- Whether a byte continues a sequence. -/
def isContinuation (b : UInt8) : Bool := 0x80 ≤ b && b < 0xC0

/-- The scalar value of a well-formed sequence of three bytes: neither overlong nor a surrogate. -/
def threeBytes (a b c : UInt8) : Option ℕ :=
  let n := (a.toNat - 0xE0) * 4096 + (b.toNat - 0x80) * 64 + (c.toNat - 0x80)
  if 0xE0 ≤ a ∧ a < 0xF0 ∧ isContinuation b ∧ isContinuation c ∧ 0x800 ≤ n
    ∧ ¬ (0xD800 ≤ n ∧ n < 0xE000) then some n else none

/-- The scalar value of a well-formed sequence of four bytes. -/
def fourBytes (a b c d : UInt8) : Option ℕ :=
  let n := (a.toNat - 0xF0) * 262144 + (b.toNat - 0x80) * 4096 + (c.toNat - 0x80) * 64
    + (d.toNat - 0x80)
  if 0xF0 ≤ a ∧ a < 0xF8 ∧ isContinuation b ∧ isContinuation c ∧ isContinuation d ∧ 0x10000 ≤ n
    ∧ n < 0x110000 then some n else none

/-- UTF-8 decoding, `none` at the first malformed sequence. -/
def decodeScalars : Bytes → Option JsString
  | [] => some []
  | a :: rest =>
    if a < 0x80 then (decodeScalars rest).map (unitsOf a.toNat ++ ·)
    else match rest with
      | [] => none
      | b :: rest =>
        if 0xC2 ≤ a ∧ a < 0xE0 ∧ isContinuation b then
          (decodeScalars rest).map (unitsOf ((a.toNat - 0xC0) * 64 + (b.toNat - 0x80)) ++ ·)
        else match rest with
          | [] => none
          | c :: rest => match threeBytes a b c with
            | some n => (decodeScalars rest).map (unitsOf n ++ ·)
            | none => match rest with
              | [] => none
              | d :: rest => match fourBytes a b c d with
                | some n => (decodeScalars rest).map (unitsOf n ++ ·)
                | none => none

/-- `new TextDecoder('utf-8', { fatal: true }).decode(bytes)`: a byte order mark is left out. -/
def decodeUtf8 : Bytes → Option JsString
  | 0xEF :: 0xBB :: 0xBF :: rest => decodeScalars rest
  | bytes => decodeScalars bytes

/-! ## Hexadecimal -/

def bytesToHex (bytes : Bytes) : JsString :=
  bytes.flatMap fun b => [hexDigit (Fin.ofNat 16 (b.toNat / 16)), hexDigit (Fin.ofNat 16 b.toNat)]

/-- `hexToBytes`, for a string of hexadecimal digits of even length. -/
def hexToBytes : JsString → Bytes
  | a :: b :: rest => UInt8.ofNat (digitValue a * 16 + digitValue b) :: hexToBytes rest
  | _ => []

theorem length_bytesToHex (bytes : Bytes) : (bytesToHex bytes).length = 2 * bytes.length := by
  induction bytes with
  | nil => rfl
  | cons b rest ih =>
    rw [bytesToHex, List.flatMap_cons, List.length_append, ← bytesToHex, ih]
    simp only [List.length_cons, List.length_nil]
    omega

theorem isHexOf_bytesToHex (bytes : Bytes) : isHexOf (2 * bytes.length) (bytesToHex bytes) = true := by
  rw [isHexOf, length_bytesToHex, beq_self_eq_true, Bool.true_and, List.all_eq_true]
  intro u hu
  obtain ⟨b, -, hu⟩ := List.mem_flatMap.1 hu
  obtain rfl | rfl : u = _ ∨ u = _ := by simpa using hu
  · exact isHexDigit_hexDigit _
  · exact isHexDigit_hexDigit _

theorem length_hexToBytes : ∀ {n : ℕ} {s : JsString}, s.length = 2 * n → (hexToBytes s).length = n
  | 0, s, h => by
    obtain rfl : s = [] := List.length_eq_zero_iff.1 h
    rfl
  | n + 1, [], h => by simp at h
  | n + 1, [_], h => by
    rw [List.length_singleton] at h
    omega
  | n + 1, _ :: _ :: rest, h => by
    have hrest : rest.length = 2 * n := by
      simp only [List.length_cons] at h
      omega
    rw [hexToBytes, List.length_cons, length_hexToBytes hrest]

theorem digitValue_lt {u : CodeUnit} (h : isHexDigit u = true) : digitValue u < 16 := by
  simp only [isHexDigit, Bool.or_eq_true, Bool.and_eq_true, decide_eq_true_eq, Fin.le_def] at h
  simp only [digitValue, isDigit, Bool.and_eq_true, decide_eq_true_eq, Fin.le_def]
  split <;> omega

theorem hexDigit_digitValue {u : CodeUnit} (h : isHexDigit u = true) :
    hexDigit (Fin.ofNat 16 (digitValue u)) = u := by
  have hlt := digitValue_lt h
  simp only [isHexDigit, Bool.or_eq_true, Bool.and_eq_true, decide_eq_true_eq, Fin.le_def] at h
  apply Fin.ext
  simp only [hexDigit, digitValue, isDigit, Bool.and_eq_true, decide_eq_true_eq, Fin.le_def,
    Fin.val_ofNat] at hlt ⊢
  split_ifs at hlt ⊢ <;> simp only [Fin.val_ofNat] <;> omega

theorem bytesToHex_hexToBytes : ∀ {n : ℕ} {s : JsString}, isHexOf (2 * n) s = true →
    bytesToHex (hexToBytes s) = s
  | 0, s, h => by
    obtain rfl : s = [] := by
      simp only [isHexOf, Bool.and_eq_true, beq_iff_eq] at h
      exact List.length_eq_zero_iff.1 h.1
    rfl
  | n + 1, [], h => by simp [isHexOf] at h
  | n + 1, [_], h => by
    simp only [isHexOf, Bool.and_eq_true, beq_iff_eq, List.length_singleton] at h
    omega
  | n + 1, a :: b :: rest, h => by
    simp only [isHexOf, Bool.and_eq_true, beq_iff_eq, List.length_cons, List.all_cons] at h
    obtain ⟨hlen, ha, hb, hrest⟩ := h
    have hrest' : isHexOf (2 * n) rest = true := by
      simp only [isHexOf, hrest, Bool.and_true, beq_iff_eq]
      omega
    have hbyte : (UInt8.ofNat (digitValue a * 16 + digitValue b)).toNat
        = digitValue a * 16 + digitValue b := by
      have ha' := digitValue_lt ha
      have hb' := digitValue_lt hb
      rw [UInt8.toNat_ofNat_of_lt']
      show _ < 256
      omega
    have hhigh : (digitValue a * 16 + digitValue b) / 16 = digitValue a := by
      have hb' := digitValue_lt hb
      omega
    have hlow : Fin.ofNat 16 (digitValue a * 16 + digitValue b) = Fin.ofNat 16 (digitValue b) := by
      apply Fin.ext
      simp only [Fin.val_ofNat]
      omega
    rw [hexToBytes, bytesToHex, List.flatMap_cons, ← bytesToHex, bytesToHex_hexToBytes hrest',
      hbyte, hhigh, hlow, hexDigit_digitValue ha, hexDigit_digitValue hb]
    rfl

end SignetApp.Js
