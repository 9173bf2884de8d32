import Mathlib

/-!
# JavaScript text

A JavaScript string is a sequence of UTF-16 code units: `length`, `<`, `slice` and a regular
expression without the `u` flag all see code units, and a lone surrogate is an ordinary string.
`Array.from` alone sees code points.
-/

namespace SignetApp.Js

/-- One UTF-16 code unit. -/
abbrev CodeUnit := Fin 65536

instance neZeroUnits : NeZero 65536 := ⟨by decide⟩

/-- A JavaScript string. Its order is the lexicographic order of code units, as for `<`. -/
abbrev JsString := List CodeUnit

instance lawfulUnits : LawfulBEq JsString := inferInstance

/-- UTF-16 encoding of one character. -/
def encodeChar (c : Char) : JsString :=
  if c.toNat < 0x10000 then [Fin.ofNat 65536 c.toNat]
  else [Fin.ofNat 65536 (0xD800 + (c.toNat - 0x10000) / 0x400),
    Fin.ofNat 65536 (0xDC00 + (c.toNat - 0x10000) % 0x400)]

/-- The JavaScript string a source literal denotes. -/
def lit (s : String) : JsString := s.toList.flatMap encodeChar

/-! ## Hexadecimal strings -/

/-- The class `[0-9a-f]`. -/
def isHexDigit (u : CodeUnit) : Bool := (48 ≤ u && u ≤ 57) || (97 ≤ u && u ≤ 102)

/-- The regular expression `/^[0-9a-f]{n}$/`. -/
def isHexOf (n : ℕ) (s : JsString) : Bool := s.length == n && s.all isHexDigit

/-- Strings of exactly `n` lowercase hexadecimal digits. -/
def Hex (n : ℕ) := { s : JsString // isHexOf n s = true }

instance (n : ℕ) : LinearOrder (Hex n) :=
  inferInstanceAs (LinearOrder { s : JsString // isHexOf n s = true })

instance neZeroHexDigits : NeZero 16 := ⟨by decide⟩

/-- A hexadecimal digit. -/
def hexDigit (d : Fin 16) : CodeUnit :=
  if d.val < 10 then Fin.ofNat 65536 (48 + d.val) else Fin.ofNat 65536 (87 + d.val)

theorem isHexDigit_hexDigit : ∀ d : Fin 16, isHexDigit (hexDigit d) = true := by decide

/-- `'d'.repeat(n)`, for a hexadecimal digit `d`. -/
def Hex.repeated (n : ℕ) (d : Fin 16) : Hex n :=
  ⟨List.replicate n (hexDigit d), by simp [isHexOf, isHexDigit_hexDigit]⟩

/-- Strings of at most `cap` code units. -/
def Text (cap : ℕ) := { s : JsString // s.length ≤ cap }

instance (cap : ℕ) : DecidableEq (Text cap) :=
  inferInstanceAs (DecidableEq { s : JsString // s.length ≤ cap })

/-- Non-empty strings of at most `cap` code units. -/
def Str (cap : ℕ) := { s : JsString // 0 < s.length ∧ s.length ≤ cap }

instance (cap : ℕ) : DecidableEq (Str cap) :=
  inferInstanceAs (DecidableEq { s : JsString // 0 < s.length ∧ s.length ≤ cap })

/-- Forget that a string is non-empty. -/
def Str.toText {cap : ℕ} (s : Str cap) : Text cap := ⟨s.val, s.property.2⟩

/-! ## Trimming and code points -/

/-- White space and line terminators, the characters `String.prototype.trim` removes. -/
def isWhiteSpace (u : CodeUnit) : Bool :=
  (9 ≤ u && u ≤ 13) || u == 32 || u == 0xA0 || u == 0x1680 || (0x2000 ≤ u && u ≤ 0x200A)
    || u == 0x2028 || u == 0x2029 || u == 0x202F || u == 0x205F || u == 0x3000 || u == 0xFEFF

def trim (s : JsString) : JsString :=
  ((s.dropWhile isWhiteSpace).reverse.dropWhile isWhiteSpace).reverse

theorem length_trim_le (s : JsString) : (trim s).length ≤ s.length := by
  have h₁ := (List.dropWhile_sublist isWhiteSpace (l := s)).length_le
  have h₂ := (List.dropWhile_sublist isWhiteSpace
    (l := (s.dropWhile isWhiteSpace).reverse)).length_le
  rw [List.length_reverse] at h₂
  rw [trim, List.length_reverse]
  exact h₂.trans h₁

/-- A leading surrogate. -/
def isHighSurrogate (u : CodeUnit) : Bool := 0xD800 ≤ u && u ≤ 0xDBFF

/-- A trailing surrogate. -/
def isLowSurrogate (u : CodeUnit) : Bool := 0xDC00 ≤ u && u ≤ 0xDFFF

/-- `Array.from(s)`: the code points, a lone surrogate standing for itself. -/
def codePoints : JsString → List JsString
  | [] => []
  | [u] => [[u]]
  | u :: v :: rest =>
    if isHighSurrogate u && isLowSurrogate v then [u, v] :: codePoints rest
    else [u] :: codePoints (v :: rest)

end SignetApp.Js
