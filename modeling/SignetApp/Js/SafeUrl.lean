import SignetApp.Js.Value

/-!
# Outbound URL guard

`safe-url.ts`: literal private, loopback, link-local and metadata addresses and the names of the
local host are internal, and so is whatever cannot be classified as a public host. Host names come
from the URL parser, which gives them in ASCII.
-/

namespace SignetApp.Js

/-! ## Pieces of text -/

/-- One ASCII character as a code unit. -/
def unit (c : Char) : CodeUnit := Fin.ofNat 65536 c.toNat

/-- `s.split(separator)` for a one-character separator. -/
def splitOn (separator : Char) : JsString → List JsString
  | [] => [[]]
  | u :: rest =>
    match splitOn separator rest with
    | [] => [[u]]
    | part :: parts => if u = unit separator then [] :: part :: parts else (u :: part) :: parts

/-- `s.split('::')`. -/
def splitOnDoubleColon : JsString → List JsString
  | [] => [[]]
  | [u] => [[u]]
  | u :: v :: rest =>
    if u = unit ':' ∧ v = unit ':' then [] :: splitOnDoubleColon rest
    else match splitOnDoubleColon (v :: rest) with
      | [] => [[u]]
      | part :: parts => (u :: part) :: parts

def isDigit (u : CodeUnit) : Bool := 48 ≤ u && u ≤ 57

def isOctalDigit (u : CodeUnit) : Bool := 48 ≤ u && u ≤ 55

/-- The value of a hexadecimal digit. -/
def digitValue (u : CodeUnit) : ℕ := if isDigit u then u.val - 48 else u.val - 87

/-- `parseInt(s, base)` of a string of digits. -/
def digitsValue (base : ℕ) (s : JsString) : ℕ := s.foldl (fun n u => base * n + digitValue u) 0

/-- `/^\d{1,3}$/`. -/
def isOctet (s : JsString) : Bool := decide (1 ≤ s.length ∧ s.length ≤ 3) && s.all isDigit

/-- `/^\d{1,3}(\.\d{1,3}){3}$/`. -/
def isDottedQuad (s : JsString) : Bool :=
  let parts := splitOn '.' s
  decide (parts.length = 4) && parts.all isOctet

/-- `/^0x[0-9a-f]+$/`. -/
def isHexLiteral (s : JsString) : Bool :=
  (lit "0x").isPrefixOf s && decide (2 < s.length) && (s.drop 2).all isHexDigit

/-- `/^0[0-7]+$/`. -/
def isOctalLiteral (s : JsString) : Bool :=
  (lit "0").isPrefixOf s && decide (1 < s.length) && (s.drop 1).all isOctalDigit

/-- `s.toLowerCase()` in ASCII. -/
def toLowerCase (s : JsString) : JsString :=
  s.map fun u => if 65 ≤ u && u ≤ 90 then u + 32 else u

theorem toLowerCase_toLowerCase (s : JsString) : toLowerCase (toLowerCase s) = toLowerCase s := by
  unfold toLowerCase
  rw [List.map_map]
  apply List.map_congr_left
  intro u _
  simp only [Function.comp, Bool.and_eq_true, decide_eq_true_eq]
  by_cases hupper : 65 ≤ u ∧ u ≤ 90
  · have hlower : ¬ (65 ≤ u + 32 ∧ u + 32 ≤ 90) := by
      have h65 : ((65 : CodeUnit) : ℕ) = 65 := rfl
      have h90 : ((90 : CodeUnit) : ℕ) = 90 := rfl
      have h32 : ((32 : CodeUnit) : ℕ) = 32 := rfl
      rw [Fin.le_def, Fin.le_def, Fin.val_add]
      rw [Fin.le_def, Fin.le_def] at hupper
      omega
    rw [if_pos hupper, if_neg hlower]
  · rw [if_neg hupper, if_neg hupper]

theorem toLowerCase_of_hex {n : ℕ} {s : JsString} (h : isHexOf n s = true) : toLowerCase s = s := by
  obtain ⟨-, hall⟩ := Bool.and_eq_true_iff.1 h
  unfold toLowerCase
  conv_rhs => rw [← List.map_id s]
  apply List.map_congr_left
  intro u hu
  have hdigit := List.all_eq_true.1 hall u hu
  unfold isHexDigit at hdigit
  rw [if_neg]
  · rfl
  · simp only [Bool.or_eq_true, Bool.and_eq_true, decide_eq_true_eq, Fin.le_def] at hdigit ⊢
    have h48 : ((48 : CodeUnit) : ℕ) = 48 := rfl
    have h57 : ((57 : CodeUnit) : ℕ) = 57 := rfl
    have h65 : ((65 : CodeUnit) : ℕ) = 65 := rfl
    have h90 : ((90 : CodeUnit) : ℕ) = 90 := rfl
    have h97 : ((97 : CodeUnit) : ℕ) = 97 := rfl
    omega

/-! ## Addresses -/

/-- A private, loopback, link-local or carrier-grade address. -/
def isPrivateIPv4 : List ℕ → Bool
  | [a, b, c, d] =>
    [a, b, c, d].any (255 < ·) || a == 0 || a == 10 || a == 127 || (a == 169 && b == 254)
      || (a == 172 && 16 ≤ b && b ≤ 31) || (a == 192 && b == 168) || (a == 100 && 64 ≤ b && b ≤ 127)
  | _ => true

/-- The octets of a dotted quad. -/
def octets (s : JsString) : List ℕ := (splitOn '.' s).map (digitsValue 10)

/-- `/^[0-9a-f]{1,4}$/` and its value. -/
def hextet (s : JsString) : Option ℕ :=
  if 1 ≤ s.length ∧ s.length ≤ 4 ∧ s.all isHexDigit then some (digitsValue 16 s) else none

/-- The groups of one half of an address. -/
def hextets (part : JsString) : Option (List ℕ) :=
  if part = [] then some [] else (splitOn ':' part).mapM hextet

/-- `n.toString(16)`. -/
def hexText (n : ℕ) : JsString := (Nat.toDigits 16 n).flatMap encodeChar

/-- An embedded dotted-quad tail becomes two groups; `none` when an octet is out of range. -/
def dottedTail (h : JsString) : Option JsString :=
  let tail := (h.reverse.takeWhile (· ≠ unit ':')).reverse
  if h.contains (unit ':') && isDottedQuad tail then
    match octets tail with
    | [a, b, c, d] =>
      if [a, b, c, d].any (255 < ·) then none
      else some (h.take (h.length - tail.length) ++ hexText (256 * a + b) ++ lit ":"
        ++ hexText (256 * c + d))
    | _ => none
  else some h

/-- The 16 bytes of an IPv6 literal. -/
def parseIPv6 (h : JsString) : Option (List ℕ) := do
  let text ← dottedTail h
  let words ←
    match splitOnDoubleColon text with
    | [all] => do
      let head ← hextets all
      if head.length = 8 then some head else none
    | [head, tail] => do
      let head ← hextets head
      let tail ← hextets tail
      let fill := 8 - head.length - tail.length
      if fill < 1 then none else some (head ++ List.replicate fill 0 ++ tail)
    | _ => none
  some (words.flatMap fun x => [x / 256, x % 256])

/-- A 16-byte address that is not public unicast. -/
def isInternalIPv6 (b : List ℕ) : Bool :=
  let byte := fun i => b.getD i 0
  let zero := fun n => (b.take n).all (· == 0)
  if zero 15 && byte 15 ≤ 1 then true
  else if byte 0 / 2 == 0xFC / 2 then true
  else if byte 0 == 0xFE && 0x80 ≤ byte 1 then true
  else if byte 0 == 0xFF then true
  else if byte 0 == 0 && byte 1 == 0x64 && byte 2 == 0xFF && byte 3 == 0x9B
      && (((b.drop 4).take 8).all (· == 0) || (byte 4 == 0 && byte 5 == 1)) then true
  else if byte 0 == 0x20 && byte 1 == 0x02 then isPrivateIPv4 ((b.drop 2).take 4)
  else if zero 10 && byte 10 == 0xFF && byte 11 == 0xFF then isPrivateIPv4 (b.drop 12)
  else if zero 12 then isPrivateIPv4 (b.drop 12)
  else false

/-- `isPrivateOrInternalHost`: do not connect to this host. -/
def isPrivateOrInternalHost (hostname : JsString) : Bool :=
  if hostname = [] then true
  else
    let h := toLowerCase hostname
    let h := if (lit "[").isPrefixOf h && (lit "]").isSuffixOf h then (h.drop 1).dropLast else h
    let h := if (lit ".").isSuffixOf h then h.dropLast else h
    if h = lit "localhost" || (lit ".localhost").isSuffixOf h then true
    else if h.contains (unit ':') then
      match parseIPv6 h with
      | none => true
      | some b => isInternalIPv6 b
    else if isDottedQuad h then isPrivateIPv4 (octets h)
    else if (h ≠ [] && h.all isDigit) || isHexLiteral h || isOctalLiteral h then true
    else h.contains (unit '.') && (splitOn '.' h).any fun p => isHexLiteral p || isOctalLiteral p

/-- `isSafeBlossomBase`: https to a public host, or http to the local one. -/
def isSafeBlossomBase [Platform] (raw : JsString) : Bool :=
  match Platform.parseUrl raw with
  | none => false
  | some (protocol, hostname) =>
    if protocol = lit "http:" && (hostname = lit "localhost" || hostname = lit "127.0.0.1") then
      true
    else if protocol ≠ lit "https:" then false
    else !isPrivateOrInternalHost hostname

end SignetApp.Js
