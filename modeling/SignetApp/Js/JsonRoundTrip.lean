import SignetApp.Js.Json

/-!
# JSON survives being written and read

`parse_stringify`: a value of JSON's own kinds, with one property a name and numbers the platform
reads back, is what its text is parsed to.
-/

namespace SignetApp.Js

/-! ## Code points -/

theorem mem_codePoints : ∀ {s : JsString} {point}, point ∈ codePoints s →
    (∃ u, point = [u]) ∨
      ∃ u v, point = [u, v] ∧ isHighSurrogate u = true ∧ isLowSurrogate v = true
  | [], _, h => by cases h
  | [u], _, h => .inl ⟨u, List.mem_singleton.mp h⟩
  | u :: v :: rest, point, h => by
    rw [codePoints] at h
    split at h
    · next hpair =>
      rw [Bool.and_eq_true] at hpair
      cases h with
      | head => exact .inr ⟨u, v, rfl, hpair⟩
      | tail _ h => exact mem_codePoints h
    · cases h with
      | head => exact .inl ⟨u, rfl⟩
      | tail _ h => exact mem_codePoints h

theorem flatten_codePoints : ∀ s : JsString, (codePoints s).flatten = s
  | [] => rfl
  | [_] => rfl
  | u :: v :: rest => by
    rw [codePoints]
    split
    · rw [List.flatten_cons, flatten_codePoints rest]
      rfl
    · rw [List.flatten_cons, flatten_codePoints (v :: rest)]
      rfl

variable {u : CodeUnit}

theorem codePoints_cons_of_not_high (h : isHighSurrogate u = false)
    (s : JsString) : codePoints (u :: s) = [u] :: codePoints s := by
  cases s with
  | nil => rfl
  | cons v rest => simp [codePoints, h]

theorem codePoints_encodeChar (c : Char) (s : JsString) :
    codePoints (encodeChar c ++ s) = encodeChar c :: codePoints s := by
  have hvalid : c.toNat < 0xD800 ∨ 0xDFFF < c.toNat ∧ c.toNat < 0x110000 := c.valid
  unfold encodeChar
  split
  · apply codePoints_cons_of_not_high
    simp only [isHighSurrogate, Fin.le_def, Fin.ofNat, Bool.and_eq_false_iff, decide_eq_false_iff_not]
    change ¬ 0xD800 ≤ c.toNat % 65536 ∨ ¬ c.toNat % 65536 ≤ 0xDBFF
    omega
  · have hhigh : isHighSurrogate (Fin.ofNat 65536 (0xD800 + (c.toNat - 0x10000) / 0x400)) = true := by
      simp only [isHighSurrogate, Fin.le_def, Fin.ofNat, Bool.and_eq_true, decide_eq_true_eq]
      change 0xD800 ≤ (0xD800 + (c.toNat - 0x10000) / 0x400) % 65536 ∧
        (0xD800 + (c.toNat - 0x10000) / 0x400) % 65536 ≤ 0xDBFF
      omega
    have hlow : isLowSurrogate (Fin.ofNat 65536 (0xDC00 + (c.toNat - 0x10000) % 0x400)) = true := by
      simp only [isLowSurrogate, Fin.le_def, Fin.ofNat, Bool.and_eq_true, decide_eq_true_eq]
      change 0xDC00 ≤ (0xDC00 + (c.toNat - 0x10000) % 0x400) % 65536 ∧
        (0xDC00 + (c.toNat - 0x10000) % 0x400) % 65536 ≤ 0xDFFF
      omega
    rw [List.cons_append, List.cons_append, List.nil_append, codePoints, hhigh, hlow]
    rfl

theorem charOf_encodeChar (c : Char) : charOf (encodeChar c) = c := by
  have hvalid : c.toNat < 0xD800 ∨ 0xDFFF < c.toNat ∧ c.toNat < 0x110000 := c.valid
  unfold encodeChar
  split
  · next h =>
    have hval : (Fin.ofNat 65536 c.toNat).val = c.toNat := Nat.mod_eq_of_lt h
    rw [charOf, hval, Char.ofNat_toNat]
  · rw [charOf]
    have hval : 0x10000 + ((Fin.ofNat 65536 (0xD800 + (c.toNat - 0x10000) / 0x400)).val - 0xD800)
        * 0x400 + ((Fin.ofNat 65536 (0xDC00 + (c.toNat - 0x10000) % 0x400)).val - 0xDC00)
        = c.toNat := by
      change 0x10000 + ((0xD800 + (c.toNat - 0x10000) / 0x400) % 65536 - 0xD800) * 0x400
        + ((0xDC00 + (c.toNat - 0x10000) % 0x400) % 65536 - 0xDC00) = c.toNat
      omega
    rw [hval, Char.ofNat_toNat]

theorem codePoints_lit_map (cs : List Char) :
    codePoints (cs.flatMap encodeChar) = cs.map encodeChar := by
  induction cs with
  | nil => rfl
  | cons c cs ih => rw [List.flatMap_cons, codePoints_encodeChar, ih, List.map_cons]

@[simp] theorem nameOf_lit (name : String) : nameOf (lit name) = name := by
  unfold nameOf lit
  rw [codePoints_lit_map, List.map_map]
  have hid : charOf ∘ encodeChar = id := funext charOf_encodeChar
  rw [hid, List.map_id, String.ofList_toList]

/-! ## Strings -/

theorem hexValue_hexDigit : ∀ d : Fin 16, hexValue (hexDigit d) = some d.val := by decide

theorem hexUnit_escapeUnit (u : CodeUnit) :
    hexUnit (hexDigit (Fin.ofNat 16 (u.val / 4096))) (hexDigit (Fin.ofNat 16 (u.val / 256)))
      (hexDigit (Fin.ofNat 16 (u.val / 16))) (hexDigit (Fin.ofNat 16 u.val)) = some u := by
  simp only [hexUnit, hexValue_hexDigit, Option.bind_eq_bind, Option.bind_some, Option.some.injEq]
  apply Fin.ext
  have hu := u.isLt
  change (((u.val / 4096 % 16 * 16 + u.val / 256 % 16) * 16 + u.val / 16 % 16) * 16
    + u.val % 16) % 65536 = u.val
  omega

theorem parseString_plain (s : JsString) (hquote : u ≠ quoteMark)
    (hslash : u ≠ backslash) (hcontrol : ¬ u < 32) :
    parseString (u :: s) = (parseString s).map fun read => (u :: read.1, read.2) := by
  rw [parseString.eq_def]
  simp only [if_neg hquote, if_neg hslash, if_neg hcontrol]
  cases parseString s <;> rfl

theorem parseString_escapeUnit (u : CodeUnit) (s : JsString) :
    parseString (escapeUnit u ++ s) = (parseString s).map fun read => (u :: read.1, read.2) := by
  have hne : backslash ≠ quoteMark := by decide
  rw [parseString.eq_def]
  simp only [escapeUnit, List.cons_append, List.nil_append, if_neg hne, if_true,
    hexUnit_escapeUnit, Option.bind_eq_bind, Option.bind_some]
  cases parseString s <;> rfl

theorem parseString_escapeLetter {letter : CodeUnit} (s : JsString)
    (hback : unescapeLetter letter = some u) (hne : letter ≠ unit 'u') :
    parseString (backslash :: letter :: s)
      = (parseString s).map fun read => (u :: read.1, read.2) := by
  have hslash : backslash ≠ quoteMark := by decide
  rw [parseString.eq_def]
  simp only [if_neg hslash, if_true, if_neg hne, hback, Option.bind_eq_bind, Option.bind_some]
  cases parseString s <;> rfl

theorem unescapeLetter_of_escapeLetter {letter : CodeUnit} (h : escapeLetter u = some letter) :
    unescapeLetter letter = some u ∧ letter ≠ unit 'u' := by
  unfold escapeLetter at h
  repeat' split at h
  all_goals first | (cases h; subst_vars; decide) | cases h

/-- One quoted code point gives the point back. -/
theorem parseString_quotePoint {point : JsString}
    (hpoint : (∃ u, point = [u]) ∨ ∃ u v, point = [u, v] ∧ isHighSurrogate u = true ∧
      isLowSurrogate v = true) (s : JsString) :
    parseString (quotePoint point ++ s)
      = (parseString s).map fun read => (point ++ read.1, read.2) := by
  rcases hpoint with ⟨u, rfl⟩ | ⟨u, v, rfl, hhigh, hlow⟩
  · rw [quotePoint]
    cases hletter : escapeLetter u with
    | some letter =>
      obtain ⟨hback, hne⟩ := unescapeLetter_of_escapeLetter hletter
      exact parseString_escapeLetter s hback hne
    | none =>
      simp only
      split
      · exact parseString_escapeUnit u s
      · next hother =>
        have hquote : u ≠ quoteMark := by rintro rfl; cases hletter
        have hslash : u ≠ backslash := by rintro rfl; cases hletter
        have hcontrol : ¬ u < 32 := by
          intro hlt
          exact hother (by simp [hlt])
        exact parseString_plain s hquote hslash hcontrol
  · have hbig : ∀ w : CodeUnit, 0xD800 ≤ w → w ≠ quoteMark ∧ w ≠ backslash ∧ ¬ w < 32 := by
      intro w hw
      refine ⟨?_, ?_, ?_⟩
      · rintro rfl; exact absurd hw (by decide)
      · rintro rfl; exact absurd hw (by decide)
      · intro hlt
        exact absurd (hw.trans_lt hlt) (by decide)
    simp only [isHighSurrogate, isLowSurrogate, Bool.and_eq_true, decide_eq_true_eq] at hhigh hlow
    have hu : 0xD800 ≤ u := hhigh.1
    have hv : 0xD800 ≤ v := le_trans (by decide) hlow.1
    obtain ⟨hu₁, hu₂, hu₃⟩ := hbig u hu
    obtain ⟨hv₁, hv₂, hv₃⟩ := hbig v hv
    change parseString (u :: v :: s) = _
    rw [parseString_plain _ hu₁ hu₂ hu₃, parseString_plain _ hv₁ hv₂ hv₃]
    cases parseString s <;> rfl

theorem parseString_points {points : List JsString}
    (hpoints : ∀ point ∈ points, (∃ u, point = [u]) ∨
      ∃ u v, point = [u, v] ∧ isHighSurrogate u = true ∧ isLowSurrogate v = true)
    (rest : JsString) :
    parseString (points.flatMap quotePoint ++ quoteMark :: rest) = some (points.flatten, rest) := by
  induction points with
  | nil => rw [List.flatMap_nil, List.nil_append, parseString.eq_def]; rfl
  | cons point points ih =>
    rw [List.flatMap_cons, List.append_assoc, parseString_quotePoint (hpoints _ List.mem_cons_self),
      ih fun q hq => hpoints q (List.mem_cons_of_mem _ hq)]
    rfl

theorem parseString_quote (s rest : JsString) :
    parseString ((codePoints s).flatMap quotePoint ++ quoteMark :: rest) = some (s, rest) := by
  rw [parseString_points (fun point h => mem_codePoints h), flatten_codePoints]

/-! ## Values -/

theorem skipSpace_cons (h : isJsonSpace u = false) (s : JsString) :
    skipSpace (u :: s) = u :: s := by
  rw [skipSpace, List.dropWhile_cons, h]
  rfl

/-- How the text of a value may begin. -/
def Begins (text : JsString) : Prop :=
  ∃ u tail, text = u :: tail ∧ isJsonSpace u = false ∧ u ≠ closeBracket ∧ u ≠ closeBrace

theorem Begins.append {text : JsString} (h : Begins text) (rest : JsString) :
    Begins (text ++ rest) := by
  obtain ⟨u, tail, rfl, hu⟩ := h
  exact ⟨u, tail ++ rest, rfl, hu⟩

theorem Begins.skipSpace_eq {text : JsString} (h : Begins text) : skipSpace text = text := by
  obtain ⟨u, tail, rfl, hu, -⟩ := h
  exact skipSpace_cons hu tail

theorem numeralUnit_cases (h : isNumeralUnit u = true) :
    isJsonSpace u = false ∧ u ≠ quoteMark ∧ u ≠ openBracket ∧ u ≠ openBrace ∧ u ≠ closeBracket ∧
      u ≠ closeBrace ∧ u ≠ unit 'n' ∧ u ≠ unit 't' ∧ u ≠ unit 'f' := by
  refine ⟨?_, ?_, ?_, ?_, ?_, ?_, ?_, ?_, ?_⟩
  · cases hspace : isJsonSpace u with
    | false => rfl
    | true =>
      simp only [isJsonSpace, Bool.or_eq_true, beq_iff_eq] at hspace
      rcases hspace with ((rfl | rfl) | rfl) | rfl <;> exact absurd h (by decide)
  all_goals
    rintro rfl
    exact absurd h (by decide)

theorem stripLit_append (keyword : String) (rest : JsString) :
    stripLit keyword (lit keyword ++ rest) = some rest := by
  rw [stripLit, if_pos (List.prefix_append _ _), List.drop_left]

section
variable [Numerals]

/-- The platform reads a number back from the text it prints, a numeral. -/
structure Survives (q : ℚ) : Prop where
  read : Numerals.readNumber (Platform.numberText q) = some q
  ne_nil : Platform.numberText q ≠ []
  units : ∀ u ∈ Platform.numberText q, isNumeralUnit u = true

mutual
/-- The values that are what JSON text denotes. -/
def IsJson : JsValue → Prop
  | .undefined => False
  | .null | .bool _ | .str _ => True
  | .num (.finite q) => Survives q
  | .num _ => False
  | .arr elems => AreJson elems
  | .obj props => (props.map Prod.fst).Nodup ∧ HoldJson props

def AreJson : List JsValue → Prop
  | [] => True
  | v :: rest => IsJson v ∧ AreJson rest

def HoldJson : List (String × JsValue) → Prop
  | [] => True
  | (_, v) :: rest => IsJson v ∧ HoldJson rest
end

theorem areJson_iff {elems : List JsValue} : AreJson elems ↔ ∀ v ∈ elems, IsJson v := by
  induction elems with
  | nil => simp [AreJson]
  | cons v elems ih => simp [AreJson, ih]

variable {props : JsObject}

theorem holdJson_iff : HoldJson props ↔ ∀ p ∈ props, IsJson p.2 := by
  induction props with
  | nil => simp [HoldJson]
  | cons p props ih => simp [HoldJson, ih]

/-- What follows a value in a text cannot belong to a numeral before it. -/
def Stops (rest : JsString) : Prop := ∀ u ∈ rest.head?, isNumeralUnit u = false

theorem parseNumber_numberText {q : ℚ} (hq : Survives q) {rest : JsString} (hrest : Stops rest) :
    parseNumber (Platform.numberText q ++ rest) = some (.num (.finite q), rest) := by
  have htake : (Platform.numberText q ++ rest).takeWhile isNumeralUnit = Platform.numberText q := by
    rw [List.takeWhile_append_of_pos hq.units]
    cases rest with
    | nil => simp
    | cons u rest => simp [hrest u rfl]
  have hdrop : (Platform.numberText q ++ rest).dropWhile isNumeralUnit = rest := by
    rw [List.dropWhile_append_of_pos hq.units]
    cases rest with
    | nil => rfl
    | cons u rest => simp [hrest u rfl]
  rw [parseNumber, htake, hdrop, hq.read]
  rfl

variable {v : JsValue}

theorem begins_stringify (hv : IsJson v) : ∃ text, stringify v = some text ∧ Begins text := by
  have hlit : ∀ keyword : String, Begins (lit keyword) → ∀ v, stringify v = some (lit keyword) →
      ∃ text, stringify v = some text ∧ Begins text := fun _ h _ hv => ⟨_, hv, h⟩
  cases v with
  | undefined => cases hv
  | null => exact hlit "null" ⟨unit 'n', [117, 108, 108], rfl, by decide⟩ _ (by rw [stringify])
  | bool b =>
    cases b with
    | true => exact hlit "true" ⟨unit 't', [114, 117, 101], rfl, by decide⟩ _ (by rw [stringify])
    | false =>
      exact hlit "false" ⟨unit 'f', [97, 108, 115, 101], rfl, by decide⟩ _ (by rw [stringify])
  | num n =>
    cases n with
    | finite q =>
      refine ⟨_, by rw [stringify], ?_⟩
      obtain ⟨u, tail, htext⟩ := List.exists_cons_of_ne_nil (Survives.ne_nil hv)
      have hu := numeralUnit_cases (Survives.units hv u (by simp [htext]))
      exact ⟨u, tail, htext, hu.1, hu.2.2.2.2.1, hu.2.2.2.2.2.1⟩
    | infinity negative => cases hv
    | nan => cases hv
  | str s => exact ⟨quote s, by rw [stringify], quoteMark, _, rfl, by decide⟩
  | arr elems =>
    refine ⟨_, by rw [stringify], ?_⟩
    exact ⟨openBracket, _, rfl, by decide⟩
  | obj props =>
    refine ⟨_, by rw [stringify], ?_⟩
    exact ⟨openBrace, _, rfl, by decide⟩

theorem parseValue_str (fuel : ℕ) (s rest : JsString) :
    parseValue (fuel + 1) (quote s ++ rest) = some (.str s, rest) := by
  have hquote : quote s ++ rest
      = quoteMark :: ((codePoints s).flatMap quotePoint ++ quoteMark :: rest) := by
    simp [quote]
  rw [hquote, parseValue, skipSpace_cons (by decide)]
  simp only [if_true, parseString_quote, Option.bind_eq_bind, Option.bind_some]

theorem parseValue_other (fuel : ℕ) {u : CodeUnit} (tail : JsString)
    (hspace : isJsonSpace u = false) (hquote : u ≠ quoteMark) (hbracket : u ≠ openBracket)
    (hbrace : u ≠ openBrace) :
    parseValue (fuel + 1) (u :: tail)
      = if u = unit 'n' then (stripLit "null" (u :: tail)).map fun rest => (.null, rest)
        else if u = unit 't' then (stripLit "true" (u :: tail)).map fun rest => (.bool true, rest)
        else if u = unit 'f' then (stripLit "false" (u :: tail)).map fun rest => (.bool false, rest)
        else parseNumber (u :: tail) := by
  rw [parseValue, skipSpace_cons hspace]
  simp only [if_neg hquote, if_neg hbracket, if_neg hbrace]

theorem parseValue_num (fuel : ℕ) {q : ℚ} (hq : Survives q) {rest : JsString} (hrest : Stops rest) :
    parseValue (fuel + 1) (Platform.numberText q ++ rest) = some (.num (.finite q), rest) := by
  have hread := parseNumber_numberText hq hrest
  obtain ⟨u, tail, htext⟩ := List.exists_cons_of_ne_nil hq.ne_nil
  obtain ⟨hspace, hquote, hbracket, hbrace, -, -, hn, ht, hf⟩ :=
    numeralUnit_cases (hq.units u (by simp [htext]))
  rw [htext, List.cons_append] at hread ⊢
  rw [parseValue_other fuel _ hspace hquote hbracket hbrace, if_neg hn, if_neg ht, if_neg hf]
  exact hread

theorem parseValue_null (fuel : ℕ) (rest : JsString) :
    parseValue (fuel + 1) (lit "null" ++ rest) = some (.null, rest) := by
  have hstrip := stripLit_append "null" rest
  have htext : lit "null" ++ rest = unit 'n' :: ([117, 108, 108] ++ rest) := rfl
  rw [htext] at hstrip ⊢
  rw [parseValue_other fuel _ (by decide) (by decide) (by decide) (by decide), if_pos rfl, hstrip]
  rfl

theorem parseValue_bool (fuel : ℕ) (b : Bool) (rest : JsString) :
    parseValue (fuel + 1) ((bif b then lit "true" else lit "false") ++ rest)
      = some (.bool b, rest) := by
  cases b with
  | true =>
    have hstrip := stripLit_append "true" rest
    have htext : lit "true" ++ rest = unit 't' :: ([114, 117, 101] ++ rest) := rfl
    rw [cond_true, htext]
    rw [htext] at hstrip
    rw [parseValue_other fuel _ (by decide) (by decide) (by decide) (by decide),
      if_neg (by decide), if_pos rfl, hstrip]
    rfl
  | false =>
    have hstrip := stripLit_append "false" rest
    have htext : lit "false" ++ rest = unit 'f' :: ([97, 108, 115, 101] ++ rest) := rfl
    rw [cond_false, htext]
    rw [htext] at hstrip
    rw [parseValue_other fuel _ (by decide) (by decide) (by decide) (by decide),
      if_neg (by decide), if_neg (by decide), if_pos rfl, hstrip]
    rfl

theorem parseValue_arr {fuel : ℕ} {body rest : JsString} {elems : List JsValue}
    (hbody : Begins body)
    (h : parseElements fuel (body ++ closeBracket :: rest) = some (elems, rest)) :
    parseValue (fuel + 1) (openBracket :: (body ++ closeBracket :: rest))
      = some (.arr elems, rest) := by
  have hbracket : openBracket ≠ quoteMark := by decide
  rw [parseValue, skipSpace_cons (by decide)]
  have hskip := (hbody.append (closeBracket :: rest)).skipSpace_eq
  obtain ⟨u, tail, rfl, -, hu, -⟩ := hbody
  have hhead : (some u : Option CodeUnit) ≠ some closeBracket := fun h => hu (Option.some.inj h)
  rw [List.cons_append] at h hskip ⊢
  simp only [if_neg hbracket, if_true, hskip, List.head?_cons, if_neg hhead, h,
    Option.bind_eq_bind, Option.bind_some]

theorem parseValue_obj {fuel : ℕ} {body rest : JsString} (hbody : Begins body)
    (h : parseMembers fuel (body ++ closeBrace :: rest) = some (props, rest)) :
    parseValue (fuel + 1) (openBrace :: (body ++ closeBrace :: rest))
      = some (.obj props, rest) := by
  have hquote : openBrace ≠ quoteMark := by decide
  have hbracket : openBrace ≠ openBracket := by decide
  rw [parseValue, skipSpace_cons (by decide)]
  have hskip := (hbody.append (closeBrace :: rest)).skipSpace_eq
  obtain ⟨u, tail, rfl, -, -, hu⟩ := hbody
  have hhead : (some u : Option CodeUnit) ≠ some closeBrace := fun h => hu (Option.some.inj h)
  rw [List.cons_append] at h hskip ⊢
  simp only [if_neg hquote, if_neg hbracket, if_true, hskip, List.head?_cons, if_neg hhead, h,
    Option.bind_eq_bind, Option.bind_some]

def memberText (p : String × JsValue) : JsString :=
  quote (lit p.1) ++ colon :: (stringify p.2).getD []

theorem memberTexts_eq (hjson : HoldJson props) :
    ∀ {seen : List String}, (props.map Prod.fst).Nodup → (∀ p ∈ props, p.1 ∉ seen) →
    memberTexts seen props = props.map memberText := by
  induction props with
  | nil => intro seen _ _; rw [memberTexts, List.map_nil]
  | cons p props ih =>
    intro seen hnodup hseen
    obtain ⟨name, v⟩ := p
    rw [List.map_cons, List.nodup_cons] at hnodup
    obtain ⟨text, htext, -⟩ := begins_stringify hjson.1
    have hrest : ∀ p ∈ props, p.1 ∉ name :: seen := by
      intro p hp
      rw [List.mem_cons, not_or]
      exact ⟨fun heq => hnodup.1 (List.mem_map.mpr ⟨p, hp, heq⟩),
        hseen p (List.mem_cons_of_mem _ hp)⟩
    rw [memberTexts, htext]
    simp only [if_neg (hseen (name, v) List.mem_cons_self)]
    rw [ih hjson.2 hnodup.2 hrest, List.map_cons, memberText, htext, Option.getD_some]

theorem begins_elementTexts {rest : List JsValue} (hv : IsJson v) :
    Begins (commaSeparated (elementTexts (v :: rest))) := by
  obtain ⟨text, htext, hbegins⟩ := begins_stringify hv
  rw [elementTexts, htext, Option.getD_some]
  cases elementTexts rest with
  | nil => exact hbegins
  | cons part parts => exact hbegins.append _

theorem begins_memberTexts (p : String × JsValue) (props : JsObject) :
    Begins (commaSeparated ((p :: props).map memberText)) := by
  have hp : Begins (memberText p) := ⟨quoteMark, _, rfl, by decide⟩
  rw [List.map_cons]
  cases props.map memberText with
  | nil => exact hp
  | cons part parts => exact hp.append _

mutual
/-- Reading a value's text gives the value. -/
theorem parseValue_stringify : ∀ {v : JsValue}, IsJson v → ∀ (rest : JsString) (fuel : ℕ)
    {text : JsString}, stringify v = some text → text.length ≤ fuel → Stops rest →
    parseValue fuel (text ++ rest) = some (v, rest)
  | v, hv, rest, 0, text, htext, hfuel, _ => by
    obtain ⟨text', htext', u, tail, rfl, -⟩ := begins_stringify hv
    rw [htext'] at htext
    cases htext
    cases hfuel
  | .undefined, hv, _, _ + 1, _, _, _, _ => by cases hv
  | .null, _, rest, fuel + 1, _, htext, _, _ => by
    rw [stringify] at htext
    cases htext
    exact parseValue_null fuel rest
  | .bool b, _, rest, fuel + 1, _, htext, _, _ => by
    have hb := parseValue_bool fuel b rest
    cases b <;> rw [stringify] at htext <;> cases htext <;> exact hb
  | .num (.finite q), hv, rest, fuel + 1, _, htext, _, hrest => by
    rw [stringify] at htext
    cases htext
    exact parseValue_num fuel hv hrest
  | .num (.infinity _), hv, _, _ + 1, _, _, _, _ => by cases hv
  | .num .nan, hv, _, _ + 1, _, _, _, _ => by cases hv
  | .str s, _, rest, fuel + 1, _, htext, _, _ => by
    rw [stringify] at htext
    cases htext
    exact parseValue_str fuel s rest
  | .arr [], _, rest, fuel + 1, _, htext, _, _ => by
    rw [stringify, elementTexts] at htext
    cases htext
    change parseValue (fuel + 1) (openBracket :: closeBracket :: rest) = _
    have hne : openBracket ≠ quoteMark := by decide
    rw [parseValue, skipSpace_cons (by decide)]
    simp only [if_neg hne, if_true, skipSpace_cons (show isJsonSpace closeBracket = false by decide),
      List.head?_cons, List.tail_cons]
  | .arr (v :: elems), hv, rest, fuel + 1, _, htext, hfuel, _ => by
    rw [stringify] at htext
    cases htext
    have hlen : (commaSeparated (elementTexts (v :: elems))).length + 1 ≤ fuel := by
      simp only [List.length_append, List.length_cons, List.length_nil] at hfuel
      omega
    rw [List.cons_append, List.cons_append, List.append_assoc]
    exact parseValue_arr (begins_elementTexts hv.1) (parseElements_elementTexts hv.1 hv.2 _ _ hlen)
  | .obj [], _, rest, fuel + 1, _, htext, _, _ => by
    rw [stringify, memberTexts] at htext
    cases htext
    change parseValue (fuel + 1) (openBrace :: closeBrace :: rest) = _
    have hquote : openBrace ≠ quoteMark := by decide
    have hbracket : openBrace ≠ openBracket := by decide
    rw [parseValue, skipSpace_cons (by decide)]
    simp only [if_neg hquote, if_neg hbracket, if_true,
      skipSpace_cons (show isJsonSpace closeBrace = false by decide), List.head?_cons,
      List.tail_cons]
  | .obj ((name, v) :: props), hv, rest, fuel + 1, _, htext, hfuel, _ => by
    rw [stringify, memberTexts_eq hv.2 hv.1 (by simp)] at htext
    cases htext
    have hlen : (commaSeparated (((name, v) :: props).map memberText)).length + 1 ≤ fuel := by
      simp only [List.length_append, List.length_cons, List.length_nil] at hfuel
      omega
    rw [List.cons_append, List.cons_append, List.append_assoc]
    exact parseValue_obj (begins_memberTexts _ _)
      (parseMembers_memberTexts hv.2.1 hv.2.2 hv.1 _ _ hlen)

theorem parseElements_elementTexts : ∀ {v : JsValue} {elems : List JsValue}, IsJson v →
    AreJson elems → ∀ (rest : JsString) (fuel : ℕ),
    (commaSeparated (elementTexts (v :: elems))).length + 1 ≤ fuel →
    parseElements fuel (commaSeparated (elementTexts (v :: elems)) ++ closeBracket :: rest)
      = some (v :: elems, rest)
  | v, [], hv, _, rest, fuel + 1, hfuel => by
    obtain ⟨text, htext, -⟩ := begins_stringify hv
    rw [elementTexts, elementTexts, htext, Option.getD_some, commaSeparated] at hfuel ⊢
    have hread := parseValue_stringify hv (closeBracket :: rest) fuel htext
      (Nat.le_of_succ_le_succ hfuel) (by intro u hu; cases hu; decide)
    have hne : closeBracket ≠ comma := by decide
    rw [parseElements, hread]
    simp only [Option.bind_eq_bind, Option.bind_some,
      skipSpace_cons (show isJsonSpace closeBracket = false by decide), if_neg hne, if_true]
  | v, w :: elems, hv, helems, rest, fuel + 1, hfuel => by
    obtain ⟨text, htext, -⟩ := begins_stringify hv
    have hbody : commaSeparated (elementTexts (v :: w :: elems))
        = text ++ comma :: commaSeparated (elementTexts (w :: elems)) := by
      rw [elementTexts, htext, Option.getD_some, elementTexts, commaSeparated]
      · simp
    rw [hbody] at hfuel ⊢
    simp only [List.length_append, List.length_cons] at hfuel
    have hread := parseValue_stringify hv
      (comma :: (commaSeparated (elementTexts (w :: elems)) ++ closeBracket :: rest)) fuel
      htext (by omega) (by intro u hu; cases hu; decide)
    have hmore := parseElements_elementTexts helems.1 helems.2 rest fuel
      (by omega)
    rw [List.append_assoc, List.cons_append, parseElements, hread]
    simp only [Option.bind_eq_bind, Option.bind_some,
      skipSpace_cons (show isJsonSpace comma = false by decide), if_true, hmore]

theorem parseMembers_memberTexts : ∀ {name : String} {v : JsValue} {props : JsObject}, IsJson v →
    HoldJson props → (((name, v) :: props).map Prod.fst).Nodup → ∀ (rest : JsString) (fuel : ℕ),
    (commaSeparated (((name, v) :: props).map memberText)).length + 1 ≤ fuel →
    parseMembers fuel (commaSeparated (((name, v) :: props).map memberText) ++ closeBrace :: rest)
      = some ((name, v) :: props, rest)
  | name, v, [], hv, _, _, rest, fuel + 1, hfuel => by
    obtain ⟨text, htext, -⟩ := begins_stringify hv
    have hbody : commaSeparated ([(name, v)].map memberText)
        = quoteMark :: ((codePoints (lit name)).flatMap quotePoint
          ++ quoteMark :: colon :: text) := by
      simp [commaSeparated, memberText, quote, htext]
    rw [hbody] at hfuel ⊢
    simp only [List.length_append, List.length_cons] at hfuel
    have hread := parseValue_stringify hv (closeBrace :: rest) fuel htext
      (by omega) (by intro u hu; cases hu; decide)
    have hne : closeBrace ≠ comma := by decide
    rw [List.cons_append, List.append_assoc, List.cons_append, List.cons_append, parseMembers,
      skipSpace_cons (by decide)]
    simp only [if_true, parseString_quote, Option.bind_eq_bind, Option.bind_some,
      skipSpace_cons (show isJsonSpace colon = false by decide), hread,
      skipSpace_cons (show isJsonSpace closeBrace = false by decide), if_neg hne, nameOf_lit]
  | name, v, (name', w) :: props, hv, hprops, hnodup, rest, fuel + 1, hfuel => by
    obtain ⟨text, htext, -⟩ := begins_stringify hv
    have hbody : commaSeparated (((name, v) :: (name', w) :: props).map memberText)
        = quoteMark :: ((codePoints (lit name)).flatMap quotePoint
          ++ quoteMark :: colon :: (text
            ++ comma :: commaSeparated (((name', w) :: props).map memberText))) := by
      simp [commaSeparated, memberText, quote, htext]
    rw [hbody] at hfuel ⊢
    simp only [List.length_append, List.length_cons] at hfuel
    have hread := parseValue_stringify hv
      (comma :: (commaSeparated (((name', w) :: props).map memberText) ++ closeBrace :: rest)) fuel
      htext (by omega) (by intro u hu; cases hu; decide)
    rw [List.map_cons, List.nodup_cons] at hnodup
    have hmore := parseMembers_memberTexts hprops.1 hprops.2 hnodup.2 rest fuel
      (by omega)
    have hnew : (((name', w) :: props).any fun p => p.1 = name) = false := by
      rw [List.any_eq_false]
      intro p hp heq
      exact hnodup.1 (List.mem_map.mpr ⟨p, hp, decide_eq_true_eq.mp heq⟩)
    rw [List.cons_append, List.append_assoc, List.cons_append, List.cons_append,
      List.append_assoc, List.cons_append, parseMembers, skipSpace_cons (by decide)]
    simp only [if_true, parseString_quote, Option.bind_eq_bind, Option.bind_some,
      skipSpace_cons (show isJsonSpace colon = false by decide), hread,
      skipSpace_cons (show isJsonSpace comma = false by decide), hmore, nameOf_lit, hnew,
      Bool.false_eq_true, if_false]
end

theorem parse_stringify (hv : IsJson v) {text : JsString}
    (htext : stringify v = some text) : parse text = some v := by
  have hread := parseValue_stringify hv [] _ htext le_rfl (by intro u hu; cases hu)
  rw [List.append_nil] at hread
  rw [parse, hread]
  rfl

theorem stringify_isSome (hv : IsJson v) : ∃ text, stringify v = some text := by
  obtain ⟨text, htext, -⟩ := begins_stringify hv
  exact ⟨text, htext⟩

end

end SignetApp.Js
