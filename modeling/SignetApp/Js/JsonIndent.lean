import SignetApp.Js.JsonRoundTrip

/-!
# Indented JSON

`JSON.stringify(value, null, 2)`, and that it is read back like the text on one line.
-/

namespace SignetApp.Js

/-! ## Writing -/

/-- A new line, indented. -/
def newLine (depth : ℕ) : JsString := 10 :: List.replicate (2 * depth) 32

/-- Parts with commas between them, each after the first on a line of its own. -/
def joinedLines (line : JsString) : List JsString → JsString
  | [] => []
  | [part] => part
  | part :: parts => part ++ comma :: line ++ joinedLines line parts

/-- The parts between brackets, on lines of their own if there are any. -/
def enclosed (opening closing : CodeUnit) (depth : ℕ) (parts : List JsString) : JsString :=
  if parts = [] then [opening, closing]
  else opening :: newLine (depth + 1) ++ joinedLines (newLine (depth + 1)) parts ++ newLine depth ++ [closing]

section

variable [Platform]

mutual
/-- `JSON.stringify(v, null, 2)`, at a depth. -/
def indented (depth : ℕ) : JsValue → Option JsString
  | .arr elems => some (enclosed openBracket closeBracket depth (indentedElements (depth + 1) elems))
  | .obj props => some (enclosed openBrace closeBrace depth (indentedMembers (depth + 1) [] props))
  | v => stringify v

def indentedElements (depth : ℕ) : List JsValue → List JsString
  | [] => []
  | v :: rest => (indented depth v).getD (lit "null") :: indentedElements depth rest

def indentedMembers (depth : ℕ) (seen : List String) : List (String × JsValue) → List JsString
  | [] => []
  | (name, v) :: rest =>
    match indented depth v with
    | some text =>
      if name ∈ seen then indentedMembers depth seen rest
      else (quote (lit name) ++ colon :: 32 :: text) :: indentedMembers depth (name :: seen) rest
    | none => indentedMembers depth (name :: seen) rest
end

/-- `JSON.stringify(v, null, 2)`. -/
def stringifyIndented (v : JsValue) : Option JsString := indented 0 v

end

/-! ## Reading -/

/-- White space only. -/
def Blank (s : JsString) : Prop := ∀ u ∈ s, isJsonSpace u = true

theorem blank_newLine (depth : ℕ) : Blank (newLine depth) := by
  intro u hu
  rcases List.mem_cons.1 hu with rfl | hu
  · decide
  · rw [List.eq_of_mem_replicate hu]
    decide

theorem skipSpace_blank {pad : JsString} (h : Blank pad) (s : JsString) :
    skipSpace (pad ++ s) = skipSpace s := by
  unfold skipSpace
  rw [List.dropWhile_append_of_pos h]

section

variable [Numerals]

variable {pad : JsString}

theorem parseValue_blank (h : Blank pad) (fuel : ℕ) (s : JsString) :
    parseValue fuel (pad ++ s) = parseValue fuel s := by
  cases fuel with
  | zero => rw [parseValue, parseValue]
  | succ fuel => rw [parseValue, skipSpace_blank h, parseValue]

theorem parseValue_space (fuel : ℕ) (s : JsString) : parseValue fuel (32 :: s) = parseValue fuel s := by
  have hblank : Blank [32] := by
    intro u hu
    rw [List.mem_singleton.1 hu]
    decide
  exact parseValue_blank hblank fuel s

theorem parseMembers_blank (h : Blank pad) (fuel : ℕ) (s : JsString) :
    parseMembers fuel (pad ++ s) = parseMembers fuel s := by
  cases fuel with
  | zero => rw [parseMembers, parseMembers]
  | succ fuel => rw [parseMembers, skipSpace_blank h, parseMembers]

/-- The text is one of the value, wherever it stands. -/
structure Reads (text : JsString) (v : JsValue) : Prop where
  begins : Begins text
  parses : ∀ fuel rest, text.length ≤ fuel → Stops rest → parseValue fuel (text ++ rest) = some (v, rest)

variable {v : JsValue}

theorem reads_stringify (hv : IsJson v) {text : JsString} (htext : stringify v = some text) :
    Reads text v := by
  obtain ⟨text', htext', hbegins⟩ := begins_stringify hv
  obtain rfl := Option.some.inj (htext.symm.trans htext')
  exact ⟨hbegins, fun fuel rest hfuel hrest => parseValue_stringify hv rest fuel htext hfuel hrest⟩

omit [Numerals] in
theorem stops_of_blank (h : Blank pad) {u : CodeUnit} (hu : isNumeralUnit u = false)
    (rest : JsString) : Stops (pad ++ u :: rest) := by
  intro x hx
  cases pad with
  | nil =>
    cases hx
    exact hu
  | cons p pad =>
    obtain rfl := Option.some.inj hx
    have hspace := h p List.mem_cons_self
    simp only [isJsonSpace, Bool.or_eq_true, beq_iff_eq] at hspace
    rcases hspace with ((rfl | rfl) | rfl) | rfl <;> decide

theorem parseElements_blank (h : Blank pad) (fuel : ℕ) (s : JsString) :
    parseElements fuel (pad ++ s) = parseElements fuel s := by
  cases fuel with
  | zero => rw [parseElements, parseElements]
  | succ fuel => rw [parseElements, parseValue_blank h, parseElements]

variable {parts : List JsString}

variable {vs : List JsValue} {line : JsString}

/-- The elements of an array, up to its closing bracket. -/
theorem parseElements_joinedLines (hline : Blank line) (hpad : Blank pad) (h : List.Forall₂ Reads parts vs) (hne : parts ≠ [])
    (rest : JsString) : ∀ fuel, (joinedLines line parts).length + 1 ≤ fuel →
    parseElements fuel (joinedLines line parts ++ (pad ++ closeBracket :: rest)) = some (vs, rest) := by
  induction h with
  | nil => exact absurd rfl hne
  | @cons part v parts vs hreads hrest ih =>
    intro fuel hfuel
    obtain ⟨fuel, rfl⟩ : ∃ k, fuel = k + 1 := Nat.exists_eq_add_of_le' (by omega)
    cases hrest with
    | nil =>
      have hclose : closeBracket ≠ comma := by decide
      have hread := hreads.parses fuel (pad ++ closeBracket :: rest) (Nat.le_of_succ_le_succ hfuel)
        (stops_of_blank hpad (by decide) rest)
      show parseElements (fuel + 1) (part ++ _) = _
      rw [parseElements, hread]
      simp only [Option.bind_eq_bind, Option.bind_some, skipSpace_blank hpad,
        skipSpace_cons (show isJsonSpace closeBracket = false by decide), if_neg hclose, if_true]
    | @cons part' v' parts vs _ _ =>
      have hbody : joinedLines line (part :: part' :: parts)
          = part ++ comma :: (line ++ joinedLines line (part' :: parts)) := by
        simp [joinedLines]
      rw [hbody] at hfuel ⊢
      simp only [List.length_append, List.length_cons] at hfuel
      have hread := hreads.parses fuel
        (comma :: (line ++ joinedLines line (part' :: parts)) ++ (pad ++ closeBracket :: rest)) (by omega)
        (by intro u hu; cases hu; decide)
      have hmore := ih (List.cons_ne_nil _ _) fuel (by omega)
      rw [List.append_assoc, parseElements, hread]
      simp only [Option.bind_eq_bind, Option.bind_some, List.cons_append,
        skipSpace_cons (show isJsonSpace comma = false by decide), if_true, List.append_assoc,
        parseElements_blank hline, hmore]

def memberLine (name : String) (text : JsString) : JsString := quote (lit name) ++ colon :: 32 :: text

variable {props : JsObject}

/-- The members of an object, up to its closing brace. -/
theorem parseMembers_joinedLines (hline : Blank line) (hpad : Blank pad)
    (h : List.Forall₂ (fun part p => ∃ text, part = memberLine p.1 text ∧ Reads text p.2) parts props)
    (hnames : (props.map Prod.fst).Nodup) (hne : parts ≠ []) (rest : JsString) :
    ∀ fuel, (joinedLines line parts).length + 1 ≤ fuel →
    parseMembers fuel (joinedLines line parts ++ (pad ++ closeBrace :: rest)) = some (props, rest) := by
  induction h with
  | nil => exact absurd rfl hne
  | @cons part p parts props hpart hrest ih =>
    intro fuel hfuel
    obtain ⟨fuel, rfl⟩ : ∃ k, fuel = k + 1 := Nat.exists_eq_add_of_le' (by omega)
    obtain ⟨text, rfl, hreads⟩ := hpart
    obtain ⟨name, v⟩ := p
    rw [List.map_cons, List.nodup_cons] at hnames
    cases hrest with
    | nil =>
      have hclose : closeBrace ≠ comma := by decide
      have hbody : joinedLines line [memberLine name text]
          = quoteMark :: ((codePoints (lit name)).flatMap quotePoint ++ quoteMark :: colon :: 32 :: text) := by
        simp [joinedLines, memberLine, quote]
      rw [hbody] at hfuel ⊢
      simp only [List.length_append, List.length_cons] at hfuel
      have hread := hreads.parses fuel (pad ++ closeBrace :: rest) (by omega)
        (stops_of_blank hpad (by decide) rest)
      rw [List.cons_append, List.append_assoc, List.cons_append, List.cons_append, List.cons_append,
        parseMembers, skipSpace_cons (by decide)]
      simp only [if_true, parseString_quote, Option.bind_eq_bind, Option.bind_some,
        skipSpace_cons (show isJsonSpace colon = false by decide),
        parseValue_space, hread, skipSpace_blank hpad,
        skipSpace_cons (show isJsonSpace closeBrace = false by decide), if_neg hclose, nameOf_lit]
    | @cons part' p' parts props _ _ =>
      have hbody : joinedLines line (memberLine name text :: part' :: parts)
          = quoteMark :: ((codePoints (lit name)).flatMap quotePoint ++ quoteMark :: colon :: 32 :: (text
            ++ comma :: (line ++ joinedLines line (part' :: parts)))) := by
        simp [joinedLines, memberLine, quote]
      rw [hbody] at hfuel ⊢
      simp only [List.length_append, List.length_cons] at hfuel
      have hread := hreads.parses fuel
        (comma :: (line ++ (joinedLines line (part' :: parts) ++ (pad ++ closeBrace :: rest)))) (by omega)
        (by intro u hu; cases hu; decide)
      have hmore := ih hnames.2 (List.cons_ne_nil _ _) fuel (by omega)
      have hnew : ((p' :: props).any fun p => p.1 = name) = false := by
        rw [List.any_eq_false]
        intro q hq heq
        exact hnames.1 (List.mem_map.mpr ⟨q, hq, decide_eq_true_eq.mp heq⟩)
      rw [List.cons_append, List.append_assoc, List.cons_append, List.cons_append, parseMembers,
        skipSpace_cons (by decide)]
      simp only [if_true, parseString_quote, Option.bind_eq_bind, Option.bind_some, List.append_assoc,
        List.cons_append, skipSpace_cons (show isJsonSpace colon = false by decide),
        parseValue_space, hread, skipSpace_cons (show isJsonSpace comma = false by decide),
        parseMembers_blank hline, hmore, nameOf_lit, hnew, Bool.false_eq_true, if_false]

omit [Numerals] in
theorem begins_joinedLines (line : JsString) {part : JsString} (h : Begins part) (parts : List JsString) :
    Begins (joinedLines line (part :: parts)) := by
  cases parts with
  | nil => exact h
  | cons part' parts =>
    have hbody : joinedLines line (part :: part' :: parts)
        = part ++ (comma :: line ++ joinedLines line (part' :: parts)) := by simp [joinedLines]
    rw [hbody]
    exact h.append _

variable {depth : ℕ}

/-- An array on several lines. -/
theorem reads_arr (h : List.Forall₂ Reads parts vs) :
    Reads (enclosed openBracket closeBracket depth parts) (.arr vs) := by
  cases h with
  | nil => exact reads_stringify (v := .arr []) trivial rfl
  | @cons part v parts vs hpart hrest =>
    have hline := blank_newLine (depth + 1)
    have hbegins := begins_joinedLines (newLine (depth + 1)) hpart.begins parts
    have htext : enclosed openBracket closeBracket depth (part :: parts) = openBracket ::
        (newLine (depth + 1) ++ (joinedLines (newLine (depth + 1)) (part :: parts)
          ++ (newLine depth ++ [closeBracket]))) := by
      simp [enclosed]
    rw [htext]
    refine ⟨⟨openBracket, _, rfl, by decide⟩, ?_⟩
    intro fuel rest hfuel _
    simp only [List.length_cons, List.length_append] at hfuel
    obtain ⟨fuel, rfl⟩ : ∃ k, fuel = k + 1 := Nat.exists_eq_add_of_le' (by omega)
    have hread := parseElements_joinedLines hline (blank_newLine depth) (.cons hpart hrest)
      (List.cons_ne_nil _ _) rest fuel (by omega)
    have hskip := (hbegins.append (newLine depth ++ closeBracket :: rest)).skipSpace_eq
    have hquote : openBracket ≠ quoteMark := by decide
    have hhead : (joinedLines (newLine (depth + 1)) (part :: parts)
        ++ (newLine depth ++ closeBracket :: rest)).head? ≠ some closeBracket := by
      obtain ⟨u, tail, heq, -, hu, -⟩ := hbegins
      rw [heq]
      exact fun hu' => hu (Option.some.inj hu')
    rw [List.cons_append, parseValue, skipSpace_cons (by decide)]
    simp only [if_neg hquote, if_true, List.append_assoc, List.cons_append, List.nil_append,
      skipSpace_blank hline, hskip, if_neg hhead, parseElements_blank hline, hread, Option.bind_eq_bind,
      Option.bind_some]

/-- An object on several lines. -/
theorem reads_obj
    (h : List.Forall₂ (fun part p => ∃ text, part = memberLine p.1 text ∧ Reads text p.2) parts props)
    (hnames : (props.map Prod.fst).Nodup) :
    Reads (enclosed openBrace closeBrace depth parts) (.obj props) := by
  cases h with
  | nil => exact reads_stringify (v := .obj []) ⟨List.nodup_nil, trivial⟩ rfl
  | @cons part p parts props hpart hrest =>
    have hline := blank_newLine (depth + 1)
    have hbegin : Begins part := by
      obtain ⟨text, rfl, -⟩ := hpart
      exact ⟨quoteMark, _, rfl, by decide⟩
    have hbegins := begins_joinedLines (newLine (depth + 1)) hbegin parts
    have htext : enclosed openBrace closeBrace depth (part :: parts) = openBrace ::
        (newLine (depth + 1) ++ (joinedLines (newLine (depth + 1)) (part :: parts)
          ++ (newLine depth ++ [closeBrace]))) := by
      simp [enclosed]
    rw [htext]
    refine ⟨⟨openBrace, _, rfl, by decide⟩, ?_⟩
    intro fuel rest hfuel _
    simp only [List.length_cons, List.length_append] at hfuel
    obtain ⟨fuel, rfl⟩ : ∃ k, fuel = k + 1 := Nat.exists_eq_add_of_le' (by omega)
    have hread := parseMembers_joinedLines hline (blank_newLine depth) (.cons hpart hrest) hnames
      (List.cons_ne_nil _ _) rest fuel (by omega)
    have hskip := (hbegins.append (newLine depth ++ closeBrace :: rest)).skipSpace_eq
    have hquote : openBrace ≠ quoteMark := by decide
    have hbracket : openBrace ≠ openBracket := by decide
    have hhead : (joinedLines (newLine (depth + 1)) (part :: parts)
        ++ (newLine depth ++ closeBrace :: rest)).head? ≠ some closeBrace := by
      obtain ⟨u, tail, heq, -, -, hu⟩ := hbegins
      rw [heq]
      exact fun hu' => hu (Option.some.inj hu')
    rw [List.cons_append, parseValue, skipSpace_cons (by decide)]
    simp only [if_neg hquote, if_neg hbracket, if_true, List.append_assoc, List.cons_append,
      List.nil_append, skipSpace_blank hline, hskip, if_neg hhead, parseMembers_blank hline, hread,
      Option.bind_eq_bind, Option.bind_some]

mutual
theorem reads_indented : ∀ {v : JsValue}, IsJson v → ∀ depth, ∃ text, indented depth v = some text ∧
    Reads text v
  | .undefined, hv, _ => by cases hv
  | .null, hv, depth => by
    obtain ⟨text, htext, -⟩ := begins_stringify hv
    exact ⟨text, htext, reads_stringify hv htext⟩
  | .bool b, hv, depth => by
    obtain ⟨text, htext, -⟩ := begins_stringify hv
    exact ⟨text, htext, reads_stringify hv htext⟩
  | .num n, hv, depth => by
    obtain ⟨text, htext, -⟩ := begins_stringify hv
    exact ⟨text, htext, reads_stringify hv htext⟩
  | .str s, hv, depth => by
    obtain ⟨text, htext, -⟩ := begins_stringify hv
    exact ⟨text, htext, reads_stringify hv htext⟩
  | .arr elems, hv, depth => ⟨_, rfl, reads_arr (reads_indentedElements hv (depth + 1))⟩
  | .obj props, hv, depth =>
    ⟨_, rfl, reads_obj (reads_indentedMembers hv.2 hv.1 (depth + 1) (fun _ _ => List.not_mem_nil)) hv.1⟩

theorem reads_indentedElements : ∀ {elems : List JsValue}, AreJson elems → ∀ depth,
    List.Forall₂ Reads (indentedElements depth elems) elems
  | [], _, _ => .nil
  | v :: elems, hv, depth => by
    obtain ⟨text, htext, hreads⟩ := reads_indented hv.1 depth
    rw [indentedElements, htext]
    exact .cons hreads (reads_indentedElements hv.2 depth)

theorem reads_indentedMembers : ∀ {props : JsObject}, HoldJson props → (props.map Prod.fst).Nodup →
    ∀ depth {seen : List String}, (∀ p ∈ props, p.1 ∉ seen) →
    List.Forall₂ (fun part p => ∃ text, part = memberLine p.1 text ∧ Reads text p.2)
      (indentedMembers depth seen props) props
  | [], _, _, _, _, _ => .nil
  | (name, v) :: props, hv, hnames, depth, seen, hseen => by
    obtain ⟨text, htext, hreads⟩ := reads_indented hv.1 depth
    rw [List.map_cons, List.nodup_cons] at hnames
    have hrest : ∀ p ∈ props, p.1 ∉ name :: seen := by
      intro p hp
      rw [List.mem_cons, not_or]
      exact ⟨fun heq => hnames.1 (List.mem_map.mpr ⟨p, hp, heq⟩), hseen p (List.mem_cons_of_mem _ hp)⟩
    rw [indentedMembers, htext]
    simp only [if_neg (hseen (name, v) List.mem_cons_self)]
    exact .cons ⟨text, rfl, hreads⟩ (reads_indentedMembers hv.2 hnames.2 depth hrest)
end

theorem parse_stringifyIndented (hv : IsJson v) :
    ∃ text, stringifyIndented v = some text ∧ parse text = some v := by
  obtain ⟨text, htext, hreads⟩ := reads_indented hv 0
  refine ⟨text, htext, ?_⟩
  have hread := hreads.parses text.length [] le_rfl (by intro u hu; cases hu)
  rw [List.append_nil] at hread
  rw [parse, hread]
  rfl

end

end SignetApp.Js
