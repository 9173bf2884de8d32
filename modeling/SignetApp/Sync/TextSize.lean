import SignetApp.Sync.Payload
import SignetApp.Js.JsonRoundTrip
import SignetApp.Sync.Wire

/-!
# The size of a JSON text

The text of an object is as long as its members together, and that of an array as long as its
elements: the order does not matter, and less is shorter.
-/

namespace SignetApp.Sync

open SignetApp.Js

/-- Parts with commas between and one after the last. -/
def sizes (parts : List JsString) : ℕ := (parts.map fun part => part.length + 1).sum

theorem length_commaSeparated (parts : List JsString) :
    (commaSeparated parts).length = sizes parts - 1 := by
  induction parts with
  | nil => rfl
  | cons part parts ih =>
    cases parts with
    | nil => rfl
    | cons next parts =>
      have hpos : 0 < sizes (next :: parts) := by simp [sizes]
      have hsizes : sizes (part :: next :: parts) = part.length + 1 + sizes (next :: parts) := by
        simp [sizes]
      have hlength : (commaSeparated (part :: next :: parts)).length
          = part.length + ((commaSeparated (next :: parts)).length + 1) := by
        rw [commaSeparated, List.length_append, List.length_cons]
        exact List.cons_ne_nil _ _
      rw [hlength, ih, hsizes]
      omega

theorem sizes_perm {ps qs : List JsString} (h : ps.Perm qs) : sizes ps = sizes qs :=
  (h.map _).sum_eq

theorem sizes_map_le {α : Type} {f g : α → JsString} {as : List α}
    (h : ∀ a ∈ as, (f a).length ≤ (g a).length) : sizes (as.map f) ≤ sizes (as.map g) := by
  rw [sizes, sizes, List.map_map, List.map_map]
  apply List.sum_le_sum
  intro a ha
  exact Nat.add_le_add_right (h a ha) 1

section

variable [Platform]

/-- The value has a text. -/
def Written (v : JsValue) : Prop := (stringify v).isSome = true

@[simp] theorem written_str (s : JsString) : Written (.str s) := by
  rw [Written, stringify]
  rfl

@[simp] theorem written_bool (b : Bool) : Written (.bool b) := by
  cases b <;> rw [Written, stringify] <;> rfl

@[simp] theorem written_num (n : JsNumber) : Written (.num n) := by
  unfold Written
  cases n <;> simp [stringify]

@[simp] theorem written_arr (elems : List JsValue) : Written (.arr elems) := by
  rw [Written, stringify]
  rfl

@[simp] theorem written_obj (props : JsObject) : Written (.obj props) := by
  rw [Written, stringify]
  rfl

/-! ## Arrays -/

theorem elementTexts_eq {elems : List JsValue} (h : ∀ v ∈ elems, Written v) :
    elementTexts elems = elems.map jsonText := by
  induction elems with
  | nil => rw [elementTexts, List.map_nil]
  | cons v elems ih =>
    obtain ⟨text, htext⟩ := Option.isSome_iff_exists.1 (h v List.mem_cons_self)
    rw [elementTexts, ih fun w hw => h w (List.mem_cons_of_mem _ hw), List.map_cons, jsonText, htext]
    rfl

theorem length_jsonText_arr {elems : List JsValue} (h : ∀ v ∈ elems, Written v) :
    (jsonText (.arr elems)).length = sizes (elems.map jsonText) - 1 + 2 := by
  rw [jsonText, stringify, elementTexts_eq h, ← length_commaSeparated]
  simp

/-! ## Objects -/

def propertyText (p : String × JsValue) : JsString := quote (lit p.1) ++ colon :: jsonText p.2

variable {props : JsObject}

theorem memberTexts_of_written (hwritten : ∀ p ∈ props, Written p.2) :
    ∀ {seen : List String}, (props.map Prod.fst).Nodup → (∀ p ∈ props, p.1 ∉ seen) →
    memberTexts seen props = props.map propertyText := by
  induction props with
  | nil =>
    intro seen _ _
    rw [memberTexts, List.map_nil]
  | cons p props ih =>
    intro seen hnodup hseen
    obtain ⟨name, v⟩ := p
    rw [List.map_cons, List.nodup_cons] at hnodup
    obtain ⟨text, htext⟩ := Option.isSome_iff_exists.1 (hwritten (name, v) List.mem_cons_self)
    have hrest : ∀ p ∈ props, p.1 ∉ name :: seen := by
      intro p hp
      rw [List.mem_cons, not_or]
      exact ⟨fun heq => hnodup.1 (List.mem_map.mpr ⟨p, hp, heq⟩),
        hseen p (List.mem_cons_of_mem _ hp)⟩
    rw [memberTexts, htext]
    simp only [if_neg (hseen (name, v) List.mem_cons_self)]
    rw [ih (fun p hp => hwritten p (List.mem_cons_of_mem _ hp)) hnodup.2 hrest, List.map_cons,
      propertyText, jsonText, htext, Option.getD_some]

/-- The members together. -/
def memberSizes (props : JsObject) : ℕ := sizes (props.map propertyText)

@[simp] theorem memberSizes_append (props props' : JsObject) :
    memberSizes (props ++ props') = memberSizes props + memberSizes props' := by
  simp [memberSizes, sizes]

@[simp] theorem memberSizes_cons (p : String × JsValue) (props : JsObject) :
    memberSizes (p :: props) = (propertyText p).length + 1 + memberSizes props := by
  simp [memberSizes, sizes]

theorem length_propertyText (p : String × JsValue) :
    (propertyText p).length = (quote (lit p.1)).length + ((jsonText p.2).length + 1) := by
  rw [propertyText, List.length_append, List.length_cons]

theorem length_jsonText_obj (hwritten : ∀ p ∈ props, Written p.2)
    (hnames : (props.map Prod.fst).Nodup) :
    (jsonText (.obj props)).length = memberSizes props - 1 + 2 := by
  rw [jsonText, stringify, memberTexts_of_written hwritten hnames fun _ _ => List.not_mem_nil,
    memberSizes, ← length_commaSeparated]
  simp

theorem length_jsonText_obj_lt {extra : JsObject} (hwritten : ∀ p ∈ props ++ extra, Written p.2)
    (hnames : ((props ++ extra).map Prod.fst).Nodup) (hprops : props ≠ []) (hextra : extra ≠ []) :
    (jsonText (.obj props)).length < (jsonText (.obj (props ++ extra))).length := by
  have hnames' : (props.map Prod.fst).Nodup := by
    rw [List.map_append] at hnames
    exact hnames.of_append_left
  rw [length_jsonText_obj hwritten hnames, memberSizes_append,
    length_jsonText_obj (fun p hp => hwritten p (List.mem_append_left _ hp)) hnames']
  have hpos : ∀ {props : JsObject}, props ≠ [] → 0 < memberSizes props := by
    intro props hne
    cases props with
    | nil => exact absurd rfl hne
    | cons p props =>
      rw [memberSizes_cons]
      omega
  have hprops' := hpos hprops
  have hextra' := hpos hextra
  omega

end

/-! ## The bytes of a JSON text

As long in bytes as its members, or its elements, together: in whichever order they stand. -/

/-! ## Bytes of strings -/

/-- One byte in UTF-8. -/
def IsAscii (s : JsString) : Prop := ∀ u ∈ s, u.val < 128

variable {u : CodeUnit}

theorem not_isHighSurrogate (h : u.val < 128) : isHighSurrogate u = false := by
  have hlt : ¬ (0xD800 : CodeUnit) ≤ u := fun hle => by
    have hval : 0xD800 ≤ u.val := hle
    omega
  simp [isHighSurrogate, hlt]

theorem not_isLowSurrogate (h : u.val < 128) : isLowSurrogate u = false := by
  have hlt : ¬ (0xDC00 : CodeUnit) ≤ u := fun hle => by
    have hval : 0xDC00 ≤ u.val := hle
    omega
  simp [isLowSurrogate, hlt]

theorem codePoints_cons (h : u.val < 128) (s : JsString) :
    codePoints (u :: s) = [u] :: codePoints s := by
  cases s with
  | nil => rfl
  | cons v s => simp [codePoints, not_isHighSurrogate h]

theorem codePoints_append (h : u.val < 128) (s t : JsString) :
    codePoints (s ++ u :: t) = codePoints s ++ codePoints (u :: t) := by
  induction s using codePoints.induct with
  | case1 => rfl
  | case2 v =>
    show codePoints (v :: u :: t) = [v] :: codePoints (u :: t)
    simp [codePoints, not_isLowSurrogate h]
  | case3 v w s hpair ih =>
    show codePoints (v :: w :: (s ++ u :: t)) = _
    rw [codePoints, if_pos hpair, ih, codePoints, if_pos hpair, List.cons_append]
  | case4 v w s hpair ih =>
    show codePoints (v :: w :: (s ++ u :: t)) = _
    rw [codePoints, if_neg hpair, codePoints, if_neg hpair, List.cons_append]
    exact congrArg _ ih

theorem utf8Length_cons (h : u.val < 128) (s : JsString) :
    utf8Length (u :: s) = 1 + utf8Length s := by
  have hone : u < 0x80 := h
  rw [utf8Length, codePoints_cons h, List.map_cons, List.sum_cons]
  simp [utf8PointLength, hone, utf8Length]

theorem utf8Length_append (h : u.val < 128) (s t : JsString) :
    utf8Length (s ++ u :: t) = utf8Length s + (1 + utf8Length t) := by
  rw [utf8Length, codePoints_append h, List.map_append, List.sum_append]
  exact congrArg _ (utf8Length_cons h t)

variable {s : JsString}

theorem utf8Length_of_isAscii (h : IsAscii s) : utf8Length s = s.length := by
  induction s with
  | nil => rfl
  | cons u s ih =>
    rw [utf8Length_cons (h u List.mem_cons_self), ih fun v hv => h v (List.mem_cons_of_mem _ hv), List.length_cons,
      Nat.add_comm]

/-! ## Bytes of texts -/

/-- Parts with commas between and one after the last. -/
def bytes (parts : List JsString) : ℕ := (parts.map fun part => utf8Length part + 1).sum

theorem bytes_perm {ps qs : List JsString} (h : ps.Perm qs) : bytes ps = bytes qs := (h.map _).sum_eq

theorem utf8Length_commaSeparated (parts : List JsString) :
    utf8Length (commaSeparated parts) = bytes parts - 1 := by
  induction parts with
  | nil => rfl
  | cons part parts ih =>
    cases parts with
    | nil => rfl
    | cons next parts =>
      have hpos : 0 < bytes (next :: parts) := by simp [bytes]
      have hbytes : bytes (part :: next :: parts) = utf8Length part + 1 + bytes (next :: parts) := by
        simp [bytes]
      rw [commaSeparated, utf8Length_append (by decide), ih, hbytes]
      · omega
      · exact List.cons_ne_nil _ _

theorem utf8Length_bracketed {l r : CodeUnit} (hl : l.val < 128) (hr : r.val < 128) (s : JsString) :
    utf8Length (l :: s ++ [r]) = utf8Length s + 2 := by
  rw [List.cons_append, utf8Length_cons hl, utf8Length_append hr]
  show 1 + (utf8Length s + (1 + 0)) = _
  omega

theorem utf8Length_quote (s : JsString) :
    utf8Length (quote s) = utf8Length ((codePoints s).flatMap quotePoint) + 2 :=
  utf8Length_bracketed (by decide) (by decide) _

/-! ## Keys -/

/-- A character that stands for itself in a text. -/
def isPlain (u : CodeUnit) : Bool :=
  32 ≤ u.val && u.val < 127 && u ≠ quoteMark && u ≠ backslash

theorem quotePoint_of_isPlain (h : isPlain u = true) : quotePoint [u] = [u] := by
  simp only [isPlain, Bool.and_eq_true, decide_eq_true_eq] at h
  obtain ⟨⟨⟨hge, hlt⟩, hquote⟩, hslash⟩ := h
  have hne : ∀ v : CodeUnit, v.val < 32 → u ≠ v := fun v hv he => by
    rw [he] at hge
    omega
  have hescape : escapeLetter u = none := by
    simp [escapeLetter, hquote, hslash, hne 8 (by decide), hne 9 (by decide), hne 10 (by decide),
      hne 12 (by decide), hne 13 (by decide)]
  have hcontrol : ¬ u < 32 := fun hu => by
    have hval : u.val < 32 := hu
    omega
  simp [quotePoint, hescape, hcontrol, not_isHighSurrogate (u := u) (by omega),
    not_isLowSurrogate (u := u) (by omega)]

theorem lt_of_isPlain (h : isPlain u = true) : u.val < 128 := by
  simp only [isPlain, Bool.and_eq_true, decide_eq_true_eq] at h
  omega

theorem flatMap_quotePoint_of_isPlain (h : ∀ u ∈ s, isPlain u = true) :
    (codePoints s).flatMap quotePoint = s := by
  induction s with
  | nil => rfl
  | cons u s ih =>
    have hu := h u List.mem_cons_self
    rw [codePoints_cons (lt_of_isPlain hu), List.flatMap_cons, quotePoint_of_isPlain hu,
      ih fun v hv => h v (List.mem_cons_of_mem _ hv)]
    rfl

theorem length_quote_of_isPlain (h : ∀ u ∈ s, isPlain u = true) :
    (quote s).length = s.length + 2 := by
  rw [quote, flatMap_quotePoint_of_isPlain h, List.length_append, List.length_cons,
    List.length_singleton]

theorem utf8Length_quote_of_isPlain (h : ∀ u ∈ s, isPlain u = true) :
    utf8Length (quote s) = s.length + 2 := by
  rw [utf8Length_quote, flatMap_quotePoint_of_isPlain h,
    utf8Length_of_isAscii fun u hu => lt_of_isPlain (h u hu)]

theorem isPlain_of_isHexDigit (h : isHexDigit u = true) : isPlain u = true := by
  simp only [isHexDigit, Bool.or_eq_true, Bool.and_eq_true, decide_eq_true_eq, Fin.le_def] at h
  have hrange : 48 ≤ u.val ∧ u.val ≤ 57 ∨ 97 ≤ u.val ∧ u.val ≤ 102 := h
  have hquote : u ≠ quoteMark := fun he => by
    rw [he] at hrange
    revert hrange
    decide
  have hslash : u ≠ backslash := fun he => by
    rw [he] at hrange
    revert hrange
    decide
  simp only [isPlain, hquote, hslash, ne_eq, not_false_eq_true, decide_true, Bool.and_true, Bool.and_eq_true,
    decide_eq_true_eq]
  omega

theorem length_of_isHexOf {n : ℕ} (h : isHexOf n s = true) : s.length = n := by
  simp only [isHexOf, Bool.and_eq_true, beq_iff_eq] at h
  exact h.1

/-! ## Integers -/

theorem length_digitsText_le {m n : ℕ} (h : m ≤ n) : (digitsText m).length ≤ (digitsText n).length := by
  rw [digitsText, digitsText, List.length_map, List.length_map]
  rw [Nat.length_toDigits_le_iff (by decide) Nat.length_toDigits_pos]
  exact h.trans_lt ((Nat.length_toDigits_le_iff (by decide) Nat.length_toDigits_pos).1 le_rfl)

theorem isAscii_digitsText (n : ℕ) : IsAscii (digitsText n) := by
  intro u hu
  obtain ⟨c, hc, rfl⟩ := List.mem_map.1 hu
  have hisDigit := Nat.isDigit_of_mem_toDigits (by decide) (by decide) hc
  rw [(val_unit_of_isDigit hisDigit).1]
  have hrange : 48 ≤ c.toNat ∧ c.toNat ≤ 57 := by
    simpa [Char.isDigit, UInt32.le_iff_toNat_le] using hisDigit
  omega

section

variable [Platform]

variable {n : ℕ}

theorem utf8Length_jsonText_hex (key : Hex n) : utf8Length (jsonText key.toJs) = n + 2 := by
  have hkey := key.property
  have hlength := length_of_isHexOf hkey
  simp only [isHexOf, Bool.and_eq_true, List.all_eq_true] at hkey
  rw [Hex.toJs, jsonText, stringify]
  show utf8Length (quote key.val) = _
  rw [utf8Length_quote_of_isPlain fun u hu => isPlain_of_isHexDigit (hkey.2 u hu), hlength]

/-- An integer that a number holds exactly is printed as its decimal digits. -/
def IntegersInDecimal : Prop := ∀ n : ℕ, n < 10 ^ 21 → Platform.numberText n = digitsText n

theorem jsonText_ofNat (h : IntegersInDecimal) (hn : n < 10 ^ 21) : jsonText (.ofNat n) = digitsText n := by
  rw [JsValue.ofNat, jsonText, stringify]
  exact h n hn

theorem utf8Length_jsonText_ofNat (h : IntegersInDecimal) {e : ℕ} (he : 0 < e) (hle : e ≤ 21)
    (hn : n < 10 ^ e) : utf8Length (jsonText (.ofNat n)) ≤ e := by
  rw [jsonText_ofNat h (hn.trans_le (Nat.pow_le_pow_right (by decide) hle)),
    utf8Length_of_isAscii (isAscii_digitsText n), digitsText, List.length_map]
  exact Nat.toDigits_length 10 n e he hn

theorem utf8Length_ofNat_le (hdecimal : IntegersInDecimal) {m : ℕ} (h : m ≤ n) (hn : n < 10 ^ 21) :
    utf8Length (jsonText (.ofNat m)) ≤ utf8Length (jsonText (.ofNat n)) := by
  rw [jsonText_ofNat hdecimal (h.trans_lt hn), jsonText_ofNat hdecimal hn, utf8Length_of_isAscii (isAscii_digitsText m),
    utf8Length_of_isAscii (isAscii_digitsText n)]
  exact length_digitsText_le h

theorem utf8Length_jsonText_arr {elems : List JsValue} (h : ∀ v ∈ elems, Written v) :
    utf8Length (jsonText (.arr elems)) = bytes (elems.map jsonText) - 1 + 2 := by
  rw [jsonText, stringify, elementTexts_eq h]
  show utf8Length (openBracket :: commaSeparated (elems.map jsonText) ++ [closeBracket]) = _
  rw [utf8Length_bracketed (by decide) (by decide), utf8Length_commaSeparated]

/-- The members together. -/
def memberBytes (props : JsObject) : ℕ := bytes (props.map propertyText)

theorem utf8Length_propertyText (p : String × JsValue) :
    utf8Length (propertyText p) = utf8Length (quote (lit p.1)) + (1 + utf8Length (jsonText p.2)) := by
  rw [propertyText, utf8Length_append (by decide)]

@[simp] theorem memberBytes_nil : memberBytes [] = 0 := rfl

@[simp] theorem memberBytes_cons (p : String × JsValue) (props : JsObject) :
    memberBytes (p :: props) =
      utf8Length (quote (lit p.1)) + (1 + utf8Length (jsonText p.2)) + 1 + memberBytes props := by
  rw [← utf8Length_propertyText]
  simp [memberBytes, bytes]

theorem utf8Length_jsonText_obj {props : JsObject} (hwritten : ∀ p ∈ props, Written p.2)
    (hnames : (props.map Prod.fst).Nodup) :
    utf8Length (jsonText (.obj props)) = memberBytes props - 1 + 2 := by
  rw [jsonText, stringify, memberTexts_of_written hwritten hnames fun _ _ => List.not_mem_nil]
  show utf8Length (openBrace :: commaSeparated (props.map propertyText) ++ [closeBrace]) = _
  rw [utf8Length_bracketed (by decide) (by decide), utf8Length_commaSeparated]
  rfl

end

theorem integersInDecimal_decimal : @IntegersInDecimal decimalNumerals.toPlatform := by
  intro n _
  show (if (n : ℚ).num < 0 then [unit '-'] else []) ++ digitsText (n : ℚ).num.natAbs = digitsText n
  rw [Rat.num_natCast]
  simp

end SignetApp.Sync
