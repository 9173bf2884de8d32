import SignetApp.Contacts.Types

/-!
# Text sanitiser

`text-sanitize.ts`: strip control, bidi and invisible characters, then trim, then cap. The order
matters: a text within its cap stays within it, so the cap never cuts what a guard let through
(`sanitizeDisplayName_length_le`).
-/

namespace SignetApp.Contacts

open SignetApp.Js

/-- The class `CONTROL_BIDI`. -/
def controlBidi (u : CodeUnit) : Bool :=
  u ≤ 0x1f || (0x7f ≤ u && u ≤ 0x9f) || (0x200b ≤ u && u ≤ 0x200f)
    || (0x2028 ≤ u && u ≤ 0x202e) || (0x2066 ≤ u && u ≤ 0x2069)

/-- The class `CONTROL_BIDI_MULTILINE`: the same without line feed and tab. -/
def controlBidiMultiline (u : CodeUnit) : Bool := controlBidi u && u != 0x09 && u != 0x0a

/-- Cap at `maxLen` code points, never inside a surrogate pair. -/
def capCodePoints (value : JsString) (maxLen : ℕ) : JsString :=
  if value.length ≤ maxLen then value else ((codePoints value).take maxLen).flatten

/-- Strip, trim and cap a single-line text. -/
def sanitizeDisplayName (raw : JsString) (maxLen : ℕ) : JsString :=
  capCodePoints (trim (raw.filter fun u => !controlBidi u)) maxLen

/-- The same for a multi-line text: line breaks and tabs survive. -/
def sanitizeNote (raw : JsString) (maxLen : ℕ) : JsString :=
  capCodePoints (trim (raw.filter fun u => !controlBidiMultiline u)) maxLen

variable {maxLen : ℕ} {raw : JsString}

theorem length_capCodePoints_le {p : CodeUnit → Bool}
    (h : raw.length ≤ maxLen) : (capCodePoints (trim (raw.filter p)) maxLen).length ≤ maxLen := by
  have htrim : (trim (raw.filter p)).length ≤ maxLen :=
    (length_trim_le _).trans ((List.length_filter_le _ _).trans h)
  rwa [capCodePoints, if_pos htrim]

theorem sanitizeDisplayName_length_le (h : raw.length ≤ maxLen) :
    (sanitizeDisplayName raw maxLen).length ≤ maxLen :=
  length_capCodePoints_le h

theorem sanitizeNote_length_le (h : raw.length ≤ maxLen) :
    (sanitizeNote raw maxLen).length ≤ maxLen :=
  length_capCodePoints_le h

/-- `clean(raw, cap)`: the one place single-line free text is cleaned before it is stored. -/
def clean {cap : ℕ} (raw : Text cap) : Text cap :=
  ⟨sanitizeDisplayName raw.val cap, sanitizeDisplayName_length_le raw.property⟩

/-- `sanitizeNote(raw, cap)` on a text within the cap. -/
def cleanNote {cap : ℕ} (raw : Text cap) : Text cap :=
  ⟨sanitizeNote raw.val cap, sanitizeNote_length_le raw.property⟩

/-- A text, unless it is empty. -/
def nonEmpty {cap : ℕ} (t : Text cap) : Option (Str cap) :=
  if h : 0 < t.val.length then some ⟨t.val, h, t.property⟩ else none

/-! ## Cleaned texts

A text that was cleaned is clean: nothing is stripped or trimmed from it again. -/

variable {α : Type} {as : List α}

theorem dropWhile_eq_self {p : α → Bool} (h : ∀ a ∈ as.head?, p a = false) :
    as.dropWhile p = as := by
  cases as with
  | nil => rfl
  | cons a as =>
    rw [List.dropWhile_cons, h a rfl]
    rfl

theorem head?_dropWhile {p : α → Bool} : ∀ a ∈ (as.dropWhile p).head?, p a = false := by
  induction as with
  | nil =>
    intro a ha
    cases ha
  | cons a as ih =>
    rw [List.dropWhile_cons]
    split
    · exact ih
    · next hp =>
      intro b hb
      obtain rfl := Option.some.inj hb
      exact Bool.not_eq_true _ ▸ hp

theorem trim_trim (s : JsString) : trim (trim s) = trim s := by
  unfold trim
  generalize ht : s.dropWhile isWhiteSpace = t
  have hhead : ∀ u ∈ t.head?, isWhiteSpace u = false := ht ▸ head?_dropWhile
  have hfront : ((t.reverse.dropWhile isWhiteSpace).reverse).dropWhile isWhiteSpace
      = (t.reverse.dropWhile isWhiteSpace).reverse := by
    apply dropWhile_eq_self
    intro u hu
    have hprefix : (t.reverse.dropWhile isWhiteSpace).reverse <+: t := by
      rw [← List.reverse_suffix, List.reverse_reverse]
      exact List.dropWhile_suffix _
    obtain ⟨rest, hrest⟩ := hprefix
    apply hhead u
    rw [← hrest, List.head?_append, hu]
    rfl
  rw [hfront, List.reverse_reverse, dropWhile_eq_self head?_dropWhile]

theorem mem_of_mem_trim {s : JsString} {u : CodeUnit} (h : u ∈ trim s) : u ∈ s := by
  unfold trim at h
  have h' := (List.dropWhile_sublist _).subset (List.mem_reverse.1 h)
  exact (List.dropWhile_sublist _).subset (List.mem_reverse.1 h')

theorem sanitizeDisplayName_idem {label : JsString} {cap : ℕ} (h : label.length ≤ cap) :
    sanitizeDisplayName (sanitizeDisplayName label cap) cap = sanitizeDisplayName label cap := by
  have hcap : ∀ s : JsString, s.length ≤ cap → sanitizeDisplayName s cap
      = trim (s.filter fun u => !controlBidi u) := by
    intro s hs
    unfold sanitizeDisplayName capCodePoints
    rw [if_pos ((length_trim_le _).trans ((List.length_filter_le _ _).trans hs))]
  have hlength := sanitizeDisplayName_length_le h
  rw [hcap _ hlength, hcap _ h]
  have hfilter : (trim (label.filter fun u => !controlBidi u)).filter (fun u => !controlBidi u)
      = trim (label.filter fun u => !controlBidi u) := by
    apply List.filter_eq_self.2
    intro u hu
    exact (List.mem_filter.1 (mem_of_mem_trim hu)).2
  rw [hfilter, trim_trim]

end SignetApp.Contacts
