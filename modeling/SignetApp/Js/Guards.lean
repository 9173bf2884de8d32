import SignetApp.Js.Value

/-!
# Type guards as parsers

A TypeScript guard `v is T` tells the checker that a value has a type; here it *returns* the value
at that type, so that what passed a guard carries the guard's facts. A union of string literals is
an inductive type with a list of its members (`StringUnion`).
-/

namespace SignetApp.Js

/-! ## Unions of string literals -/

/-- An inductive type standing for a union of string literals. -/
class StringUnion (α : Type) where
  members : List α
  name : α → String

namespace StringUnion

variable {α : Type} [StringUnion α]

/-- The member as a value. -/
def toJs (a : α) : JsValue := .ofLit (name a)

/-- `v === 'first' || v === 'second' || …`. -/
def parse (v : JsValue) : Option α := (members (α := α)).find? fun a => v = toJs a

end StringUnion

/-- Every member is listed, and no two share a name. -/
class LawfulStringUnion (α : Type) [StringUnion α] : Prop where
  parse_toJs : ∀ a : α, StringUnion.parse (StringUnion.toJs a) = some a

/-! ## Times and counts -/

/-- A finite number that is not negative: a time in milliseconds. -/
def Timestamp := { q : ℚ // 0 ≤ q }

instance : LinearOrder Timestamp := inferInstanceAs (LinearOrder { q : ℚ // 0 ≤ q })

def maxSafeInteger : ℕ := 2 ^ 53 - 1

/-- Integers from `0` to `bound`. -/
def BoundedNat (bound : ℕ) := { n : ℕ // n ≤ bound }

instance (bound : ℕ) : DecidableEq (BoundedNat bound) :=
  inferInstanceAs (DecidableEq { n : ℕ // n ≤ bound })

/-! ## Guards -/

/-- `typeof v === 'object' && v !== null && !Array.isArray(v)`. -/
def isObj : JsValue → Bool
  | .obj _ => true
  | _ => false

/-- `typeof v === 'string' && /^[0-9a-f]{n}$/.test(v)`. -/
def isHex (n : ℕ) : JsValue → Option (Hex n)
  | .str s => if h : isHexOf n s = true then some ⟨s, h⟩ else none
  | _ => none

/-- A non-empty string of at most `cap` code units. -/
def isStr (cap : ℕ) : JsValue → Option (Str cap)
  | .str s => if h : 0 < s.length ∧ s.length ≤ cap then some ⟨s, h⟩ else none
  | _ => none

/-- A string of at most `cap` code units. -/
def isText (cap : ℕ) : JsValue → Option (Text cap)
  | .str s => if h : s.length ≤ cap then some ⟨s, h⟩ else none
  | _ => none

/-- `typeof v === 'boolean'`. -/
def isBool : JsValue → Option Bool
  | .bool b => some b
  | _ => none

/-- `typeof v === 'number' && Number.isFinite(v)`. -/
def isFinite : JsValue → Option ℚ
  | .num (.finite q) => some q
  | _ => none

/-- A finite number that is not negative. -/
def isTimestamp : JsValue → Option Timestamp
  | .num (.finite q) => if h : 0 ≤ q then some ⟨q, h⟩ else none
  | _ => none

/-- `Number.isInteger(v) && v >= 0`. -/
def isNonNegativeInt : JsValue → Option ℕ
  | .num (.finite q) => if q.den = 1 ∧ 0 ≤ q.num then some q.num.toNat else none
  | _ => none

/-- `Number.isInteger(v) && v >= 0 && v <= bound`. -/
def isBoundedNat (bound : ℕ) (v : JsValue) : Option (BoundedNat bound) :=
  (isNonNegativeInt v).bind fun n => if h : n ≤ bound then some ⟨n, h⟩ else none

/-- `v === undefined || guard(v)`. -/
def isOpt {α : Type} (guard : JsValue → Option α) (v : JsValue) : Option (Option α) :=
  if v = .undefined then some none else (guard v).map some

/-- `Array.isArray(v) && v.every(guard)`. -/
def isArrayOf {α : Type} (guard : JsValue → Option α) : JsValue → Option (List α)
  | .arr elems => elems.mapM guard
  | _ => none

/-- `Array.isArray(v) && v.every(el => isObj(el) && guard(el))`. -/
def everyElement {α : Type} (guard : JsValue → Option α) : JsValue → Option (List α) :=
  isArrayOf fun el => if isObj el then guard el else none

/-! ## Values of the guarded types -/

/-- A natural number as a value. -/
def JsValue.ofNat (n : ℕ) : JsValue := .num (.finite n)

def Hex.toJs {n : ℕ} (h : Hex n) : JsValue := .str h.val

def Str.toJs {cap : ℕ} (s : Str cap) : JsValue := .str s.val

def Text.toJs {cap : ℕ} (s : Text cap) : JsValue := .str s.val

def Timestamp.toJs (t : Timestamp) : JsValue := .num (.finite t.val)

def BoundedNat.toJs {bound : ℕ} (n : BoundedNat bound) : JsValue := .ofNat n.val

/-- An optional property, `undefined` when absent. -/
def optToJs {α : Type} (toJs : α → JsValue) : Option α → JsValue
  | none => .undefined
  | some a => toJs a

@[simp] theorem isHex_toJs {n : ℕ} (h : Hex n) : isHex n h.toJs = some h := by
  simp only [Hex.toJs, isHex, dif_pos h.property]
  rfl

@[simp] theorem isStr_toJs {cap : ℕ} (s : Str cap) : isStr cap s.toJs = some s := by
  simp only [Str.toJs, isStr, dif_pos s.property]
  rfl

@[simp] theorem isText_toJs {cap : ℕ} (s : Text cap) : isText cap s.toJs = some s := by
  simp only [Text.toJs, isText, dif_pos s.property]
  rfl

@[simp] theorem isTimestamp_toJs (t : Timestamp) : isTimestamp t.toJs = some t := by
  simp only [Timestamp.toJs, isTimestamp, dif_pos t.property]
  rfl

@[simp] theorem isFinite_toJs (t : Timestamp) : isFinite t.toJs = some t.val := rfl

@[simp] theorem isNonNegativeInt_ofNat (n : ℕ) : isNonNegativeInt (.ofNat n) = some n := by
  simp [isNonNegativeInt, JsValue.ofNat]

@[simp] theorem isBoundedNat_toJs {bound : ℕ} (n : BoundedNat bound) :
    isBoundedNat bound n.toJs = some n := by
  simp only [BoundedNat.toJs, isBoundedNat, isNonNegativeInt_ofNat, Option.bind_some,
    dif_pos n.property]
  rfl

@[simp] theorem parse_toJs {α : Type} [StringUnion α] [LawfulStringUnion α] (a : α) :
    StringUnion.parse (StringUnion.toJs a) = some a :=
  LawfulStringUnion.parse_toJs a

theorem isOpt_optToJs {α : Type} {guard : JsValue → Option α} {toJs : α → JsValue}
    (h : ∀ a, guard (toJs a) = some a) (hu : ∀ a, toJs a ≠ .undefined) (o : Option α) :
    isOpt guard (optToJs toJs o) = some o := by
  cases o with
  | none => rfl
  | some a => simp [isOpt, optToJs, hu a, h a]

theorem mapM_toJs {α : Type} {guard : JsValue → Option α} {toJs : α → JsValue}
    (h : ∀ a, guard (toJs a) = some a) : ∀ as : List α, (as.map toJs).mapM guard = some as
  | [] => rfl
  | a :: as => by
    rw [List.map_cons, List.mapM_cons, h a, mapM_toJs h as]
    rfl

theorem isArrayOf_toJs {α : Type} {guard : JsValue → Option α} {toJs : α → JsValue}
    (h : ∀ a, guard (toJs a) = some a) (as : List α) :
    isArrayOf guard (.arr (as.map toJs)) = some as :=
  mapM_toJs h as

theorem everyElement_toJs {α : Type} {guard : JsValue → Option α} {toJs : α → JsValue}
    (h : ∀ a, guard (toJs a) = some a) (ho : ∀ a, isObj (toJs a) = true) (as : List α) :
    everyElement guard (.arr (as.map toJs)) = some as :=
  isArrayOf_toJs (fun a => by rw [ho a]; exact h a) as

end SignetApp.Js
