import SignetApp.Js.Text

/-!
# JavaScript values

The values JSON and structured clones produce, with `undefined`: what arrives where the source
says `unknown`. Objects are association lists of their own properties; a lookup finds the first
entry, so the properties a literal writes *last* stand *first* in the list. Numbers are exact
(a finite double is a rational), which agrees with the double operations the modelled code uses:
comparison, `Math.min` and integrality tests.
-/

namespace SignetApp.Js

/-- A number: a finite value, `±Infinity` or `NaN`. -/
inductive JsNumber where
  | finite (q : ℚ)
  | infinity (negative : Bool)
  | nan
  deriving DecidableEq

/-- A value without functions, symbols or cycles. -/
inductive JsValue where
  | undefined
  | null
  | bool (b : Bool)
  | num (n : JsNumber)
  | str (s : JsString)
  | arr (elems : List JsValue)
  | obj (props : List (String × JsValue))

/-- The own properties of an object. -/
abbrev JsObject := List (String × JsValue)

/-- The exceptions the modelled code can raise. -/
inductive JsError where
  | typeError
  deriving DecidableEq

/-! ## Decidable equality -/

namespace JsValue

mutual
/-- Structural equality test. -/
def beq : JsValue → JsValue → Bool
  | undefined, undefined => true
  | null, null => true
  | bool a, bool b => decide (a = b)
  | num a, num b => decide (a = b)
  | str a, str b => decide (a = b)
  | arr a, arr b => beqList a b
  | obj a, obj b => beqProps a b
  | _, _ => false

def beqList : List JsValue → List JsValue → Bool
  | [], [] => true
  | a :: as, b :: bs => beq a b && beqList as bs
  | _, _ => false

def beqProps : List (String × JsValue) → List (String × JsValue) → Bool
  | [], [] => true
  | (k, a) :: as, (l, b) :: bs => decide (k = l) && beq a b && beqProps as bs
  | _, _ => false
end

mutual
theorem eq_of_beq : ∀ {a b : JsValue}, beq a b = true → a = b
  | undefined, b, h => by cases b <;> simp_all [beq]
  | null, b, h => by cases b <;> simp_all [beq]
  | bool _, b, h => by cases b <;> simp_all [beq]
  | num _, b, h => by cases b <;> simp_all [beq]
  | str _, b, h => by cases b <;> simp_all [beq]
  | arr as, b, h => by
    cases b with
    | arr bs => rw [eq_of_beqList (show beqList as bs = true by simpa [beq] using h)]
    | _ => simp [beq] at h
  | obj as, b, h => by
    cases b with
    | obj bs => rw [eq_of_beqProps (show beqProps as bs = true by simpa [beq] using h)]
    | _ => simp [beq] at h

theorem eq_of_beqList : ∀ {as bs : List JsValue}, beqList as bs = true → as = bs
  | [], [], _ => rfl
  | [], _ :: _, h => by simp [beqList] at h
  | _ :: _, [], h => by simp [beqList] at h
  | a :: as, b :: bs, h => by
    simp only [beqList, Bool.and_eq_true] at h
    rw [eq_of_beq h.1, eq_of_beqList h.2]

theorem eq_of_beqProps : ∀ {as bs : List (String × JsValue)}, beqProps as bs = true → as = bs
  | [], [], _ => rfl
  | [], _ :: _, h => by simp [beqProps] at h
  | _ :: _, [], h => by simp [beqProps] at h
  | (k, a) :: as, (l, b) :: bs, h => by
    simp only [beqProps, Bool.and_eq_true, decide_eq_true_eq] at h
    rw [h.1.1, eq_of_beq h.1.2, eq_of_beqProps h.2]
end

mutual
theorem beq_refl : ∀ a : JsValue, beq a a = true
  | undefined | null => rfl
  | bool _ | num _ | str _ => by simp [beq]
  | arr as => beqList_refl as
  | obj as => beqProps_refl as

theorem beqList_refl : ∀ as : List JsValue, beqList as as = true
  | [] => rfl
  | a :: as => by simp [beqList, beq_refl a, beqList_refl as]

theorem beqProps_refl : ∀ as : List (String × JsValue), beqProps as as = true
  | [] => rfl
  | (_, a) :: as => by simp [beqProps, beq_refl a, beqProps_refl as]
end

instance : DecidableEq JsValue := fun a b =>
  decidable_of_iff (beq a b = true) ⟨eq_of_beq, fun h => h ▸ beq_refl a⟩

/-! ## Property access -/

/-- `v.name`. A value without own properties reads as `undefined`; the modelled code never reads
a property of `null` or `undefined`. -/
def get (v : JsValue) (name : String) : JsValue :=
  match v with
  | obj props => (props.lookup name).getD undefined
  | _ => undefined

/-- `Object.keys(v)`. -/
def keys : JsValue → List String
  | obj props => (props.map Prod.fst).eraseDups
  | _ => []

/-- A string value for a source literal. -/
def ofLit (s : String) : JsValue := str (lit s)

@[simp] theorem get_obj_nil (name : String) : get (obj []) name = undefined := rfl

theorem get_obj_cons (k name : String) (v : JsValue) (props : JsObject) :
    get (obj ((k, v) :: props)) name = if name = k then v else get (obj props) name := by
  by_cases h : name = k
  · simp [get, h]
  · have hb : (name == k) = false := by simpa using h
    simp [get, List.lookup_cons, hb, h]

end JsValue

/-! ## The platform -/

/-- What the modelled code takes from its platform: how a finite number is printed, and what the
URL parser makes of a text. Every result holds for any platform. -/
class Platform where
  /-- `String(n)` for a finite number. -/
  numberText : ℚ → JsString
  /-- `new URL(s)`: the protocol and the host name, `none` when the constructor raises. -/
  parseUrl : JsString → Option (JsString × JsString)

/-- A platform for examples: integers in decimal, and no text is a URL. -/
@[reducible] def samplePlatform : Platform where
  numberText q := (Int.repr q.num).toList.flatMap encodeChar
  parseUrl _ := none

section
variable [Platform]

/-! ## `String(v)` -/

/-- `String(n)`. -/
def JsNumber.text : JsNumber → JsString
  | .finite q => Platform.numberText q
  | .infinity false => lit "Infinity"
  | .infinity true => lit "-Infinity"
  | .nan => lit "NaN"

mutual
/-- `String(v)`. An object is converted through its `toString`: an own property of that name is no
function here, and neither is what `valueOf` would return, so the conversion raises; any other
object gives `[object Object]`. An array joins its elements with commas, `null` and `undefined`
reading as empty. -/
def stringOf : JsValue → Except JsError JsString
  | .undefined => pure (lit "undefined")
  | .null => pure (lit "null")
  | .bool true => pure (lit "true")
  | .bool false => pure (lit "false")
  | .num n => pure n.text
  | .str s => pure s
  | .obj props => if (props.lookup "toString").isSome then throw .typeError
      else pure (lit "[object Object]")
  | .arr elems => do
    let parts ← elementStrings elems
    pure ((lit ",").intercalate parts)

/-- The elements as `Array.prototype.join` reads them. -/
def elementStrings : List JsValue → Except JsError (List JsString)
  | [] => pure []
  | .undefined :: rest | .null :: rest => do
    let parts ← elementStrings rest
    pure ([] :: parts)
  | v :: rest => do
    let part ← stringOf v
    let parts ← elementStrings rest
    pure (part :: parts)
end

/-! ## `JSON.stringify(v).length` -/

/-- How many code units a string takes when quoted: an escape is two units for the quote, the
backslash and the five named controls, six for any other control and for a lone surrogate. -/
def quotedLength : JsString → ℕ
  | [] => 2
  | u :: rest =>
    (if u = 34 || u = 92 || u = 8 || u = 9 || u = 10 || u = 12 || u = 13 then 2
      else if u < 32 then 6 else 1) + quotedLength rest

/-- The lone surrogates of a string, each of which takes five more units when quoted. -/
def loneSurrogates (s : JsString) : ℕ :=
  ((codePoints s).filter fun point =>
    point.length = 1 ∧ point.any fun u => isHighSurrogate u || isLowSurrogate u).length

/-- The length of a quoted string. -/
def jsonStringLength (s : JsString) : ℕ := quotedLength s + 5 * loneSurrogates s

/-- Between parts stand commas, around them two brackets. -/
def bracketed (parts : List ℕ) : ℕ := 2 + parts.sum + (parts.length - 1)

mutual
/-- The length of `JSON.stringify(v)`; `none` where that is `undefined`. -/
def jsonLength : JsValue → Option ℕ
  | .undefined => none
  | .null => some 4
  | .bool true => some 4
  | .bool false => some 5
  | .num (.finite q) => some (Platform.numberText q).length
  | .num _ => some 4
  | .str s => some (jsonStringLength s)
  | .arr elems => some (bracketed (jsonElements elems))
  | .obj props => some (bracketed (jsonMembers [] props))

/-- An element that has no JSON form is written `null`. -/
def jsonElements : List JsValue → List ℕ
  | [] => []
  | v :: rest => (jsonLength v).getD 4 :: jsonElements rest

/-- A property that has no JSON form is left out; `seen` holds the names already written. -/
def jsonMembers (seen : List String) : List (String × JsValue) → List ℕ
  | [] => []
  | (name, v) :: rest =>
    match jsonLength v with
    | some n =>
      if name ∈ seen then jsonMembers seen rest
      else (jsonStringLength (lit name) + 1 + n) :: jsonMembers (name :: seen) rest
    | none => jsonMembers (name :: seen) rest
end

end

end SignetApp.Js
