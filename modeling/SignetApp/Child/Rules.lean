import SignetApp.Grants.Remembered
import SignetApp.Js.Guards
import SignetApp.Collections.Keyed
import SignetApp.Sync.Wire

/-!
# Rules of a dependant's phone

`types/child-rules.ts` and `child-rules.ts`: a guardian's decision for a persona, a scope and a
target.
-/

namespace SignetApp.Child

open SignetApp.Js SignetApp.Grants

/-- A safe integer above zero (`posInt`). -/
abbrev PosInt := { n : ℕ // 0 < n ∧ n ≤ maxSafeInteger }

/-- The app install a standing permission is bound to (`v: 1`). -/
structure AppPermissionBinding where
  appId : JsString
  installKey : JsString
  deriving DecidableEq

/-- A rule. `σ` stands for its schedule: the JSON value it is on the sync rail, or what the gate
reads from it. Times are in milliseconds. -/
structure ChildRule (σ : Type) where
  id : JsString
  dependantId : JsString
  /-- A public key, or `*`. -/
  persona : JsString
  scope : JsString
  target : JsString
  decision : Decision
  appPermission : Option AppPermissionBinding := none
  schedule : Option σ := none
  label : Option JsString := none
  createdAt : PosInt
  updatedAt : PosInt
  expiresAt : Option PosInt := none
  tombstonedAt : Option PosInt := none
  lastUsedAt : Option PosInt := none
  deriving DecidableEq

/-- The kind of a scope `kind:<n>`, an integer below 65536 without leading zeros. -/
def kindFromScope (scope : JsString) : Option ℕ :=
  let digits := scope.drop 5
  if (lit "kind:").isPrefixOf scope ∧ (digits = lit "0" ∨ (digits ≠ [] ∧ digits.length ≤ 5 ∧
      digits.all isDigit ∧ digits.head? ≠ some (unit '0'))) then
    let n := digitsValue 10 digits
    if n ≤ 65535 then some n else none
  else none

/-- Not removed and not expired. -/
def isLiveRule (tombstonedAt expiresAt : Option ℚ) (nowMs : ℚ) : Bool :=
  !tombstonedAt.any (0 < ·) && !expiresAt.any fun t => 0 < t && t ≤ nowMs

/-! ## Rules between the guardian's devices

`child-rules-sync.ts`: the later version of a rule wins, then a tombstone, then the larger
canonical text; when a rule was last used is merged on its own. -/

section

open SignetApp.Js SignetApp.Sync
open SignetApp.Grants (Decision)

section
variable [Numerals]

/-- A value that `JSON.parse` returns. -/
abbrev JsonValue := { v : JsValue // IsJson v }

/-- A rule on the sync rail. -/
abbrev SyncedRule := ChildRule JsonValue

def effectiveTime (r : SyncedRule) : ℕ := max r.updatedAt.val (r.tombstonedAt.elim 0 (·.val))

/-- A property that is there when its value is. -/
def optionalProp (name : String) (v : Option JsValue) : JsObject :=
  v.toList.map fun v => (name, v)

def PosInt.toJs (n : PosInt) : JsValue := .ofNat n.val

def AppPermissionBinding.toJs (p : AppPermissionBinding) : JsValue :=
  .obj [("v", .ofNat 1), ("appId", .str p.appId), ("installKey", .str p.installKey)]

/-- The properties of a rule without `lastUsedAt`. -/
def ChildRule.rest (r : SyncedRule) : JsObject :=
  [("id", .str r.id), ("dependantId", .str r.dependantId), ("persona", .str r.persona),
    ("scope", .str r.scope), ("target", .str r.target), ("decision", .ofLit r.decision.name),
    ("createdAt", PosInt.toJs r.createdAt), ("updatedAt", PosInt.toJs r.updatedAt)]
  ++ optionalProp "schedule" (r.schedule.map (·.val))
  ++ optionalProp "label" (r.label.map .str)
  ++ optionalProp "expiresAt" (r.expiresAt.map PosInt.toJs)
  ++ optionalProp "appPermission" (r.appPermission.map AppPermissionBinding.toJs)
  ++ optionalProp "tombstonedAt" (r.tombstonedAt.map PosInt.toJs)

/-- The key-sorted JSON of a rule without `lastUsedAt`. -/
def canonicalRuleJson (r : SyncedRule) : JsString :=
  jsonText (.obj (r.rest.mergeSort fun x y => x.1 ≤ y.1))

inductive Pick where
  | «local» | remote | same
  deriving DecidableEq

/-- The winner of two versions of one rule. -/
def pick (l r : SyncedRule) : Pick :=
  let lt := effectiveTime l
  let rt := effectiveTime r
  if rt ≠ lt then if rt > lt then .remote else .local
  else
    let lTomb := l.tombstonedAt.isSome
    let rTomb := r.tombstonedAt.isSome
    if lTomb ≠ rTomb then if rTomb then .remote else .local
    else
      let lj := canonicalRuleJson l
      let rj := canonicalRuleJson r
      if lj = rj then .same else if rj > lj then .remote else .local

/-- `Math.max(l.lastUsedAt ?? 0, r.lastUsedAt ?? 0)`, where `none` stands for 0. -/
def lastUse : Option PosInt → Option PosInt → Option PosInt
  | none, r => r
  | l, none => l
  | some l, some r => some (if l.val < r.val then r else l)

/-- Two versions of one rule merged. -/
def mergeRule (l r : SyncedRule) : SyncedRule :=
  let winner := if pick l r = .remote then r else l
  match lastUse l.lastUsedAt r.lastUsedAt with
  | some used => { winner with lastUsedAt := some used }
  | none => winner

/-- One pass of the loop of `mergeChildRules`. -/
def mergeStep (acc : OrderedMap JsString SyncedRule × Bool) (r : SyncedRule) :
    OrderedMap JsString SyncedRule × Bool :=
  let (byId, changed) := acc
  match byId.get r.id with
  | none => (byId.set r.id r, true)
  | some l =>
    let next := mergeRule l r
    if pick l r = .remote ∨ next.lastUsedAt ≠ l.lastUsedAt then (byId.set r.id next, true)
    else (byId, changed)

/-- The merged rules, and whether they differ from the local ones. -/
def mergeChildRules (locals remotes : List SyncedRule) : List SyncedRule × Bool :=
  let byId := byKey ChildRule.id locals
  let (byId, changed) := remotes.foldl mergeStep (byId, false)
  (byId.values, changed)

/-- Does `local` hold something that `remote` lacks? -/
def isRulesRicherThan (locals remotes : List SyncedRule) : Bool :=
  let remoteById := byKey ChildRule.id remotes
  locals.any fun l =>
    match remoteById.get l.id with
    | none => true
    | some r => pick l r = .local

end

end

end SignetApp.Child
