import SignetApp.Grants.Schedule
import SignetApp.Js.SafeUrl
import SignetApp.Collections.Keyed

/-!
# Remembered grants

`types/grants.ts`: what a guardian decided for a dependant, a scope and an origin.
-/

namespace SignetApp.Grants

open SignetApp.Js

inductive Decision where
  | allow | deny
  deriving DecidableEq

def Decision.name : Decision → String
  | allow => "allow"
  | deny => "deny"

/-- A positive number of seconds. -/
abbrev Seconds := { q : ℚ // 0 < q }

abbrev ScopeName := { s : JsString // unit '|' ∉ s }

structure RememberedGrant where
  dependantId : Hex 64
  scope : ScopeName
  origin : JsString
  decision : Decision
  decidedAt : Seconds
  expiresAt : Option Seconds := none
  lastUsedAt : Option Seconds := none
  /-- When the grant was revoked. -/
  tombstonedAt : Option Seconds := none
  schedule : Option GrantSchedule := none

/-! ## Grants between the guardian's devices

`grants-sync.ts`: for each dependant, scope and origin the later action wins, a revocation on ties;
the schedule is merged on its own. -/

/-- The compound key of a grant. -/
def grantKey (g : RememberedGrant) : JsString :=
  g.dependantId.val ++ unit '|' :: (g.scope.val ++ unit '|' :: g.origin)

/-- The time of the last action. -/
def effectiveTime (g : RememberedGrant) : ℚ := max g.decidedAt.val (g.tombstonedAt.elim 0 (·.val))

/-- The newer of two schedules, the remote one on ties. -/
def pickNewerSchedule : Option GrantSchedule → Option GrantSchedule → Option GrantSchedule
  | none, remote => remote
  | some l, none => some l
  | some l, some r => if r.issuedAt ≥ l.issuedAt then some r else some l

/-- `pickNewerSchedule(local, remote) !== local`: objects are compared by reference. -/
def takesRemote : Option GrantSchedule → Option GrantSchedule → Bool
  | _, none => false
  | none, some _ => true
  | some l, some r => r.issuedAt ≥ l.issuedAt

/-- Does the remote version of a grant win? -/
def grantWins (l r : RememberedGrant) : Bool :=
  let rt := effectiveTime r
  let lt := effectiveTime l
  rt > lt || (rt = lt && r.tombstonedAt.isSome && !l.tombstonedAt.isSome)

/-- One pass of the loop of `mergeGrantLists`. -/
def mergeStep (acc : OrderedMap JsString RememberedGrant × List RememberedGrant)
    (r : RememberedGrant) : OrderedMap JsString RememberedGrant × List RememberedGrant :=
  let (byKey, toSave) := acc
  match byKey.get (grantKey r) with
  | none => (byKey.set (grantKey r) r, toSave ++ [r])
  | some l =>
    let newSchedule := pickNewerSchedule l.schedule r.schedule
    if grantWins l r then
      let merged := { r with schedule := newSchedule }
      (byKey.set (grantKey r) merged, toSave ++ [merged])
    else if takesRemote l.schedule r.schedule then
      let merged := { l with schedule := newSchedule }
      (byKey.set (grantKey r) merged, toSave ++ [merged])
    else (byKey, toSave)

/-- The merged grants, and those of them to save. -/
def mergeGrantLists (locals remotes : List RememberedGrant) :
    List RememberedGrant × List RememberedGrant :=
  let (byKey, toSave) := remotes.foldl mergeStep (SignetApp.byKey grantKey locals, [])
  (byKey.values, toSave)

end SignetApp.Grants
