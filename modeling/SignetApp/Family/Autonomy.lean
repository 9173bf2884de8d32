import Mathlib.Data.Nat.Notation

/-!
# Scopes and stages

`scope-inference.ts` names what a signature is for, `types/dependants.ts` how far a dependant is
trusted, and `autonomy-gate.ts` says what the two together mean.
-/

namespace SignetApp.Family

inductive AutonomyStage where
  | fullControl | requestApprove | autonomousAlerts | autonomousLogging | fullAutonomy
  deriving DecidableEq

inductive Scope where
  | signIn | venueEntry | postPublic | dmPrivate | uploadPhoto | reactZapReply | pairDevice
  | mutateIdentity | appPermission
  deriving DecidableEq

def Scope.name : Scope → String
  | signIn => "sign-in"
  | venueEntry => "venue-entry"
  | postPublic => "post-public"
  | dmPrivate => "dm-private"
  | uploadPhoto => "upload-photo"
  | reactZapReply => "react-zap-reply"
  | pairDevice => "pair-device"
  | mutateIdentity => "mutate-identity"
  | appPermission => "app-permission"

inductive Policy where
  | blocked | askOrigin | askEvery | autoAlert | autoLog | auto
  deriving DecidableEq

/-- `policy.startsWith('auto')`. -/
def Policy.isAuto : Policy → Bool
  | autoAlert | autoLog | auto => true
  | _ => false

/-- What most scopes mean at the autonomous stages. -/
def autonomousPolicy : AutonomyStage → Option Policy
  | .autonomousAlerts => some .autoAlert
  | .autonomousLogging => some .autoLog
  | .fullAutonomy => some .auto
  | _ => none

def policyMatrix : Scope → AutonomyStage → Policy
  | _, .fullControl => .askEvery
  | .venueEntry, _ => .auto
  | .appPermission, _ => .askEvery
  | .pairDevice, stage => if stage = .fullAutonomy then .auto else .askEvery
  | .postPublic, stage | .mutateIdentity, stage => (autonomousPolicy stage).getD .askEvery
  | _, stage => (autonomousPolicy stage).getD .askOrigin

/-- A kind without a scope asks every time, but for a dependant of full autonomy. -/
def resolvePolicy (stage : AutonomyStage) : Option Scope → Policy
  | none => if stage = .fullAutonomy then .auto else .askEvery
  | some scope => policyMatrix scope stage

end SignetApp.Family
