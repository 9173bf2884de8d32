import SignetApp.Child.Rules
import SignetApp.Collections.OrderedMap
import SignetApp.Family.Autonomy

/-!
# Slot policies

`policy-compiler.ts`: what a Heartwood may approve for each pairing of the family, from the state
the guardian keeps and the device's list of slots.
-/

namespace SignetApp.Family

open SignetApp.Js SignetApp.Grants SignetApp.Child

/-! ## Slots -/

/-- A row of `list_clients`. -/
structure DeviceClientSlot where
  slotIndex : ℕ
  label : JsString
  secretFingerprint : JsString
  autoApprove : Bool
  signingApproved : Bool
  strictPermissions : Bool
  currentPubkey : Option JsString
  authorizedPubkeys : List JsString
  allowedKinds : List ℕ
  allowedMethods : List JsString
  escalate : Bool
  petitionOnDeny : Bool
  auditChildWrap : Bool
  boundIdentity : Option JsString
  deriving DecidableEq

/-- What is sent for a slot. An absent `boundIdentity` is left as it is. -/
structure SlotPolicyUpdate where
  allowedMethods : List JsString
  allowedKinds : List ℕ
  autoApprove : Bool
  escalate : Bool
  petitionOnDeny : Bool
  auditChildWrap : Bool
  boundIdentity : Option JsString := none
  deriving DecidableEq

def lockedSlotPolicy : SlotPolicyUpdate where
  allowedMethods := []
  allowedKinds := []
  autoApprove := false
  escalate := false
  petitionOnDeny := false
  auditChildWrap := false

def tofuSafeMethods : List JsString :=
  [lit "sign_event", lit "nip44_encrypt", lit "nip44_decrypt", lit "nip04_encrypt",
    lit "nip04_decrypt", lit "get_public_key"]

/-! ## The family -/

structure CompilerGrant where
  scope : JsString
  decision : Decision
  hasSchedule : Bool
  tombstoned : Bool
  expired : Bool

/-- What the compiler needs of a rule, with times in milliseconds. -/
structure ChildRuleLike where
  scope : JsString
  decision : Decision
  tombstonedAt : Option ℚ := none
  expiresAt : Option ℚ := none
  updatedAt : Option ℚ := none

/-- A kind approved once, until a time in seconds. -/
structure OnceEntry where
  kind : ℤ
  until_ : ℚ

structure CompilerDependant where
  id : JsString
  identityPubkeys : List JsString
  /-- Identities the app will not act as. -/
  dormantIdentityPubkeys : List JsString
  autonomyStage : AutonomyStage
  hasDefaultSchedule : Bool
  auditVisible : Bool
  petitionOnDeny : Bool
  grants : List CompilerGrant
  defaultSchedulePaused : Bool := false
  childRules : List ChildRuleLike := []
  approvedOnceKinds : List OnceEntry := []

structure CompilerInput where
  dependants : List CompilerDependant
  guardianClientPubkey : Option JsString
  deviceSlots : List DeviceClientSlot
  nowSeconds : ℚ

inductive SlotReason where
  | dependant | guardian
  deriving DecidableEq

structure CompiledSlot where
  slotIndex : ℕ
  secretFingerprint : JsString
  policy : SlotPolicyUpdate
  reason : SlotReason
  dependantId : Option JsString := none
  /-- Does the device list another policy? -/
  changed : Bool

structure CompileResult where
  slots : List CompiledSlot
  /-- How many slots are not the family's. -/
  untouched : ℕ
  warnings : List JsString

/-! ## Kinds and methods -/

/-- `[...new Set(kinds)].sort((a, b) => a - b)`. -/
def sortedUniqueKinds (kinds : List ℕ) : List ℕ := (distinct kinds).mergeSort (· ≤ ·)

def scopeKinds : List (Scope × List ℕ) :=
  [(.signIn, [21236]), (.venueEntry, [21235]), (.postPublic, [1]), (.reactZapReply, [1, 7, 9734]),
    (.dmPrivate, [4, 13, 1059]), (.uploadPhoto, [24242]), (.mutateIdentity, [0]),
    (.appPermission, [])]

/-- `SCOPE_KINDS[scope]`, where a scope is a text that may name none of them. -/
def kindsOfScope (scope : JsString) : Option (List ℕ) :=
  (scopeKinds.find? fun e => lit e.1.name = scope).map Prod.snd

def allScopeKinds : List ℕ := sortedUniqueKinds (scopeKinds.flatMap Prod.snd)

def neverListedKinds : List ℕ := [24133, 31000]

def interactiveStageMethods : List JsString := [lit "get_public_key", lit "sign_event"]

def autonomousStageMethods : List JsString :=
  [lit "get_public_key", lit "sign_event", lit "nip44_encrypt", lit "nip44_decrypt"]

def guardianRequiredMethods : List JsString :=
  [lit "sign_event", lit "get_public_key", lit "nip44_encrypt", lit "nip44_decrypt"]

def sameSet (a b : List JsString) : Bool :=
  let sa := distinct a
  let sb := distinct b
  sa.length = sb.length && sa.all (· ∈ sb)

def sameSortedKinds (a b : List ℕ) : Bool := sortedUniqueKinds a = sortedUniqueKinds b

def lower (s : Option JsString) : JsString := toLowerCase (s.getD [])

/-- A text that is there and not empty. -/
def truthy (s : Option JsString) : Option JsString := s.filter (· ≠ [])

def isChildDeviceSlot (slot : DeviceClientSlot) : Bool :=
  slot.label = lit "MySignet" || (lit "signet:child-device:").isPrefixOf slot.label

def isAutonomousStage (stage : AutonomyStage) : Bool :=
  stage = .autonomousAlerts || stage = .autonomousLogging || stage = .fullAutonomy

/-! ## The ceiling of a phone-served slot -/

def CompilerGrant.active (g : CompilerGrant) : Bool := !g.tombstoned && !g.expired

/-- A denial, or an allowance that holds on a schedule only. -/
def CompilerGrant.excludes (g : CompilerGrant) : Bool :=
  g.decision = .deny || (g.decision = .allow && g.hasSchedule)

/-- The scopes an active grant takes out of the ceiling. -/
def excludedScopes (grants : List CompilerGrant) : List JsString :=
  distinct ((grants.filter fun g => g.active && g.excludes).map CompilerGrant.scope)

def excludedKinds (grants : List CompilerGrant) : List ℕ :=
  (excludedScopes grants).flatMap fun scope => (kindsOfScope scope).getD []

/-- The ceiling of the autonomous stages, and whether anything was taken out of it. -/
def autonomousKinds (grants : List CompilerGrant) : List ℕ × Bool :=
  let kinds := allScopeKinds.filter fun k => k ∉ excludedKinds grants && k ∉ neverListedKinds
  (sortedUniqueKinds kinds, excludedKinds grants ≠ [])

def compileDependantSlotPolicy (dep : CompilerDependant) (slot : DeviceClientSlot) :
    SlotPolicyUpdate :=
  let bound := lower slot.boundIdentity
  if bound ≠ [] ∧ bound ∈ dep.dormantIdentityPubkeys then
    { lockedSlotPolicy with boundIdentity := truthy slot.boundIdentity }
  else
    let autonomous := isAutonomousStage dep.autonomyStage
    let (autoApprove, allowedKinds) :=
      if dep.hasDefaultSchedule then (false, [])
      else if !autonomous then (false, [])
      else if dep.autonomyStage = .fullAutonomy then
        let (kinds, exclusionApplied) := autonomousKinds dep.grants
        -- Without an exclusion every kind is meant, which is what an empty list says.
        (true, if exclusionApplied then kinds else [])
      else (true, (autonomousKinds dep.grants).1)
    { allowedMethods := if autonomous then autonomousStageMethods else interactiveStageMethods
      allowedKinds
      autoApprove
      escalate := true
      petitionOnDeny := dep.petitionOnDeny
      auditChildWrap := dep.auditVisible && isChildDeviceSlot slot
      boundIdentity := truthy slot.boundIdentity }

/-! ## Child-direct slots -/

def childDirectLabelPrefix : JsString := lit "signet:child-device:v2:"

def isChildDirectSlot (label : JsString) : Bool := childDirectLabelPrefix.isPrefixOf label

/-- The most kinds one ceiling can list. -/
def childCeilingMax : ℕ := 64

/-- The kinds of the ceiling in the order of their priority: the stage's scopes and relay
authentication, then what was approved once, then the rules of single kinds, newest first. -/
def ceilingKinds (dep : CompilerDependant) (nowSeconds : ℚ) : List ℕ :=
  let stageKinds := scopeKinds.flatMap fun (scope, kinds) =>
    if (resolvePolicy dep.autonomyStage (some scope)).isAuto then kinds else []
  -- At full control allow rules are ignored.
  let rules := if dep.autonomyStage = .fullControl then [] else dep.childRules.filter fun r =>
    r.decision = .allow && isLiveRule r.tombstonedAt r.expiresAt (nowSeconds * 1000)
  let kindRules := (rules.filterMap fun r =>
    (kindFromScope r.scope).map fun n => (n, r.updatedAt.getD 0)).mergeSort fun x y => y.2 ≤ x.2
  let ruleKinds := rules.flatMap fun r =>
    if (kindFromScope r.scope).isNone && !(lit "kind:").isPrefixOf r.scope then
      (kindsOfScope r.scope).getD []
    else []
  let once := dep.approvedOnceKinds.filterMap fun a =>
    if 0 ≤ a.kind ∧ a.kind ≤ 65535 ∧ a.until_ > nowSeconds then some a.kind.toNat else none
  (distinct ([22242] ++ sortedUniqueKinds ([22242] ++ stageKinds ++ ruleKinds) ++ once
    ++ kindRules.map Prod.fst)).filter (· ∉ neverListedKinds)

def compileChildDirectPolicy (dep : CompilerDependant) (boundPersona : JsString)
    (nowSeconds : ℚ) : SlotPolicyUpdate :=
  let bound := toLowerCase boundPersona
  if dep.defaultSchedulePaused then { lockedSlotPolicy with boundIdentity := some bound }
  else
    { allowedMethods := autonomousStageMethods
      allowedKinds := if dep.autonomyStage = .fullAutonomy then []
        else sortedUniqueKinds ((ceilingKinds dep nowSeconds).take childCeilingMax)
      autoApprove := true
      escalate := false
      petitionOnDeny := false
      auditChildWrap := dep.auditVisible
      boundIdentity := some bound }

def compileChildDirectSlot (dep : CompilerDependant) (slot : DeviceClientSlot) (nowSeconds : ℚ) :
    SlotPolicyUpdate :=
  let bound := lower slot.boundIdentity
  if bound = [] ∨ bound ∈ dep.dormantIdentityPubkeys then
    { lockedSlotPolicy with boundIdentity := truthy (some bound) }
  else compileChildDirectPolicy dep bound nowSeconds

/-! ## The guardian's slot -/

def compileGuardianSlotPolicy (slot : DeviceClientSlot) : SlotPolicyUpdate :=
  let methods := distinct (slot.allowedMethods ++ guardianRequiredMethods)
  { allowedMethods :=
      if slot.strictPermissions then methods.filter (· ∈ tofuSafeMethods) else methods
    allowedKinds := slot.allowedKinds
    autoApprove := true
    escalate := false
    petitionOnDeny := false
    auditChildWrap := false }

/-! ## All slots -/

def policyDiffersFromSlot (policy : SlotPolicyUpdate) (slot : DeviceClientSlot) : Bool :=
  !sameSet policy.allowedMethods slot.allowedMethods
    || !sameSortedKinds policy.allowedKinds slot.allowedKinds
    || policy.autoApprove != slot.autoApprove
    || policy.escalate != slot.escalate
    || policy.petitionOnDeny != slot.petitionOnDeny
    || policy.auditChildWrap != slot.auditChildWrap
    || policy.boundIdentity.any fun bound => toLowerCase bound ≠ lower slot.boundIdentity

def isGuardianSlot (slot : DeviceClientSlot) (guardianClientPubkey : Option JsString) : Bool :=
  match truthy guardianClientPubkey with
  | none => false
  | some guardian =>
    let g := toLowerCase guardian
    lower slot.currentPubkey = g || slot.authorizedPubkeys.any fun p => toLowerCase p = g

def findDependantForSlot (slot : DeviceClientSlot) (dependants : List CompilerDependant) :
    Option CompilerDependant :=
  let bound := lower slot.boundIdentity
  let holds (dep : CompilerDependant) : Bool :=
    dep.identityPubkeys.any fun p => toLowerCase p = bound
  if isChildDirectSlot slot.label then
    -- The label names the dependant; the identity must also be theirs.
    let tag := slot.label.drop childDirectLabelPrefix.length
    dependants.find? fun dep =>
      0 < tag.length && toLowerCase (dep.id.take 16) = toLowerCase tag && holds dep
  else if bound = [] then none
  else dependants.find? holds

/-- One slot of the loop of `compileSlotPolicies`; `none` when it is not the family's. -/
def compileSlot (input : CompilerInput) (slot : DeviceClientSlot) : Option CompiledSlot :=
  if isGuardianSlot slot input.guardianClientPubkey then
    let policy := compileGuardianSlotPolicy slot
    some
      { slotIndex := slot.slotIndex
        secretFingerprint := slot.secretFingerprint
        policy
        reason := .guardian
        changed := policyDiffersFromSlot policy slot }
  else
    (findDependantForSlot slot input.dependants).map fun dep =>
      let policy :=
        if isChildDirectSlot slot.label then compileChildDirectSlot dep slot input.nowSeconds
        else compileDependantSlotPolicy dep slot
      { slotIndex := slot.slotIndex
        secretFingerprint := slot.secretFingerprint
        policy
        reason := .dependant
        dependantId := some dep.id
        changed := policyDiffersFromSlot policy slot }

def guardianNotFound : JsString :=
  lit "guardian client pubkey not found in device inventory — sync rails unmanaged"

def compileSlotPolicies (input : CompilerInput) : CompileResult where
  slots := input.deviceSlots.filterMap (compileSlot input)
  untouched := input.deviceSlots.countP fun slot => (compileSlot input slot).isNone
  warnings :=
    if (truthy input.guardianClientPubkey).isSome
        && !input.deviceSlots.any (isGuardianSlot · input.guardianClientPubkey) then
      [guardianNotFound]
    else []

/-! ## Records of the app -/

inductive AuditVisibilityOverride where
  | default | forceVisible | forceHidden
  deriving DecidableEq

def resolveAuditVisibility (stage : AutonomyStage) : Option AuditVisibilityOverride → Bool
  | some .forceVisible => true
  | some .forceHidden => false
  -- The default of the stage (`defaultVisibilityByStage`).
  | _ => isAutonomousStage stage

/-- What the compiler needs of a dependant. -/
structure DependantIdentity where
  id : JsString
  naturalPersonPublicKey : JsString
  naturalPersonDisplayName : JsString
  personaPublicKey : JsString
  /-- The public keys of `extraPersonas`. -/
  extraPersonas : List JsString := []
  autonomyStage : AutonomyStage
  naturalPersonActive : Option Bool := none
  defaultSchedule : Option GrantSchedule := none
  auditVisibility : Option AuditVisibilityOverride := none
  petitionOnDeny : Bool := false

/-- What the compiler needs of a remembered grant, with times in seconds. -/
structure GrantRecord where
  dependantId : JsString
  scope : JsString
  decision : Decision
  schedule : Option GrantSchedule := none
  expiresAt : Option ℚ := none
  tombstonedAt : Option ℚ := none

structure ChildRuleRecord extends ChildRuleLike where
  dependantId : JsString

/-- What the guardian keeps of the family, and the time. -/
structure FamilyState where
  dependants : List DependantIdentity
  grants : List GrantRecord
  guardianClientPubkey : Option JsString
  nowSeconds : ℚ
  childRules : List ChildRuleRecord := []
  /-- Under the ids of dependants. -/
  approvedOnceKinds : OrderedMap JsString (List OnceEntry) := .empty

def isDependantNaturalPersonActive (dep : DependantIdentity) : Bool :=
  dep.naturalPersonActive.getD (trim dep.naturalPersonDisplayName ≠ [])

def compilerGrant (nowSeconds : ℚ) (g : GrantRecord) : CompilerGrant where
  scope := g.scope
  decision := g.decision
  hasSchedule := g.schedule.isSome
  tombstoned := g.tombstonedAt.any (· ≠ 0)
  expired := g.expiresAt.any (· < nowSeconds)

def compilerDependant (family : FamilyState) (dep : DependantIdentity) : CompilerDependant :=
  let owned (id : JsString) : Bool := toLowerCase id = toLowerCase dep.id
  { id := dep.id
    identityPubkeys :=
      distinct (((dep.naturalPersonPublicKey :: dep.personaPublicKey :: dep.extraPersonas).filter
        (· ≠ [])).map toLowerCase)
    dormantIdentityPubkeys :=
      if isDependantNaturalPersonActive dep || dep.naturalPersonPublicKey = [] then []
      else [toLowerCase dep.naturalPersonPublicKey]
    autonomyStage := dep.autonomyStage
    hasDefaultSchedule := dep.defaultSchedule.isSome
    auditVisible := resolveAuditVisibility dep.autonomyStage dep.auditVisibility
    petitionOnDeny := dep.petitionOnDeny
    grants := (family.grants.filter (owned ·.dependantId)).map (compilerGrant family.nowSeconds)
    defaultSchedulePaused := dep.defaultSchedule.any GrantSchedule.paused
    childRules :=
      (family.childRules.filter (owned ·.dependantId)).map ChildRuleRecord.toChildRuleLike
    approvedOnceKinds :=
      (family.approvedOnceKinds.entries.filter (owned ·.1)).flatMap Prod.snd }

def buildCompilerInput (family : FamilyState) (deviceSlots : List DeviceClientSlot) :
    CompilerInput where
  dependants := family.dependants.map (compilerDependant family)
  guardianClientPubkey := family.guardianClientPubkey
  deviceSlots
  nowSeconds := family.nowSeconds

end SignetApp.Family
