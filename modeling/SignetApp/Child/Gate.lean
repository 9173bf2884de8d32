import SignetApp.Child.AppPermission
import SignetApp.Collections.OrderedMap
import SignetApp.Collections.Precedence

/-!
# The gate of a dependant's phone

`child-gate.ts`, with the lookups of `child-rules.ts` and the counter of `rate-limit.ts`: whether
a request is signed, asked about, blocked or denied. Times are in milliseconds.
-/

namespace SignetApp.Child

open SignetApp.Js SignetApp.Family SignetApp.Grants

/-! ## Rate limit -/

structure RateLimitState where
  count : ℕ
  windowStart : ℤ
  deriving DecidableEq

def defaultRateLimit : ℕ := 10

def rateLimitWindowMs : ℤ := 60000

/-- Whether a request is allowed, and the state after it. -/
def checkRateLimit (state : Option RateLimitState) (now : ℤ) : Bool × RateLimitState :=
  match state with
  | none => (true, { count := 1, windowStart := now })
  | some state =>
    if rateLimitWindowMs ≤ now - state.windowStart then (true, { count := 1, windowStart := now })
    else if defaultRateLimit < state.count + 1 then (false, state)
    else (true, { state with count := state.count + 1 })

/-! ## Targets -/

def siteTarget [Web] (origin : JsString) : Option JsString :=
  (safeOriginForGrant origin).bind fun safe => if safe = [] then none else some (lit "site:" ++ safe)

/-- Only keys are brought to lower case. -/
def normaliseAppId (appId : JsString) : JsString :=
  if isHex64AnyCase appId then toLowerCase appId else appId

def appTarget (appId : JsString) : JsString := lit "app:" ++ normaliseAppId appId

def peerTarget (hex : JsString) : Option JsString :=
  if isHex64AnyCase hex then some (lit "peer:" ++ toLowerCase hex) else none

def isAppTarget (target : JsString) : Bool := (lit "app:").isPrefixOf target

def targetKey (target : JsString) : JsString :=
  if isAppTarget target then target else toLowerCase target

def star : JsString := lit "*"

/-! ## Rules -/

section
variable [Intl]

/-- A schedule that passed `validateSchedule`. -/
abbrev ValidSchedule := { schedule : GrantSchedule // schedule.Valid }

abbrev Rule := ChildRule ValidSchedule

/-- What a rule is looked up for. -/
structure RuleQuery where
  persona : JsString
  scope : JsString
  targets : List JsString
  nowMs : ℤ

def RuleQuery.live (q : RuleQuery) (r : Rule) : Bool :=
  isLiveRule (r.tombstonedAt.map fun t => (t.val : ℚ)) (r.expiresAt.map fun t => (t.val : ℚ)) q.nowMs

/-- A live rule for this scope or for all. -/
def RuleQuery.candidate (q : RuleQuery) (r : Rule) : Bool :=
  (r.scope = q.scope || r.scope = star) && q.live r

def RuleQuery.samePersona (q : RuleQuery) (r : Rule) : Bool :=
  toLowerCase r.persona = toLowerCase q.persona

def RuleQuery.wanted (q : RuleQuery) (r : Rule) : Bool := targetKey r.target ∈ q.targets.map targetKey

/-- From the most specific: the persona and the target, the target alone, the persona alone, none. -/
def RuleQuery.levels (q : RuleQuery) : List (Rule → Bool) :=
  [fun r => q.samePersona r && q.wanted r, fun r => r.persona = star && q.wanted r,
    fun r => q.samePersona r && r.target = star, fun r => r.persona = star && r.target = star]

def isDeny (r : Rule) : Bool := r.decision = .deny

/-- A live denial of one of the app targets, at this persona or at all, whatever its scope. -/
def findBlockingAppRule (rules : List Rule) (q : RuleQuery) : Option Rule :=
  rules.find? fun r => isDeny r && isAppTarget r.target && r.target ∈ q.targets && q.live r
    && (r.persona = star || q.samePersona r)

def findRule (rules : List Rule) (q : RuleQuery) : Option Rule :=
  match findBlockingAppRule rules q with
  | some blocker => some blocker
  | none => best isDeny q.levels (rules.filter q.candidate)

/-! ## Requests -/

/-- What the guardian sends to the phone. -/
structure ChildRulesPayload where
  stage : AutonomyStage
  defaultSchedule : Option ValidSchedule
  ceilingKinds : List ℕ
  rules : List Rule
  disconnectedApps : List JsString

/-- A verdict names its rule by the id; here it holds the rule. -/
inductive ChildGateVerdict where
  /-- The reason is the rule, or without one the stage. -/
  | sign (rule : Option Rule) (audit : Bool)
  | deny (reason : JsString) (rule : Option Rule)
  | blocked (nextAllowedAt : Option ℤ)
  | ask (reason : JsString) (alwaysOffered : Bool)

def ChildGateVerdict.isSign : ChildGateVerdict → Bool
  | sign _ _ => true
  | _ => false

theorem ChildGateVerdict.isSign_iff {v : ChildGateVerdict} :
    v.isSign = true ↔ ∃ rule audit, v = .sign rule audit := by
  cases v <;> simp [isSign]

structure ChildGateInput where
  rules : Option ChildRulesPayload
  persona : JsString
  template : UnsignedEvent
  appId : JsString
  siteOrigin : Option JsString
  nowMs : ℤ
  rateState : RateLimitState
  appPermission : Option AppPermissionClaim := none
  /-- Set only by the app's own visible button. -/
  appPermissionApproved : Bool := false

/-- `list.push(a)`, unless it is there. -/
def pushNew (as : List JsString) (a : Option JsString) : List JsString :=
  match a with
  | none => as
  | some a => insertNew as a

def childTargetsFor [Web] (template : UnsignedEvent) (scope : Option Scope) (appId : JsString)
    (siteOrigin : Option JsString) : List JsString :=
  let inferred := scope.bind (inferOrigin template)
  let isUrl (s : JsString) : Bool :=
    (lit "http:").isPrefixOf (toLowerCase s) || (lit "https:").isPrefixOf (toLowerCase s)
  let out := pushNew [] (inferred.bind fun s => if isUrl s then siteTarget s else peerTarget s)
  let out := pushNew out ((siteOrigin.filter (· ≠ [])).bind siteTarget)
  if appId = [] then out else pushNew out (some (appTarget appId))

def relayAuthKind : ℚ := 22242

def ownAppId : JsString := lit "mysignet"

def alwaysOffered (rules : ChildRulesPayload) : Bool := rules.stage ≠ .fullControl

/-- Is a schedule closed? Then the next time it opens, if that is known. -/
def closedUntil (schedule : Option GrantSchedule) (nowMs : ℤ) : Option (Option ℤ) :=
  match schedule with
  | none => none
  | some schedule =>
    match isWithinSchedule schedule nowMs 30 with
    | .allowed => none
    | .blocked nextAllowedAt => some nextAllowedAt

/-- The schedule of the dependant, narrowed by that of a rule. -/
def effectiveSchedule (rules : ChildRulesPayload) (rule : Option Rule) : Option GrantSchedule :=
  intersectSchedules (rules.defaultSchedule.map (·.val))
    ((rule.bind ChildRule.schedule).map (·.val))

/-- Deny rules apply at every stage, allow rules not at full control. -/
def usableRules (rules : ChildRulesPayload) : List Rule :=
  if rules.stage = .fullControl then rules.rules.filter isDeny else rules.rules

/-- An empty ceiling is every kind at full autonomy, and none elsewhere. -/
def inCeiling (rules : ChildRulesPayload) (kind : ℚ) : Bool :=
  (rules.stage = .fullAutonomy && rules.ceilingKinds.isEmpty)
    || rules.ceilingKinds.any fun k => (k : ℚ) = kind

/-- In order: the schedule, the ceiling, the rule, the stage. The ceiling is for events alone. -/
def decideWithRules (rules : ChildRulesPayload) (q : RuleQuery) (scope : Option Scope)
    (ceilingKind : Option ℚ) (ownRelayAuth : Bool) : ChildGateVerdict :=
  let rule := findRule (usableRules rules) q
  match closedUntil (effectiveSchedule rules rule) q.nowMs with
  | some nextAllowedAt => .blocked nextAllowedAt
  | none =>
    if ceilingKind.any fun kind => !inCeiling rules kind then
      .ask (lit "outside-ceiling") (alwaysOffered rules)
    -- Relay authentication for the app's own relays, unless a rule says otherwise.
    else if ownRelayAuth && !rule.any isDeny then .sign none false
    else
      match rule with
      | some r => if isDeny r then .deny (lit "rule") (some r) else .sign (some r) true
      | none =>
        match resolvePolicy rules.stage scope with
        | .auto => .sign none false
        | .autoAlert | .autoLog => .sign none true
        | _ => .ask (lit "stage") (alwaysOffered rules)

/-- A disconnected or blocked app, then the rate limit. -/
def preflight (rules : Option ChildRulesPayload) (persona appId : JsString) (nowMs : ℤ)
    (rateState : RateLimitState) : Option ChildGateVerdict :=
  let app := normaliseAppId appId
  let disconnected := rules.any fun rules => rules.disconnectedApps.any (normaliseAppId · = app)
  let blocker :=
    if app = [] then none
    else rules.bind fun rules =>
      findBlockingAppRule rules.rules { persona, scope := [], targets := [appTarget app], nowMs }
  if disconnected then some (.deny (lit "disconnected-app") none)
  else
    match blocker with
    | some r => some (.deny (lit "rule") (some r))
    | none =>
      if !(checkRateLimit (some rateState) nowMs).1 then some (.deny (lit "rate-limit") none)
      else none

/-! ## Online play -/

section
variable [Web] [Curve]

def appPermissionScope : JsString := lit "app-permission"

def delegationScope : JsString := lit "app-permission-self"

/-- `Math.floor(nowMs / 1000)`. -/
def secondsOf (nowMs : ℤ) : ℤ := nowMs.fdiv 1000

/-- An allowance for exactly this persona, site, app and install, as long as the statement. -/
def isStanding (persona target : JsString) (details : AppPermissionTemplateDetails) (r : Rule) :
    Bool :=
  r.scope = appPermissionScope && r.decision = .allow && r.persona = persona && r.target = target
    && r.appPermission = some { appId := details.appId, installKey := details.installKey }
    && r.expiresAt.any fun t => details.validUntil * 1000 ≤ t.val

/-- The rule that permits online play: a standing one, or a delegation that was approved now. -/
def permittingRule (rules : ChildRulesPayload) (q : RuleQuery) (template : UnsignedEvent)
    (claim : Option AppPermissionClaim) (approved : Bool) : Option Rule :=
  match claim.bind checkAppPermissionClaim,
      validateAppPermissionTemplate template (secondsOf q.nowMs) true with
  | some claim, .ok checked =>
    match siteTarget claim.origin with
    | none => none
    | some target =>
      if secondsOf q.nowMs < checked.details.validUntil ∧ checked.pubkey = q.persona
          ∧ target ∈ q.targets then
        let standing := findRule (rules.rules.filter (isStanding q.persona target checked.details))
          { q with targets := [target] }
        let delegation :=
          if approved then
            findRule (rules.rules.filter fun r => r.scope = delegationScope)
              { q with scope := delegationScope }
          else none
        standing.or (delegation.filter fun r => !isDeny r)
      else none
  | _, _ => none

def decideAppPermission (rules : ChildRulesPayload) (q : RuleQuery) (template : UnsignedEvent)
    (claim : Option AppPermissionClaim) (approved : Bool) : ChildGateVerdict :=
  match closedUntil (rules.defaultSchedule.map (·.val)) q.nowMs with
  | some nextAllowedAt => .blocked nextAllowedAt
  | none =>
    match findRule (rules.rules.filter isDeny) q with
    | some r => .deny (lit "rule") (some r)
    | none =>
      let allowed :=
        if rules.stage = .fullAutonomy then permittingRule rules q template claim approved else none
      match allowed with
      | none => .ask (lit "stage") false
      | some r =>
        match closedUntil (effectiveSchedule rules (some r)) q.nowMs with
        | some nextAllowedAt => .blocked nextAllowedAt
        | none => .sign (some r) true

/-- `scope ?? kind:<n>`. -/
def scopeKey (scope : Option Scope) (kind : ℚ) : JsString :=
  match scope with
  | some scope => lit scope.name
  | none => lit "kind:" ++ Platform.numberText kind

def decideChildRequest (input : ChildGateInput) : ChildGateVerdict :=
  match preflight input.rules input.persona input.appId input.nowMs input.rateState with
  | some early => early
  | none =>
    match input.rules with
    | none => .ask (lit "stage") false
    | some rules =>
      let scope := inferScope input.template
      let q : RuleQuery :=
        { persona := input.persona
          scope := scopeKey scope input.template.kind
          targets := childTargetsFor input.template scope input.appId input.siteOrigin
          nowMs := input.nowMs }
      if scope = some .appPermission then
        decideAppPermission rules q input.template input.appPermission
          (input.appId = ownAppId && input.appPermissionApproved)
      else
        let ownRelayAuth := input.template.kind = relayAuthKind
          && (input.siteOrigin.filter (· ≠ [])).isNone && normaliseAppId input.appId = ownAppId
        decideWithRules rules q scope (some input.template.kind) ownRelayAuth

end

/-- `nip44_encrypt` and `nip44_decrypt`, for a peer. -/
def decideChildCrypto (rules : Option ChildRulesPayload) (persona appId peer : JsString) (nowMs : ℤ)
    (rateState : RateLimitState) : ChildGateVerdict :=
  match preflight rules persona appId nowMs rateState with
  | some early => early
  | none =>
    match rules with
    | none => .ask (lit "stage") false
    | some rules =>
      let app := normaliseAppId appId
      let targets := (peerTarget peer).toList ++ if app = [] then [] else [appTarget app]
      decideWithRules rules
        { persona, scope := lit Scope.dmPrivate.name, targets, nowMs } (some .dmPrivate) none false

end

end SignetApp.Child
