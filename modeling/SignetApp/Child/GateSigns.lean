import SignetApp.Child.Gate
import SignetApp.Grants.Intersection

/-!
# What a signature of the gate has passed

The guards that come before any decision, and those of a decision by rules: the schedule, the
ceiling, and a rule that stands against every denial.
-/

namespace SignetApp.Child

open SignetApp.Js SignetApp.Family SignetApp.Grants

/-! ## Targets -/

theorem normaliseAppId_idem (appId : JsString) :
    normaliseAppId (normaliseAppId appId) = normaliseAppId appId := by
  unfold normaliseAppId
  split
  · next hhex =>
    have hkey : isHex64AnyCase (toLowerCase appId) = true := by
      unfold isHex64AnyCase at hhex ⊢
      rw [toLowerCase_toLowerCase]
      exact hhex
    rw [if_pos hkey, toLowerCase_toLowerCase]
  · rfl

theorem normaliseAppId_eq_nil_iff {appId : JsString} : normaliseAppId appId = [] ↔ appId = [] := by
  unfold normaliseAppId
  split
  · show List.map _ appId = [] ↔ _
    exact List.map_eq_nil_iff
  · rfl

theorem appTarget_normaliseAppId (appId : JsString) :
    appTarget (normaliseAppId appId) = appTarget appId := by
  unfold appTarget
  rw [normaliseAppId_idem]

theorem isAppTarget_appTarget (appId : JsString) : isAppTarget (appTarget appId) = true := by
  unfold isAppTarget appTarget
  rw [List.isPrefixOf_iff_prefix]
  exact List.prefix_append _ _

section
variable [Intl]

/-! ## The guards -/

/-- A live denial of the app, at this persona or at all, whatever its scope. A request without an id
is of no app. -/
def Blocks (r : Rule) (persona appId : JsString) (nowMs : ℤ) : Prop :=
  isDeny r = true ∧ RuleQuery.live { persona, scope := [], targets := [], nowMs } r = true
    ∧ (r.persona = star ∨ toLowerCase r.persona = toLowerCase persona)
    ∧ appId ≠ [] ∧ r.target = appTarget appId

/-- What comes before any decision. -/
structure Admitted (rules : ChildRulesPayload) (persona appId : JsString) (nowMs : ℤ)
    (rateState : RateLimitState) : Prop where
  connected : ∀ a ∈ rules.disconnectedApps, normaliseAppId a ≠ normaliseAppId appId
  unblocked : ∀ r ∈ rules.rules, ¬ Blocks r persona appId nowMs
  rate : (checkRateLimit (some rateState) nowMs).1 = true

/-- A rule allows, and no denial for the same request is as specific. -/
structure AllowedBy (rules : ChildRulesPayload) (q : RuleQuery) (r : Rule) : Prop where
  mem : r ∈ rules.rules
  allows : isDeny r = false
  candidate : q.candidate r = true
  stands : Stands isDeny q.levels (rules.rules.filter q.candidate) r

/-- The default schedule has no entry for the day, and the other one is open. -/
def PassesThrough (schedule other : GrantSchedule) (nowMs : ℤ) : Prop :=
  let time := extractInTz nowMs schedule.tz
  schedule.entry time.isoDate time.weekday = none ∧ other.opensAt time = true

/-- What the schedule, the rules and the stage ask for. -/
structure ByRules (rules : ChildRulesPayload) (q : RuleQuery) (rule : Option Rule) : Prop where
  opened : ∀ schedule ∈ rules.defaultSchedule,
    isWithinSchedule schedule.val q.nowMs 30 = .allowed
      ∨ ∃ r, findRule (usableRules rules) q = some r
        ∧ ∃ own ∈ r.schedule, PassesThrough schedule.val own.val q.nowMs
  allowedBy : ∀ r ∈ rule, AllowedBy rules q r
  fullControl : rules.stage = .fullControl → rule = none

/-! ## Lookups -/

variable {r : Rule} {q : RuleQuery}

theorem findRule_allows {rules : List Rule}
    (h : findRule rules q = some r) (hr : isDeny r = false) :
    r ∈ rules ∧ q.candidate r = true ∧ Stands isDeny q.levels (rules.filter q.candidate) r := by
  unfold findRule at h
  cases hblocker : findBlockingAppRule rules q with
  | some blocker =>
    rw [hblocker] at h
    obtain rfl := Option.some.inj h
    have hdeny := List.find?_some hblocker
    simp [hr] at hdeny
  | none =>
    rw [hblocker] at h
    obtain ⟨hmem, hcandidate⟩ := List.mem_filter.mp (mem_of_best_eq_some h)
    exact ⟨hmem, hcandidate, stands_of_best h hr⟩

theorem allowedBy_of_findRule {rules : ChildRulesPayload}
    (h : findRule (usableRules rules) q = some r) (hr : isDeny r = false) :
    AllowedBy rules q r ∧ rules.stage ≠ .fullControl := by
  obtain ⟨hmem, hcandidate, hstands⟩ := findRule_allows h hr
  have hstage : rules.stage ≠ .fullControl := by
    intro hcontrol
    rw [usableRules, if_pos hcontrol] at hmem
    rw [(List.mem_filter.mp hmem).2] at hr
    cases hr
  rw [usableRules, if_neg hstage] at hmem hstands
  exact ⟨⟨hmem, hr, hcandidate, hstands⟩, hstage⟩

theorem not_applies_of_findRule_eq_none {rules : List Rule}
    (h : findRule (rules.filter isDeny) q = none) (hr : r ∈ rules)
    (hdeny : isDeny r = true) (hcandidate : q.candidate r = true) :
    ∀ level ∈ q.levels, level r = false := by
  unfold findRule at h
  cases hblocker : findBlockingAppRule (rules.filter isDeny) q with
  | some blocker =>
    rw [hblocker] at h
    cases h
  | none =>
    rw [hblocker] at h
    intro level hlevel
    apply best_eq_none_iff.mp h level hlevel r
    exact List.mem_filter.mpr ⟨List.mem_filter.mpr ⟨hr, hdeny⟩, hcandidate⟩

/-! ## Preflight -/

variable {nowMs : ℤ}

variable {rateState : RateLimitState} {appId persona : JsString}

theorem admitted_of_preflight {rules : ChildRulesPayload} (h : preflight (some rules) persona appId nowMs rateState = none) :
    Admitted rules persona appId nowMs rateState := by
  unfold preflight at h
  simp only [Option.any_some, Option.bind_some] at h
  split at h
  · cases h
  · next hconnected =>
    split at h
    · cases h
    · next hblocker =>
      split at h
      · cases h
      · next hrate =>
        refine ⟨?_, ?_, by simpa using hrate⟩
        · intro a ha heq
          exact hconnected (List.any_eq_true.mpr ⟨a, ha, decide_eq_true heq⟩)
        · intro r hr ⟨hdeny, hlive, hpersona, happ, htarget⟩
          rw [if_neg fun hnil => happ (normaliseAppId_eq_nil_iff.mp hnil)] at hblocker
          have hnot := List.find?_eq_none.mp hblocker r hr
          apply hnot
          have hlive' : RuleQuery.live
              { persona, scope := [], targets := [appTarget (normaliseAppId appId)], nowMs } r
              = true := hlive
          have hsame : (decide (r.persona = star) || RuleQuery.samePersona
              { persona, scope := [], targets := [appTarget (normaliseAppId appId)], nowMs } r)
              = true := by
            rw [Bool.or_eq_true]
            exact hpersona.imp decide_eq_true decide_eq_true
          rw [hdeny, hlive', hsame, htarget, isAppTarget_appTarget, appTarget_normaliseAppId]
          simp

theorem not_sign_of_preflight {rules : Option ChildRulesPayload} {early : ChildGateVerdict}
    (h : preflight rules persona appId nowMs rateState = some early) (rule : Option Rule)
    (audit : Bool) : early ≠ .sign rule audit := by
  rintro rfl
  unfold preflight at h
  dsimp only at h
  split at h
  · cases h
  · split at h
    · cases h
    · split at h <;> cases h

/-! ## Schedules -/

/-- The platform's calendar: the weekday a clock shows is that of its date. -/
def ConsistentClock : Prop := ∀ nowMs tz, (extractInTz nowMs tz).Consistent

theorem closedUntil_eq_none_iff {schedule : Option GrantSchedule} :
    closedUntil schedule nowMs = none ↔
      ∀ s ∈ schedule, isWithinSchedule s nowMs 30 = .allowed := by
  cases schedule with
  | none => simp [closedUntil]
  | some schedule =>
    unfold closedUntil
    cases h : isWithinSchedule schedule nowMs 30 <;> simp [h]

theorem isWithinSchedule_intersectBoth (hclock : ConsistentClock) {a b : ValidSchedule}
    (h : isWithinSchedule (intersectBoth a.val b.val) nowMs 30 = .allowed) :
    isWithinSchedule a.val nowMs 30 = .allowed ∨ PassesThrough a.val b.val nowMs := by
  rw [isWithinSchedule_eq_allowed_iff] at h
  obtain ⟨hpaused, hopens⟩ := h
  by_cases hpause : (a.val.paused || b.val.paused) = true
  · rw [intersectBoth, if_pos hpause] at hpaused
    cases hpaused
  · have htz : (intersectBoth a.val b.val).tz = a.val.tz := by rw [intersectBoth, if_neg hpause]
    obtain ⟨hpa, hpb⟩ : a.val.paused = false ∧ b.val.paused = false := by simpa using hpause
    rw [htz, opensAt_intersectBoth a.property b.property (hclock _ _) hpa hpb] at hopens
    rcases hopens with hthrough | ⟨hopen, -⟩
    · exact .inr hthrough
    · exact .inl (isWithinSchedule_eq_allowed_iff.mpr ⟨hpa, hopen⟩)

variable {rule : Option Rule}

theorem opened_of_effectiveSchedule (hclock : ConsistentClock) {rules : ChildRulesPayload}
    (h : closedUntil (effectiveSchedule rules rule) nowMs = none) :
    ∀ schedule ∈ rules.defaultSchedule, isWithinSchedule schedule.val nowMs 30 = .allowed
      ∨ ∃ r, rule = some r ∧ ∃ own ∈ r.schedule, PassesThrough schedule.val own.val nowMs := by
  intro schedule hschedule
  rw [closedUntil_eq_none_iff] at h
  have hdefault : rules.defaultSchedule.map (·.val) = some schedule.val := by rw [hschedule]; rfl
  unfold effectiveSchedule at h
  rw [hdefault] at h
  cases hown : rule.bind ChildRule.schedule with
  | none =>
    rw [hown] at h
    exact .inl (h schedule.val rfl)
  | some own =>
    rw [hown] at h
    obtain ⟨r, hr, hrown⟩ := Option.bind_eq_some_iff.mp hown
    have hboth := h (intersectBoth schedule.val own.val) rfl
    exact (isWithinSchedule_intersectBoth hclock hboth).imp_right fun hthrough =>
      ⟨r, hr, own, hrown, hthrough⟩

/-! ## Decisions by rules -/

theorem decideWithRules_signs (hclock : ConsistentClock) {rules : ChildRulesPayload} {scope : Option Scope} {ceilingKind : Option ℚ} {ownRelayAuth audit : Bool}
    (h : decideWithRules rules q scope ceilingKind ownRelayAuth = .sign rule audit) :
    ByRules rules q rule ∧ ∀ kind ∈ ceilingKind, inCeiling rules kind = true := by
  unfold decideWithRules at h
  dsimp only at h
  cases hclosed : closedUntil (effectiveSchedule rules (findRule (usableRules rules) q)) q.nowMs with
  | some nextAllowedAt =>
    rw [hclosed] at h
    cases h
  | none =>
    rw [hclosed] at h
    have hopened := opened_of_effectiveSchedule hclock hclosed
    dsimp only at h
    split at h
    · cases h
    · next hceiling =>
      have hkind : ∀ kind ∈ ceilingKind, inCeiling rules kind = true := by
        intro kind hkind
        by_contra hout
        apply hceiling
        rw [Option.any_eq_true]
        exact ⟨kind, hkind, by simpa using hout⟩
      refine ⟨?_, hkind⟩
      -- Without a rule there is nothing more to show.
      have hnone : rule = none → ByRules rules q rule := by
        rintro rfl
        exact ⟨hopened, fun r hr => absurd hr (Option.not_mem_none r), fun _ => rfl⟩
      split at h
      · injection h with hrule
        exact hnone hrule.symm
      · split at h
        · next r hfound =>
          split at h
          · cases h
          · next hallows =>
            injection h with hrule
            obtain ⟨hallowed, hstage⟩ := allowedBy_of_findRule hfound (by simpa using hallows)
            subst hrule
            refine ⟨hopened, ?_, fun hcontrol => absurd hcontrol hstage⟩
            intro r' hr'
            obtain rfl := Option.some.inj hr'
            exact hallowed
        · split at h
          all_goals first
            | (injection h with hrule; exact hnone hrule.symm)
            | cases h

end

/-!
## What the gate signs

Online play needs a rule that names it, or a delegation approved now. Together with the guards of
`GateLaws` this says what every signature of the gate has passed.
-/

section
variable [Intl]

/-! ## Online play -/

variable {r : Rule}

variable {details : AppPermissionTemplateDetails} {persona target : JsString}

theorem isStanding_allows (h : isStanding persona target details r = true) : isDeny r = false := by
  unfold isStanding at h
  simp only [Bool.and_eq_true, decide_eq_true_eq] at h
  simp [isDeny, h.1.1.1.1.2]

variable {q : RuleQuery}

theorem lt_expiresAt_of_live (h : q.live r = true) {t : PosInt}
    (ht : r.expiresAt = some t) : q.nowMs < t.val := by
  unfold RuleQuery.live isLiveRule at h
  rw [ht] at h
  have hpos : (0 : ℚ) < t.val := by exact_mod_cast t.property.1
  simp only [Option.map_some, Option.any_some, hpos, Bool.and_eq_true, decide_true, Bool.true_and,
    Bool.not_eq_true', decide_eq_false_iff_not, not_le] at h
  exact_mod_cast h.2

/-- A standing rule stands: where no denial applies at all, none is as specific. -/
theorem allowedBy_standing {rules : ChildRulesPayload} (hscope : q.scope = appPermissionScope)
    (hundenied : ∀ r ∈ rules.rules, isDeny r = true → q.candidate r = true →
      ∀ level ∈ q.levels, level r = false) (htarget : target ∈ q.targets) (h : findRule (rules.rules.filter (isStanding q.persona target details))
      { q with targets := [target] } = some r) :
    isStanding q.persona target details r = true ∧ q.live r = true
      ∧ AllowedBy rules { q with scope := r.scope } r := by
  have hmem : r ∈ rules.rules.filter (isStanding q.persona target details) := by
    unfold findRule at h
    split at h
    · next blocker hblocker =>
      obtain rfl := Option.some.inj h
      exact List.mem_of_find?_eq_some hblocker
    · exact List.mem_of_mem_filter (mem_of_best_eq_some h)
  obtain ⟨hrules, hstanding⟩ := List.mem_filter.mp hmem
  have hallows := isStanding_allows hstanding
  obtain ⟨-, hcandidate, -⟩ := findRule_allows h hallows
  have hstanding' := hstanding
  unfold isStanding at hstanding'
  simp only [Bool.and_eq_true, decide_eq_true_eq] at hstanding'
  obtain ⟨⟨⟨⟨⟨hrscope, -⟩, hpersona⟩, hrtarget⟩, -⟩, -⟩ := hstanding'
  have hsame : ({ q with scope := r.scope } : RuleQuery) = q := by rw [hrscope, ← hscope]
  rw [hsame]
  have hcandidate' : q.candidate r = true := hcandidate
  have hlive : q.live r = true := by
    unfold RuleQuery.candidate at hcandidate'
    rw [Bool.and_eq_true] at hcandidate'
    exact hcandidate'.2
  have hwanted : q.wanted r = true := by
    unfold RuleQuery.wanted
    exact decide_eq_true (List.mem_map_of_mem (hrtarget ▸ htarget))
  refine ⟨hstanding, hlive, hrules, hallows, hcandidate', [], _, _, rfl, ?_, ?_⟩
  · unfold RuleQuery.samePersona
    simp [hpersona, hwanted]
  · intro b hb hdeny l hl
    obtain ⟨hbmem, hbcandidate⟩ := List.mem_filter.mp hb
    obtain rfl := List.mem_singleton.mp hl
    exact hundenied b hbmem hdeny hbcandidate _ List.mem_cons_self

/-- An approved delegation stands, against the denials of delegations and of everything. -/
theorem allowedBy_delegation {rules : ChildRulesPayload}
    (hundenied : ∀ r ∈ rules.rules, isDeny r = true → q.candidate r = true →
      ∀ level ∈ q.levels, level r = false) (h : findRule (rules.rules.filter fun r => r.scope = delegationScope)
      { q with scope := delegationScope } = some r) (hallows : isDeny r = false) :
    r.scope = delegationScope ∧ AllowedBy rules { q with scope := r.scope } r := by
  obtain ⟨hmem, hcandidate, before, level, after, hlevels, hmeets, hstands⟩ :=
    findRule_allows h hallows
  obtain ⟨hrules, hrscope⟩ := List.mem_filter.mp hmem
  have hrscope' : r.scope = delegationScope := of_decide_eq_true hrscope
  rw [hrscope']
  refine ⟨rfl, hrules, hallows, hcandidate, before, level, after, hlevels, hmeets, ?_⟩
  intro b hb hdeny l hl
  obtain ⟨hbmem, hbcandidate⟩ := List.mem_filter.mp hb
  by_cases hbscope : b.scope = delegationScope
  · apply hstands b _ hdeny l hl
    exact List.mem_filter.mpr
      ⟨List.mem_filter.mpr ⟨hbmem, decide_eq_true hbscope⟩, hbcandidate⟩
  · -- A denial of every scope was looked for before.
    have hcandidate' : q.candidate b = true := by
      unfold RuleQuery.candidate at hbcandidate ⊢
      rw [Bool.and_eq_true, Bool.or_eq_true] at hbcandidate ⊢
      obtain ⟨hscope | hstar, hlive⟩ := hbcandidate
      · exact absurd (of_decide_eq_true hscope) hbscope
      · exact ⟨.inr hstar, hlive⟩
    apply hundenied b hbmem hdeny hcandidate' l
    have hlevel : l ∈ before ++ level :: after := by
      rw [List.mem_append, List.mem_singleton] at hl
      rw [List.mem_append, List.mem_cons]
      exact hl.imp_right .inl
    exact hlevels ▸ hlevel

section
variable [Web] [Curve]

/-- An unexpired allowance that names exactly this persona, site, app and install. -/
structure StandingFor (q : RuleQuery) (template : UnsignedEvent) (claim : AppPermissionClaim)
    (r : Rule) : Prop where
  scope : r.scope = appPermissionScope
  persona : r.persona = q.persona ∧ template.pubkey = q.persona
  site : siteTarget claim.origin = some r.target ∧ r.target ∈ q.targets
  install : ∃ binding, r.appPermission = some binding
    ∧ template.tagValue "d" = some binding.appId ∧ template.tagValue "p" = some binding.installKey
  unexpired : ∃ t, r.expiresAt = some t ∧ q.nowMs < t.val

/-- What online play asks for, beyond an open schedule. -/
structure OnlinePlay (rules : ChildRulesPayload) (q : RuleQuery) (template : UnsignedEvent)
    (claim : Option AppPermissionClaim) (approved : Bool) (rule : Option Rule) : Prop where
  opened : ∀ schedule ∈ rules.defaultSchedule,
    isWithinSchedule schedule.val q.nowMs 30 = .allowed
  undenied : ∀ r ∈ rules.rules, isDeny r = true → q.candidate r = true →
    ∀ level ∈ q.levels, level r = false
  stage : rules.stage = .fullAutonomy
  /-- A rule for this very statement, or a delegation approved now. -/
  allowedBy : ∃ r, rule = some r ∧ AllowedBy rules { q with scope := r.scope } r
    ∧ ((∃ c ∈ claim, StandingFor q template c r)
      ∨ (r.scope = delegationScope ∧ approved = true))

variable {approved : Bool} {claim : Option AppPermissionClaim} {template : UnsignedEvent}
variable {rules : ChildRulesPayload}

theorem permittingRule_allows {q : RuleQuery} {r : Rule} (hscope : q.scope = appPermissionScope)
    (hundenied : ∀ r ∈ rules.rules, isDeny r = true → q.candidate r = true →
      ∀ level ∈ q.levels, level r = false)
    (h : permittingRule rules q template claim approved = some r) :
    AllowedBy rules { q with scope := r.scope } r
      ∧ ((∃ c ∈ claim, StandingFor q template c r)
        ∨ (r.scope = delegationScope ∧ approved = true)) := by
  unfold permittingRule at h
  split at h
  · next checkedClaim checked hclaim hvalid =>
    split at h
    · cases h
    · next target htarget =>
      split at h
      · next hall =>
        obtain ⟨-, hpubkey, hmem⟩ := hall
        dsimp only at h
        rw [Option.or_eq_some_iff] at h
        rcases h with hstanding | ⟨-, hdelegation⟩
        · obtain ⟨hfits, hlive, hallowed⟩ := allowedBy_standing hscope hundenied hmem hstanding
          refine ⟨hallowed, .inl ?_⟩
          obtain ⟨c, hc, hchecked⟩ := Option.bind_eq_some_iff.mp hclaim
          have horigin := origin_of_checkAppPermissionClaim hchecked
          obtain ⟨hsame, hd, hp⟩ := validateAppPermissionTemplate_ok hvalid
          unfold isStanding at hfits
          simp only [Bool.and_eq_true, decide_eq_true_eq] at hfits
          obtain ⟨⟨⟨⟨⟨hrscope, -⟩, hpersona⟩, hrtarget⟩, hbinding⟩, hexpires⟩ := hfits
          rw [Option.any_eq_true] at hexpires
          obtain ⟨t, ht, -⟩ := hexpires
          refine ⟨c, hc, hrscope, ⟨hpersona, hsame.symm.trans hpubkey⟩, ⟨?_, hrtarget ▸ hmem⟩,
            ⟨_, hbinding, hd, hp⟩, t, ht, lt_expiresAt_of_live hlive ht⟩
          rw [← horigin, htarget, hrtarget]
        · obtain ⟨hfound, hallows⟩ := Option.filter_eq_some_iff.mp hdelegation
          split at hfound
          · next happroved =>
            obtain ⟨hrscope, hallowed⟩ :=
              allowedBy_delegation hundenied hfound (by simpa using hallows)
            exact ⟨hallowed, .inr ⟨hrscope, happroved⟩⟩
          · cases hfound
      · cases h
  · cases h

variable {rule : Option Rule} {audit : Bool}

theorem decideAppPermission_signs {q : RuleQuery} (hscope : q.scope = appPermissionScope)
    (h : decideAppPermission rules q template claim approved = .sign rule audit) :
    OnlinePlay rules q template claim approved rule := by
  unfold decideAppPermission at h
  split at h
  · cases h
  · next hclosed =>
    rw [closedUntil_eq_none_iff] at hclosed
    split at h
    · cases h
    · next hdeny =>
      have hundenied : ∀ r ∈ rules.rules, isDeny r = true → q.candidate r = true →
          ∀ level ∈ q.levels, level r = false := fun r hr hd hc =>
        not_applies_of_findRule_eq_none hdeny hr hd hc
      dsimp only at h
      split at h
      · cases h
      · next r hallowed =>
        split at h
        · cases h
        · injection h with hrule
          split at hallowed
          · next hstage =>
            obtain ⟨hby, hnamed⟩ := permittingRule_allows hscope hundenied hallowed
            refine ⟨?_, hundenied, hstage, r, hrule.symm, hby, hnamed⟩
            intro schedule hschedule
            exact hclosed schedule.val (by rw [hschedule]; rfl)
          · cases hallowed

/-! ## Requests -/

/-- What the rules are asked for a request. -/
def requestQuery (input : ChildGateInput) : RuleQuery where
  persona := input.persona
  scope := scopeKey (inferScope input.template) input.template.kind
  targets := childTargetsFor input.template (inferScope input.template) input.appId input.siteOrigin
  nowMs := input.nowMs

def cryptoQuery (persona appId peer : JsString) (nowMs : ℤ) : RuleQuery where
  persona
  scope := lit Scope.dmPrivate.name
  targets := (peerTarget peer).toList
    ++ if normaliseAppId appId = [] then [] else [appTarget (normaliseAppId appId)]
  nowMs

theorem decideChildRequest_signs (hclock : ConsistentClock) {input : ChildGateInput} (h : decideChildRequest input = .sign rule audit) :
    ∃ rules, input.rules = some rules
      ∧ Admitted rules input.persona input.appId input.nowMs input.rateState
      ∧ (input.template.kind = 30420 →
        OnlinePlay rules (requestQuery input) input.template input.appPermission
          (input.appId = ownAppId && input.appPermissionApproved) rule)
      ∧ (input.template.kind ≠ 30420 →
        ByRules rules (requestQuery input) rule ∧ inCeiling rules input.template.kind = true) := by
  unfold decideChildRequest at h
  split at h
  · next early hearly => exact absurd h (not_sign_of_preflight hearly rule audit)
  · next hearly =>
    split at h
    · cases h
    · next rules hrules =>
      rw [hrules] at hearly
      refine ⟨rules, hrules, admitted_of_preflight hearly, ?_, ?_⟩
      · intro hkind
        have hscope := inferScope_eq_appPermission_iff.mpr hkind
        dsimp only at h
        rw [if_pos hscope] at h
        apply decideAppPermission_signs _ h
        rw [hscope]
        rfl
      · intro hkind
        have hscope := fun heq => hkind (inferScope_eq_appPermission_iff.mp heq)
        dsimp only at h
        rw [if_neg hscope] at h
        obtain ⟨hby, hceiling⟩ := decideWithRules_signs hclock h
        exact ⟨hby, hceiling _ rfl⟩

end

theorem decideChildCrypto_signs (hclock : ConsistentClock) {rules : Option ChildRulesPayload}
    {appId peer : JsString} {nowMs : ℤ} {rateState : RateLimitState} {rule : Option Rule}
    {audit : Bool}
    (h : decideChildCrypto rules persona appId peer nowMs rateState = .sign rule audit) :
    ∃ payload, rules = some payload ∧ Admitted payload persona appId nowMs rateState
      ∧ ByRules payload (cryptoQuery persona appId peer nowMs) rule := by
  unfold decideChildCrypto at h
  split at h
  · next early hearly => exact absurd h (not_sign_of_preflight hearly rule audit)
  · next hearly =>
    cases rules with
    | none => cases h
    | some payload =>
      exact ⟨payload, rfl, admitted_of_preflight hearly, (decideWithRules_signs hclock h).1⟩

/-- **The gate signs only when every guard holds.** -/
theorem gate_signs [Web] [Curve] (hclock : ConsistentClock) :
    (∀ (input : ChildGateInput) (rule : Option Rule) (audit : Bool),
        decideChildRequest input = .sign rule audit →
        ∃ rules, input.rules = some rules
          ∧ Admitted rules input.persona input.appId input.nowMs input.rateState
          ∧ (input.template.kind = 30420 →
            OnlinePlay rules (requestQuery input) input.template input.appPermission
              (input.appId = ownAppId && input.appPermissionApproved) rule)
          ∧ (input.template.kind ≠ 30420 →
            ByRules rules (requestQuery input) rule
              ∧ inCeiling rules input.template.kind = true))
      ∧ ∀ (rules : Option ChildRulesPayload) (persona appId peer : JsString) (nowMs : ℤ)
        (rateState : RateLimitState) (rule : Option Rule) (audit : Bool),
        decideChildCrypto rules persona appId peer nowMs rateState = .sign rule audit →
        ∃ payload, rules = some payload ∧ Admitted payload persona appId nowMs rateState
          ∧ ByRules payload (cryptoQuery persona appId peer nowMs) rule :=
  ⟨fun _ _ _ h => decideChildRequest_signs hclock h,
    fun _ _ _ _ _ _ _ _ h => decideChildCrypto_signs hclock h⟩

end

/-! ## On a Tuesday morning -/

/-- The URLs of one site. -/
@[reducible] def twangWeb : Web where
  numberText := samplePlatform.numberText
  parseUrl s :=
    if s = lit "https://twang.example" then some (lit "https:", lit "twang.example") else none
  origin s := s

/-- The base point of the curve, by its first coordinate. -/
def installKey : JsString := lit "79be667ef9dcbbac55a06295ce870b07029bfcdb2dce28d959f2815b16f81798"

@[reducible] def baseCurve : Curve where
  liftsX n := n = digitsValue 16 installKey

def childPersona : JsString := lit "aaaaaaaaaaaaaaaaaaaaaaaaaaaaaaaaaaaaaaaaaaaaaaaaaaaaaaaaaaaaaaaa"

/-- A statement of one day for an app. -/
def twangStatement : UnsignedEvent where
  kind := 30420
  pubkey := childPersona
  content := []
  tags := [[lit "d", lit "twang"], [lit "p", installKey], [lit "valid_from", lit "1780394400"],
    [lit "valid_until", lit "1780480800"], [lit "v", lit "1"], [lit "role", lit "player"],
    [lit "expiration", lit "1780480800"]]

def tuesdayRule (scope : JsString) (schedule : Option (@ValidSchedule tuesdayMorning)) :
    @Rule tuesdayMorning where
  id := lit "r"
  dependantId := lit "d"
  persona := star
  scope
  target := star
  decision := .allow
  schedule
  createdAt := ⟨1, by decide⟩
  updatedAt := ⟨1, by decide⟩

/-- A dependant of full autonomy whose guardian delegates online play, with a ceiling of kind 1. -/
def delegated : @ChildRulesPayload tuesdayMorning :=
  letI := tuesdayMorning
  { stage := .fullAutonomy
    defaultSchedule := none
    ceilingKinds := [1]
    rules := [tuesdayRule delegationScope none]
    disconnectedApps := [] }

def tuesdayInput (rules : @ChildRulesPayload tuesdayMorning) (template : UnsignedEvent) :
    @ChildGateInput tuesdayMorning :=
  letI := tuesdayMorning
  { rules := some rules
    persona := childPersona
    template
    appId := ownAppId
    siteOrigin := some (lit "https://twang.example")
    nowMs := dateUtc 2026 6 2 600
    rateState := { count := 0, windowStart := 0 }
    appPermission := some
      { permission := lit "online-play", name := lit "Twang", origin := lit "https://twang.example"
        reason := lit "Play online." }
    appPermissionApproved := true }

theorem delegated_signs :
    letI := tuesdayMorning
    letI := twangWeb
    letI := baseCurve
    (decideChildRequest (tuesdayInput delegated twangStatement)).isSign = true := by
  decide

theorem gate_signs_delegated :
    letI := tuesdayMorning
    letI := twangWeb
    letI := baseCurve
    ∃ rule audit,
      decideChildRequest (tuesdayInput delegated twangStatement) = .sign rule audit
        ∧ OnlinePlay delegated (requestQuery (tuesdayInput delegated twangStatement))
          twangStatement (tuesdayInput delegated twangStatement).appPermission true rule := by
  let := tuesdayMorning
  let := twangWeb
  let := baseCurve
  obtain ⟨rule, audit, hsign⟩ := ChildGateVerdict.isSign_iff.mp delegated_signs
  have hclock : ConsistentClock := fun nowMs tz => consistent_tuesdayMorning nowMs tz
  obtain ⟨rules, hrules, _, honline, _⟩ := (gate_signs hclock).1 _ rule audit hsign
  obtain rfl : delegated = rules := Option.some.inj hrules
  exact ⟨rule, audit, hsign, honline rfl⟩

/-- A dependant with a schedule for Mondays, and a rule with one for Tuesdays. -/
def mondays : @ChildRulesPayload tuesdayMorning :=
  letI := tuesdayMorning
  { stage := .requestApprove
    defaultSchedule := some ⟨officeHours .mon, valid_officeHours .mon⟩
    ceilingKinds := [1]
    rules := [tuesdayRule (lit "post-public") (some ⟨officeHours .tue, valid_officeHours .tue⟩)]
    disconnectedApps := [] }

def post : UnsignedEvent where
  kind := 1
  pubkey := childPersona
  content := lit "hi"
  tags := []

/-- A statement for online play is signed outside the ceiling, and a post while the default schedule
is closed. -/
theorem signs_past_guards :
    letI := tuesdayMorning
    letI := twangWeb
    letI := baseCurve
    ((decideChildRequest (tuesdayInput delegated twangStatement)).isSign = true
        ∧ inCeiling delegated twangStatement.kind = false)
      ∧ (decideChildRequest (tuesdayInput mondays post)).isSign = true
        ∧ ∀ schedule ∈ mondays.defaultSchedule,
          isWithinSchedule schedule.val (dateUtc 2026 6 2 600) 30 ≠ .allowed := by
  refine ⟨⟨delegated_signs, by decide +kernel⟩, by decide +kernel, ?_⟩
  intro schedule hschedule
  obtain rfl := Option.some.inj hschedule
  decide +kernel

end SignetApp.Child
