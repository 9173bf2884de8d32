import SignetApp.Child.GateSigns
import SignetApp.Child.Seeding
import SignetApp.Grants.Agreement

/-!
# Moving a child to its own phone

With the rules that seeding stores, the gate of the child's phone signs nothing that a grant of the guardian's phone
denied, and goes by an allowance for what its grant allowed; of grants that come to one rule, the last has its say.
-/

namespace SignetApp.Child

open SignetApp.Js SignetApp.Family SignetApp.Grants

/-! ## Origins and targets -/

/-- The platform reads the origins that it gives: they are URLs in lower case, and their own origins. -/
structure ReadsOrigins [Web] : Prop where
  url : ∀ {raw origin}, safeOriginForGrant raw = some origin → isUrl origin = true
  again : ∀ {raw origin}, safeOriginForGrant raw = some origin → safeOriginForGrant origin = some origin
  lower : ∀ {raw origin}, safeOriginForGrant raw = some origin → toLowerCase origin = origin

section

variable [Web]

variable {s : JsString}

omit [Web] in
theorem isUrl_ne_nil (h : isUrl s = true) : s ≠ [] := by
  rintro rfl
  revert h
  decide

omit [Web] in
theorem not_isUrl_of_hex (h : isHex64AnyCase s = true) : isUrl s = false := by
  unfold isHex64AnyCase isHexOf at h
  rw [Bool.and_eq_true, List.all_eq_true] at h
  obtain ⟨-, hdigits⟩ := h
  rw [← Bool.not_eq_true]
  intro hurl
  have hhead : unit 'h' ∈ toLowerCase s := by
    unfold isUrl at hurl
    rw [Bool.or_eq_true, List.isPrefixOf_iff_prefix, List.isPrefixOf_iff_prefix] at hurl
    rcases hurl with hprefix | hprefix <;> exact hprefix.subset (by decide)
  exact absurd (hdigits _ hhead) (by decide)

omit [Web] in
theorem toLowerCase_hex64 (h : isHex64AnyCase s = true) : isHex64AnyCase (toLowerCase s) = true := by
  unfold isHex64AnyCase at h ⊢
  rwa [toLowerCase_toLowerCase]

theorem originTarget_of_hex {value : JsString} (h : isHex64AnyCase value = true) :
    originTarget (toLowerCase value) = some (lit "peer:" ++ toLowerCase value) := by
  have hhex := toLowerCase_hex64 h
  rw [originTarget, if_neg (by rw [not_isUrl_of_hex hhex]; decide), peerTarget, if_pos hhex, toLowerCase_toLowerCase]

variable {origin : JsString}

/-- What a request is looked up for has a target. -/
theorem originTarget_of_inferOrigin (hweb : ReadsOrigins) {template : UnsignedEvent} {scope : Scope} (h : inferOrigin template scope = some origin) :
    toLowerCase origin = origin ∧ ∃ target, originTarget origin = some target := by
  have hsite : ∀ {raw : JsString}, safeOriginForGrant raw = some origin →
      toLowerCase origin = origin ∧ ∃ target, originTarget origin = some target := by
    intro raw hraw
    refine ⟨hweb.lower hraw, lit "site:" ++ origin, ?_⟩
    have hurl := hweb.url hraw
    rw [originTarget, if_pos hurl, siteTarget, hweb.again hraw]
    show (if origin = [] then none else some (lit "site:" ++ origin)) = _
    rw [if_neg (isUrl_ne_nil hurl)]
  have hpeer : ∀ {value : JsString}, isHex64AnyCase value = true → toLowerCase value = origin →
      toLowerCase origin = origin ∧ ∃ target, originTarget origin = some target := by
    rintro value hvalue rfl
    exact ⟨toLowerCase_toLowerCase value, _, originTarget_of_hex hvalue⟩
  unfold inferOrigin at h
  cases scope with
  | signIn =>
    dsimp only at h
    split at h
    · cases h
    · split at h
      · cases h
      · exact hsite h
  | uploadPhoto =>
    obtain ⟨raw, -, hraw⟩ := Option.bind_eq_some_iff.mp h
    exact hsite hraw
  | dmPrivate | reactZapReply =>
    dsimp only at h
    split at h
    · cases h
    · split at h
      · next hhex => exact hpeer hhex (Option.some.inj h)
      · cases h
  | _ => cases h

variable {target : JsString}

theorem mem_childTargetsFor {template : UnsignedEvent} {scope : Scope} {appId : JsString}
    {siteOrigin : Option JsString} (hinferred : inferOrigin template scope = some origin)
    (htarget : originTarget origin = some target) :
    target ∈ childTargetsFor template (some scope) appId siteOrigin := by
  have hpush : ∀ {as : List JsString} {a : Option JsString}, target ∈ as → target ∈ pushNew as a := by
    intro as a has
    cases a with
    | none => exact has
    | some a => exact mem_insertNew.mpr (.inl has)
  have hfirst : target ∈ pushNew [] (((some scope).bind (inferOrigin template)).bind originTarget) := by
    rw [Option.bind_some, hinferred, Option.bind_some, htarget]
    exact List.mem_singleton_self _
  unfold childTargetsFor
  dsimp only
  split
  · exact hpush hfirst
  · exact hpush (hpush hfirst)

theorem originTarget_cases (h : originTarget origin = some target) :
    (∃ rest, target = lit "site:" ++ rest) ∨ ∃ rest, target = lit "peer:" ++ rest := by
  unfold originTarget at h
  split at h
  · obtain ⟨safe, -, hsafe⟩ := Option.bind_eq_some_iff.mp h
    split at hsafe
    · cases hsafe
    · exact .inl ⟨safe, (Option.some.inj hsafe).symm⟩
  · unfold peerTarget at h
    split at h
    · exact .inr ⟨_, (Option.some.inj h).symm⟩
    · cases h

theorem target_ne_star (h : originTarget origin = some target) : target ≠ star := by
  have hstar : star.length = 1 := by decide
  have hsite : (lit "site:").length = 5 := by decide
  have hpeer : (lit "peer:").length = 5 := by decide
  intro heq
  have hlength := congrArg List.length heq
  obtain ⟨rest, rfl⟩ | ⟨rest, rfl⟩ := originTarget_cases h <;> rw [List.length_append] at hlength <;> omega

theorem not_isAppTarget (h : originTarget origin = some target) : isAppTarget target = false := by
  obtain ⟨rest, rfl⟩ | ⟨rest, rfl⟩ := originTarget_cases h <;> rfl

end

/-! ## Texts of rules -/

theorem bar_not_mem_name (s : Scope) : unit '|' ∉ lit s.name := by
  cases s <;> decide

theorem toLowerCase_name (s : Scope) : toLowerCase (lit s.name) = lit s.name := by
  cases s <;> decide

theorem name_ne_star (s : Scope) : lit s.name ≠ star := by
  cases s <;> decide

theorem name_ne_delegation (s : Scope) : lit s.name ≠ delegationScope := by
  cases s <;> decide

theorem childRuleText_inj {dependantId persona target target' : JsString} {s s' : Scope}
    (h : childRuleText dependantId persona (lit s.name) target = childRuleText dependantId persona (lit s'.name) target') :
    lit s.name = lit s'.name ∧ targetKey target = targetKey target' := by
  have hsplit : ∀ (s : Scope) (target : JsString),
      childRuleText dependantId persona (lit s.name) target =
        toLowerCase (lit "signet:child-rule:v1:" ++ dependantId ++ lit "|" ++ persona ++ lit "|") ++
          (lit s.name ++ unit '|' :: targetKey target) := by
    intro s target
    unfold childRuleText
    have hlower : ∀ a b : JsString, toLowerCase (a ++ b) = toLowerCase a ++ toLowerCase b := fun a b => List.map_append
    rw [hlower, hlower, toLowerCase_name]
    simp only [List.append_assoc]
    rfl
  rw [hsplit, hsplit] at h
  exact append_cons_inj (bar_not_mem_name s) (bar_not_mem_name s') (List.append_cancel_left h)

/-! ## Seeds -/

section

variable [Intl]

theorem live_iff {q : RuleQuery} {r : Rule} (htombstone : r.tombstonedAt = none) :
    q.live r = true ↔ ∀ t ∈ r.expiresAt, q.nowMs < t.val := by
  unfold RuleQuery.live isLiveRule
  rw [htombstone]
  cases h : r.expiresAt with
  | none => simp
  | some t =>
    have hpos : (0 : ℚ) < t.val := by exact_mod_cast t.property.1
    simp only [Option.map_none, Option.any_none, Bool.not_false, Bool.true_and, Option.map_some, Option.any_some,
      hpos, decide_true, Bool.not_eq_true', decide_eq_false_iff_not, not_le, Option.mem_def, Option.some.injEq,
      forall_eq']
    exact_mod_cast Iff.rfl

omit [Intl] in
theorem millis_val {t : Seconds} (h : IsWhole t) : ((millis t h).val : ℚ) = t.val * 1000 := by
  obtain ⟨n, hn, -⟩ := h
  show ((t.val.num.toNat * 1000 : ℕ) : ℚ) = _
  rw [hn]
  simp

variable [Web] [Sync.Sha256] {dependantId : JsString} {grants : List SavedGrant} {seededMs : ℤ} {g : SavedGrant}
  {r b : Rule}

/-- What the seed of a grant is. -/
structure IsSeed (dependantId : JsString) (g : SavedGrant) (r : Rule) : Prop where
  dependant : g.val.dependantId.val = toLowerCase dependantId
  persona : r.persona = star
  scope : r.scope = g.val.scope.val
  target : originTarget g.val.origin = some r.target
  decision : r.decision = g.val.decision
  id : r.id = childRuleId (toLowerCase dependantId) star r.scope r.target
  tombstonedAt : r.tombstonedAt = none
  appPermission : r.appPermission = none
  schedule : r.schedule.map (·.val) = g.val.schedule
  live : ∀ q : RuleQuery, q.live r = true ↔ ∀ t ∈ g.val.expiresAt, (q.nowMs : ℚ) < t.val * 1000

omit [Web] in
theorem live_seedRule (target : JsString) (q : RuleQuery) :
    q.live (seedRule dependantId g target) = true ↔ ∀ t ∈ g.val.expiresAt, (q.nowMs : ℚ) < t.val * 1000 := by
  rw [live_iff rfl]
  constructor
  · intro h t ht
    have hlt := h (millis t (g.property.expiresAt t ht)) (Option.pmap_eq_some_iff.mpr ⟨t, g.property.expiresAt t ht, ht, rfl⟩)
    rw [← millis_val (g.property.expiresAt t ht)]
    exact_mod_cast hlt
  · intro h t ht
    obtain ⟨u, -, hu, rfl⟩ := Option.pmap_eq_some_iff.mp ht
    have hlt := h u hu
    rw [← millis_val (g.property.expiresAt u hu)] at hlt
    exact_mod_cast hlt

theorem seedOf_eq_some_iff : seedOf dependantId seededMs g = some r ↔
    toLowerCase g.val.dependantId.val = toLowerCase dependantId ∧ g.val.tombstonedAt = none ∧
      (∀ t ∈ g.val.expiresAt, (seededMs : ℚ) < t.val * 1000) ∧
      ∃ target, originTarget g.val.origin = some target ∧ seedRule (toLowerCase dependantId) g target = r := by
  unfold seedOf
  by_cases hdependant : toLowerCase g.val.dependantId.val = toLowerCase dependantId
  · rw [if_neg (not_not.mpr hdependant)]
    by_cases htombstone : g.val.tombstonedAt = none
    · rw [htombstone]
      by_cases hexpired : (g.val.expiresAt.any fun t => t.val * 1000 ≤ (seededMs : ℚ)) = true
      · have hnot : ¬ ∀ t ∈ g.val.expiresAt, (seededMs : ℚ) < t.val * 1000 := by
          intro hlive
          obtain ⟨t, ht, hle⟩ := (Option.any_eq_true _ _).mp hexpired
          exact absurd (of_decide_eq_true hle) (not_le.mpr (hlive t ht))
        rw [if_neg (by decide), if_pos hexpired]
        exact ⟨fun h => (by cases h), fun h => absurd h.2.2.1 hnot⟩
      · have hlive : ∀ t ∈ g.val.expiresAt, (seededMs : ℚ) < t.val * 1000 := by
          intro t ht
          by_contra hle
          exact hexpired ((Option.any_eq_true _ _).mpr ⟨t, ht, decide_eq_true (not_lt.mp hle)⟩)
        rw [if_neg (by decide), if_neg hexpired, Option.map_eq_some_iff]
        exact ⟨fun h => ⟨hdependant, rfl, hlive, h⟩, fun h => h.2.2.2⟩
    · rw [if_pos (Option.isSome_iff_ne_none.mpr htombstone)]
      exact ⟨fun h => (by cases h), fun h => absurd h.2.1 htombstone⟩
  · rw [if_pos hdependant]
    exact ⟨fun h => (by cases h), fun h => absurd h.1 hdependant⟩

theorem isSeed_of_seedOf (h : seedOf dependantId seededMs g = some r) : IsSeed dependantId g r := by
  obtain ⟨hdependant, -, -, target, htarget, rfl⟩ := seedOf_eq_some_iff.mp h
  refine ⟨?_, rfl, rfl, htarget, rfl, rfl, rfl, rfl, ?_, live_seedRule target⟩
  · rwa [toLowerCase_of_hex g.val.dependantId.property] at hdependant
  · show (g.val.schedule.pmap _ g.property.schedule).map _ = _
    rw [Option.map_pmap, Option.pmap_eq_map, Option.map_id']

end

/-! ## What is stored -/

/-- No two texts of the seeds share the half of a digest that is an id. -/
def TellsTexts [Intl] (dependantId : JsString) (seeds : List Rule) : Prop :=
  ∀ r ∈ seeds, ∀ r' ∈ seeds, r.id = r'.id →
    childRuleText (toLowerCase dependantId) star r.scope r.target =
      childRuleText (toLowerCase dependantId) star r'.scope r'.target

/-- What comes later under the id of a seed has its decision, and is live. -/
def LastWord [Intl] (seeds : List Rule) (q : RuleQuery) (r : Rule) : Prop :=
  ∀ before after, seeds = before ++ r :: after → ∀ later ∈ after, later.id = r.id →
    later.decision = r.decision ∧ q.live later = true

section

variable [Intl] [Web] [Sync.Sha256] {dependantId : JsString} {grants : List SavedGrant} {seededMs : ℤ} {g : SavedGrant}
  {r b : Rule} {q : RuleQuery}

theorem mem_seeds_iff :
    r ∈ rulesFromLegacyGrants dependantId grants seededMs ↔ ∃ g ∈ grants, seedOf dependantId seededMs g = some r :=
  List.mem_filterMap

theorem mem_seeds_of_stored (h : r ∈ storedSeeds dependantId grants seededMs) :
    ∃ g ∈ grants, seedOf dependantId seededMs g = some r :=
  mem_seeds_iff.mp (mem_of_mem_standing h)

theorem scope_of_seed (h : r ∈ rulesFromLegacyGrants dependantId grants seededMs) : ∃ s : Scope, r.scope = lit s.name := by
  obtain ⟨g, -, hg⟩ := mem_seeds_iff.mp h
  obtain ⟨s, hs⟩ := g.property.scope
  exact ⟨s, (isSeed_of_seedOf hg).scope.trans hs⟩

theorem exists_stored (hids : TellsTexts dependantId (rulesFromLegacyGrants dependantId grants seededMs))
    (hr : r ∈ rulesFromLegacyGrants dependantId grants seededMs) (hlive : q.live r = true)
    (hlast : LastWord (rulesFromLegacyGrants dependantId grants seededMs) q r) :
    ∃ b ∈ storedSeeds dependantId grants seededMs,
      b.scope = r.scope ∧ targetKey b.target = targetKey r.target ∧ b.decision = r.decision ∧ q.live b = true := by
  obtain ⟨before, after, hsplit⟩ := List.append_of_mem hr
  have hstands : ∃ b ∈ standing ChildRule.id (before ++ r :: after), b.id = r.id ∧ (b = r ∨ b ∈ after) :=
    exists_standing_of_split before after r
  obtain ⟨b, hb, hid, hwhich⟩ := hstands
  rw [← hsplit] at hb
  have hseed := mem_of_mem_standing hb
  obtain ⟨s, hs⟩ := scope_of_seed hseed
  obtain ⟨s', hs'⟩ := scope_of_seed hr
  have htext := hids b hseed r hr hid
  rw [hs, hs'] at htext
  obtain ⟨hname, htarget⟩ := childRuleText_inj htext
  refine ⟨b, hb, by rw [hs, hs', hname], htarget, ?_⟩
  rcases hwhich with rfl | hafter
  · exact ⟨rfl, hlive⟩
  · exact hlast before after hsplit b hafter hid

theorem stored_unique (hr : r ∈ storedSeeds dependantId grants seededMs) (hb : b ∈ storedSeeds dependantId grants seededMs)
    (hscope : r.scope = b.scope) (htarget : targetKey r.target = targetKey b.target) : r = b := by
  obtain ⟨g, -, hg⟩ := mem_seeds_of_stored hr
  obtain ⟨g', -, hg'⟩ := mem_seeds_of_stored hb
  apply eq_of_standing hr hb
  rw [(isSeed_of_seedOf hg).id, (isSeed_of_seedOf hg').id, childRuleId, childRuleId, childRuleText, childRuleText,
    hscope, htarget]

end

/-! ## What is found -/

section

variable [Intl] {rules : List Rule} {payload : ChildRulesPayload} {q : RuleQuery} {r b : Rule} {scope : Option Scope}
  {ceilingKind : Option ℚ} {ownRelayAuth audit : Bool}

/-- Among rules for all personas, a denial of the target is found first. -/
theorem found_denies (hpersonas : ∀ r ∈ rules, r.persona = star) (hb : b ∈ rules) (hdeny : isDeny b = true)
    (hcandidate : q.candidate b = true) (hwanted : q.wanted b = true) :
    ∃ r, findRule rules q = some r ∧ isDeny r = true := by
  have hsecond : (decide (b.persona = star) && q.wanted b) = true := by
    rw [hwanted, hpersonas b hb]
    rfl
  cases hfound : findRule rules q with
  | none =>
    unfold findRule at hfound
    split at hfound
    · cases hfound
    · have hnone := best_eq_none_iff.mp hfound _ (List.mem_cons_of_mem _ List.mem_cons_self) b
        (List.mem_filter.mpr ⟨hb, hcandidate⟩)
      rw [hsecond] at hnone
      cases hnone
  | some r =>
    refine ⟨r, rfl, ?_⟩
    by_contra hallows
    obtain ⟨hr, -, before, level, after, hlevels, hmeets, hnone⟩ := findRule_allows hfound (by simpa using hallows)
    have hnone := hnone b (List.mem_filter.mpr ⟨hb, hcandidate⟩) hdeny
    cases before with
    | nil =>
      -- at the first level the two rules have one persona
      obtain ⟨rfl, -⟩ := List.cons.inj hlevels
      have hfirst := hnone _ (List.mem_singleton_self _)
      rw [Bool.and_eq_true] at hmeets
      have hsame : q.samePersona b = true := by
        unfold RuleQuery.samePersona
        rw [hpersonas b hb, ← hpersonas r hr]
        exact hmeets.1
      rw [hsame, hwanted] at hfirst
      cases hfirst
    | cons first before =>
      obtain ⟨-, hrest⟩ := List.cons.inj hlevels
      have hsecond' : (fun r : Rule => decide (r.persona = star) && q.wanted r) ∈ before ++ [level] := by
        cases before with
        | nil =>
          obtain ⟨rfl, -⟩ := List.cons.inj hrest
          exact List.mem_singleton_self _
        | cons second before =>
          obtain ⟨rfl, -⟩ := List.cons.inj hrest
          exact List.mem_cons_self
      have hnot := hnone _ (List.mem_cons_of_mem _ hsecond')
      rw [hsecond] at hnot
      cases hnot

theorem not_sign_of_found (hfound : findRule (usableRules payload) q = some r) (hdeny : isDeny r = true)
    (scope : Option Scope) (ceilingKind : Option ℚ) (ownRelayAuth : Bool) :
    (decideWithRules payload q scope ceilingKind ownRelayAuth).isSign = false := by
  unfold decideWithRules
  dsimp only
  rw [hfound]
  split
  · rfl
  · split
    · rfl
    · rw [if_neg (by simp [hdeny])]
      dsimp only
      rw [if_pos hdeny]
      rfl

theorem decideWithRules_rule (h : decideWithRules payload q scope ceilingKind ownRelayAuth = .sign (some r) audit) :
    findRule (usableRules payload) q = some r ∧ isDeny r = false ∧
      closedUntil (effectiveSchedule payload (some r)) q.nowMs = none := by
  unfold decideWithRules at h
  dsimp only at h
  split at h
  · cases h
  · next hclosed =>
    split at h
    · cases h
    · split at h
      · cases h
      · split at h
        · next found hfound =>
          split at h
          · cases h
          · next hallows =>
            injection h with hrule
            obtain rfl := Option.some.inj hrule
            rw [hfound] at hclosed
            exact ⟨hfound, by simpa using hallows, hclosed⟩
        · split at h <;> cases h

/-- The hours of a rule are kept where it has an entry for the day, and no default of another zone is laid over it. -/
theorem own_hours_open (hclock : ConsistentClock) {nowMs : ℤ} {own : ValidSchedule}
    (hclosed : closedUntil (effectiveSchedule payload (some r)) nowMs = none) (hown : r.schedule = some own)
    (hday : ∀ schedule ∈ payload.defaultSchedule, schedule.val.tz = own.val.tz ∧
      own.val.entry (extractInTz nowMs own.val.tz).isoDate (extractInTz nowMs own.val.tz).weekday ≠ none) :
    isWithinSchedule own.val nowMs 30 = .allowed := by
  rw [closedUntil_eq_none_iff] at hclosed
  unfold effectiveSchedule at hclosed
  rw [Option.bind_some, hown] at hclosed
  cases hdefault : payload.defaultSchedule with
  | none =>
    rw [hdefault] at hclosed
    exact hclosed own.val rfl
  | some schedule =>
    rw [hdefault] at hclosed
    obtain ⟨htz, hentry⟩ := hday schedule hdefault
    have hboth := hclosed (intersectBoth schedule.val own.val) rfl
    rw [isWithinSchedule_eq_allowed_iff] at hboth ⊢
    obtain ⟨hpaused, hopens⟩ := hboth
    by_cases hpause : (schedule.val.paused || own.val.paused) = true
    · rw [intersectBoth, if_pos hpause] at hpaused
      cases hpaused
    · have hzone : (intersectBoth schedule.val own.val).tz = own.val.tz := by rw [intersectBoth, if_neg hpause, htz]
      obtain ⟨hfirst, hsecond⟩ : schedule.val.paused = false ∧ own.val.paused = false := by simpa using hpause
      rw [hzone, opensAt_intersectBoth schedule.property own.property (hclock _ _) hfirst hsecond] at hopens
      refine ⟨hsecond, ?_⟩
      rcases hopens with ⟨-, hopen⟩ | ⟨-, hnone | hopen⟩
      · exact hopen
      · exact absurd hnone hentry
      · exact hopen

end

/-! ## Requests -/

section

variable [Intl] [Web] {dependantId : JsString} {grants : List SavedGrant} {g : SavedGrant} {nowMs : ℤ}

omit [Web] in
theorem lt_of_isVisible (h : isVisible g.val (secondsOf nowMs) = true) :
    g.val.tombstonedAt = none ∧ ∀ t ∈ g.val.expiresAt, (nowMs : ℚ) < t.val * 1000 := by
  unfold isVisible at h
  rw [Bool.and_eq_true, Option.isNone_iff_eq_none] at h
  refine ⟨h.1, fun t ht => ?_⟩
  obtain ⟨n, hn, -⟩ := g.property.expiresAt t ht
  by_contra hle
  have hexpired : (g.val.expiresAt.any fun t => t.val ≤ (secondsOf nowMs : ℚ)) = true := by
    refine (Option.any_eq_true _ _).mpr ⟨t, ht, decide_eq_true ?_⟩
    rw [hn] at hle ⊢
    have hms : (n : ℤ) * 1000 ≤ nowMs := by exact_mod_cast not_lt.mp hle
    have hs : (n : ℤ) ≤ secondsOf nowMs := by
      unfold secondsOf
      rw [Int.fdiv_eq_ediv_of_nonneg _ (by decide)]
      omega
    exact_mod_cast hs
  rw [hexpired] at h
  cases h.2

omit [Web] in
theorem lookupGrant_eq_some {scope origin : JsString}
    (h : lookupGrant (grants.map Subtype.val) dependantId scope origin nowMs = some g.val) :
    g.val.dependantId.val = toLowerCase dependantId ∧ g.val.scope.val = toLowerCase scope ∧
      g.val.origin = toLowerCase origin ∧ isVisible g.val (secondsOf nowMs) = true := by
  obtain ⟨hfound, hvisible⟩ := Option.filter_eq_some_iff.mp h
  have hkey := List.find?_some hfound
  rw [Bool.and_eq_true, Bool.and_eq_true, decide_eq_true_eq, decide_eq_true_eq, decide_eq_true_eq] at hkey
  exact ⟨hkey.1.1, hkey.1.2, hkey.2, hvisible⟩

theorem inboundGrant_eq_some {template : UnsignedEvent}
    (h : inboundGrant (grants.map Subtype.val) dependantId template nowMs = some g.val) :
    ∃ scope origin, inferScope template = some scope ∧ isOriginScopedScope scope = true ∧
      inferOrigin template scope = some origin ∧
      lookupGrant (grants.map Subtype.val) dependantId (lit scope.name) origin nowMs = some g.val := by
  obtain ⟨scope, hscope, h⟩ := Option.bind_eq_some_iff.mp h
  split at h
  · next hscoped =>
    obtain ⟨origin, horigin, h⟩ := Option.bind_eq_some_iff.mp h
    exact ⟨scope, origin, hscope, hscoped, (Option.filter_eq_some_iff.mp horigin).1, h⟩
  · cases h

theorem seedOf_of_lookup [Sync.Sha256] {scope origin target : JsString} {seededMs : ℤ} (hle : seededMs ≤ nowMs)
    (h : lookupGrant (grants.map Subtype.val) dependantId scope origin nowMs = some g.val)
    (hlower : toLowerCase origin = origin) (htarget : originTarget origin = some target) :
    seedOf dependantId seededMs g = some (seedRule (toLowerCase dependantId) g target) := by
  obtain ⟨hdependant, -, horigin, hvisible⟩ := lookupGrant_eq_some h
  obtain ⟨htombstone, hlive⟩ := lt_of_isVisible hvisible
  refine seedOf_eq_some_iff.mpr ⟨?_, htombstone, fun t ht => ?_, target, ?_, rfl⟩
  · rw [toLowerCase_of_hex g.val.dependantId.property, hdependant]
  · have hcast : (seededMs : ℚ) ≤ nowMs := by exact_mod_cast hle
    exact lt_of_le_of_lt hcast (hlive t ht)
  · rw [horigin, hlower]
    exact htarget

theorem decideChildRequest_byRules [Curve] {input : ChildGateInput} {payload : ChildRulesPayload} {rule : Option Rule}
    {audit : Bool} (h : decideChildRequest input = .sign rule audit) (hrules : input.rules = some payload)
    (hscope : inferScope input.template ≠ some .appPermission) :
    ∃ ownRelayAuth, decideWithRules payload (requestQuery input) (inferScope input.template) (some input.template.kind)
      ownRelayAuth = .sign rule audit := by
  unfold decideChildRequest at h
  split at h
  · next early hearly => exact absurd h (not_sign_of_preflight hearly rule audit)
  · rw [hrules] at h
    dsimp only at h
    rw [if_neg hscope] at h
    exact ⟨_, h⟩

omit [Web] in
theorem decideChildCrypto_byRules {payload : ChildRulesPayload} {persona appId peer : JsString}
    {rateState : RateLimitState} {rule : Option Rule} {audit : Bool}
    (h : decideChildCrypto (some payload) persona appId peer nowMs rateState = .sign rule audit) :
    decideWithRules payload (cryptoQuery persona appId peer nowMs) (some .dmPrivate) none false = .sign rule audit := by
  unfold decideChildCrypto at h
  split at h
  · next early hearly => exact absurd h (not_sign_of_preflight hearly rule audit)
  · exact h

end

/-! ## Moving -/

section

variable [Intl] [Web] [Sync.Sha256] {dependantId : JsString} {grants : List SavedGrant} {seededMs : ℤ}
  {payload : ChildRulesPayload}

/-- An allowance is gone by for what its grant allowed: its scope, one of the targets of the request, before it
expires, and in its own hours. -/
def UsedWithin (dependantId : JsString) (grants : List SavedGrant) (seededMs : ℤ) (payload : ChildRulesPayload)
    (q : RuleQuery) (r : Rule) : Prop :=
  ∃ g ∈ grants, seedOf dependantId seededMs g = some r ∧ g.val.decision = .allow ∧ g.val.scope.val = q.scope ∧
    (∃ target ∈ q.targets, targetKey target = targetKey r.target) ∧
    (∀ t ∈ g.val.expiresAt, (q.nowMs : ℚ) < t.val * 1000) ∧
    ∀ own ∈ g.val.schedule,
      (∀ schedule ∈ payload.defaultSchedule, schedule.val.tz = own.tz ∧
        own.entry (extractInTz q.nowMs own.tz).isoDate (extractInTz q.nowMs own.tz).weekday ≠ none) →
      isWithinSchedule own q.nowMs 30 = .allowed

omit [Web] [Sync.Sha256] in
theorem usable_subset {r : Rule} (h : r ∈ usableRules payload) : r ∈ payload.rules := by
  unfold usableRules at h
  split at h
  · exact List.mem_of_mem_filter h
  · exact h

theorem persona_of_stored (hstored : ∀ r, r ∈ payload.rules ↔ r ∈ storedSeeds dependantId grants seededMs) {r : Rule}
    (h : r ∈ usableRules payload) : r.persona = star := by
  obtain ⟨g, -, hg⟩ := mem_seeds_of_stored ((hstored r).mp (usable_subset h))
  exact (isSeed_of_seedOf hg).persona

theorem found_of_denied (hstored : ∀ r, r ∈ payload.rules ↔ r ∈ storedSeeds dependantId grants seededMs)
    (hids : TellsTexts dependantId (rulesFromLegacyGrants dependantId grants seededMs)) {g : SavedGrant} (hg : g ∈ grants)
    {r : Rule} (hseed : seedOf dependantId seededMs g = some r) (hdeny : g.val.decision = .deny) {q : RuleQuery}
    (hlive : q.live r = true) (hscope : r.scope = q.scope) (hwanted : q.wanted r = true)
    (hlast : LastWord (rulesFromLegacyGrants dependantId grants seededMs) q r) :
    ∃ found, findRule (usableRules payload) q = some found ∧ isDeny found = true := by
  obtain ⟨b, hb, hbscope, hbtarget, hbdecision, hblive⟩ :=
    exists_stored hids (mem_seeds_iff.mpr ⟨g, hg, hseed⟩) hlive hlast
  have hbdeny : isDeny b = true := by
    unfold isDeny
    rw [hbdecision, (isSeed_of_seedOf hseed).decision, hdeny]
    rfl
  refine found_denies (fun r hr => persona_of_stored hstored hr) ?_ hbdeny ?_ ?_
  · unfold usableRules
    split
    · exact List.mem_filter.mpr ⟨(hstored b).mpr hb, hbdeny⟩
    · exact (hstored b).mpr hb
  · unfold RuleQuery.candidate
    rw [hblive, hbscope, hscope]
    simp
  · unfold RuleQuery.wanted at hwanted ⊢
    rwa [hbtarget]

/-- Of stored rules, one that is found is for the scope and for one of the targets. -/
theorem found_stored {rules : List Rule} (hrules : ∀ r ∈ rules, r ∈ storedSeeds dependantId grants seededMs)
    {q : RuleQuery} {r : Rule} (hfound : findRule rules q = some r) :
    r ∈ rules ∧ r.scope = q.scope ∧ q.live r = true ∧ q.wanted r = true := by
  unfold findRule at hfound
  split at hfound
  · next blocker hblocker =>
    obtain ⟨g, -, hseed⟩ := mem_seeds_of_stored (hrules _ (List.mem_of_find?_eq_some hblocker))
    have happ := List.find?_some hblocker
    rw [not_isAppTarget (isSeed_of_seedOf hseed).target] at happ
    simp at happ
  · obtain ⟨level, hlevel, hmem⟩ := mem_filter_of_best hfound
    obtain ⟨hmem, hmeets⟩ := List.mem_filter.mp hmem
    obtain ⟨hr, hcandidate⟩ := List.mem_filter.mp hmem
    obtain ⟨g, -, hseed⟩ := mem_seeds_of_stored (hrules r hr)
    have hspec := isSeed_of_seedOf hseed
    unfold RuleQuery.candidate at hcandidate
    rw [Bool.and_eq_true, Bool.or_eq_true, decide_eq_true_eq, decide_eq_true_eq] at hcandidate
    have hnotStar : r.scope ≠ star := by
      obtain ⟨s, hs⟩ := g.property.scope
      rw [hspec.scope, hs]
      exact name_ne_star s
    have htargetNotStar := target_ne_star hspec.target
    refine ⟨hr, hcandidate.1.resolve_right hnotStar, hcandidate.2, ?_⟩
    unfold RuleQuery.levels at hlevel
    simp only [List.mem_cons, List.not_mem_nil, or_false] at hlevel
    rcases hlevel with rfl | rfl | rfl | rfl <;> rw [Bool.and_eq_true] at hmeets
    · exact hmeets.2
    · exact hmeets.2
    · exact absurd (of_decide_eq_true hmeets.2) htargetNotStar
    · exact absurd (of_decide_eq_true hmeets.2) htargetNotStar

theorem usedWithin_of_found (hclock : ConsistentClock)
    (hstored : ∀ r, r ∈ payload.rules ↔ r ∈ storedSeeds dependantId grants seededMs) {q : RuleQuery} {r : Rule}
    (hfound : findRule (usableRules payload) q = some r) (hallows : isDeny r = false)
    (hclosed : closedUntil (effectiveSchedule payload (some r)) q.nowMs = none) :
    UsedWithin dependantId grants seededMs payload q r := by
  obtain ⟨hr, hscope, hlive, hwanted⟩ := found_stored (fun r hr => (hstored r).mp (usable_subset hr)) hfound
  obtain ⟨g, hg, hseed⟩ := mem_seeds_of_stored ((hstored r).mp (usable_subset hr))
  have hspec := isSeed_of_seedOf hseed
  refine ⟨g, hg, hseed, ?_, hspec.scope.symm.trans hscope, ?_, (hspec.live q).mp hlive, fun own hown hday => ?_⟩
  · unfold isDeny at hallows
    rw [hspec.decision, decide_eq_false_iff_not] at hallows
    cases h : g.val.decision with
    | allow => rfl
    | deny => exact absurd h hallows
  · unfold RuleQuery.wanted at hwanted
    obtain ⟨target, htarget, hkey⟩ := List.mem_map.mp (of_decide_eq_true hwanted)
    exact ⟨target, htarget, hkey⟩
  · obtain ⟨valid, hvalid, rfl⟩ := Option.map_eq_some_iff.mp (hspec.schedule.trans hown)
    exact own_hours_open hclock hclosed hvalid hday

/-- The rule of a scope and a target carries the decision of the grant that has the last word. -/
theorem found_carries (hstored : ∀ r, r ∈ payload.rules ↔ r ∈ storedSeeds dependantId grants seededMs)
    (hids : TellsTexts dependantId (rulesFromLegacyGrants dependantId grants seededMs)) {g : SavedGrant} (hg : g ∈ grants)
    {r : Rule} (hseed : seedOf dependantId seededMs g = some r) {q : RuleQuery} (hscope : q.scope = g.val.scope.val)
    (htargets : q.targets = [r.target]) (hlive : q.live r = true)
    (hlast : LastWord (rulesFromLegacyGrants dependantId grants seededMs) q r) :
    ∃ found, findRule payload.rules q = some found ∧ found.decision = g.val.decision := by
  have hspec := isSeed_of_seedOf hseed
  obtain ⟨b, hb, hbscope, hbtarget, hbdecision, hblive⟩ :=
    exists_stored hids (mem_seeds_iff.mpr ⟨g, hg, hseed⟩) hlive hlast
  have hbwanted : q.wanted b = true := by
    unfold RuleQuery.wanted
    rw [htargets, hbtarget]
    exact decide_eq_true (List.mem_singleton_self _)
  have hbcandidate : q.candidate b = true := by
    unfold RuleQuery.candidate
    rw [hblive, hbscope, hspec.scope, ← hscope]
    simp
  obtain ⟨g', -, hseed'⟩ := mem_seeds_of_stored hb
  cases hfound : findRule payload.rules q with
  | none =>
    unfold findRule at hfound
    split at hfound
    · cases hfound
    · have hnone := best_eq_none_iff.mp hfound _ (List.mem_cons_of_mem _ List.mem_cons_self) b
        (List.mem_filter.mpr ⟨(hstored b).mpr hb, hbcandidate⟩)
      rw [(isSeed_of_seedOf hseed').persona, hbwanted] at hnone
      cases hnone
  | some found =>
    obtain ⟨hmem, hfscope, -, hfwanted⟩ := found_stored (fun r hr => (hstored r).mp hr) hfound
    have hfkey : targetKey found.target = targetKey r.target := by
      unfold RuleQuery.wanted at hfwanted
      rw [htargets] at hfwanted
      exact List.mem_singleton.mp (of_decide_eq_true hfwanted)
    have hsame : found = b := by
      refine stored_unique ((hstored found).mp hmem) hb ?_ (hfkey.trans hbtarget.symm)
      rw [hfscope, hscope, hbscope, hspec.scope]
    exact ⟨found, rfl, by rw [hsame, hbdecision, hspec.decision]⟩

/-- **Moving a child to its own phone.** With the rules that seeding stored: a request, a message to encrypt or one to
decrypt is not signed where the guardian's phone would have found a live denial that has the last word; an allowance
is gone by within its grant; and the rule found for the scope and the target of a live grant that has the last word
carries its decision. -/
theorem moving_keeps_grants [Curve] (hclock : ConsistentClock) (hweb : ReadsOrigins)
    (hstored : ∀ r, r ∈ payload.rules ↔ r ∈ storedSeeds dependantId grants seededMs)
    (hids : TellsTexts dependantId (rulesFromLegacyGrants dependantId grants seededMs)) :
    (∀ input : ChildGateInput, input.rules = some payload → seededMs ≤ input.nowMs → ∀ g ∈ grants,
      inboundGrant (grants.map Subtype.val) dependantId input.template input.nowMs = some g.val →
      g.val.decision = .deny →
      (∀ r, seedOf dependantId seededMs g = some r →
        LastWord (rulesFromLegacyGrants dependantId grants seededMs) (requestQuery input) r) →
      (decideChildRequest input).isSign = false) ∧
    (∀ (persona appId peer : JsString) (nowMs : ℤ) (rateState : RateLimitState), isHex64AnyCase peer = true →
      seededMs ≤ nowMs → ∀ g ∈ grants,
      lookupGrant (grants.map Subtype.val) dependantId (lit Scope.dmPrivate.name) peer nowMs = some g.val →
      g.val.decision = .deny →
      (∀ r, seedOf dependantId seededMs g = some r →
        LastWord (rulesFromLegacyGrants dependantId grants seededMs) (cryptoQuery persona appId peer nowMs) r) →
      (decideChildCrypto (some payload) persona appId peer nowMs rateState).isSign = false) ∧
    (∀ (input : ChildGateInput) (r : Rule) (audit : Bool), input.rules = some payload →
      decideChildRequest input = .sign (some r) audit →
      UsedWithin dependantId grants seededMs payload (requestQuery input) r) ∧
    (∀ (persona appId peer : JsString) (nowMs : ℤ) (rateState : RateLimitState) (r : Rule) (audit : Bool),
      decideChildCrypto (some payload) persona appId peer nowMs rateState = .sign (some r) audit →
      UsedWithin dependantId grants seededMs payload (cryptoQuery persona appId peer nowMs) r) ∧
    ∀ g ∈ grants, ∀ (r : Rule) (target : JsString) (q : RuleQuery), seedOf dependantId seededMs g = some r →
      originTarget g.val.origin = some target → q.scope = g.val.scope.val → q.targets = [target] → q.live r = true →
      LastWord (rulesFromLegacyGrants dependantId grants seededMs) q r →
      ∃ found, findRule payload.rules q = some found ∧ found.decision = g.val.decision := by
  refine ⟨?_, ?_, ?_, ?_, ?_⟩
  · intro input hrules hle g hg hinbound hdeny hlast
    obtain ⟨scope, origin, hscope, hscoped, horigin, hlookup⟩ := inboundGrant_eq_some hinbound
    obtain ⟨hlower, target, htarget⟩ := originTarget_of_inferOrigin hweb horigin
    have hseed := seedOf_of_lookup hle hlookup hlower htarget
    obtain ⟨-, hgscope, -, hvisible⟩ := lookupGrant_eq_some hlookup
    have hwanted : (requestQuery input).wanted (seedRule (toLowerCase dependantId) g target) = true := by
      unfold RuleQuery.wanted requestQuery
      rw [hscope]
      exact decide_eq_true (List.mem_map_of_mem (mem_childTargetsFor horigin htarget))
    have hsameScope : (seedRule (toLowerCase dependantId) g target).scope = (requestQuery input).scope := by
      unfold requestQuery
      rw [hscope]
      exact hgscope.trans (toLowerCase_name scope)
    obtain ⟨found, hfound, hfoundDeny⟩ := found_of_denied hstored hids hg hseed hdeny
      ((live_seedRule target _).mpr (lt_of_isVisible hvisible).2) hsameScope hwanted (hlast _ hseed)
    have hnotPermission : inferScope input.template ≠ some .appPermission := by
      rw [hscope]
      rintro hpermission
      cases hpermission
      cases hscoped
    rw [← Bool.not_eq_true, ChildGateVerdict.isSign_iff]
    rintro ⟨rule, audit, hsign⟩
    obtain ⟨ownRelayAuth, hrule⟩ := decideChildRequest_byRules hsign hrules hnotPermission
    have hnot := not_sign_of_found hfound hfoundDeny (inferScope input.template) (some input.template.kind) ownRelayAuth
    rw [hrule] at hnot
    cases hnot
  · intro persona appId peer nowMs rateState hpeer hle g hg hlookup hdeny hlast
    have hlookup' : lookupGrant (grants.map Subtype.val) dependantId (lit Scope.dmPrivate.name) (toLowerCase peer) nowMs =
        some g.val := by
      rw [← hlookup]
      unfold lookupGrant
      rw [toLowerCase_toLowerCase]
    have hseed := seedOf_of_lookup hle hlookup' (toLowerCase_toLowerCase peer) (originTarget_of_hex hpeer)
    obtain ⟨-, hgscope, -, hvisible⟩ := lookupGrant_eq_some hlookup
    have hwanted : (cryptoQuery persona appId peer nowMs).wanted
        (seedRule (toLowerCase dependantId) g (lit "peer:" ++ toLowerCase peer)) = true := by
      unfold RuleQuery.wanted cryptoQuery
      rw [peerTarget, if_pos hpeer]
      exact decide_eq_true (List.mem_map_of_mem List.mem_cons_self)
    obtain ⟨found, hfound, hfoundDeny⟩ := found_of_denied hstored hids hg hseed hdeny
      ((live_seedRule _ _).mpr (lt_of_isVisible hvisible).2) (hgscope.trans (toLowerCase_name .dmPrivate)) hwanted
      (hlast _ hseed)
    rw [← Bool.not_eq_true, ChildGateVerdict.isSign_iff]
    rintro ⟨rule, audit, hsign⟩
    have hnot := not_sign_of_found hfound hfoundDeny (some .dmPrivate) none false
    rw [decideChildCrypto_byRules hsign] at hnot
    cases hnot
  · intro input r audit hrules hsign
    by_cases hscope : inferScope input.template = some .appPermission
    · -- online play needs a rule of the app, and a delegation is not a scope of a grant
      obtain ⟨rules, hsame, -, honline, -⟩ := decideChildRequest_signs hclock hsign
      obtain rfl : payload = rules := Option.some.inj (hrules.symm.trans hsame)
      obtain ⟨r', hr', hallowed, hnamed⟩ := (honline (inferScope_eq_appPermission_iff.mp hscope)).allowedBy
      obtain rfl := Option.some.inj hr'
      obtain ⟨g, -, hseed⟩ := mem_seeds_of_stored ((hstored r).mp hallowed.mem)
      have hspec := isSeed_of_seedOf hseed
      rcases hnamed with ⟨claim, -, hstanding⟩ | ⟨hdelegation, -⟩
      · obtain ⟨binding, hbinding, -⟩ := hstanding.install
        rw [hspec.appPermission] at hbinding
        cases hbinding
      · obtain ⟨s, hs⟩ := g.property.scope
        rw [hspec.scope, hs] at hdelegation
        exact absurd hdelegation (name_ne_delegation s)
    · obtain ⟨ownRelayAuth, hrule⟩ := decideChildRequest_byRules hsign hrules hscope
      obtain ⟨hfound, hallows, hclosed⟩ := decideWithRules_rule hrule
      exact usedWithin_of_found hclock hstored hfound hallows hclosed
  · intro persona appId peer nowMs rateState r audit hsign
    obtain ⟨hfound, hallows, hclosed⟩ := decideWithRules_rule (decideChildCrypto_byRules hsign)
    exact usedWithin_of_found hclock hstored hfound hallows hclosed
  · intro g hg r target q hseed htarget hscope htargets hlive hlast
    obtain rfl : target = r.target := Option.some.inj (htarget.symm.trans (isSeed_of_seedOf hseed).target)
    exact found_carries hstored hids hg hseed hscope htargets hlive hlast

end

/-! ## A child's games -/

/-- The URLs of two sites, the first one with and without its path. -/
@[reducible] def gamesWeb : Web where
  numberText := samplePlatform.numberText
  parseUrl s :=
    if s = lit "https://a.example" || s = lit "https://a.example/" then some (lit "https:", lit "a.example")
    else if s = lit "https://b.example" then some (lit "https:", lit "b.example")
    else none
  origin s := if s = lit "https://a.example/" then lit "https://a.example" else s

@[reducible] def constantSha256 : Sync.Sha256 where
  hex _ := Hex.repeated 64 7

theorem grantTime_pos : (0 : ℚ) < 1714000000 := by norm_num

theorem signIn_no_bar : unit '|' ∉ lit "sign-in" := by decide

def gameGrant (origin : JsString) (decision : Decision) (schedule : Option GrantSchedule) : RememberedGrant where
  dependantId := Hex.repeated 64 10
  scope := ⟨lit "sign-in", signIn_no_bar⟩
  origin
  decision
  decidedAt := ⟨1714000000, grantTime_pos⟩
  schedule

theorem isSaved_gameGrant {origin : JsString} (horigin : toLowerCase origin = origin) (decision : Decision)
    {schedule : Option GrantSchedule} (hschedule : ∀ s ∈ schedule, @GrantSchedule.Valid tuesdayMorning s) :
    @IsSaved tuesdayMorning (gameGrant origin decision schedule) :=
  letI := tuesdayMorning
  { scope := ⟨.signIn, rfl⟩
    origin := horigin
    decidedAt := ⟨1714000000, rfl, by decide⟩
    expiresAt := fun t ht => by cases ht
    lastUsedAt := fun t ht => by cases ht
    schedule := hschedule }

theorem lower_a : toLowerCase (lit "https://a.example") = lit "https://a.example" := by decide

theorem lower_aPath : toLowerCase (lit "https://a.example/") = lit "https://a.example/" := by decide

theorem lower_b : toLowerCase (lit "https://b.example") = lit "https://b.example" := by decide

theorem valid_noHours : ∀ s ∈ (none : Option GrantSchedule), @GrantSchedule.Valid tuesdayMorning s :=
  fun s hs => by cases hs

theorem valid_mondayHours : ∀ s ∈ some (officeHours .mon), @GrantSchedule.Valid tuesdayMorning s := by
  rintro s ⟨⟩
  exact valid_officeHours .mon

/-- A denial of the first site, and an allowance of the same site with its path. -/
def contraryGrants : List (@SavedGrant tuesdayMorning) :=
  [⟨gameGrant (lit "https://a.example") .deny none, isSaved_gameGrant lower_a .deny valid_noHours⟩,
    ⟨gameGrant (lit "https://a.example/") .allow none, isSaved_gameGrant lower_aPath .allow valid_noHours⟩]

def deniedGrant : List (@SavedGrant tuesdayMorning) :=
  [⟨gameGrant (lit "https://a.example") .deny none, isSaved_gameGrant lower_a .deny valid_noHours⟩]

/-- An allowance of the second site. -/
def otherGrant : List (@SavedGrant tuesdayMorning) :=
  [⟨gameGrant (lit "https://b.example") .allow none, isSaved_gameGrant lower_b .allow valid_noHours⟩]

/-- An allowance of the first site, for Mondays. -/
def mondayGrant : List (@SavedGrant tuesdayMorning) :=
  [⟨gameGrant (lit "https://a.example") .allow (some (officeHours .mon)),
    isSaved_gameGrant lower_a .allow valid_mondayHours⟩]

/-- What the child's phone has been sent. -/
def seededPayload (grants : List (@SavedGrant tuesdayMorning)) (hours : Option (@ValidSchedule tuesdayMorning)) :
    @ChildRulesPayload tuesdayMorning :=
  letI := tuesdayMorning
  letI := gamesWeb
  letI := constantSha256
  { stage := .requestApprove
    defaultSchedule := hours
    ceilingKinds := [21236]
    rules := storedSeeds (Hex.repeated 64 10).val grants 0
    disconnectedApps := [] }

/-- A sign-in to the first site, from a page of the other one. -/
def gameInput (grants : List (@SavedGrant tuesdayMorning)) (hours : Option (@ValidSchedule tuesdayMorning)) :
    @ChildGateInput tuesdayMorning :=
  letI := tuesdayMorning
  { rules := some (seededPayload grants hours)
    persona := childPersona
    template := { kind := 21236, pubkey := childPersona, content := [], tags := [[lit "origin", lit "https://a.example"]] }
    appId := lit "browser"
    siteOrigin := some (lit "https://b.example")
    nowMs := dateUtc 2026 6 2 600
    rateState := { count := 0, windowStart := 0 } }

theorem readsOrigins_gamesWeb : @ReadsOrigins gamesWeb := by
  let := gamesWeb
  have hcases : ∀ {raw origin : JsString}, safeOriginForGrant raw = some origin →
      origin = lit "https://a.example" ∨ origin = lit "https://b.example" := by
    intro raw origin h
    unfold safeOriginForGrant at h
    split at h
    · cases h
    · next protocol hostname hurl =>
      have hurl : (if raw = lit "https://a.example" || raw = lit "https://a.example/" then
          some (lit "https:", lit "a.example")
        else if raw = lit "https://b.example" then some (lit "https:", lit "b.example") else none) =
          some (protocol, hostname) := hurl
      split at hurl
      · next hfirst =>
        obtain ⟨rfl, rfl⟩ := Prod.mk.inj (Option.some.inj hurl)
        rw [if_pos rfl] at h
        rw [Bool.or_eq_true, decide_eq_true_eq, decide_eq_true_eq] at hfirst
        rcases hfirst with rfl | rfl <;> exact .inl (Option.some.inj h).symm
      · split at hurl
        · next hsecond =>
          obtain ⟨rfl, rfl⟩ := Prod.mk.inj (Option.some.inj hurl)
          subst hsecond
          rw [if_pos rfl] at h
          exact .inr (Option.some.inj h).symm
        · cases hurl
  refine ⟨fun h => ?_, fun h => ?_, fun h => ?_⟩ <;> obtain rfl | rfl := hcases h <;> decide

/-- The denial was copied, and is found. -/
theorem moving_keeps_denial :
    letI := tuesdayMorning
    letI := gamesWeb
    letI := baseCurve
    letI := constantSha256
    (decideChildRequest (gameInput deniedGrant none)).isSign = false := by
  let := tuesdayMorning
  let := gamesWeb
  let := baseCurve
  let := constantSha256
  have hone : ∀ g ∈ deniedGrant, g = deniedGrant.head (by decide +kernel) := fun g hg => List.mem_singleton.mp hg
  have hids : TellsTexts (Hex.repeated 64 10).val (rulesFromLegacyGrants (Hex.repeated 64 10).val deniedGrant 0) := by
    intro r hr r' hr' _
    obtain ⟨g, hg, hseed⟩ := mem_seeds_iff.mp hr
    obtain ⟨g', hg', hseed'⟩ := mem_seeds_iff.mp hr'
    rw [hone g hg] at hseed
    rw [hone g' hg', hseed] at hseed'
    rw [Option.some.inj hseed']
  have hclock : ConsistentClock := fun nowMs tz => consistent_tuesdayMorning nowMs tz
  have hmoving := @moving_keeps_grants _ _ _ _ _ _ (seededPayload deniedGrant none) _ hclock readsOrigins_gamesWeb
    (fun r => Iff.rfl) hids
  refine hmoving.1 (gameInput deniedGrant none) rfl (by decide +kernel) _ (List.head_mem (by decide +kernel)) ?_ rfl ?_
  · rfl
  · intro r _ before after hsplit later hlater
    have hlength : (rulesFromLegacyGrants (Hex.repeated 64 10).val deniedGrant 0).length = 1 := by decide +kernel
    rw [hsplit, List.length_append, List.length_cons] at hlength
    rw [List.eq_nil_of_length_eq_zero (by omega : after.length = 0)] at hlater
    cases hlater

/-- **What was denied is signed where an allowance of the same site comes later**; an allowance is gone by for a page of
its site, whatever the site of the sign-in; and on a day that is none of its hours. -/
theorem moving_overrules :
    letI := tuesdayMorning
    letI := gamesWeb
    letI := baseCurve
    letI := constantSha256
    ((inboundGrant (contraryGrants.map Subtype.val) (Hex.repeated 64 10).val (gameInput contraryGrants none).template
          (dateUtc 2026 6 2 600)).map RememberedGrant.decision = some .deny ∧
        (decideChildRequest (gameInput contraryGrants none)).isSign = true) ∧
      (inferOrigin (gameInput otherGrant none).template .signIn = some (lit "https://a.example") ∧
        (decideChildRequest (gameInput otherGrant none)).isSign = true) ∧
      (isWithinSchedule (officeHours .mon) (dateUtc 2026 6 2 600) 30 ≠ .allowed ∧
        (decideChildRequest (gameInput mondayGrant (some ⟨officeHours .tue, valid_officeHours .tue⟩))).isSign = true) := by
  refine ⟨⟨?_, ?_⟩, ⟨?_, ?_⟩, ?_, ?_⟩ <;> decide +kernel

end SignetApp.Child
