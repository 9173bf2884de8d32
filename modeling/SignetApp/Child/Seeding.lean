import SignetApp.Child.Gate
import SignetApp.Collections.Replaced
import SignetApp.Sync.Payload

/-!
# Rules from remembered grants

`child-rules.ts`: as a child moves to a phone of its own, the grants that the guardian's phone went by are copied into
rules, each stored under its id. `db.ts` and `useBunkerServer.ts`: how the guardian's phone looked a grant up.
-/

namespace SignetApp.Child

open SignetApp.Js SignetApp.Family SignetApp.Grants

/-! ## Grants as they are stored -/

/-- A number of whole seconds whose milliseconds are a safe integer. -/
def IsWhole (t : Seconds) : Prop := ∃ n : ℕ, t.val = n ∧ n * 1000 ≤ maxSafeInteger

/-- What the stored grants are: the scope is one of the names, the key in lower case, the times are the clock's, and
the schedules were checked. -/
structure IsSaved [Intl] (g : RememberedGrant) : Prop where
  scope : ∃ s : Scope, g.scope.val = lit s.name
  origin : toLowerCase g.origin = g.origin
  decidedAt : IsWhole g.decidedAt
  expiresAt : ∀ t ∈ g.expiresAt, IsWhole t
  lastUsedAt : ∀ t ∈ g.lastUsedAt, IsWhole t
  schedule : ∀ s ∈ g.schedule, s.Valid

abbrev SavedGrant [Intl] := { g : RememberedGrant // IsSaved g }

theorem millis_bounds {t : Seconds} (h : IsWhole t) :
    0 < t.val.num.toNat * 1000 ∧ t.val.num.toNat * 1000 ≤ maxSafeInteger := by
  obtain ⟨n, hn, hle⟩ := h
  have hnum : t.val.num.toNat = n := by
    rw [hn]
    simp
  have hpos : 0 < n := by
    have hpos := t.property
    rw [hn] at hpos
    exact_mod_cast hpos
  rw [hnum]
  exact ⟨by omega, hle⟩

/-- `t * 1000`. -/
def millis (t : Seconds) (h : IsWhole t) : PosInt := ⟨t.val.num.toNat * 1000, millis_bounds h⟩

/-! ## The guardian's phone -/

/-- `grant.tombstonedAt` and `grant.expiresAt` are honoured, at a time in seconds. -/
def isVisible (g : RememberedGrant) (nowSeconds : ℤ) : Bool :=
  g.tombstonedAt.isNone && !g.expiresAt.any fun t => t.val ≤ (nowSeconds : ℚ)

def lookupGrant (grants : List RememberedGrant) (dependantId scope origin : JsString) (nowMs : ℤ) :
    Option RememberedGrant :=
  (grants.find? fun g => g.dependantId.val = toLowerCase dependantId && g.scope.val = toLowerCase scope
    && g.origin = toLowerCase origin).filter fun g => isVisible g (secondsOf nowMs)

def isOriginScopedScope : Scope → Bool
  | .signIn | .dmPrivate | .uploadPhoto | .reactZapReply => true
  | _ => false

/-- The grant that a request of the dependant is looked up for, in `handleInboundEvent`. -/
def inboundGrant [Web] (grants : List RememberedGrant) (dependantId : JsString) (template : UnsignedEvent)
    (nowMs : ℤ) : Option RememberedGrant :=
  (inferScope template).bind fun scope =>
    if isOriginScopedScope scope then
      ((inferOrigin template scope).filter (· ≠ [])).bind fun origin =>
        lookupGrant grants dependantId (lit scope.name) origin nowMs
    else none

/-! ## Seeding -/

/-- What the id of a rule is the digest of. -/
def childRuleText (dependantId persona scope target : JsString) : JsString :=
  toLowerCase (lit "signet:child-rule:v1:" ++ dependantId ++ lit "|" ++ persona ++ lit "|" ++ scope ++ lit "|")
    ++ targetKey target

def childRuleId [Sync.Sha256] (dependantId persona scope target : JsString) : JsString :=
  (Sync.Sha256.hex (childRuleText dependantId persona scope target)).val.take 32

def isUrl (s : JsString) : Bool :=
  (lit "http:").isPrefixOf (toLowerCase s) || (lit "https:").isPrefixOf (toLowerCase s)

/-- What a site or a peer is as a target. -/
def originTarget [Web] (origin : JsString) : Option JsString :=
  if isUrl origin then siteTarget origin else peerTarget origin

section

variable [Intl] [Web] [Sync.Sha256]

/-- The rule that copies a grant, for all personas. -/
def seedRule (dependantId : JsString) (g : SavedGrant) (target : JsString) : Rule where
  id := childRuleId dependantId star g.val.scope.val target
  dependantId
  persona := star
  scope := g.val.scope.val
  target
  decision := g.val.decision
  schedule := g.val.schedule.pmap (fun s h => ⟨s, h⟩) g.property.schedule
  createdAt := millis g.val.decidedAt g.property.decidedAt
  updatedAt := millis g.val.decidedAt g.property.decidedAt
  expiresAt := g.val.expiresAt.pmap millis g.property.expiresAt
  lastUsedAt := g.val.lastUsedAt.pmap millis g.property.lastUsedAt

/-- A grant of another dependant, a revoked or an expired one is left out, and so is one whose origin is no target. -/
def seedOf (dependantId : JsString) (nowMs : ℤ) (g : SavedGrant) : Option Rule :=
  if toLowerCase g.val.dependantId.val ≠ toLowerCase dependantId then none
  else if g.val.tombstonedAt.isSome then none
  else if g.val.expiresAt.any fun t => t.val * 1000 ≤ (nowMs : ℚ) then none
  else (originTarget g.val.origin).map (seedRule (toLowerCase dependantId) g)

def rulesFromLegacyGrants (dependantId : JsString) (grants : List SavedGrant) (nowMs : ℤ) : List Rule :=
  grants.filterMap (seedOf dependantId nowMs)

/-- What is stored once each seed has been saved under its id. -/
def storedSeeds (dependantId : JsString) (grants : List SavedGrant) (nowMs : ℤ) : List Rule :=
  standing ChildRule.id (rulesFromLegacyGrants dependantId grants nowMs)

end

end SignetApp.Child
