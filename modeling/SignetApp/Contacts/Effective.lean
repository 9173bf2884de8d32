import SignetApp.Collections.OrderedMap
import SignetApp.Contacts.Types

/-!
# Effective state

`contacts-v2-effective.ts`: two independent outputs. The effective tier is the larger of the capped
own evidence and the strongest active vouch, held down by every active guardian ceiling. `blocked`
is a separate safety flag: any active block, whoever made it.
-/

namespace SignetApp.Contacts

open SignetApp.Js

structure EffectiveContext where
  /-- Guardians whose vouches and ceilings still count; blocks are never filtered by it. -/
  activeGuardianPubkeys : List Hex64
  /-- Ceiling applied to a dependant-created, unvouched contact. -/
  defaultChildCeiling : ContactCeilingTier
  /-- True for a `dependant:*` directory. -/
  directoryIsDependant : Bool
  /-- Overrides each record's own `createdByActorRole`. -/
  creatingActorRole : Option ContactActorRole := none

inductive ContactTierSource where
  | direct | guardianVouched | guardianLimited
  deriving DecidableEq

/-- A record as the effective view shows it: without its picture, whose key is a secret. -/
structure EffectiveContact extends ContactRecord where
  effectiveTier : ContactCeilingTier
  tierSource : ContactTierSource
  blocked : Bool
  blockedBy : List Hex64

/-- `APP_CREATED_CEILING`: what an app proposed is worth no more, in any directory. -/
def appCreatedCeiling : ContactCeilingTier := .ken

/-- `none` is below every tier. -/
def rankOf : ContactCeilingTier → ℕ
  | .none => 0
  | .ken => ContactTier.rank .ken
  | .kith => ContactTier.rank .kith
  | .kin => ContactTier.rank .kin

def tierOfRank (rank : ℕ) : ContactCeilingTier :=
  if ContactTier.rank .kin ≤ rank then .kin
  else if ContactTier.rank .kith ≤ rank then .kith
  else if ContactTier.rank .ken ≤ rank then .ken
  else .none

/-- The vouches that count. -/
def activeVouches (record : ContactRecord) (ctx : EffectiveContext) : List GuardianVouch :=
  record.vouches.filter fun v =>
    v.revokedByOperationId.isNone ∧ v.guardianPubkey ∈ ctx.activeGuardianPubkeys

/-- The strongest active vouch. -/
def vouchedRank (record : ContactRecord) (ctx : EffectiveContext) : ℕ :=
  (activeVouches record ctx).foldl (fun best v => max best v.tier.rank) 0

/-- The blocks in force. -/
def activeBlocks (record : ContactRecord) : List BlockFact :=
  record.blocks.filter fun b => b.liftedByOperationId.isNone

/-- The actor whose classification `record.tier` is. -/
def tierActor (record : ContactRecord) (ctx : EffectiveContext) : ContactActorRole :=
  record.tierSetByActorRole.getD (ctx.creatingActorRole.getD record.createdByActorRole)

/-- The record's own evidence under the implicit ceilings. -/
def ownRank (record : ContactRecord) (ctx : EffectiveContext) : ℕ :=
  let directRank := record.tier.rank
  let actor := tierActor record ctx
  let ownRank :=
    if ctx.directoryIsDependant ∧ actor ≠ .guardian then
      min directRank (rankOf ctx.defaultChildCeiling)
    else directRank
  if actor = .app then min ownRank (rankOf appCreatedCeiling) else ownRank

/-- A rank held down by every active guardian ceiling. -/
def ceilingRank (record : ContactRecord) (ctx : EffectiveContext) (rank : ℕ) : ℕ :=
  record.ceilings.foldl (fun rank c =>
    if c.revokedByOperationId.isSome ∨ c.guardianPubkey ∉ ctx.activeGuardianPubkeys then rank
    else min rank (rankOf c.maxTier)) rank

def resolveEffective (record : ContactRecord) (ctx : EffectiveContext) : EffectiveContact :=
  let vouched := vouchedRank record ctx
  let own := ownRank record ctx
  let evidenceRank := max record.tier.rank vouched
  let beforeExplicitCeilings := max own vouched
  let effectiveRank := ceilingRank record ctx beforeExplicitCeilings
  let vouchWins := 0 < vouched ∧ own ≤ vouched
  let tierSource : ContactTierSource :=
    if effectiveRank < beforeExplicitCeilings then .guardianLimited
    else if ¬ vouchWins ∧ effectiveRank < evidenceRank then .guardianLimited
    else if vouchWins then .guardianVouched
    else .direct
  { record with
    picture := none
    effectiveTier := tierOfRank effectiveRank
    tierSource
    blocked := !(activeBlocks record).isEmpty
    blockedBy := distinct ((activeBlocks record).map BlockFact.blockedBy) }

/-! ## Ranks -/

@[simp] theorem rankOf_tierOfRank_le (rank : ℕ) : rankOf (tierOfRank rank) ≤ rank := by
  unfold tierOfRank
  split
  · assumption
  · split
    · assumption
    · split
      · assumption
      · exact Nat.zero_le _

theorem ceilingRank_le (record : ContactRecord) (ctx : EffectiveContext) (rank : ℕ) :
    ceilingRank record ctx rank ≤ rank := by
  unfold ceilingRank
  induction record.ceilings generalizing rank with
  | nil => exact Nat.le_refl _
  | cons c ceilings ih =>
    rw [List.foldl_cons]
    refine (ih _).trans ?_
    split
    · exact Nat.le_refl _
    · exact Nat.min_le_left _ _

theorem rankOf_effectiveTier_le (record : ContactRecord) (ctx : EffectiveContext) :
    rankOf (resolveEffective record ctx).effectiveTier
      ≤ max (ownRank record ctx) (vouchedRank record ctx) :=
  (rankOf_tierOfRank_le _).trans (ceilingRank_le _ _ _)

theorem blocked_eq_true {record : ContactRecord} {b : BlockFact} (hb : b ∈ record.blocks)
    (hlifted : b.liftedByOperationId = none) (ctx : EffectiveContext) :
    (resolveEffective record ctx).blocked = true := by
  have hmem : b ∈ activeBlocks record := List.mem_filter.mpr ⟨hb, by simp [hlifted]⟩
  change (!(activeBlocks record).isEmpty) = true
  cases h : activeBlocks record with
  | nil => rw [h] at hmem; cases hmem
  | cons _ _ => rfl

end SignetApp.Contacts
