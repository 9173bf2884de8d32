import SignetApp.Apps.Registry
import SignetApp.Contacts.Effective
import SignetApp.Contacts.Merge

/-!
# What a grant is shown

`contacts-v2-grant-scope.ts`: the one disclosure boundary between the directory and an app. A
contact an app introduced under restriction is not shown as it stands: its copy is replayed from
the introduction and from what the granted list wrote afterwards, so two directories that agree on
those show the app the same contact.
-/

namespace SignetApp.Apps

open SignetApp.Js SignetApp.Contacts

/-! ## The boundary -/

/-- A text as a public key. -/
def asPubkey (s : JsString) : Option Hex64 := if h : isHexOf 64 s = true then some ⟨s, h⟩ else none

/-- The identity list a grant names, if it names one. -/
def AppGrantV2.list (grant : AppGrantV2) : Option Hex64 := grant.ownerIdentityPubkey.bind asPubkey

/-- `grant.revokedAt` as a truth value: zero is false. -/
def AppGrantV2.endedAt (grant : AppGrantV2) : Bool := grant.revokedAt.any fun at_ => at_ ≠ 0

/-- The introduction a grant reads a contact through: its own, or an accepted restricted one of
another app in the same list. -/
def applicableIntro (grant : AppGrantV2) (owner : Hex64) (contact : EffectiveContact) :
    Option AppContactIntroduction :=
  (contact.introductions.find? fun i => i.grantId.val = grant.grantId).or
    (contact.introductions.find? fun i =>
      i.ownerIdentityPubkey = owner && i.restricted && i.status = .accepted)

/-- A contact of the list, or a blocked one that was in it: its key stays filterable. -/
def isListed (owner : Hex64) (contact : EffectiveContact) : Bool :=
  contactBelongsToList contact.toContactRecord owner
    || (contact.memberships.any (fun m => m.ownerIdentityPubkey = owner) && contact.blocked)

/-- The grant's own introduction still needs review, or was turned down. -/
def isUnreviewed (grant : AppGrantV2) (contact : EffectiveContact) : Bool :=
  (contact.introductions.find? fun i => i.grantId.val = grant.grantId).any fun i =>
    i.status ≠ .accepted

/-- The actions a restricted copy replays. -/
def isAllowed : ContactAction → Bool
  | .rename _ | .setTier _ | .addIdentity _ | .updateIdentity _ | .evidence _ | .addMethod _
  | .updateMethod _ | .removeItem _ | .recordCheck _ | .removeCheck _ => true
  | _ => false

/-- What the granted list wrote about a contact after its introduction. -/
def authoredAfter (owner : Hex64) (contact : EffectiveContact) (intro : AppContactIntroduction)
    (ops : List ContactOperation) : List ContactOperation :=
  ops.filter fun op =>
    op.directoryId = contact.directoryId
      && (op.contactId = contact.contactId || (contact.mergedContactIds.getD []).contains op.contactId)
      && op.actorRole ≠ .app && op.ownerIdentityPubkey = some owner
      && intro.logicalClock < op.logicalClock

/-- A clock two ticks on. -/
def LamportClock.plusTwo (c : LamportClock) : LamportClock := ⟨c.val + 2, by omega⟩

/-- The `add` a restricted copy starts from. -/
def seed (owner : Hex64) (contact : EffectiveContact) (intro : AppContactIntroduction) :
    ContactOperation where
  operationId := Hex.repeated 32 0
  directoryId := contact.directoryId
  contactId := contact.contactId
  actorPubkey := owner
  actorRole := .owner
  actorDeviceId := Hex.repeated 32 0
  logicalClock := ⟨1, by decide⟩
  createdAt := intro.createdAt
  action := .add { type := .person, displayName := intro.displayName, tier := .ken }

/-- The item that holds the introduced key. -/
def introducedItem (contact : EffectiveContact) (intro : AppContactIntroduction) : Option Hex32 :=
  (contact.identities.find? fun i => i.pubkey = intro.pubkey).map ContactIdentity.itemId

/-- The log a restricted copy is replayed from. -/
def copyLog (owner : Hex64) (contact : EffectiveContact) (intro : AppContactIntroduction)
    (ops : List ContactOperation) : List ContactOperation :=
  let later := (authoredAfter owner contact intro ops).filter fun op => isAllowed op.action
  [seed owner contact intro,
    { seed owner contact intro with
      operationId := Hex.repeated 32 1
      action := .addIdentity {
        itemId := (introducedItem contact intro).getD (Hex.repeated 32 2)
        pubkey := intro.pubkey
        provenance := .appProposal
        verification := .unverified } }]
  ++ later.map fun op =>
    { op with contactId := contact.contactId, logicalClock := LamportClock.plusTwo op.logicalClock }

/-- The replayed record. -/
def replayedCopy (owner : Hex64) (contact : EffectiveContact) (intro : AppContactIntroduction)
    (ops : List ContactOperation) : Option ContactRecord :=
  ((materialise (copyLog owner contact intro ops)).entries.map Prod.snd).head?

def holdsKey (contact : EffectiveContact) (pubkey : Hex64) : Bool :=
  contact.identities.any fun i => i.pubkey = pubkey

def holdsCheck (contact : EffectiveContact) (id : Hex32) : Bool :=
  (contact.checks.getD []).any fun c => c.id = id

/-- Whether a contact method is private; `none` where the contact has no such method. -/
def methodPrivate (contact : EffectiveContact) (itemId : Hex32) : Option Bool :=
  (contact.contactMethods.find? fun m => m.itemId = itemId).map fun m => m.sharingPolicy = .private

def ContactTier.toCeiling : ContactTier → ContactCeilingTier
  | .kin => .kin
  | .kith => .kith
  | .ken => .ken

/-- A tier held down by the tier in effect. -/
def heldTier (tier : ContactTier) (effective : ContactCeilingTier) : ContactCeilingTier :=
  if effective = .none then .none
  else if tier.rank ≤ rankOf effective then ContactTier.toCeiling tier else effective

/-- A global removal or privacy withdrawal also applies to the copy. -/
def restrict (contact : EffectiveContact) (copy : ContactRecord) : EffectiveContact :=
  { copy with
    checks := copy.checks.map fun cs => cs.filter fun c => holdsCheck contact c.id
    identities := copy.identities.filter fun i => holdsKey contact i.pubkey
    contactMethods := (copy.contactMethods.filter fun m => (methodPrivate contact m.itemId).isSome).map
      fun m => { m with
        sharingPolicy :=
          if methodPrivate contact m.itemId = some true then .private else m.sharingPolicy }
    lifecycle := contact.lifecycle
    archived := contact.archived
    blocked := contact.blocked
    blockedBy := []
    effectiveTier := heldTier copy.tier contact.effectiveTier
    tierSource := .direct }

/-- A contact shown as it stands, with the checks of the granted list. -/
def unrestricted (owner : Hex64) (contact : EffectiveContact) : EffectiveContact :=
  { contact with checks := contact.checks.map fun cs => cs.filter fun c => c.ownerIdentityPubkey = owner }

/-- One contact, for a grant that names a list. -/
def disclose (grant : AppGrantV2) (owner : Hex64) (ops : List ContactOperation)
    (contact : EffectiveContact) : List EffectiveContact :=
  if contact.directoryId.text ≠ grant.directoryId then []
  else if !isListed owner contact then []
  else if isUnreviewed grant contact then []
  else
    match applicableIntro grant owner contact with
    | none => [unrestricted owner contact]
    | some intro =>
      if !intro.restricted then [unrestricted owner contact]
      else if intro.ownerIdentityPubkey ≠ owner then []
      else ((replayedCopy owner contact intro ops).map (restrict contact)).toList

/-- What a grant is shown of a directory. -/
def contactsForGrant (grant : AppGrantV2) (contacts : List EffectiveContact)
    (ops : List ContactOperation) : List EffectiveContact :=
  match grant.list with
  | none => []
  | some owner => if grant.endedAt then [] else contacts.flatMap (disclose grant owner ops)

/-! ## What is withheld -/

/-- The reasons for which a grant is shown nothing of a contact. -/
inductive Withheld (grant : AppGrantV2) (contact : EffectiveContact) : Prop where
  | unreviewed (h : isUnreviewed grant contact = true)
  | notListed (owner : Hex64) (hlist : grant.list = some owner)
      (h : contactBelongsToList contact.toContactRecord owner = false) (hblocked : contact.blocked = false)
  | revoked (h : grant.revokedAt.isSome = true)
  | noList (h : grant.list = none)

variable {contact : EffectiveContact} {ops : List ContactOperation}

theorem disclose_of_not_listed {grant : AppGrantV2} {owner : Hex64} (h : isListed owner contact = false) :
    disclose grant owner ops contact = [] := by
  unfold disclose
  rw [h]
  split
  · rfl
  · rfl

theorem disclose_of_unreviewed {grant : AppGrantV2} {owner : Hex64} (h : isUnreviewed grant contact = true) :
    disclose grant owner ops contact = [] := by
  unfold disclose
  rw [h]
  split
  · rfl
  · split
    · rfl
    · rfl

/-- A grant that has not ended at time zero is shown nothing it must not see. -/
theorem contactsForGrant_of_withheld {grant : AppGrantV2}
    (ops : List ContactOperation) (hzero : grant.revokedAt ≠ some 0 ∨ grant.list = none)
    (h : Withheld grant contact) : contactsForGrant grant [contact] ops = [] := by
  unfold contactsForGrant
  cases hlist : grant.list with
  | none => rfl
  | some owner =>
    have hzero : grant.revokedAt ≠ some 0 := by
      apply hzero.resolve_right
      rw [hlist]
      exact Option.some_ne_none owner
    show (if grant.endedAt then [] else [contact].flatMap (disclose grant owner ops)) = []
    split
    · rfl
    · next hended =>
      rw [List.flatMap_singleton]
      cases h with
      | unreviewed h => exact disclose_of_unreviewed h
      | notListed owner' hlist' h hblocked =>
        cases hlist.symm.trans hlist'
        apply disclose_of_not_listed
        rw [isListed, h, hblocked, Bool.and_false, Bool.or_false]
      | revoked h =>
        -- A time that is there and not zero ends the grant.
        obtain ⟨at_, hat⟩ := Option.isSome_iff_exists.mp h
        have hne : at_ ≠ 0 := fun h0 => hzero (h0 ▸ hat)
        exact absurd (by simp [AppGrantV2.endedAt, hat, hne]) hended
      | noList h =>
        rw [h] at hlist
        cases hlist

/-! ## Two directories -/

/-- What two directories share about one contact, as far as a restricted grant may see it. -/
structure AgreeFor (grant : AppGrantV2) (owner : Hex64) (ops₁ ops₂ : List ContactOperation)
    (c₁ c₂ : EffectiveContact) : Prop where
  directoryId : c₁.directoryId = c₂.directoryId
  contactId : c₁.contactId = c₂.contactId
  listed : isListed owner c₁ = isListed owner c₂
  /-- Both are read through the same introduction, restricted and accepted. -/
  intro : ∃ i, applicableIntro grant owner c₁ = some i ∧ applicableIntro grant owner c₂ = some i ∧
    i.restricted = true ∧ i.status = .accepted ∧
    authoredAfter owner c₁ i ops₁ = authoredAfter owner c₂ i ops₂ ∧
    introducedItem c₁ i = introducedItem c₂ i
  lifecycle : c₁.lifecycle = c₂.lifecycle
  archived : c₁.archived = c₂.archived
  blocked : c₁.blocked = c₂.blocked
  effectiveTier : c₁.effectiveTier = c₂.effectiveTier
  keys : ∀ pubkey, holdsKey c₁ pubkey = holdsKey c₂ pubkey
  checks : ∀ id, holdsCheck c₁ id = holdsCheck c₂ id
  methods : ∀ itemId, methodPrivate c₁ itemId = methodPrivate c₂ itemId

section
variable {grant : AppGrantV2} {owner : Hex64} {ops₁ ops₂ : List ContactOperation}
  {c₁ c₂ : EffectiveContact}

variable {i : AppContactIntroduction}

theorem not_unreviewed_of_accepted {c : EffectiveContact}
    (hintro : applicableIntro grant owner c = some i) (hstatus : i.status = .accepted) :
    isUnreviewed grant c = false := by
  unfold isUnreviewed
  unfold applicableIntro at hintro
  cases hown : c.introductions.find? fun i => i.grantId.val = grant.grantId with
  | none => rfl
  | some own =>
    rw [hown] at hintro
    cases hintro
    simp [hstatus]

theorem copyLog_congr (h : AgreeFor grant owner ops₁ ops₂ c₁ c₂)
    (hops : authoredAfter owner c₁ i ops₁ = authoredAfter owner c₂ i ops₂)
    (hitem : introducedItem c₁ i = introducedItem c₂ i) :
    copyLog owner c₁ i ops₁ = copyLog owner c₂ i ops₂ := by
  have hseed : seed owner c₁ i = seed owner c₂ i := by
    unfold seed
    rw [h.directoryId, h.contactId]
  unfold copyLog
  rw [hseed, hops, hitem, h.contactId]

theorem restrict_congr (h : AgreeFor grant owner ops₁ ops₂ c₁ c₂) (copy : ContactRecord) :
    restrict c₁ copy = restrict c₂ copy := by
  have hkeys : holdsKey c₁ = holdsKey c₂ := funext h.keys
  have hchecks : holdsCheck c₁ = holdsCheck c₂ := funext h.checks
  have hmethods : methodPrivate c₁ = methodPrivate c₂ := funext h.methods
  unfold restrict
  rw [hkeys, hchecks, hmethods, h.lifecycle, h.archived, h.blocked, h.effectiveTier]

theorem disclose_congr (h : AgreeFor grant owner ops₁ ops₂ c₁ c₂) :
    disclose grant owner ops₁ c₁ = disclose grant owner ops₂ c₂ := by
  obtain ⟨i, hi₁, hi₂, hrestricted, hstatus, hops, hitem⟩ := h.intro
  have hreplayed : replayedCopy owner c₁ i ops₁ = replayedCopy owner c₂ i ops₂ := by
    rw [replayedCopy, copyLog_congr h hops hitem, replayedCopy]
  have hrestrict : restrict c₁ = restrict c₂ := funext (restrict_congr h)
  unfold disclose
  rw [h.directoryId, h.listed, not_unreviewed_of_accepted hi₁ hstatus,
    not_unreviewed_of_accepted hi₂ hstatus, hi₁, hi₂]
  simp only [hrestricted, Bool.not_true, Bool.false_eq_true, if_false, hreplayed, hrestrict]

end

/-! ## Scoped grants -/

/-- A grant discloses contact by contact, nothing of a contact it must not see, and of a contact
introduced under restriction only what its list wrote afterwards. -/
structure Scoped (grant : AppGrantV2) : Prop where
  pointwise : ∀ contacts ops,
    contactsForGrant grant contacts ops = contacts.flatMap fun c => contactsForGrant grant [c] ops
  withheld : ∀ contact ops, Withheld grant contact → contactsForGrant grant [contact] ops = []
  restricted : ∀ owner ops₁ ops₂ c₁ c₂, grant.list = some owner →
    AgreeFor grant owner ops₁ ops₂ c₁ c₂ →
      contactsForGrant grant [c₁] ops₁ = contactsForGrant grant [c₂] ops₂

theorem contactsForGrant_pointwise (grant : AppGrantV2) (contacts : List EffectiveContact)
    (ops : List ContactOperation) :
    contactsForGrant grant contacts ops = contacts.flatMap fun c => contactsForGrant grant [c] ops := by
  unfold contactsForGrant
  cases grant.list with
  | none => simp
  | some owner =>
    cases grant.endedAt with
    | true => simp
    | false => simp

theorem contactsForGrant_congr {grant : AppGrantV2} {owner : Hex64} {ops₁ ops₂ : List ContactOperation}
    {c₁ c₂ : EffectiveContact} (hlist : grant.list = some owner)
    (h : AgreeFor grant owner ops₁ ops₂ c₁ c₂) :
    contactsForGrant grant [c₁] ops₁ = contactsForGrant grant [c₂] ops₂ := by
  unfold contactsForGrant
  rw [hlist]
  simp only [List.flatMap_singleton, disclose_congr h]

/-- A contact of a list, with nothing else known about it. -/
def listedContact (directoryId : DirectoryId) (owner : Hex64) : EffectiveContact where
  directoryId
  contactId := Hex.repeated 32 1
  type := .person
  displayName := ⟨[], Nat.zero_le _⟩
  tier := .ken
  roles := []
  lifecycle := .active
  createdAt := ⟨0, le_refl _⟩
  updatedAt := ⟨0, le_refl _⟩
  createdByActorRole := .owner
  createdByOperationId := Hex.repeated 32 2
  listMemberships := some [{ ownerIdentityPubkey := owner, addedAt := ⟨0, le_refl _⟩, removedAt := none }]
  effectiveTier := .ken
  tierSource := .direct
  blocked := false
  blockedBy := []

theorem disclose_listedContact {grant : AppGrantV2} {owner : Hex64} {directoryId : DirectoryId}
    (h : directoryId.text = grant.directoryId) :
    disclose grant owner [] (listedContact directoryId owner)
      = [unrestricted owner (listedContact directoryId owner)] := by
  have hlisted : isListed owner (listedContact directoryId owner) = true := by
    simp [isListed, listedContact, contactBelongsToList, ContactRecord.memberships,
      ContactListMembership.activeFor]
  have hdirectory : (listedContact directoryId owner).directoryId.text = grant.directoryId := h
  unfold disclose
  rw [if_neg (not_not.mpr hdirectory), hlisted]
  rfl

/-- The grant is shown nothing whatever its directory holds. -/
def ShowsNothing (grant : AppGrantV2) : Prop :=
  grant.list = none ∨ ∀ d : DirectoryId, d.text ≠ grant.directoryId

/-- **A grant is scoped unless its revocation reads as time zero**, which the boundary takes for no
revocation at all. -/
theorem scoped_iff (grant : AppGrantV2) :
    Scoped grant ↔ grant.revokedAt ≠ some 0 ∨ ShowsNothing grant := by
  constructor
  · intro hscoped
    by_contra hnot
    rw [not_or, ShowsNothing, not_or, not_not, not_forall] at hnot
    obtain ⟨hzero, hlist, d, hd⟩ := hnot
    obtain ⟨owner, howner⟩ := Option.ne_none_iff_exists'.mp hlist
    have hnothing := hscoped.withheld (listedContact d owner) [] (.revoked (by rw [hzero]; rfl))
    have hended : grant.endedAt = false := by simp [AppGrantV2.endedAt, hzero]
    unfold contactsForGrant at hnothing
    rw [howner] at hnothing
    simp only [hended, List.flatMap_singleton, disclose_listedContact (not_not.mp hd)] at hnothing
    cases hnothing
  · intro hzero
    refine ⟨contactsForGrant_pointwise grant, fun contact ops hwithheld => ?_,
      fun _ _ _ _ _ hlist hagree => contactsForGrant_congr hlist hagree⟩
    obtain hzero | hlist | hdirectory := hzero
    · exact contactsForGrant_of_withheld ops (.inl hzero) hwithheld
    · exact contactsForGrant_of_withheld ops (.inr hlist) hwithheld
    · -- No contact is in a directory of that name.
      unfold contactsForGrant
      split
      · rfl
      · split
        · rfl
        · rw [List.flatMap_singleton, disclose, if_pos (hdirectory _)]

/-- A grant revoked at time zero. -/
def revokedAtZero : AppGrantV2 where
  grantId := (Hex.repeated 32 1).val
  directoryId := lit "owner"
  ownerIdentityPubkey := some (Hex.repeated 64 2).val
  appPubkey := (Hex.repeated 64 3).val
  createdAt := 1
  updatedAt := 2
  appName := lit "Maps"
  capabilities := []
  railPubkey := (Hex.repeated 64 4).val
  railPrivateKey := (Hex.repeated 64 5).val
  relay := lit "wss://relay.example"
  maxStalenessSeconds := 3600
  revokedAt := some 0

/-- It still reads the list it was granted. -/
theorem revoked_grant_reads :
    Withheld revokedAtZero (listedContact .owner (Hex.repeated 64 2)) ∧
    contactsForGrant revokedAtZero [listedContact .owner (Hex.repeated 64 2)] [] ≠ [] := by
  have hlist : revokedAtZero.list = some (Hex.repeated 64 2) := by decide +kernel
  refine ⟨.revoked rfl, ?_⟩
  unfold contactsForGrant
  rw [hlist]
  simp only [AppGrantV2.endedAt, revokedAtZero, Option.any_some, List.flatMap_singleton]
  rw [if_neg (by decide)]
  exact fun h => List.cons_ne_nil _ _ ((disclose_listedContact rfl).symm.trans h)

end SignetApp.Apps
