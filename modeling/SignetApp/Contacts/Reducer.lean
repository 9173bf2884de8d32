import SignetApp.Collections.OrderedMap
import SignetApp.Contacts.Membership
import SignetApp.Contacts.Sanitize

/-!
# The reducer, one operation

`contacts-v2-reducer.ts`, `applyAdd` and `applyOne`: the effect of one operation on the record it
addresses. `none` is the source's `null`: the operation is skipped and the record stays as it is.

A removed record is a tombstone: only an `add` revives it, only `remove` hardens an archive, and
only `block` and `unblock` still update it.
-/

namespace SignetApp.Contacts

open SignetApp.Js

/-- `recordKey(directoryId, contactId)`, the map key of a materialised record. -/
def recordKey (op : ContactOperation) : RecordKey := ⟨op.directoryId, op.contactId⟩

/-! ## Normalisers -/

/-- Roles cleaned, the empty ones dropped, the first occurrence of each kept. -/
def cleanRoles (roles : List (Str capRole)) : List (Str capRole) :=
  distinct (roles.filterMap fun r => nonEmpty (clean r.toText))

/-- A text copied only when it is not empty, and cleaned. -/
def cleanText {cap : ℕ} (t : Option (Text cap)) : Option (Text cap) :=
  t.bind fun t => if t.val = [] then none else some (clean t)

def normaliseContactOrigin (value : ContactOrigin) : ContactOrigin :=
  { value with
    inviteName := cleanText value.inviteName
    caption := cleanText value.caption
    appName := cleanText value.appName }

def normaliseContactCheck (v : ContactCheck) : ContactCheck :=
  { v with evidence := v.evidence.bind fun t => if t.val = [] then none else some (cleanNote t) }

/-- Only the fields the model defines are copied; the type has no others. -/
def normaliseDirect (v : Option ContactDirectEvidence) : Option ContactDirectEvidence := v

/-- Verification ranks of a repeated `add-identity`. -/
def ContactVerification.rank : ContactVerification → ℕ
  | .unverified => 0
  | .proven => 1
  | .mutual => 2

/-! ## `applyAdd` -/

/-- The actor credited with the tier an `add` writes: only a human superseding an app is. -/
def creditedRole (createdByActorRole : ContactActorRole) (op : ContactOperation) :
    Option ContactActorRole :=
  if createdByActorRole = .app ∧ op.actorRole ≠ .app then some op.actorRole else none

def applyAdd (record : Option ContactRecord) (op : ContactOperation) (v : AddContactValue) :
    ContactRecord :=
  let displayName := clean v.displayName.toText
  let roles := cleanRoles ((v.roles.map Subtype.val).getD [])
  match record with
  | some r =>
    if r.lifecycle ≠ .removed then
      -- Idempotent re-add of a live record: refresh the scalars, keep every fact.
      { r with
        type := v.type
        displayName
        tier := v.tier
        tierSetByActorRole := (creditedRole r.createdByActorRole op).or r.tierSetByActorRole
        roles := if v.roles.isSome then roles else r.roles
        lifecycle := (v.lifecycle.map LiveLifecycle.toLifecycle).getD r.lifecycle
        updatedAt := op.createdAt }
    else
      { directoryId := op.directoryId
        contactId := op.contactId
        type := v.type
        displayName
        tier := v.tier
        tierSetByActorRole := creditedRole r.createdByActorRole op
        roles
        identities := r.identities
        contactMethods := r.contactMethods
        lifecycle := (v.lifecycle.map LiveLifecycle.toLifecycle).getD .active
        createdAt := r.createdAt
        updatedAt := op.createdAt
        -- A revival keeps the original creator.
        createdByActorRole := r.createdByActorRole
        createdByOperationId := r.createdByOperationId
        vouches := r.vouches
        ceilings := r.ceilings
        blocks := r.blocks
        notes := r.notes
        picture := r.picture
        origins := r.origins
        checks := r.checks
        sharedContexts := r.sharedContexts
        sharesSent := r.sharesSent
        appIntroductions := r.appIntroductions
        listMemberships := r.listMemberships
        primaryIdentityPubkey :=
          if r.listMemberships.isSome then r.primaryIdentityPubkey else none }
  | none =>
    { directoryId := op.directoryId
      contactId := op.contactId
      type := v.type
      displayName
      tier := v.tier
      roles
      lifecycle := (v.lifecycle.map LiveLifecycle.toLifecycle).getD .active
      createdAt := op.createdAt
      updatedAt := op.createdAt
      createdByActorRole := op.actorRole
      createdByOperationId := op.operationId }

/-! ## `applyOne` -/

/-- An introduction as the record keeps it. -/
def introduce (intro : AppContactIntroductionValue) (status : IntroductionStatus)
    (restricted : Bool) (op : ContactOperation) : AppContactIntroduction :=
  { intro with status, restricted, logicalClock := op.logicalClock, createdAt := op.createdAt }

/-- An app's proposal of a new contact puts it in the proposed list. -/
def proposeContact (record : Option ContactRecord) (op : ContactOperation) (v : AddContactValue)
    (next : ContactRecord) : ContactRecord :=
  match v.appIntroduction with
  | some intro =>
    if record.isNone ∧ op.actorRole = .app then
      { linkContactList next intro.ownerIdentityPubkey op.createdAt with
        appIntroductions := some [introduce intro .accepted true op] }
    else next
  | none => next

/-- The list the person adding a contact chose for it. -/
def chooseList (op : ContactOperation) (v : AddContactValue) (next : ContactRecord) :
    ContactRecord :=
  match v.ownerIdentityPubkey with
  | some owner => linkContactList next owner op.createdAt
  | none => next

/-- The `add` branch. -/
def addContact (record : Option ContactRecord) (op : ContactOperation) (v : AddContactValue) :
    ContactRecord :=
  chooseList op v (proposeContact record op v (applyAdd record op v))

def ContactRecord.touch (record : ContactRecord) (op : ContactOperation) : ContactRecord :=
  { record with updatedAt := op.createdAt }

/-- The introductions of a record, an absent field reading as none. -/
def ContactRecord.introductions (record : ContactRecord) : List AppContactIntroduction :=
  record.appIntroductions.getD []

def GuardianVouch.standsFor (v : GuardianVouch) (guardian : Hex64) : Bool :=
  v.guardianPubkey = guardian && v.revokedByOperationId.isNone

def GuardianCeiling.standsFor (c : GuardianCeiling) (guardian : Hex64) : Bool :=
  c.guardianPubkey = guardian && c.revokedByOperationId.isNone

/-- The branch of each action on a record that admits it. -/
def mutate (record : ContactRecord) (op : ContactOperation) : Option ContactRecord :=
  let touched := record.touch op
  match op.action with
  | .add _ => none
  | .receiveShare v =>
    if v.guardianPubkey ≠ op.actorPubkey then some record
    else some { touched with
      sharedContexts := some (record.sharedContexts.getD [] ++ [{ v with receivedAt := op.createdAt }]) }
  | .recordShare directoryId contactId =>
    some { touched with
      sharesSent := some (record.sharesSent.getD [] ++
        [{ directoryId, contactId, sharedAt := op.createdAt }]) }
  | .appProposeList intro =>
    if record.introductions.any (fun i => i.grantId = intro.grantId) then some record
    else
      let inList := contactBelongsToList record intro.ownerIdentityPubkey
      let restricted := !inList || record.introductions.any fun i =>
        i.ownerIdentityPubkey = intro.ownerIdentityPubkey && i.restricted
      some { touched with
        appIntroductions := some (record.introductions ++
          [introduce intro (if inList then .accepted else .pending) restricted op]) }
  | .reviewAppList grantId accept =>
    match record.introductions.find? fun i => i.grantId = grantId ∧ i.status = .pending with
    | none => some record
    | some intro =>
      let next := if accept then linkContactList touched intro.ownerIdentityPubkey op.createdAt
        else touched
      some { next with
        appIntroductions := record.appIntroductions.map fun is => is.map fun i =>
          if i.grantId = grantId then
            { i with status := if accept then .accepted else .rejected }
          else i }
  | .linkList owner => some (linkContactList record owner op.createdAt)
  | .unlinkList owner => some (unlinkContactList record owner op.createdAt)
  | .rename displayName =>
    -- An app may relabel what it added, never the owner's own records.
    if op.actorRole = .app ∧ record.createdByActorRole ≠ .app then none
    else some { touched with displayName := clean displayName.toText }
  | .setTier tier => some { touched with tier, tierSetByActorRole := some op.actorRole }
  | .setRoles roles => some { touched with roles := cleanRoles roles.val }
  | .setLifecycle lifecycle => some { touched with lifecycle := lifecycle.toLifecycle }
  | .note note => some { touched with notes := some (cleanNote note) }
  | .setPicture pointer => some { touched with picture := some pointer }
  | .clearPicture => some { touched with picture := none }
  | .remove =>
    -- A removal supersedes an archive.
    some { removeContactLists touched op.createdAt with
      lifecycle := .removed, removedAt := some op.createdAt, archived := none }
  | .archive =>
    some { removeContactLists touched op.createdAt with
      lifecycle := .removed, removedAt := some op.createdAt, archived := some true }
  | .addIdentity v =>
    let matches_ := fun i : ContactIdentity => decide (i.itemId = v.itemId ∨ i.pubkey = v.pubkey)
    match touched.identities.find? matches_ with
    | some existing =>
      if existing.pubkey ≠ v.pubkey ∨ op.actorRole = .app then some touched
      else some { touched with
        identities := modifyFirst matches_ (fun i => { i with
          verification := if i.verification.rank < v.verification.rank then v.verification
            else i.verification
          direct := i.direct.or (normaliseDirect v.direct) }) touched.identities }
    | none =>
      some { touched with
        identities := touched.identities ++ [{
          itemId := v.itemId
          pubkey := v.pubkey
          label := v.label.map fun l => clean l.toText
          provenance := v.provenance
          verification := v.verification
          direct := normaliseDirect v.direct
          linkedFromItemId := v.linkedFromItemId
          addedAt := op.createdAt }] }
  | .keyLink v =>
    if touched.identities.any (fun i => i.itemId = v.itemId) then some touched
    else
      -- Key continuity follows proof: the new item starts `proven` and names the one it replaced.
      some { touched with
        identities := touched.identities ++ [{
          itemId := v.itemId
          pubkey := v.pubkey
          label := none
          provenance := .keyLink
          verification := .proven
          direct := none
          linkedFromItemId := some (.item v.linkedFromItemId)
          addedAt := op.createdAt }] }
  | .recordOrigin v =>
    let origin := normaliseContactOrigin v
    let origins := touched.origins.getD []
    if capOrigins ≤ origins.length ∧ !origins.any (fun row => row.id = origin.id) then some touched
    else some { touched with
      origins := some (origins.filter (fun row => row.id ≠ origin.id) ++ [origin]) }
  | .removeOrigin id =>
    some { touched with
      origins := some ((touched.origins.getD []).filter fun row => row.id ≠ id) }
  | .recordCheck v =>
    let check := normaliseContactCheck v
    let checks := touched.checks.getD []
    if !touched.identities.any (fun identity => identity.pubkey = check.identityPubkey) then
      some touched
    else if capChecks ≤ checks.length ∧ !checks.any (fun c => c.id = check.id) then some touched
    else some { touched with checks := some (checks.filter (fun c => c.id ≠ check.id) ++ [check]) }
  | .removeCheck id =>
    some { touched with checks := some ((touched.checks.getD []).filter fun c => c.id ≠ id) }
  | .updateIdentity v | .evidence v =>
    if !touched.identities.any (fun i => i.itemId = v.itemId) then none
    else some { touched with
      identities := touched.identities.map fun i =>
        if i.itemId ≠ v.itemId then i
        else { i with
          label := (v.label.map fun l => clean l.toText).or i.label
          verification := v.verification.getD i.verification
          direct := (normaliseDirect v.direct).or i.direct } }
  | .addMethod v =>
    if touched.contactMethods.any (fun m => m.itemId = v.itemId) then some touched
    else some { touched with
      contactMethods := touched.contactMethods ++ [{
        itemId := v.itemId
        kind := v.kind
        label := v.label.map fun l => clean l.toText
        value := clean v.value.toText
        verification := v.verification
        sharingPolicy := v.sharingPolicy
        addedAt := op.createdAt }] }
  | .updateMethod v =>
    if !touched.contactMethods.any (fun m => m.itemId = v.itemId) then none
    else some { touched with
      contactMethods := touched.contactMethods.map fun m =>
        if m.itemId ≠ v.itemId then m
        else { m with
          label := (v.label.map fun l => clean l.toText).or m.label
          value := (v.value.map fun l => clean l.toText).getD m.value
          verification := v.verification.getD m.verification
          sharingPolicy := v.sharingPolicy.getD m.sharingPolicy } }
  | .removeItem itemId =>
    let identities := touched.identities.filter fun i => i.itemId ≠ itemId
    let contactMethods := touched.contactMethods.filter fun m => m.itemId ≠ itemId
    -- Nothing matched: the record is returned untouched.
    if identities.length = touched.identities.length ∧
        contactMethods.length = touched.contactMethods.length then some record
    else some { touched with identities, contactMethods }
  | .vouch guardianPubkey tier role =>
    if guardianPubkey ≠ op.actorPubkey then none
    else some { touched with
      -- A guardian's newer vouch supersedes their own previous one.
      vouches := (touched.vouches.map fun existing =>
          if existing.standsFor guardianPubkey then
            { existing with revokedByOperationId := some op.operationId }
          else existing) ++
        [{ vouchId := op.operationId, guardianPubkey, tier, role, createdAt := op.createdAt,
           operationId := op.operationId, revokedByOperationId := none }] }
  | .revokeVouch =>
    match touched.vouches.find? fun v => some v.operationId = op.targetOperationId with
    | none => none
    | some found =>
      -- Only the guardian who made a vouch may revoke it.
      if found.revokedByOperationId.isSome ∨ found.guardianPubkey ≠ op.actorPubkey then none
      else some { touched with
        vouches := touched.vouches.map fun v =>
          if some v.operationId = op.targetOperationId then
            { v with revokedByOperationId := some op.operationId }
          else v }
  | .ceiling guardianPubkey maxTier =>
    if guardianPubkey ≠ op.actorPubkey then none
    else some { touched with
      ceilings := (touched.ceilings.map fun existing =>
          if existing.standsFor guardianPubkey then
            { existing with revokedByOperationId := some op.operationId }
          else existing) ++
        [{ guardianPubkey, maxTier, createdAt := op.createdAt, operationId := op.operationId,
           revokedByOperationId := none }] }
  | .revokeCeiling guardianPubkey =>
    if guardianPubkey ≠ op.actorPubkey then none
    else if !touched.ceilings.any (fun c => c.standsFor guardianPubkey) then none
    else some { touched with
      ceilings := touched.ceilings.map fun c =>
        if c.standsFor guardianPubkey then
          { c with revokedByOperationId := some op.operationId }
        else c }
  | .block scope reason =>
    some { touched with
      blocks := touched.blocks ++ [{
        blockedBy := op.actorPubkey
        scope
        blockedAt := op.createdAt
        reason := reason.bind fun r => nonEmpty (clean r.toText)
        operationId := op.operationId
        liftedByOperationId := none }] }
  | .unblock =>
    match touched.blocks.find? fun b => some b.operationId = op.targetOperationId with
    | none => none
    | some found =>
      -- One guardian cannot clear another guardian's block.
      if found.liftedByOperationId.isSome ∨ found.blockedBy ≠ op.actorPubkey then none
      else some { touched with
        blocks := touched.blocks.map fun b =>
          if some b.operationId = op.targetOperationId then
            { b with liftedByOperationId := some op.operationId }
          else b }

/-- Does a tombstone let this action through? Removal may harden an archive, and a block or its
lifting still updates safety state without reviving the record. -/
def admittedWhenRemoved (record : ContactRecord) (action : ContactAction) : Bool :=
  match action with
  | .remove => record.archived = some true
  | .block _ _ | .unblock => true
  | _ => false

/-- One operation on the record it addresses. -/
def applyOne (record : Option ContactRecord) (op : ContactOperation) : Option ContactRecord :=
  match op.action, record with
  | .add v, _ => some (addContact record op v)
  | _, none => none
  | action, some r =>
    if r.lifecycle = .removed ∧ !admittedWhenRemoved r action then none else mutate r op

def ContactAction.isAdd : ContactAction → Bool
  | .add _ => true
  | _ => false

theorem applyOne_add (record : Option ContactRecord) {op : ContactOperation} {v : AddContactValue}
    (h : op.action = .add v) : applyOne record op = some (addContact record op v) := by
  simp only [applyOne, h]

theorem applyOne_none {op : ContactOperation} (h : op.action.isAdd = false) :
    applyOne none op = none := by
  unfold applyOne
  cases ha : op.action with
  | add v => rw [ha] at h; cases h
  | _ => rfl

theorem applyOne_some (record : ContactRecord) {op : ContactOperation}
    (h : op.action.isAdd = false) :
    applyOne (some record) op
      = if record.lifecycle = .removed ∧ admittedWhenRemoved record op.action = false then none
        else mutate record op := by
  unfold applyOne
  cases ha : op.action with
  | add v => rw [ha] at h; cases h
  | _ => simp only [Bool.not_eq_true']

theorem ContactAction.isAdd_iff {action : ContactAction} :
    action.isAdd = true ↔ ∃ v, action = .add v := by
  cases action <;> simp [isAdd]

end SignetApp.Contacts
