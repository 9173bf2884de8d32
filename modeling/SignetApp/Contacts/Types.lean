import SignetApp.Js.Guards

/-!
# Contacts v2 data model

The types of `types/contacts-v2.ts`, `contact-origins.ts` and `contact-checks.ts`, with the facts
the guards establish kept in the types: identifiers are hexadecimal strings of a fixed length,
texts are within their caps, times are finite and not negative. A property a guard lets through
but the types do not name is not kept.

The canonical key is `(directoryId, contactId)`. Relationship evidence and policy are append-only
facts (`vouches`, `ceilings`, `blocks`), never an overwritten tier.
-/

namespace SignetApp.Contacts

open SignetApp.Js

/-- 32 lowercase hexadecimal digits. -/
abbrev Hex32 := Hex 32

/-- 64 lowercase hexadecimal digits. -/
abbrev Hex64 := Hex 64

/-! ## Caps -/

abbrev capName : ℕ := 100
abbrev capRole : ℕ := 40
abbrev capRoles : ℕ := 12
abbrev capLabel : ℕ := 60
abbrev capMethodValue : ℕ := 200
abbrev capReason : ℕ := 200
abbrev capNote : ℕ := 2000
abbrev capPictureServer : ℕ := 512
abbrev capOriginText : ℕ := 200
abbrev capEvidence : ℕ := 2000
abbrev capOrigins : ℕ := 64
abbrev capChecks : ℕ := 128

/-- The last millisecond of the year 9999. -/
abbrev maxCheckTime : ℕ := 253402300799999

/-! ## Unions -/

/-- Social classification: close circle, acquaintance, one-way recognised. -/
inductive ContactTier where
  | kin | kith | ken
  deriving DecidableEq

/-- A ceiling may also forbid every tier outright. -/
inductive ContactCeilingTier where
  | kin | kith | ken | none
  deriving DecidableEq

inductive ContactType where
  | person | organisation
  deriving DecidableEq

inductive ContactLifecycle where
  | suggested | pending | active | rejected | removed
  deriving DecidableEq

/-- The lifecycles an operation may set: a contact is removed only by a removal. -/
inductive LiveLifecycle where
  | suggested | pending | active | rejected
  deriving DecidableEq

def LiveLifecycle.toLifecycle : LiveLifecycle → ContactLifecycle
  | .suggested => .suggested
  | .pending => .pending
  | .active => .active
  | .rejected => .rejected

@[simp] theorem LiveLifecycle.toLifecycle_ne_removed (l : LiveLifecycle) :
    l.toLifecycle ≠ .removed := by cases l <;> simp [toLifecycle]

inductive ContactVerification where
  | unverified | proven | mutual
  deriving DecidableEq

inductive MethodVerification where
  | unverified | proven
  deriving DecidableEq

inductive ContactIdentityProvenance where
  | direct | guardianShare | appProposal | legacyImport | keyLink
  deriving DecidableEq

inductive ContactMethodKind where
  | phone | email | website | postalAddress | other
  deriving DecidableEq

inductive ContactMethodSharing where
  | «private» | grantable
  deriving DecidableEq

inductive ContactActorRole where
  | owner | guardian | dependant | app
  deriving DecidableEq

inductive IntroductionStatus where
  | pending | accepted | rejected
  deriving DecidableEq

inductive OriginMethod where
  | qr | npub | nip05 | link | «import» | acceptedRequest | app | manual
  deriving DecidableEq

inductive CheckMethod where
  | words | inPerson | nip05 | appAttested
  deriving DecidableEq

inductive CheckSource where
  | nip05 | facebook | instagram | x | youtube | website | printedCard | other
  deriving DecidableEq

instance : StringUnion ContactTier where
  members := [.kin, .kith, .ken]
  name | .kin => "kin" | .kith => "kith" | .ken => "ken"

instance : StringUnion ContactCeilingTier where
  members := [.kin, .kith, .ken, .none]
  name | .kin => "kin" | .kith => "kith" | .ken => "ken" | .none => "none"

instance : StringUnion ContactType where
  members := [.person, .organisation]
  name | .person => "person" | .organisation => "organisation"

instance : StringUnion ContactLifecycle where
  members := [.suggested, .pending, .active, .rejected, .removed]
  name
    | .suggested => "suggested" | .pending => "pending" | .active => "active"
    | .rejected => "rejected" | .removed => "removed"

instance : StringUnion LiveLifecycle where
  members := [.suggested, .pending, .active, .rejected]
  name
    | .suggested => "suggested" | .pending => "pending" | .active => "active"
    | .rejected => "rejected"

instance : StringUnion ContactVerification where
  members := [.unverified, .proven, .mutual]
  name | .unverified => "unverified" | .proven => "proven" | .mutual => "mutual"

instance : StringUnion MethodVerification where
  members := [.unverified, .proven]
  name | .unverified => "unverified" | .proven => "proven"

instance : StringUnion ContactIdentityProvenance where
  members := [.direct, .guardianShare, .appProposal, .legacyImport, .keyLink]
  name
    | .direct => "direct" | .guardianShare => "guardian-share" | .appProposal => "app-proposal"
    | .legacyImport => "legacy-import" | .keyLink => "key-link"

instance : StringUnion ContactMethodKind where
  members := [.phone, .email, .website, .postalAddress, .other]
  name
    | .phone => "phone" | .email => "email" | .website => "website"
    | .postalAddress => "postal-address" | .other => "other"

instance : StringUnion ContactMethodSharing where
  members := [.private, .grantable]
  name | .private => "private" | .grantable => "grantable"

instance : StringUnion ContactActorRole where
  members := [.owner, .guardian, .dependant, .app]
  name
    | .owner => "owner" | .guardian => "guardian" | .dependant => "dependant" | .app => "app"

instance : StringUnion IntroductionStatus where
  members := [.pending, .accepted, .rejected]
  name | .pending => "pending" | .accepted => "accepted" | .rejected => "rejected"

instance : StringUnion OriginMethod where
  members := [.qr, .npub, .nip05, .link, .import, .acceptedRequest, .app, .manual]
  name
    | .qr => "qr" | .npub => "npub" | .nip05 => "nip05" | .link => "link" | .import => "import"
    | .acceptedRequest => "accepted-request" | .app => "app" | .manual => "manual"

instance : StringUnion CheckMethod where
  members := [.words, .inPerson, .nip05, .appAttested]
  name
    | .words => "words" | .inPerson => "in-person" | .nip05 => "nip05"
    | .appAttested => "app-attested"

instance : StringUnion CheckSource where
  members := [.nip05, .facebook, .instagram, .x, .youtube, .website, .printedCard, .other]
  name
    | .nip05 => "nip05" | .facebook => "facebook" | .instagram => "instagram" | .x => "x"
    | .youtube => "youtube" | .website => "website" | .printedCard => "printed-card"
    | .other => "other"

instance : LawfulStringUnion ContactTier := ⟨by intro a; cases a <;> decide⟩
instance : LawfulStringUnion ContactCeilingTier := ⟨by intro a; cases a <;> decide⟩
instance : LawfulStringUnion ContactType := ⟨by intro a; cases a <;> decide⟩
instance : LawfulStringUnion ContactLifecycle := ⟨by intro a; cases a <;> decide⟩
instance : LawfulStringUnion LiveLifecycle := ⟨by intro a; cases a <;> decide⟩
instance : LawfulStringUnion ContactVerification := ⟨by intro a; cases a <;> decide⟩
instance : LawfulStringUnion MethodVerification := ⟨by intro a; cases a <;> decide⟩
instance : LawfulStringUnion ContactIdentityProvenance := ⟨by intro a; cases a <;> decide⟩
instance : LawfulStringUnion ContactMethodKind := ⟨by intro a; cases a <;> decide⟩
instance : LawfulStringUnion ContactMethodSharing := ⟨by intro a; cases a <;> decide⟩
instance : LawfulStringUnion ContactActorRole := ⟨by intro a; cases a <;> decide⟩
instance : LawfulStringUnion IntroductionStatus := ⟨by intro a; cases a <;> decide⟩
instance : LawfulStringUnion OriginMethod := ⟨by intro a; cases a <;> decide⟩
instance : LawfulStringUnion CheckMethod := ⟨by intro a; cases a <;> decide⟩
instance : LawfulStringUnion CheckSource := ⟨by intro a; cases a <;> decide⟩

/-- `CONTACT_TIER_RANK`: higher is closer. -/
def ContactTier.rank : ContactTier → ℕ
  | .ken => 1
  | .kith => 2
  | .kin => 3

/-! ## Directories and keys -/

/-- The owner's own directory, the bots', the unresolved-import quarantine, and one dependant
addressed by public key. -/
inductive DirectoryId where
  | owner | bots | quarantine
  | dependant (pubkey : Hex64)
  deriving DecidableEq

/-- The directory id as text: `/^(owner|bots|quarantine|dependant:[0-9a-f]{64})$/`. -/
def DirectoryId.text : DirectoryId → JsString
  | .owner => lit "owner"
  | .bots => lit "bots"
  | .quarantine => lit "quarantine"
  | .dependant pubkey => lit "dependant:" ++ pubkey.val

/-- The map key of a materialised record; `text` is the string the source uses. -/
structure RecordKey where
  directoryId : DirectoryId
  contactId : Hex32
  deriving DecidableEq

/-- A Lamport clock: a positive integer. -/
def LamportClock := { n : ℕ // 1 ≤ n }

instance : LinearOrder LamportClock := inferInstanceAs (LinearOrder { n : ℕ // 1 ≤ n })

/-! ## Facts and items -/

/-- Mutual-ceremony evidence for one identity. -/
structure ContactDirectEvidence where
  ownerPubkey : Hex64
  sharedSecret : Option JsString
  verifiedAt : ℚ
  bondAssertion : Option JsValue
  groupId : Option (Str capLabel)
  isDefaultForGroup : Option Bool
  deriving DecidableEq

/-- What `linkedFromItemId` may hold: an item id, or a value whose `String(v)` is one. -/
inductive LinkedFrom where
  | item (id : Hex32)
  | other (v : JsValue)
  deriving DecidableEq

structure ContactIdentity where
  itemId : Hex32
  pubkey : Hex64
  label : Option (Text capLabel)
  provenance : ContactIdentityProvenance
  verification : ContactVerification
  direct : Option ContactDirectEvidence
  /-- Set when this identity arrived through a proven key rotation from another item. -/
  linkedFromItemId : Option LinkedFrom
  addedAt : Timestamp
  deriving DecidableEq

structure ContactMethod where
  itemId : Hex32
  kind : ContactMethodKind
  label : Option (Text capLabel)
  value : Text capMethodValue
  verification : MethodVerification
  sharingPolicy : ContactMethodSharing
  addedAt : Timestamp
  deriving DecidableEq

structure GuardianVouch where
  vouchId : Hex32
  guardianPubkey : Hex64
  tier : ContactTier
  role : Option (Str capRole)
  createdAt : Timestamp
  operationId : Hex32
  revokedByOperationId : Option Hex32
  deriving DecidableEq

structure GuardianCeiling where
  guardianPubkey : Hex64
  maxTier : ContactCeilingTier
  createdAt : Timestamp
  operationId : Hex32
  revokedByOperationId : Option Hex32
  deriving DecidableEq

inductive BlockScope where
  | contact
  | identity (itemId : Hex32)
  deriving DecidableEq

structure BlockFact where
  blockedBy : Hex64
  scope : BlockScope
  blockedAt : Timestamp
  reason : Option (Str capReason)
  operationId : Hex32
  liftedByOperationId : Option Hex32
  deriving DecidableEq

/-- Membership in an owning identity's list. A removed membership is history, not access. -/
structure ContactListMembership where
  ownerIdentityPubkey : Hex64
  addedAt : Timestamp
  removedAt : Option Timestamp
  deriving DecidableEq

structure AppContactIntroductionValue where
  grantId : Hex32
  ownerIdentityPubkey : Hex64
  pubkey : Hex64
  displayName : Str capName
  appName : Option (Str capName)
  deriving DecidableEq

structure AppContactIntroduction extends AppContactIntroductionValue where
  status : IntroductionStatus
  restricted : Bool
  logicalClock : LamportClock
  createdAt : Timestamp
  deriving DecidableEq

structure SharedCheck where
  pubkey : Hex64
  verification : ContactVerification
  verifiedAt : Option Timestamp
  deriving DecidableEq

structure SharedCheckRecord where
  pubkey : Hex64
  method : CheckMethod
  checkedAt : BoundedNat maxSafeInteger
  deriving DecidableEq

/-- The value of a `receive-share`. -/
structure SharedContactContextValue where
  guardianPubkey : Hex64
  tier : Option ContactTier
  blocked : Option Bool
  checks : Option (List SharedCheck)
  checkRecords : Option { l : List SharedCheckRecord // l.length ≤ 128 }
  deriving DecidableEq

structure SharedContactContext extends SharedContactContextValue where
  receivedAt : Timestamp
  deriving DecidableEq

structure ShareSent where
  directoryId : DirectoryId
  contactId : Hex32
  sharedAt : Timestamp
  deriving DecidableEq

/-- Owner-private history. -/
structure ContactOrigin where
  id : Hex32
  ownerIdentityPubkey : Hex64
  method : OriginMethod
  addedAt : BoundedNat maxCheckTime
  inviteId : Option Hex32
  inviteName : Option (Text capOriginText)
  caption : Option (Text capOriginText)
  appName : Option (Text capOriginText)
  deriving DecidableEq

structure ContactCheck where
  id : Hex32
  identityPubkey : Hex64
  ownerIdentityPubkey : Hex64
  method : CheckMethod
  checkedAt : BoundedNat maxCheckTime
  source : Option CheckSource
  evidence : Option (Text capEvidence)
  deriving DecidableEq

/-- Pointer to the encrypted backup of a contact's picture. `key` is a secret. -/
structure ContactPicturePointer where
  server : Str capPictureServer
  hash : Hex64
  key : Hex64
  plainHash : Hex64
  deriving DecidableEq

/-! ## Records -/

/-- A materialised contact. `accessGrants` is left out: it is always empty, nothing reads it. -/
structure ContactRecord where
  directoryId : DirectoryId
  contactId : Hex32
  type : ContactType
  displayName : Text capName
  /-- The owner's own classification, never the effective tier. -/
  tier : ContactTier
  /-- A later human classification supersedes the initial app-only cap. -/
  tierSetByActorRole : Option ContactActorRole := none
  roles : List (Str capRole)
  identities : List ContactIdentity := []
  contactMethods : List ContactMethod := []
  lifecycle : ContactLifecycle
  createdAt : Timestamp
  updatedAt : Timestamp
  removedAt : Option Timestamp := none
  archived : Option Bool := none
  createdByActorRole : ContactActorRole
  createdByOperationId : Hex32
  vouches : List GuardianVouch := []
  ceilings : List GuardianCeiling := []
  blocks : List BlockFact := []
  notes : Option (Text capNote) := none
  picture : Option ContactPicturePointer := none
  origins : Option (List ContactOrigin) := none
  checks : Option (List ContactCheck) := none
  /-- Aliases after concurrent creation under one key. -/
  mergedContactIds : Option (List Hex32) := none
  sharedContexts : Option (List SharedContactContext) := none
  sharesSent : Option (List ShareSent) := none
  appIntroductions : Option (List AppContactIntroduction) := none
  primaryIdentityPubkey : Option Hex64 := none
  listMemberships : Option (List ContactListMembership) := none
  deriving DecidableEq

/-! ## Operations -/

/-- At most `capRoles` roles. -/
abbrev Roles := { l : List (Str capRole) // l.length ≤ capRoles }

structure AddContactValue where
  type : ContactType
  displayName : Str capName
  tier : ContactTier
  roles : Option Roles := none
  lifecycle : Option LiveLifecycle := none
  /-- The list selected by the person adding the contact, not the signing key. -/
  ownerIdentityPubkey : Option Hex64 := none
  appIntroduction : Option AppContactIntroductionValue := none
  deriving DecidableEq

structure AddIdentityValue where
  itemId : Hex32
  pubkey : Hex64
  label : Option (Str capLabel) := none
  provenance : ContactIdentityProvenance
  verification : ContactVerification
  direct : Option ContactDirectEvidence := none
  linkedFromItemId : Option LinkedFrom := none
  deriving DecidableEq

structure KeyLinkValue where
  itemId : Hex32
  pubkey : Hex64
  linkedFromItemId : Hex32
  deriving DecidableEq

structure UpdateIdentityValue where
  itemId : Hex32
  label : Option (Str capLabel) := none
  verification : Option ContactVerification := none
  direct : Option ContactDirectEvidence := none
  deriving DecidableEq

structure AddMethodValue where
  itemId : Hex32
  kind : ContactMethodKind
  label : Option (Str capLabel) := none
  value : Str capMethodValue
  verification : MethodVerification
  sharingPolicy : ContactMethodSharing
  deriving DecidableEq

structure UpdateMethodValue where
  itemId : Hex32
  label : Option (Str capLabel) := none
  value : Option (Str capMethodValue) := none
  verification : Option MethodVerification := none
  sharingPolicy : Option ContactMethodSharing := none
  deriving DecidableEq

/-- An action together with its guarded value. -/
inductive ContactAction where
  | add (v : AddContactValue)
  | rename (displayName : Str capName)
  | setTier (tier : ContactTier)
  | setRoles (roles : Roles)
  | addIdentity (v : AddIdentityValue)
  | updateIdentity (v : UpdateIdentityValue)
  | addMethod (v : AddMethodValue)
  | updateMethod (v : UpdateMethodValue)
  | removeItem (itemId : Hex32)
  | evidence (v : UpdateIdentityValue)
  | vouch (guardianPubkey : Hex64) (tier : ContactTier) (role : Option (Str capRole))
  | revokeVouch
  | ceiling (guardianPubkey : Hex64) (maxTier : ContactCeilingTier)
  | revokeCeiling (guardianPubkey : Hex64)
  | block (scope : BlockScope) (reason : Option (Str capReason))
  | unblock
  | setLifecycle (lifecycle : LiveLifecycle)
  | archive
  | remove
  | keyLink (v : KeyLinkValue)
  | note (note : Text capNote)
  | setPicture (v : ContactPicturePointer)
  | clearPicture
  | linkList (ownerIdentityPubkey : Hex64)
  | unlinkList (ownerIdentityPubkey : Hex64)
  | appProposeList (v : AppContactIntroductionValue)
  | reviewAppList (grantId : Hex32) (accept : Bool)
  | receiveShare (v : SharedContactContextValue)
  | recordShare (directoryId : DirectoryId) (contactId : Hex32)
  | recordOrigin (v : ContactOrigin)
  | removeOrigin (id : Hex32)
  | recordCheck (v : ContactCheck)
  | removeCheck (id : Hex32)
  deriving DecidableEq

/-- An operation that passed its structural guard. -/
structure ContactOperation where
  /-- List in which a human made this edit. -/
  ownerIdentityPubkey : Option Hex64 := none
  /-- Global idempotency key. -/
  operationId : Hex32
  directoryId : DirectoryId
  contactId : Hex32
  itemId : Option Hex32 := none
  actorPubkey : Hex64
  actorRole : ContactActorRole
  actorDeviceId : Hex32
  logicalClock : LamportClock
  action : ContactAction
  /-- Required when revoking a prior fact (`revoke-vouch`, `unblock`). -/
  targetOperationId : Option Hex32 := none
  createdAt : Timestamp
  deriving DecidableEq

end SignetApp.Contacts
