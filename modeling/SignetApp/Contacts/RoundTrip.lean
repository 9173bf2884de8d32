import SignetApp.Contacts.Bounds
import SignetApp.Contacts.Encoding
import SignetApp.Contacts.Standing
import SignetApp.Contacts.Validation

/-!
# Records as values, and the record guard

A materialised record as it is stored, and `validateRecord`, the guard a row read back off storage
must pass: a row that fails it is dropped by the caller. The guard is total but for one conversion,
`String(v.status)` of an introduction.
-/

namespace SignetApp.Contacts

open SignetApp.Js

/-! ## Values of records -/

def ContactIdentity.toJs (i : ContactIdentity) : JsValue :=
  .obj [
    ("itemId", i.itemId.toJs),
    ("pubkey", i.pubkey.toJs),
    ("label", optToJs Text.toJs i.label),
    ("provenance", StringUnion.toJs i.provenance),
    ("verification", StringUnion.toJs i.verification),
    ("direct", optToJs ContactDirectEvidence.toJs i.direct),
    ("linkedFromItemId", optToJs LinkedFrom.toJs i.linkedFromItemId),
    ("addedAt", i.addedAt.toJs)]

def ContactMethod.toJs (m : ContactMethod) : JsValue :=
  .obj [
    ("itemId", m.itemId.toJs),
    ("kind", StringUnion.toJs m.kind),
    ("label", optToJs Text.toJs m.label),
    ("value", m.value.toJs),
    ("verification", StringUnion.toJs m.verification),
    ("sharingPolicy", StringUnion.toJs m.sharingPolicy),
    ("addedAt", m.addedAt.toJs)]

def GuardianVouch.toJs (v : GuardianVouch) : JsValue :=
  .obj [
    ("vouchId", v.vouchId.toJs),
    ("guardianPubkey", v.guardianPubkey.toJs),
    ("tier", StringUnion.toJs v.tier),
    ("role", optToJs Str.toJs v.role),
    ("createdAt", v.createdAt.toJs),
    ("operationId", v.operationId.toJs),
    ("revokedByOperationId", optToJs Hex.toJs v.revokedByOperationId)]

def GuardianCeiling.toJs (c : GuardianCeiling) : JsValue :=
  .obj [
    ("guardianPubkey", c.guardianPubkey.toJs),
    ("maxTier", StringUnion.toJs c.maxTier),
    ("createdAt", c.createdAt.toJs),
    ("operationId", c.operationId.toJs),
    ("revokedByOperationId", optToJs Hex.toJs c.revokedByOperationId)]

def BlockFact.toJs (b : BlockFact) : JsValue :=
  .obj [
    ("blockedBy", b.blockedBy.toJs),
    ("scope", b.scope.toJs),
    ("blockedAt", b.blockedAt.toJs),
    ("reason", optToJs Str.toJs b.reason),
    ("operationId", b.operationId.toJs),
    ("liftedByOperationId", optToJs Hex.toJs b.liftedByOperationId)]

def ContactListMembership.toJs (m : ContactListMembership) : JsValue :=
  .obj [
    ("ownerIdentityPubkey", m.ownerIdentityPubkey.toJs),
    ("addedAt", m.addedAt.toJs),
    ("removedAt", optToJs Timestamp.toJs m.removedAt)]

def AppContactIntroduction.toJs (i : AppContactIntroduction) : JsValue :=
  .obj ([
    ("status", StringUnion.toJs i.status),
    ("restricted", .bool i.restricted),
    ("logicalClock", .ofNat i.logicalClock.val),
    ("createdAt", i.createdAt.toJs)] ++ i.props)

def SharedContactContext.toJs (c : SharedContactContext) : JsValue :=
  .obj (("receivedAt", c.receivedAt.toJs) :: c.props)

def ShareSent.toJs (s : ShareSent) : JsValue :=
  .obj [
    ("directoryId", s.directoryId.toJs),
    ("contactId", s.contactId.toJs),
    ("sharedAt", s.sharedAt.toJs)]

/-- An array of values. -/
def listToJs {α : Type} (toJs : α → JsValue) (as : List α) : JsValue := .arr (as.map toJs)

def ContactRecord.toJs (r : ContactRecord) : JsValue :=
  .obj [
    ("directoryId", r.directoryId.toJs),
    ("contactId", r.contactId.toJs),
    ("type", StringUnion.toJs r.type),
    ("displayName", r.displayName.toJs),
    ("tier", StringUnion.toJs r.tier),
    ("tierSetByActorRole", optToJs StringUnion.toJs r.tierSetByActorRole),
    ("roles", rolesToJs r.roles),
    ("identities", listToJs ContactIdentity.toJs r.identities),
    ("contactMethods", listToJs ContactMethod.toJs r.contactMethods),
    ("accessGrants", .arr []),
    ("lifecycle", StringUnion.toJs r.lifecycle),
    ("createdAt", r.createdAt.toJs),
    ("updatedAt", r.updatedAt.toJs),
    ("removedAt", optToJs Timestamp.toJs r.removedAt),
    ("archived", optToJs .bool r.archived),
    ("createdByActorRole", StringUnion.toJs r.createdByActorRole),
    ("createdByOperationId", r.createdByOperationId.toJs),
    ("vouches", listToJs GuardianVouch.toJs r.vouches),
    ("ceilings", listToJs GuardianCeiling.toJs r.ceilings),
    ("blocks", listToJs BlockFact.toJs r.blocks),
    ("notes", optToJs Text.toJs r.notes),
    ("picture", optToJs (fun p : ContactPicturePointer => .obj p.props) r.picture),
    ("origins", optToJs (listToJs fun o : ContactOrigin => .obj o.props) r.origins),
    ("checks", optToJs (listToJs fun c : ContactCheck => .obj c.props) r.checks),
    ("mergedContactIds", optToJs (listToJs Hex.toJs) r.mergedContactIds),
    ("sharedContexts", optToJs (listToJs SharedContactContext.toJs) r.sharedContexts),
    ("sharesSent", optToJs (listToJs ShareSent.toJs) r.sharesSent),
    ("appIntroductions", optToJs (listToJs AppContactIntroduction.toJs) r.appIntroductions),
    ("primaryIdentityPubkey", optToJs Hex.toJs r.primaryIdentityPubkey),
    ("listMemberships", optToJs (listToJs ContactListMembership.toJs) r.listMemberships)]

/-! ## `validContactLists` -/

/-- The owners of the active memberships; `none` when a row is malformed or an owner comes twice. -/
def scanMemberships (seen active : List Hex64) : List JsValue → Option (List Hex64)
  | [] => some active
  | m :: rest => do
    let owner ← isHex 64 (m.get "ownerIdentityPubkey")
    guard (owner ∉ seen)
    let _ ← isTimestamp (m.get "addedAt")
    let removedAt ← isOpt isTimestamp (m.get "removedAt")
    scanMemberships (owner :: seen) (if removedAt.isNone then active ++ [owner] else active) rest

def validContactLists (raw : JsValue) : Bool :=
  let primary := raw.get "primaryIdentityPubkey"
  match raw.get "listMemberships" with
  | .undefined => primary = .undefined
  | .arr memberships =>
    match scanMemberships [] [] memberships with
    | none => false
    | some [] => primary = .undefined
    | some active => active.any fun owner => primary = owner.toJs
  | _ => false

/-! ## Fact guards -/

/-- `everyElement(v, guard)` for a guard that only tests. -/
def everyFact (guard : JsValue → Bool) : JsValue → Bool
  | .arr elems => elems.all fun el => isObj el && guard el
  | _ => false

/-- `raw.p === undefined || guard(raw.p)`. -/
def optional (guard : JsValue → Bool) (v : JsValue) : Bool := v = .undefined || guard v

def isTier (v : JsValue) : Bool := (StringUnion.parse v : Option ContactTier).isSome

def isCeilingTier (v : JsValue) : Bool := (StringUnion.parse v : Option ContactCeilingTier).isSome

def isVerification (v : JsValue) : Bool := (StringUnion.parse v : Option ContactVerification).isSome

def isMethodVerification (v : JsValue) : Bool :=
  (StringUnion.parse v : Option MethodVerification).isSome

def isProvenance (v : JsValue) : Bool :=
  (StringUnion.parse v : Option ContactIdentityProvenance).isSome

def isMethodKind (v : JsValue) : Bool := (StringUnion.parse v : Option ContactMethodKind).isSome

def isSharing (v : JsValue) : Bool := (StringUnion.parse v : Option ContactMethodSharing).isSome

def isActorRole (v : JsValue) : Bool := (StringUnion.parse v : Option ContactActorRole).isSome

def isRecordLifecycle (v : JsValue) : Bool := (StringUnion.parse v : Option ContactLifecycle).isSome

def isContactType (v : JsValue) : Bool := (StringUnion.parse v : Option ContactType).isSome

def isHex32 (v : JsValue) : Bool := (isHex 32 v).isSome

def isHex64 (v : JsValue) : Bool := (isHex 64 v).isSome

def isNumber (v : JsValue) : Bool := (isFinite v).isSome

def isVouchFact (v : JsValue) : Bool :=
  isHex64 (v.get "guardianPubkey") && isHex32 (v.get "operationId") && isTier (v.get "tier")
    && isNumber (v.get "createdAt") && optional (fun r => (isStr capRole r).isSome) (v.get "role")
    && optional isHex32 (v.get "revokedByOperationId")

def isCeilingFact (v : JsValue) : Bool :=
  isHex64 (v.get "guardianPubkey") && isHex32 (v.get "operationId")
    && isCeilingTier (v.get "maxTier") && isNumber (v.get "createdAt")
    && optional isHex32 (v.get "revokedByOperationId")

def isBlockFact (v : JsValue) : Bool :=
  isHex64 (v.get "blockedBy") && isHex32 (v.get "operationId") && (isScope (v.get "scope")).isSome
    && isNumber (v.get "blockedAt")
    && optional (fun r => (isStr capReason r).isSome) (v.get "reason")
    && optional isHex32 (v.get "liftedByOperationId")

def isIdentityItem (v : JsValue) : Bool :=
  isHex32 (v.get "itemId") && isHex64 (v.get "pubkey") && isProvenance (v.get "provenance")
    && isVerification (v.get "verification") && isNumber (v.get "addedAt")

def isMethodItem (v : JsValue) : Bool :=
  isHex32 (v.get "itemId") && isMethodKind (v.get "kind")
    && (isText capMethodValue (v.get "value")).isSome
    && isMethodVerification (v.get "verification") && isSharing (v.get "sharingPolicy")
    && isNumber (v.get "addedAt")

def isSharedContext (v : JsValue) : Bool :=
  (validSharedContext v).isSome && isNumber (v.get "receivedAt")

def isShareSent (v : JsValue) : Bool :=
  (isDirectoryId (v.get "directoryId")).isSome && isHex32 (v.get "contactId")
    && isNumber (v.get "sharedAt")

/-- `Array.isArray(v) && v.length <= cap && v.every(guard)`. -/
def boundedArray (cap : ℕ) (guard : JsValue → Bool) : JsValue → Bool
  | .arr elems => decide (elems.length ≤ cap) && elems.all guard
  | _ => false

section
variable [Platform]

/-- One introduction; `String(v.status)` may raise. -/
def isIntroduction (v : JsValue) : Except JsError Bool :=
  if (validIntroduction v).isSome then do
    let status ← stringOf (v.get "status")
    pure (decide (status ∈ [lit "pending", lit "accepted", lit "rejected"])
      && (isBool (v.get "restricted")).isSome && (isLamportClock (v.get "logicalClock")).isSome
      && (isTimestamp (v.get "createdAt")).isSome)
  else pure false

/-- The introductions, one a grant. -/
def validIntroductions : JsValue → Except JsError Bool
  | .undefined => pure true
  | .arr elems => do
    let every ← elems.allM fun el => if isObj el then isIntroduction el else pure false
    pure (every && decide (elems.map fun el => el.get "grantId").Nodup)
  | _ => pure false

/-- The properties tested before the introductions. -/
def validBefore (raw : JsValue) : Bool :=
  validContactLists raw
    && optional (boundedArray capOrigins fun o => (validContactOrigin o).isSome) (raw.get "origins")
    && optional (boundedArray capChecks fun c => (validContactCheck c).isSome) (raw.get "checks")
    && optional (fun ids => (isArrayOf (isHex 32) ids).isSome) (raw.get "mergedContactIds")
    && optional (everyFact isSharedContext) (raw.get "sharedContexts")
    && optional (everyFact isShareSent) (raw.get "sharesSent")

/-- The properties tested after the introductions. -/
def validAfter (raw : JsValue) : Bool :=
  (isStr 120 (raw.get "directoryId")).isSome
    && isHex32 (raw.get "contactId")
    && isContactType (raw.get "type")
    && (isText capName (raw.get "displayName")).isSome
    && isTier (raw.get "tier")
    && optional isActorRole (raw.get "tierSetByActorRole")
    && (isRoles (raw.get "roles")).isSome
    && everyFact isIdentityItem (raw.get "identities")
    && everyFact isMethodItem (raw.get "contactMethods")
    && everyFact (fun _ => true) (raw.get "accessGrants")
    && isRecordLifecycle (raw.get "lifecycle")
    && isNumber (raw.get "createdAt")
    && isNumber (raw.get "updatedAt")
    && optional isNumber (raw.get "removedAt")
    && optional (fun b => (isBool b).isSome) (raw.get "archived")
    && isActorRole (raw.get "createdByActorRole")
    && isHex32 (raw.get "createdByOperationId")
    && everyFact isVouchFact (raw.get "vouches")
    && everyFact isCeilingFact (raw.get "ceilings")
    && everyFact isBlockFact (raw.get "blocks")
    && optional (fun n => (isText capNote n).isSome) (raw.get "notes")
    && optional (fun p => (validPicturePointer p).isSome) (raw.get "picture")

/-- **The full structural guard** for a materialised record read back off storage. -/
def validateRecord (raw : JsValue) : Except JsError Bool :=
  if isObj raw && validBefore raw then do
    let introductions ← validIntroductions (raw.get "appIntroductions")
    pure (introductions && validAfter raw)
  else pure false

end

/-!
## Records pass their own guard

A record of the model, written as a value, passes `validateRecord` as soon as its lists are
consistent and its caps hold (`validateRecord_toJs`). What the types already say (hexadecimal ids,
capped texts, times, unions) needs no hypothesis: each kind of item passes its guard as written.
-/

/-! ## Optional properties and arrays -/

variable {guard : JsValue → Bool} {α : Type} {toJs : α → JsValue}

theorem optional_optToJs {o : Option α}
    (h : ∀ a ∈ o, guard (toJs a) = true) : optional guard (optToJs toJs o) = true := by
  cases o with
  | none => rfl
  | some a => simp [optional, optToJs, h a rfl]

theorem everyFact_listToJs
    (ho : ∀ a, isObj (toJs a) = true) (h : ∀ a, guard (toJs a) = true) (as : List α) :
    everyFact guard (listToJs toJs as) = true := by
  simp [everyFact, listToJs, ho, h]

variable {cap : ℕ}

theorem boundedArray_listToJs
    (h : ∀ a, guard (toJs a) = true) {as : List α} (hcap : as.length ≤ cap) :
    boundedArray cap guard (listToJs toJs as) = true := by
  simp [boundedArray, listToJs, h, hcap]

variable {n : ℕ}

theorem Hex.toJs_ne_undefined (h : Hex n) : h.toJs ≠ .undefined := fun he => by cases he

theorem Hex.toJs_injective : Function.Injective (Hex.toJs (n := n)) := by
  intro a b h
  have hs : a.val = b.val := JsValue.str.inj h
  exact Subtype.ext hs

theorem isOpt_hex (o : Option (Hex n)) : isOpt (isHex n) (optToJs Hex.toJs o) = some o :=
  isOpt_optToJs isHex_toJs Hex.toJs_ne_undefined o

theorem isOpt_str (o : Option (Str cap)) : isOpt (isStr cap) (optToJs Str.toJs o) = some o :=
  isOpt_optToJs isStr_toJs (fun _ he => by cases he) o

theorem isOpt_text (o : Option (Text cap)) : isOpt (isText cap) (optToJs Text.toJs o) = some o :=
  isOpt_optToJs isText_toJs (fun _ he => by cases he) o

theorem isOpt_timestamp (o : Option Timestamp) :
    isOpt isTimestamp (optToJs Timestamp.toJs o) = some o :=
  isOpt_optToJs isTimestamp_toJs (fun _ he => by cases he) o

theorem isOpt_bool (o : Option Bool) : isOpt isBool (optToJs .bool o) = some o := by
  cases o <;> rfl

theorem isOpt_union [StringUnion α] [LawfulStringUnion α] (o : Option α) :
    isOpt StringUnion.parse (optToJs StringUnion.toJs o) = some o :=
  isOpt_optToJs parse_toJs (fun _ he => by cases he) o

/-! ## Directories and scopes -/

theorem DirectoryId.ofText_text (d : DirectoryId) : DirectoryId.ofText d.text = some d := by
  cases d with
  | owner => rfl
  | bots => rfl
  | quarantine => rfl
  | dependant pubkey =>
    have hlength : (DirectoryId.dependant pubkey).text.length = 74 := by
      have hhex : pubkey.val.length = 64 := by
        have h := pubkey.property
        simp only [isHexOf, Bool.and_eq_true, beq_iff_eq] at h
        exact h.1
      change (lit "dependant:" ++ pubkey.val).length = 74
      rw [List.length_append, hhex]
      rfl
    have hne : ∀ s : JsString, s.length < 74 → (DirectoryId.dependant pubkey).text ≠ s := by
      rintro _ hs rfl
      omega
    unfold DirectoryId.ofText
    rw [if_neg (hne _ (by decide)), if_neg (hne _ (by decide)), if_neg (hne _ (by decide)),
      if_pos (by exact List.isPrefixOf_iff_prefix.mpr (List.prefix_append _ _))]
    change (isHex 64 pubkey.toJs).map DirectoryId.dependant = _
    rw [isHex_toJs]
    rfl

theorem isDirectoryId_toJs (d : DirectoryId) : isDirectoryId d.toJs = some d := d.ofText_text

theorem length_text_le (d : DirectoryId) : 0 < d.text.length ∧ d.text.length ≤ 120 := by
  cases d with
  | dependant pubkey =>
    have h := pubkey.property
    simp only [isHexOf, Bool.and_eq_true, beq_iff_eq] at h
    change 0 < (lit "dependant:" ++ pubkey.val).length ∧ (lit "dependant:" ++ pubkey.val).length ≤ 120
    rw [List.length_append, h.1]
    decide
  | _ => decide

theorem isScope_toJs (scope : BlockScope) : isScope scope.toJs = some scope := by
  cases scope with
  | contact => rfl
  | identity itemId =>
    change (isHex 32 itemId.toJs).map BlockScope.identity = _
    rw [isHex_toJs]
    rfl

/-! ## Items and facts -/

theorem isIdentityItem_toJs (i : ContactIdentity) : isIdentityItem i.toJs = true := by
  change (isHex32 i.itemId.toJs && isHex64 i.pubkey.toJs && isProvenance (StringUnion.toJs _)
    && isVerification (StringUnion.toJs _) && isNumber i.addedAt.toJs) = true
  simp [isHex32, isHex64, isProvenance, isVerification, isNumber]

theorem isMethodItem_toJs (m : ContactMethod) : isMethodItem m.toJs = true := by
  change (isHex32 m.itemId.toJs && isMethodKind (StringUnion.toJs _)
    && (isText capMethodValue m.value.toJs).isSome && isMethodVerification (StringUnion.toJs _)
    && isSharing (StringUnion.toJs _) && isNumber m.addedAt.toJs) = true
  simp [isHex32, isMethodKind, isMethodVerification, isSharing, isNumber]

theorem isVouchFact_toJs (v : GuardianVouch) : isVouchFact v.toJs = true := by
  have hrole : optional (fun r => (isStr capRole r).isSome) (optToJs Str.toJs v.role) = true :=
    optional_optToJs fun r _ => by rw [isStr_toJs]; rfl
  have hrevoked : optional isHex32 (optToJs Hex.toJs v.revokedByOperationId) = true :=
    optional_optToJs fun r _ => by rw [isHex32, isHex_toJs]; rfl
  change (isHex64 v.guardianPubkey.toJs && isHex32 v.operationId.toJs && isTier (StringUnion.toJs _)
    && isNumber v.createdAt.toJs && optional _ (optToJs Str.toJs v.role)
    && optional isHex32 (optToJs Hex.toJs v.revokedByOperationId)) = true
  simp [isHex32, isHex64, isTier, isNumber] at hrole hrevoked ⊢
  exact ⟨hrole, hrevoked⟩

theorem isCeilingFact_toJs (c : GuardianCeiling) : isCeilingFact c.toJs = true := by
  have hrevoked : optional isHex32 (optToJs Hex.toJs c.revokedByOperationId) = true :=
    optional_optToJs fun r _ => by rw [isHex32, isHex_toJs]; rfl
  change (isHex64 c.guardianPubkey.toJs && isHex32 c.operationId.toJs
    && isCeilingTier (StringUnion.toJs _) && isNumber c.createdAt.toJs
    && optional isHex32 (optToJs Hex.toJs c.revokedByOperationId)) = true
  rw [hrevoked]
  simp [isHex32, isHex64, isCeilingTier, isNumber]

theorem isBlockFact_toJs (b : BlockFact) : isBlockFact b.toJs = true := by
  have hreason : optional (fun r => (isStr capReason r).isSome) (optToJs Str.toJs b.reason) = true :=
    optional_optToJs fun r _ => by rw [isStr_toJs]; rfl
  have hlifted : optional isHex32 (optToJs Hex.toJs b.liftedByOperationId) = true :=
    optional_optToJs fun r _ => by rw [isHex32, isHex_toJs]; rfl
  change (isHex64 b.blockedBy.toJs && isHex32 b.operationId.toJs && (isScope b.scope.toJs).isSome
    && isNumber b.blockedAt.toJs && optional _ (optToJs Str.toJs b.reason)
    && optional isHex32 (optToJs Hex.toJs b.liftedByOperationId)) = true
  rw [hlifted, hreason, isScope_toJs]
  simp [isHex32, isHex64, isNumber]

theorem validContactOrigin_toJs (o : ContactOrigin) : validContactOrigin (.obj o.props) = some o := by
  change (do
    let id ← isHex 32 o.id.toJs
    let ownerIdentityPubkey ← isHex 64 o.ownerIdentityPubkey.toJs
    let method ← StringUnion.parse (StringUnion.toJs o.method)
    let addedAt ← isBoundedNat maxCheckTime o.addedAt.toJs
    let inviteId ← isOpt (isHex 32) (optToJs Hex.toJs o.inviteId)
    let inviteName ← isOpt (isText capOriginText) (optToJs Text.toJs o.inviteName)
    let caption ← isOpt (isText capOriginText) (optToJs Text.toJs o.caption)
    let appName ← isOpt (isText capOriginText) (optToJs Text.toJs o.appName)
    some (ContactOrigin.mk id ownerIdentityPubkey method addedAt inviteId inviteName caption appName))
    = some o
  simp only [isHex_toJs, parse_toJs, isBoundedNat_toJs, isOpt_hex, isOpt_text]
  rfl

theorem validContactCheck_toJs (c : ContactCheck) : validContactCheck (.obj c.props) = some c := by
  change (do
    let id ← isHex 32 c.id.toJs
    let identityPubkey ← isHex 64 c.identityPubkey.toJs
    let ownerIdentityPubkey ← isHex 64 c.ownerIdentityPubkey.toJs
    let method ← StringUnion.parse (StringUnion.toJs c.method)
    let checkedAt ← isBoundedNat maxCheckTime c.checkedAt.toJs
    let source ← isOpt StringUnion.parse (optToJs StringUnion.toJs c.source)
    let evidence ← isOpt (isText capEvidence) (optToJs Text.toJs c.evidence)
    some (ContactCheck.mk id identityPubkey ownerIdentityPubkey method checkedAt source evidence))
    = some c
  simp only [isHex_toJs, parse_toJs, isBoundedNat_toJs, isOpt_union, isOpt_text]
  rfl

theorem validSharedCheck_toJs (c : SharedCheck) : validSharedCheck c.toJs = some c := by
  change (do
    let pubkey ← isHex 64 c.pubkey.toJs
    let verification ← StringUnion.parse (StringUnion.toJs c.verification)
    let verifiedAt ← isOpt isTimestamp (optToJs Timestamp.toJs c.verifiedAt)
    some (SharedCheck.mk pubkey verification verifiedAt)) = some c
  simp only [isHex_toJs, parse_toJs, isOpt_timestamp]
  rfl

theorem validSharedCheckRecord_toJs (c : SharedCheckRecord) :
    validSharedCheckRecord c.toJs = some c := by
  change (do
    let pubkey ← isHex 64 c.pubkey.toJs
    let method ← StringUnion.parse (StringUnion.toJs c.method)
    let checkedAt ← isBoundedNat maxSafeInteger c.checkedAt.toJs
    some (SharedCheckRecord.mk pubkey method checkedAt)) = some c
  simp only [isHex_toJs, parse_toJs, isBoundedNat_toJs]
  rfl

theorem validSharedCheckRecords_toJs (cs : { l : List SharedCheckRecord // l.length ≤ 128 }) :
    validSharedCheckRecords (.arr (cs.val.map SharedCheckRecord.toJs)) = some cs := by
  unfold validSharedCheckRecords
  rw [everyElement_toJs validSharedCheckRecord_toJs (fun _ => rfl)]
  exact dif_pos cs.property

theorem isSharedContext_toJs (c : SharedContactContext) : isSharedContext c.toJs = true := by
  have hchecks : isOpt (everyElement validSharedCheck)
      (optToJs (fun cs => .arr (cs.map SharedCheck.toJs)) c.checks) = some c.checks :=
    isOpt_optToJs (everyElement_toJs validSharedCheck_toJs fun _ => rfl) (fun _ he => by cases he) _
  have hrecords : isOpt validSharedCheckRecords
      (optToJs (fun cs => .arr (cs.val.map SharedCheckRecord.toJs)) c.checkRecords)
        = some c.checkRecords :=
    isOpt_optToJs validSharedCheckRecords_toJs (fun _ he => by cases he) _
  have hvalid : validSharedContext c.toJs = some c.toSharedContactContextValue := by
    change (do
      guard (isObj c.toJs)
      let guardianPubkey ← isHex 64 c.guardianPubkey.toJs
      let tier ← isOpt StringUnion.parse (optToJs StringUnion.toJs c.tier)
      let blocked ← isOpt isBool (optToJs .bool c.blocked)
      let checkRecords ← isOpt validSharedCheckRecords
        (optToJs (fun cs : { l : List SharedCheckRecord // l.length ≤ 128 } =>
          .arr (cs.val.map SharedCheckRecord.toJs)) c.checkRecords)
      let checks ← isOpt (everyElement validSharedCheck)
        (optToJs (fun cs : List SharedCheck => .arr (cs.map SharedCheck.toJs)) c.checks)
      some (SharedContactContextValue.mk guardianPubkey tier blocked checks checkRecords)) = _
    simp only [isHex_toJs, isOpt_union, isOpt_bool, hchecks, hrecords]
    rfl
  change ((validSharedContext c.toJs).isSome && isNumber c.receivedAt.toJs) = true
  rw [hvalid]
  rfl

theorem isShareSent_toJs (s : ShareSent) : isShareSent s.toJs = true := by
  change ((isDirectoryId s.directoryId.toJs).isSome && isHex32 s.contactId.toJs
    && isNumber s.sharedAt.toJs) = true
  rw [isDirectoryId_toJs]
  simp [isHex32, isNumber]

theorem isRoles_toJs {roles : List (Str capRole)} (h : roles.length ≤ capRoles) :
    isRoles (rolesToJs roles) = some ⟨roles, h⟩ := by
  unfold isRoles rolesToJs
  rw [isArrayOf_toJs isStr_toJs]
  exact dif_pos h

/-! ## Lists -/

/-- The scan finds the owners of the active memberships, each owner coming once. -/
theorem scanMemberships_toJs (memberships : List ContactListMembership) :
    ∀ seen active : List Hex64, (memberships.map ContactListMembership.ownerIdentityPubkey).Nodup →
      (∀ m ∈ memberships, m.ownerIdentityPubkey ∉ seen) →
      scanMemberships seen active (memberships.map ContactListMembership.toJs)
        = some (active ++ activeOwners memberships) := by
  induction memberships with
  | nil => intro _ active _ _; simp [scanMemberships, activeOwners]
  | cons m rest ih =>
    intro seen active hnodup hseen
    rw [List.map_cons, List.nodup_cons] at hnodup
    obtain ⟨hm, hrest⟩ := hnodup
    have hnew : m.ownerIdentityPubkey ∉ seen := hseen m List.mem_cons_self
    have hlater : ∀ m' ∈ rest, m'.ownerIdentityPubkey ∉ m.ownerIdentityPubkey :: seen := by
      intro m' hm' hmem
      rcases List.mem_cons.mp hmem with heq | hmem
      · exact hm (List.mem_map.mpr ⟨m', hm', heq⟩)
      · exact hseen m' (List.mem_cons_of_mem _ hm') hmem
    change (do
      let owner ← isHex 64 m.ownerIdentityPubkey.toJs
      guard (owner ∉ seen)
      let _ ← isTimestamp m.addedAt.toJs
      let removedAt ← isOpt isTimestamp (optToJs Timestamp.toJs m.removedAt)
      scanMemberships (owner :: seen) (if removedAt.isNone then active ++ [owner] else active)
        (rest.map ContactListMembership.toJs)) = _
    simp only [isHex_toJs, isTimestamp_toJs, isOpt_timestamp, Option.bind_eq_bind, Option.bind_some,
      guard, if_pos hnew, pure]
    rw [ih _ _ hrest hlater]
    cases hremoved : m.removedAt <;> simp [activeOwners, hremoved]

theorem validContactLists_toJs {record : ContactRecord}
    (h : ListsValid record.memberships record.primaryIdentityPubkey) :
    validContactLists record.toJs = true := by
  have hmemberships : record.toJs.get "listMemberships"
      = optToJs (listToJs ContactListMembership.toJs) record.listMemberships := rfl
  have hprimary : record.toJs.get "primaryIdentityPubkey"
      = optToJs Hex.toJs record.primaryIdentityPubkey := rfl
  unfold validContactLists
  simp only [hmemberships, hprimary]
  cases hm : record.listMemberships with
  | none =>
    have hnil : record.memberships = [] := by rw [ContactRecord.memberships, hm]; rfl
    rw [hnil] at h
    cases hp : record.primaryIdentityPubkey with
    | none => rfl
    | some p =>
      have := h.primary_active p (by rw [hp]; rfl)
      cases this
  | some memberships =>
    have hr : record.memberships = memberships := by rw [ContactRecord.memberships, hm]; rfl
    rw [hr] at h
    have hscan := scanMemberships_toJs memberships [] [] h.owners fun _ _ => List.not_mem_nil
    simp only [optToJs, listToJs, hscan, List.nil_append]
    cases hactive : activeOwners memberships with
    | nil =>
      cases hp : record.primaryIdentityPubkey with
      | none => rfl
      | some p =>
        have := h.primary_active p (by rw [hp]; rfl)
        rw [hactive] at this
        cases this
    | cons owner rest =>
      obtain ⟨p, hp⟩ := Option.isSome_iff_exists.mp (h.primary_of_active (by rw [hactive]; simp))
      have hmem := h.primary_active p (by rw [hp]; rfl)
      rw [hactive] at hmem
      simp only [hp]
      exact List.any_eq_true.mpr ⟨p, hmem, by simp⟩

/-! ## The tests before the introductions -/

theorem validBefore_toJs {record : ContactRecord} {safe : ContactPicturePointer → Prop}
    (hlists : ListsValid record.memberships record.primaryIdentityPubkey)
    (hbounded : Bounded safe record) : validBefore record.toJs = true := by
  have horigins : optional (boundedArray capOrigins fun o => (validContactOrigin o).isSome)
      (record.toJs.get "origins") = true :=
    optional_optToJs fun os hos => boundedArray_listToJs
      (fun o => by rw [validContactOrigin_toJs]; rfl)
      (by have h := hbounded.origins; rw [hos] at h; exact h)
  have hchecks : optional (boundedArray capChecks fun c => (validContactCheck c).isSome)
      (record.toJs.get "checks") = true :=
    optional_optToJs fun cs hcs => boundedArray_listToJs
      (fun c => by rw [validContactCheck_toJs]; rfl)
      (by have h := hbounded.checks; rw [hcs] at h; exact h)
  have hmerged : optional (fun ids => (isArrayOf (isHex 32) ids).isSome)
      (record.toJs.get "mergedContactIds") = true :=
    optional_optToJs fun ids _ => by rw [listToJs, isArrayOf_toJs isHex_toJs]; rfl
  have hcontexts : optional (everyFact isSharedContext) (record.toJs.get "sharedContexts") = true :=
    optional_optToJs fun cs _ => everyFact_listToJs (fun _ => rfl) isSharedContext_toJs cs
  have hshares : optional (everyFact isShareSent) (record.toJs.get "sharesSent") = true :=
    optional_optToJs fun ss _ => everyFact_listToJs (fun _ => rfl) isShareSent_toJs ss
  unfold validBefore
  rw [validContactLists_toJs hlists, horigins, hchecks, hmerged, hcontexts, hshares]
  rfl

/-! ## Introductions -/

section
variable [Platform]

theorem isIntroduction_toJs (i : AppContactIntroduction) : isIntroduction i.toJs = .ok true := by
  have hvalid : validIntroduction i.toJs = some i.toAppContactIntroductionValue := by
    change (do
      guard (isObj i.toJs)
      let grantId ← isHex 32 i.grantId.toJs
      let ownerIdentityPubkey ← isHex 64 i.ownerIdentityPubkey.toJs
      let pubkey ← isHex 64 i.pubkey.toJs
      let displayName ← isStr capName i.displayName.toJs
      let appName ← isOpt (isStr capName) (optToJs Str.toJs i.appName)
      some (AppContactIntroductionValue.mk grantId ownerIdentityPubkey pubkey displayName appName))
      = _
    simp only [isHex_toJs, isStr_toJs, isOpt_str]
    rfl
  have hstatus : stringOf (StringUnion.toJs i.status) = .ok (lit (StringUnion.name i.status)) := rfl
  have hmem : lit (StringUnion.name i.status) ∈ [lit "pending", lit "accepted", lit "rejected"] := by
    cases i.status <;> decide
  have hclock : (isLamportClock (.ofNat i.logicalClock.val)).isSome = true := by
    unfold isLamportClock
    rw [isNonNegativeInt_ofNat]
    exact (congrArg Option.isSome (dif_pos i.logicalClock.property)).trans rfl
  unfold isIntroduction
  rw [hvalid]
  change (do
    let status ← stringOf (StringUnion.toJs i.status)
    pure (decide (status ∈ [lit "pending", lit "accepted", lit "rejected"])
      && (isBool (.bool i.restricted)).isSome && (isLamportClock (.ofNat i.logicalClock.val)).isSome
      && (isTimestamp i.createdAt.toJs).isSome)) = Except.ok true
  rw [hstatus]
  change Except.ok (decide (_ ∈ _) && true && _ && _) = Except.ok true
  rw [hclock, decide_eq_true hmem, isTimestamp_toJs]
  rfl

theorem allM_introductions (is : List AppContactIntroduction) :
    (is.map AppContactIntroduction.toJs).allM
      (fun el => if isObj el then isIntroduction el else pure false) = .ok true := by
  induction is with
  | nil => rfl
  | cons i is ih =>
    rw [List.map_cons, List.allM]
    change (do
      match ← isIntroduction i.toJs with
      | true => (is.map AppContactIntroduction.toJs).allM fun el =>
          if isObj el then isIntroduction el else pure false
      | false => pure false) = Except.ok true
    rw [isIntroduction_toJs]
    exact ih

variable {record : ContactRecord}

theorem validIntroductions_toJs (h : (record.introductions.map fun i => i.grantId).Nodup) :
    validIntroductions (record.toJs.get "appIntroductions") = .ok true := by
  change validIntroductions
    (optToJs (listToJs AppContactIntroduction.toJs) record.appIntroductions) = _
  cases hi : record.appIntroductions with
  | none => rfl
  | some is =>
    have hnodup : ((is.map AppContactIntroduction.toJs).map fun el => el.get "grantId").Nodup := by
      have hgrants : (is.map AppContactIntroduction.toJs).map (fun el => el.get "grantId")
          = (is.map fun i => i.grantId).map Hex.toJs := by
        rw [List.map_map, List.map_map]
        rfl
      rw [hgrants]
      rw [ContactRecord.introductions, hi] at h
      exact h.map Hex.toJs_injective
    change (do
      let every ← (is.map AppContactIntroduction.toJs).allM
        fun el => if isObj el then isIntroduction el else pure false
      pure (every && decide _)) = _
    rw [allM_introductions, decide_eq_true hnodup]
    rfl

/-! ## The record -/

theorem validAfter_toJs
    (hbounded : Bounded (fun p => (validPicturePointer (.obj p.props)).isSome = true) record) :
    validAfter record.toJs = true := by
  have hdirectory : (isStr 120 record.directoryId.toJs).isSome = true := by
    rw [DirectoryId.toJs, isStr, dif_pos (length_text_le _)]
    rfl
  have hrole : optional isActorRole
      (optToJs StringUnion.toJs record.tierSetByActorRole) = true :=
    optional_optToJs fun r _ => by rw [isActorRole, parse_toJs]; rfl
  have hremovedAt : optional isNumber (optToJs Timestamp.toJs record.removedAt) = true :=
    optional_optToJs fun _ _ => rfl
  have harchived : optional (fun b => (isBool b).isSome) (optToJs .bool record.archived) = true :=
    optional_optToJs fun _ _ => rfl
  have hnotes : optional (fun n => (isText capNote n).isSome) (optToJs Text.toJs record.notes)
      = true := optional_optToJs fun n _ => by rw [isText_toJs]; rfl
  have hpicture : optional (fun p => (validPicturePointer p).isSome)
      (optToJs (fun p : ContactPicturePointer => .obj p.props) record.picture) = true :=
    optional_optToJs hbounded.picture
  have hroles : (isRoles (rolesToJs record.roles)).isSome = true := by
    rw [isRoles_toJs hbounded.roles]
    rfl
  have hidentities := everyFact_listToJs (fun _ => rfl) isIdentityItem_toJs record.identities
  have hmethods := everyFact_listToJs (fun _ => rfl) isMethodItem_toJs record.contactMethods
  have hvouches := everyFact_listToJs (fun _ => rfl) isVouchFact_toJs record.vouches
  have hceilings := everyFact_listToJs (fun _ => rfl) isCeilingFact_toJs record.ceilings
  have hblocks := everyFact_listToJs (fun _ => rfl) isBlockFact_toJs record.blocks
  change ((isStr 120 record.directoryId.toJs).isSome
    && isHex32 record.contactId.toJs
    && isContactType (StringUnion.toJs record.type)
    && (isText capName record.displayName.toJs).isSome
    && isTier (StringUnion.toJs record.tier)
    && optional isActorRole (optToJs StringUnion.toJs record.tierSetByActorRole)
    && (isRoles (rolesToJs record.roles)).isSome
    && everyFact isIdentityItem (listToJs ContactIdentity.toJs record.identities)
    && everyFact isMethodItem (listToJs ContactMethod.toJs record.contactMethods)
    && everyFact (fun _ => true) (.arr [])
    && isRecordLifecycle (StringUnion.toJs record.lifecycle)
    && isNumber record.createdAt.toJs
    && isNumber record.updatedAt.toJs
    && optional isNumber (optToJs Timestamp.toJs record.removedAt)
    && optional (fun b => (isBool b).isSome) (optToJs .bool record.archived)
    && isActorRole (StringUnion.toJs record.createdByActorRole)
    && isHex32 record.createdByOperationId.toJs
    && everyFact isVouchFact (listToJs GuardianVouch.toJs record.vouches)
    && everyFact isCeilingFact (listToJs GuardianCeiling.toJs record.ceilings)
    && everyFact isBlockFact (listToJs BlockFact.toJs record.blocks)
    && optional (fun n => (isText capNote n).isSome) (optToJs Text.toJs record.notes)
    && optional (fun p => (validPicturePointer p).isSome)
      (optToJs (fun p : ContactPicturePointer => .obj p.props) record.picture)) = true
  rw [hdirectory, hrole, hremovedAt, harchived, hnotes, hpicture, hroles, hidentities, hmethods,
    hvouches, hceilings, hblocks]
  simp [isHex32, isContactType, isTier, isRecordLifecycle, isActorRole, isNumber, everyFact]

theorem validateRecord_toJs (hlists : ListsValid record.memberships record.primaryIdentityPubkey)
    (hbounded : Bounded (fun p => (validPicturePointer (.obj p.props)).isSome = true) record) :
    validateRecord record.toJs = .ok true := by
  have hobj : (isObj record.toJs && validBefore record.toJs) = true := by
    rw [validBefore_toJs hlists hbounded]
    rfl
  unfold validateRecord
  rw [if_pos hobj, validIntroductions_toJs hbounded.introductions, validAfter_toJs hbounded]
  rfl

end

end SignetApp.Contacts
