import SignetApp.Js.Guards
import SignetApp.Js.SafeUrl
import SignetApp.Contacts.Types

/-!
# Operation guards

`contacts-v2-reducer.ts`, `validateValue` and `validateOperation`, with `validContactOrigin` and
`validContactCheck`: an untyped row either becomes a `ContactOperation` or is refused. A refusal is
a value, never an exception, with one exception: `add-identity` converts `linkedFromItemId` with
`String`, which raises on an object that carries a property named `toString`.
-/

namespace SignetApp.Contacts

open SignetApp.Js

/-! ## Action names -/

/-- The union of action names. -/
inductive ActionName where
  | add | rename | setTier | setRoles | addIdentity | updateIdentity
  | addMethod | updateMethod | removeItem | evidence | vouch | revokeVouch
  | ceiling | revokeCeiling | block | unblock | setLifecycle | archive
  | remove | keyLink | note | setPicture | clearPicture | linkList | unlinkList
  | appProposeList | reviewAppList | receiveShare | recordShare
  | recordCheck | removeCheck | recordOrigin | removeOrigin
  deriving DecidableEq

instance : StringUnion ActionName where
  members := [
    .add, .rename, .setTier, .setRoles, .addIdentity, .updateIdentity,
    .addMethod, .updateMethod, .removeItem, .evidence, .vouch, .revokeVouch,
    .ceiling, .revokeCeiling, .block, .unblock, .setLifecycle, .archive,
    .remove, .keyLink, .note, .setPicture, .clearPicture, .linkList, .unlinkList,
    .appProposeList, .reviewAppList, .receiveShare, .recordShare,
    .recordCheck, .removeCheck, .recordOrigin, .removeOrigin]
  name
    | .add => "add" | .rename => "rename" | .setTier => "set-tier" | .setRoles => "set-roles"
    | .addIdentity => "add-identity" | .updateIdentity => "update-identity"
    | .addMethod => "add-method" | .updateMethod => "update-method"
    | .removeItem => "remove-item" | .evidence => "evidence" | .vouch => "vouch"
    | .revokeVouch => "revoke-vouch" | .ceiling => "ceiling" | .revokeCeiling => "revoke-ceiling"
    | .block => "block" | .unblock => "unblock" | .setLifecycle => "set-lifecycle"
    | .archive => "archive" | .remove => "remove" | .keyLink => "key-link" | .note => "note"
    | .setPicture => "set-picture" | .clearPicture => "clear-picture"
    | .linkList => "link-list" | .unlinkList => "unlink-list"
    | .appProposeList => "app-propose-list" | .reviewAppList => "review-app-list"
    | .receiveShare => "receive-share" | .recordShare => "record-share"
    | .recordCheck => "record-check" | .removeCheck => "remove-check"
    | .recordOrigin => "record-origin" | .removeOrigin => "remove-origin"

/-- `APP_ALLOWED_ACTIONS`: an app may only add material it is proposing. -/
def appAllowedActions : List ActionName := [.add, .addIdentity, .addMethod, .appProposeList]

/-! ## Directory ids -/

/-- `DIRECTORY_ID.test(s)`, with what it recognised. -/
def DirectoryId.ofText (s : JsString) : Option DirectoryId :=
  if s = lit "owner" then some .owner
  else if s = lit "bots" then some .bots
  else if s = lit "quarantine" then some .quarantine
  else if (lit "dependant:").isPrefixOf s then (isHex 64 (.str (s.drop 10))).map .dependant
  else none

def isDirectoryId : JsValue → Option DirectoryId
  | .str s => DirectoryId.ofText s
  | _ => none

/-! ## Values -/

/-- `/^[0-9a-f]{1,128}$/`. -/
def isSharedSecret : JsValue → Option JsString
  | .str s => if 1 ≤ s.length ∧ s.length ≤ 128 ∧ s.all isHexDigit then some s else none
  | _ => none

abbrev capBondAssertionBytes : ℕ := 4096

/-- At most `capRoles` roles. -/
def isRoles (v : JsValue) : Option Roles := do
  let roles ← isArrayOf (isStr capRole) v
  if h : roles.length ≤ capRoles then some ⟨roles, h⟩ else none

def isScope (v : JsValue) : Option BlockScope :=
  if !isObj v then none
  else if v.get "kind" = .ofLit "contact" then some .contact
  else if v.get "kind" = .ofLit "identity" then (isHex 32 (v.get "itemId")).map .identity
  else none

def validIntroduction (v : JsValue) : Option AppContactIntroductionValue := do
  guard (isObj v)
  let grantId ← isHex 32 (v.get "grantId")
  let ownerIdentityPubkey ← isHex 64 (v.get "ownerIdentityPubkey")
  let pubkey ← isHex 64 (v.get "pubkey")
  let displayName ← isStr capName (v.get "displayName")
  let appName ← isOpt (isStr capName) (v.get "appName")
  some { grantId, ownerIdentityPubkey, pubkey, displayName, appName }

/-- One element of `checks` in a shared context. -/
def validSharedCheck (c : JsValue) : Option SharedCheck := do
  let pubkey ← isHex 64 (c.get "pubkey")
  let verification ← StringUnion.parse (c.get "verification")
  let verifiedAt ← isOpt isTimestamp (c.get "verifiedAt")
  some { pubkey, verification, verifiedAt }

/-- One element of `checkRecords` in a shared context. -/
def validSharedCheckRecord (c : JsValue) : Option SharedCheckRecord := do
  let pubkey ← isHex 64 (c.get "pubkey")
  let method ← StringUnion.parse (c.get "method")
  let checkedAt ← isBoundedNat maxSafeInteger (c.get "checkedAt")
  some { pubkey, method, checkedAt }

/-- `Array.isArray(v) && v.length <= 128 && everyElement(v, …)`. -/
def validSharedCheckRecords (v : JsValue) :
    Option { l : List SharedCheckRecord // l.length ≤ 128 } := do
  let records ← everyElement validSharedCheckRecord v
  if h : records.length ≤ 128 then some ⟨records, h⟩ else none

def validSharedContext (v : JsValue) : Option SharedContactContextValue := do
  guard (isObj v)
  let guardianPubkey ← isHex 64 (v.get "guardianPubkey")
  let tier ← isOpt StringUnion.parse (v.get "tier")
  let blocked ← isOpt isBool (v.get "blocked")
  let checkRecords ← isOpt validSharedCheckRecords (v.get "checkRecords")
  let checks ← isOpt (everyElement validSharedCheck) (v.get "checks")
  some { guardianPubkey, tier, blocked, checks, checkRecords }

/-- `validContactOrigin`. An array passes its first test, and has none of the properties. -/
def validContactOrigin (v : JsValue) : Option ContactOrigin := do
  let id ← isHex 32 (v.get "id")
  let ownerIdentityPubkey ← isHex 64 (v.get "ownerIdentityPubkey")
  let method ← StringUnion.parse (v.get "method")
  let addedAt ← isBoundedNat maxCheckTime (v.get "addedAt")
  let inviteId ← isOpt (isHex 32) (v.get "inviteId")
  let inviteName ← isOpt (isText capOriginText) (v.get "inviteName")
  let caption ← isOpt (isText capOriginText) (v.get "caption")
  let appName ← isOpt (isText capOriginText) (v.get "appName")
  some { id, ownerIdentityPubkey, method, addedAt, inviteId, inviteName, caption, appName }

def validContactCheck (v : JsValue) : Option ContactCheck := do
  let id ← isHex 32 (v.get "id")
  let identityPubkey ← isHex 64 (v.get "identityPubkey")
  let ownerIdentityPubkey ← isHex 64 (v.get "ownerIdentityPubkey")
  let method ← StringUnion.parse (v.get "method")
  let checkedAt ← isBoundedNat maxCheckTime (v.get "checkedAt")
  let source ← isOpt StringUnion.parse (v.get "source")
  let evidence ← isOpt (isText capEvidence) (v.get "evidence")
  some { id, identityPubkey, ownerIdentityPubkey, method, checkedAt, source, evidence }

/-- `tier`, `role` and the guardian of a `vouch`. -/
def vouchValue (v : JsValue) : Option ContactAction := do
  let guardianPubkey ← isHex 64 (v.get "guardianPubkey")
  let tier ← StringUnion.parse (v.get "tier")
  let role ← isOpt (isStr capRole) (v.get "role")
  some (.vouch guardianPubkey tier role)

def addValue (v : JsValue) : Option ContactAction := do
  let type ← StringUnion.parse (v.get "type")
  let displayName ← isStr capName (v.get "displayName")
  let tier ← StringUnion.parse (v.get "tier")
  let roles ← isOpt isRoles (v.get "roles")
  let lifecycle ← isOpt StringUnion.parse (v.get "lifecycle")
  let ownerIdentityPubkey ← isOpt (isHex 64) (v.get "ownerIdentityPubkey")
  let appIntroduction ← isOpt validIntroduction (v.get "appIntroduction")
  some (.add { type, displayName, tier, roles, lifecycle, ownerIdentityPubkey, appIntroduction })

def addMethodValue (v : JsValue) : Option ContactAction := do
  let itemId ← isHex 32 (v.get "itemId")
  let kind ← StringUnion.parse (v.get "kind")
  let value ← isStr capMethodValue (v.get "value")
  let label ← isOpt (isStr capLabel) (v.get "label")
  let verification ← StringUnion.parse (v.get "verification")
  let sharingPolicy ← StringUnion.parse (v.get "sharingPolicy")
  some (.addMethod { itemId, kind, label, value, verification, sharingPolicy })

def updateMethodValue (v : JsValue) : Option ContactAction := do
  let itemId ← isHex 32 (v.get "itemId")
  let label ← isOpt (isStr capLabel) (v.get "label")
  let value ← isOpt (isStr capMethodValue) (v.get "value")
  let verification ← isOpt StringUnion.parse (v.get "verification")
  let sharingPolicy ← isOpt StringUnion.parse (v.get "sharingPolicy")
  some (.updateMethod { itemId, label, value, verification, sharingPolicy })

def keyLinkValue (v : JsValue) : Option ContactAction := do
  let itemId ← isHex 32 (v.get "itemId")
  let pubkey ← isHex 64 (v.get "pubkey")
  -- The label is checked and then dropped.
  let _ ← isOpt (isStr capLabel) (v.get "label")
  let linkedFromItemId ← isHex 32 (v.get "linkedFromItemId")
  some (.keyLink { itemId, pubkey, linkedFromItemId })

section
variable [Platform]

/-- A plain object that serialises to at most `cap` characters of JSON. -/
def isBoundedObject (cap : ℕ) (v : JsValue) : Option JsValue :=
  if isObj v ∧ (jsonLength v).getD 0 ≤ cap then some v else none

def isDirect (v : JsValue) : Option ContactDirectEvidence := do
  guard (isObj v)
  let ownerPubkey ← isHex 64 (v.get "ownerPubkey")
  let verifiedAt ← isFinite (v.get "verifiedAt")
  let sharedSecret ← isOpt isSharedSecret (v.get "sharedSecret")
  let groupId ← isOpt (isStr capLabel) (v.get "groupId")
  let isDefaultForGroup ← isOpt isBool (v.get "isDefaultForGroup")
  let bondAssertion ← isOpt (isBoundedObject capBondAssertionBytes) (v.get "bondAssertion")
  some { ownerPubkey, sharedSecret, verifiedAt, bondAssertion, groupId, isDefaultForGroup }

/-- The tests of an `add-identity` that come before its `linkedFromItemId`. -/
def addIdentityValue (v : JsValue) : Option AddIdentityValue := do
  let itemId ← isHex 32 (v.get "itemId")
  let pubkey ← isHex 64 (v.get "pubkey")
  let label ← isOpt (isStr capLabel) (v.get "label")
  let provenance ← StringUnion.parse (v.get "provenance")
  let verification ← StringUnion.parse (v.get "verification")
  let direct ← isOpt isDirect (v.get "direct")
  some { itemId, pubkey, label, provenance, verification, direct }

/-- `v === undefined || HEX32.test(String(v))`: the conversion may raise. -/
def linkedFrom (v : JsValue) : Except JsError (Option (Option LinkedFrom)) :=
  if v = .undefined then pure (some none)
  else do
    let text ← stringOf v
    if isHexOf 32 text then
      match isHex 32 v with
      | some id => pure (some (some (.item id)))
      | none => pure (some (some (.other v)))
    else pure none

def updateIdentityValue (v : JsValue) : Option UpdateIdentityValue := do
  let itemId ← isHex 32 (v.get "itemId")
  let label ← isOpt (isStr capLabel) (v.get "label")
  let verification ← isOpt StringUnion.parse (v.get "verification")
  let direct ← isOpt isDirect (v.get "direct")
  some { itemId, label, verification, direct }

abbrev pictureFields : List String := ["server", "hash", "key", "plainHash"]

/-- The server of a picture pointer. -/
def isPictureServer (v : JsValue) : Option (Str capPictureServer) := do
  let server ← isStr capPictureServer v
  guard ((lit "https://").isPrefixOf server.val ∧ isSafeBlossomBase server.val)
  some server

/-- `validPicturePointer`: the exact field set, and an https server that passes the guard. -/
def validPicturePointer (v : JsValue) : Option ContactPicturePointer := do
  guard (isObj v)
  guard (v.keys.length = pictureFields.length ∧ ∀ k ∈ pictureFields, k ∈ v.keys)
  let server ← isPictureServer (v.get "server")
  let hash ← isHex 64 (v.get "hash")
  let key ← isHex 64 (v.get "key")
  let plainHash ← isHex 64 (v.get "plainHash")
  some { server, hash, key, plainHash }

/-! ## `validateValue` -/

/-- The action-specific value guard of every action but `add-identity`. All want an object; for
`record-origin` and `record-check`, whose own guards are laxer, that test stands in
`validateOperation`. -/
def validatePureValue (action : ActionName) (v : JsValue) (targetOperationId : Option Hex32) :
    Option ContactAction := do
  guard (isObj v)
  match action with
  | .add => addValue v
  | .appProposeList => (validIntroduction v).map .appProposeList
  | .receiveShare => (validSharedContext v).map .receiveShare
  | .recordShare => do
    let directoryId ← isDirectoryId (v.get "directoryId")
    let contactId ← isHex 32 (v.get "contactId")
    some (.recordShare directoryId contactId)
  | .reviewAppList => do
    let grantId ← isHex 32 (v.get "grantId")
    let accept ← isBool (v.get "accept")
    some (.reviewAppList grantId accept)
  | .linkList => (isHex 64 (v.get "ownerIdentityPubkey")).map .linkList
  | .unlinkList => (isHex 64 (v.get "ownerIdentityPubkey")).map .unlinkList
  | .recordOrigin => (validContactOrigin v).map .recordOrigin
  | .removeOrigin => (isHex 32 (v.get "id")).map .removeOrigin
  | .recordCheck => (validContactCheck v).map .recordCheck
  | .removeCheck => (isHex 32 (v.get "id")).map .removeCheck
  | .rename => (isStr capName (v.get "displayName")).map .rename
  | .setTier => (StringUnion.parse (v.get "tier")).map .setTier
  | .setRoles => (isRoles (v.get "roles")).map .setRoles
  | .addIdentity => none
  | .keyLink => keyLinkValue v
  | .updateIdentity => (updateIdentityValue v).map .updateIdentity
  | .evidence => (updateIdentityValue v).map .evidence
  | .addMethod => addMethodValue v
  | .updateMethod => updateMethodValue v
  | .removeItem => (isHex 32 (v.get "itemId")).map .removeItem
  | .vouch => vouchValue v
  | .revokeVouch => targetOperationId.map fun _ => .revokeVouch
  | .ceiling => do
    let guardianPubkey ← isHex 64 (v.get "guardianPubkey")
    let maxTier ← StringUnion.parse (v.get "maxTier")
    some (.ceiling guardianPubkey maxTier)
  | .revokeCeiling => (isHex 64 (v.get "guardianPubkey")).map .revokeCeiling
  | .block => do
    let scope ← isScope (v.get "scope")
    let reason ← isOpt (isStr capReason) (v.get "reason")
    some (.block scope reason)
  | .unblock => targetOperationId.map fun _ => .unblock
  | .setLifecycle => (StringUnion.parse (v.get "lifecycle")).map .setLifecycle
  | .note => (isText capNote (v.get "note")).map .note
  | .setPicture => (validPicturePointer v).map .setPicture
  | .clearPicture => if v.keys.length = 0 then some .clearPicture else none
  | .remove => some .remove
  | .archive => some .archive

def validateValue (action : ActionName) (v : JsValue) (targetOperationId : Option Hex32) :
    Except JsError (Option ContactAction) :=
  if action = .addIdentity then
    match (guard (isObj v) : Option Unit) *> addIdentityValue v with
    | none => pure none
    | some value => do
      let linked ← linkedFrom (v.get "linkedFromItemId")
      pure (linked.map fun linkedFromItemId => .addIdentity { value with linkedFromItemId })
  else pure (validatePureValue action v targetOperationId)

/-! ## `validateOperation` -/

/-- The fields of an operation around its value. -/
structure OperationHeader where
  ownerIdentityPubkey : Option Hex64
  operationId : Hex32
  directoryId : DirectoryId
  contactId : Hex32
  itemId : Option Hex32
  actorPubkey : Hex64
  actorRole : ContactActorRole
  actorDeviceId : Hex32
  logicalClock : LamportClock
  createdAt : Timestamp
  targetOperationId : Option Hex32
  action : ActionName

def OperationHeader.withAction (h : OperationHeader) (action : ContactAction) : ContactOperation :=
  { ownerIdentityPubkey := h.ownerIdentityPubkey, operationId := h.operationId
    directoryId := h.directoryId, contactId := h.contactId, itemId := h.itemId
    actorPubkey := h.actorPubkey, actorRole := h.actorRole, actorDeviceId := h.actorDeviceId
    logicalClock := h.logicalClock, action, targetOperationId := h.targetOperationId
    createdAt := h.createdAt }

/-- An integer that is at least `1`. -/
def isLamportClock (v : JsValue) : Option LamportClock := do
  let n ← isNonNegativeInt v
  if h : 1 ≤ n then some ⟨n, h⟩ else none

def validateHeader (op : JsValue) : Option OperationHeader := do
  guard (isObj op)
  let ownerIdentityPubkey ← isOpt (isHex 64) (op.get "ownerIdentityPubkey")
  let operationId ← isHex 32 (op.get "operationId")
  let directoryId ← isDirectoryId (op.get "directoryId")
  let contactId ← isHex 32 (op.get "contactId")
  let itemId ← isOpt (isHex 32) (op.get "itemId")
  let actorPubkey ← isHex 64 (op.get "actorPubkey")
  let actorRole ← StringUnion.parse (op.get "actorRole")
  let actorDeviceId ← isHex 32 (op.get "actorDeviceId")
  let logicalClock ← isLamportClock (op.get "logicalClock")
  let createdAt ← isTimestamp (op.get "createdAt")
  let targetOperationId ← isOpt (isHex 32) (op.get "targetOperationId")
  let action ← StringUnion.parse (op.get "action")
  some {
    ownerIdentityPubkey, operationId, directoryId, contactId, itemId, actorPubkey, actorRole,
    actorDeviceId, logicalClock, createdAt, targetOperationId, action }

/-- Who may author what, and whose name the value may carry. -/
def permitted (op : JsValue) (h : OperationHeader) : Bool :=
  let value := op.get "value"
  (h.actorRole ≠ .app || h.action ∈ appAllowedActions)
    -- A picture pointer makes every device that reads it fetch from its server.
    && (h.actorRole ≠ .dependant || h.action ∉ [.setPicture, .clearPicture])
    && (h.actorRole ≠ .app || h.action ≠ .add || !isObj value
      || value.get "ownerIdentityPubkey" = .undefined)
    && (h.action ∉ [.recordCheck, .recordOrigin] || (isObj value
      && op.get "ownerIdentityPubkey" = value.get "ownerIdentityPubkey"))
    -- A block's author is the operation's actor.
    && (h.action ≠ .block || value.get "blockedBy" = .undefined
      || value.get "blockedBy" = op.get "actorPubkey")

/-- **The full structural guard.** An operation that fails this is never applied. -/
def validateOperation (op : JsValue) : Except JsError (Option ContactOperation) :=
  match validateHeader op with
  | none => pure none
  | some header =>
    if permitted op header then do
      let action ← validateValue header.action (op.get "value") header.targetOperationId
      pure (action.map header.withAction)
    else pure none

end

end SignetApp.Contacts
