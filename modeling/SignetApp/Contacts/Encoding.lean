import SignetApp.Contacts.Guards

/-!
# Operations and records as values

The objects the model's types stand for: what is stored, sent and read back. An absent optional
property is written `undefined`, which is how it reads.
-/

namespace SignetApp.Contacts

open SignetApp.Js

def DirectoryId.toJs (d : DirectoryId) : JsValue := .str d.text

/-! ## Values of actions -/

def ContactDirectEvidence.toJs (v : ContactDirectEvidence) : JsValue :=
  .obj [
    ("ownerPubkey", v.ownerPubkey.toJs),
    ("sharedSecret", optToJs .str v.sharedSecret),
    ("verifiedAt", .num (.finite v.verifiedAt)),
    ("bondAssertion", optToJs id v.bondAssertion),
    ("groupId", optToJs Str.toJs v.groupId),
    ("isDefaultForGroup", optToJs .bool v.isDefaultForGroup)]

def LinkedFrom.toJs : LinkedFrom → JsValue
  | .item id => id.toJs
  | .other v => v

def BlockScope.toJs : BlockScope → JsValue
  | .contact => .obj [("kind", .ofLit "contact")]
  | .identity itemId => .obj [("kind", .ofLit "identity"), ("itemId", itemId.toJs)]

def AppContactIntroductionValue.props (v : AppContactIntroductionValue) : JsObject := [
  ("grantId", v.grantId.toJs),
  ("ownerIdentityPubkey", v.ownerIdentityPubkey.toJs),
  ("pubkey", v.pubkey.toJs),
  ("displayName", v.displayName.toJs),
  ("appName", optToJs Str.toJs v.appName)]

def SharedCheck.toJs (c : SharedCheck) : JsValue :=
  .obj [
    ("pubkey", c.pubkey.toJs),
    ("verification", StringUnion.toJs c.verification),
    ("verifiedAt", optToJs Timestamp.toJs c.verifiedAt)]

def SharedCheckRecord.toJs (c : SharedCheckRecord) : JsValue :=
  .obj [
    ("pubkey", c.pubkey.toJs),
    ("method", StringUnion.toJs c.method),
    ("checkedAt", c.checkedAt.toJs)]

def SharedContactContextValue.props (v : SharedContactContextValue) : JsObject := [
  ("guardianPubkey", v.guardianPubkey.toJs),
  ("tier", optToJs StringUnion.toJs v.tier),
  ("blocked", optToJs .bool v.blocked),
  ("checks", optToJs (fun cs => .arr (cs.map SharedCheck.toJs)) v.checks),
  ("checkRecords",
    optToJs (fun cs => .arr (cs.val.map SharedCheckRecord.toJs)) v.checkRecords)]

def ContactOrigin.props (v : ContactOrigin) : JsObject := [
  ("id", v.id.toJs),
  ("ownerIdentityPubkey", v.ownerIdentityPubkey.toJs),
  ("method", StringUnion.toJs v.method),
  ("addedAt", v.addedAt.toJs),
  ("inviteId", optToJs Hex.toJs v.inviteId),
  ("inviteName", optToJs Text.toJs v.inviteName),
  ("caption", optToJs Text.toJs v.caption),
  ("appName", optToJs Text.toJs v.appName)]

def ContactCheck.props (v : ContactCheck) : JsObject := [
  ("id", v.id.toJs),
  ("identityPubkey", v.identityPubkey.toJs),
  ("ownerIdentityPubkey", v.ownerIdentityPubkey.toJs),
  ("method", StringUnion.toJs v.method),
  ("checkedAt", v.checkedAt.toJs),
  ("source", optToJs StringUnion.toJs v.source),
  ("evidence", optToJs Text.toJs v.evidence)]

def ContactPicturePointer.props (v : ContactPicturePointer) : JsObject := [
  ("server", v.server.toJs),
  ("hash", v.hash.toJs),
  ("key", v.key.toJs),
  ("plainHash", v.plainHash.toJs)]

def rolesToJs (roles : List (Str capRole)) : JsValue := .arr (roles.map Str.toJs)

def AddIdentityValue.props (v : AddIdentityValue) : JsObject := [
  ("itemId", v.itemId.toJs),
  ("pubkey", v.pubkey.toJs),
  ("label", optToJs Str.toJs v.label),
  ("provenance", StringUnion.toJs v.provenance),
  ("verification", StringUnion.toJs v.verification),
  ("direct", optToJs ContactDirectEvidence.toJs v.direct),
  ("linkedFromItemId", optToJs LinkedFrom.toJs v.linkedFromItemId)]

def UpdateIdentityValue.props (v : UpdateIdentityValue) : JsObject := [
  ("itemId", v.itemId.toJs),
  ("label", optToJs Str.toJs v.label),
  ("verification", optToJs StringUnion.toJs v.verification),
  ("direct", optToJs ContactDirectEvidence.toJs v.direct)]

def ContactAction.name : ContactAction → ActionName
  | .add _ => .add
  | .rename _ => .rename
  | .setTier _ => .setTier
  | .setRoles _ => .setRoles
  | .addIdentity _ => .addIdentity
  | .updateIdentity _ => .updateIdentity
  | .addMethod _ => .addMethod
  | .updateMethod _ => .updateMethod
  | .removeItem _ => .removeItem
  | .evidence _ => .evidence
  | .vouch _ _ _ => .vouch
  | .revokeVouch => .revokeVouch
  | .ceiling _ _ => .ceiling
  | .revokeCeiling _ => .revokeCeiling
  | .block _ _ => .block
  | .unblock => .unblock
  | .setLifecycle _ => .setLifecycle
  | .archive => .archive
  | .remove => .remove
  | .keyLink _ => .keyLink
  | .note _ => .note
  | .setPicture _ => .setPicture
  | .clearPicture => .clearPicture
  | .linkList _ => .linkList
  | .unlinkList _ => .unlinkList
  | .appProposeList _ => .appProposeList
  | .reviewAppList _ _ => .reviewAppList
  | .receiveShare _ => .receiveShare
  | .recordShare _ _ => .recordShare
  | .recordOrigin _ => .recordOrigin
  | .removeOrigin _ => .removeOrigin
  | .recordCheck _ => .recordCheck
  | .removeCheck _ => .removeCheck

def ContactAction.value : ContactAction → JsObject
  | .add v => [
      ("type", StringUnion.toJs v.type),
      ("displayName", v.displayName.toJs),
      ("tier", StringUnion.toJs v.tier),
      ("roles", optToJs (fun roles : Roles => rolesToJs roles.val) v.roles),
      ("lifecycle", optToJs StringUnion.toJs v.lifecycle),
      ("ownerIdentityPubkey", optToJs Hex.toJs v.ownerIdentityPubkey),
      ("appIntroduction", optToJs (fun i => .obj i.props) v.appIntroduction)]
  | .rename displayName => [("displayName", displayName.toJs)]
  | .setTier tier => [("tier", StringUnion.toJs tier)]
  | .setRoles roles => [("roles", rolesToJs roles.val)]
  | .addIdentity v => v.props
  | .updateIdentity v | .evidence v => v.props
  | .addMethod v => [
      ("itemId", v.itemId.toJs),
      ("kind", StringUnion.toJs v.kind),
      ("label", optToJs Str.toJs v.label),
      ("value", v.value.toJs),
      ("verification", StringUnion.toJs v.verification),
      ("sharingPolicy", StringUnion.toJs v.sharingPolicy)]
  | .updateMethod v => [
      ("itemId", v.itemId.toJs),
      ("label", optToJs Str.toJs v.label),
      ("value", optToJs Str.toJs v.value),
      ("verification", optToJs StringUnion.toJs v.verification),
      ("sharingPolicy", optToJs StringUnion.toJs v.sharingPolicy)]
  | .removeItem itemId => [("itemId", itemId.toJs)]
  | .vouch guardianPubkey tier role => [
      ("guardianPubkey", guardianPubkey.toJs),
      ("tier", StringUnion.toJs tier),
      ("role", optToJs Str.toJs role)]
  | .ceiling guardianPubkey maxTier => [
      ("guardianPubkey", guardianPubkey.toJs),
      ("maxTier", StringUnion.toJs maxTier)]
  | .revokeCeiling guardianPubkey => [("guardianPubkey", guardianPubkey.toJs)]
  | .block scope reason => [
      ("scope", scope.toJs),
      ("reason", optToJs Str.toJs reason)]
  | .setLifecycle lifecycle => [("lifecycle", StringUnion.toJs lifecycle)]
  | .keyLink v => [
      ("itemId", v.itemId.toJs),
      ("pubkey", v.pubkey.toJs),
      ("linkedFromItemId", v.linkedFromItemId.toJs)]
  | .note text => [("note", text.toJs)]
  | .setPicture v => v.props
  | .linkList owner | .unlinkList owner => [("ownerIdentityPubkey", owner.toJs)]
  | .appProposeList v => v.props
  | .reviewAppList grantId accept => [("grantId", grantId.toJs), ("accept", .bool accept)]
  | .receiveShare v => v.props
  | .recordShare directoryId contactId => [
      ("directoryId", directoryId.toJs),
      ("contactId", contactId.toJs)]
  | .recordOrigin v => v.props
  | .removeOrigin id | .removeCheck id => [("id", id.toJs)]
  | .recordCheck v => v.props
  | .revokeVouch | .unblock | .archive | .remove | .clearPicture => []

/-- An operation as a row of the log. -/
def ContactOperation.toJs (op : ContactOperation) : JsObject := [
  ("ownerIdentityPubkey", optToJs Hex.toJs op.ownerIdentityPubkey),
  ("operationId", op.operationId.toJs),
  ("directoryId", op.directoryId.toJs),
  ("contactId", op.contactId.toJs),
  ("itemId", optToJs Hex.toJs op.itemId),
  ("actorPubkey", op.actorPubkey.toJs),
  ("actorRole", StringUnion.toJs op.actorRole),
  ("actorDeviceId", op.actorDeviceId.toJs),
  ("logicalClock", .ofNat op.logicalClock.val),
  ("action", StringUnion.toJs op.action.name),
  ("targetOperationId", optToJs Hex.toJs op.targetOperationId),
  ("value", .obj op.action.value),
  ("createdAt", op.createdAt.toJs)]

end SignetApp.Contacts
