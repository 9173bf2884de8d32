import SignetApp.Collections.Keyed
import SignetApp.Collections.Newest
import SignetApp.Contacts.Sanitize
import SignetApp.Sync.Payload

/-!
# The registry of app grants

`types/contacts-grants-v2.ts` and the reading half of `contacts-v2-grants-rail.ts`: what a grant
holds, how a backup of the registry is parsed, and how it is merged into the local registry.

A grant's rail key is fresh randomness, so the rail is a backup that must never cost a device a
key it has: a merge reconciles, it never deletes.
-/

namespace SignetApp.Apps

open SignetApp.Js SignetApp.Contacts
open SignetApp.Sync (asObject)

/-- What the rail takes from the contacts SDK. Every result holds for any SDK. -/
class ContactsSdk where
  maxAppLabel : ℕ
  maxAppName : ℕ
  maxCapabilities : ℕ
  /-- Is the text a capability the SDK knows? -/
  isCapability : JsString → Bool
  /-- The known capabilities of a list, each once, in their canonical order. -/
  normaliseCapabilities : List JsString → List JsString
  /-- The staleness window nearest to the one asked for. -/
  clampStaleness : ℚ → ℚ

/-! ## Grants -/

abbrev contactGrantV2Cap : ℕ := 10
abbrev maxAppLabelsPerGrant : ℕ := 16
abbrev maxRelayLen : ℕ := 256

/-- One app-local rename, with the clock of the proposal that made it. -/
structure AppLabelEntry where
  label : JsString
  updatedAt : ℚ
  deriving DecidableEq

abbrev AppLabels := OrderedMap JsString AppLabelEntry

inductive PublishState where
  | ok | truncated | failed
  deriving DecidableEq

/-- What rides the wire for one grant. -/
@[ext]
structure WireGrantV2 where
  grantId : JsString
  directoryId : JsString
  /-- Missing on retired vault-wide grants. -/
  ownerIdentityPubkey : Option JsString := none
  appPubkey : JsString
  createdAt : ℚ
  /-- The rail's last-writer-wins key. -/
  updatedAt : ℚ
  appName : JsString
  capabilities : List JsString
  railPubkey : JsString
  /-- A secret; empty where this device does not have it. -/
  railPrivateKey : JsString
  relay : JsString
  maxStalenessSeconds : ℚ
  autoAcceptInvites : Option Bool := none
  /-- A revoked row is kept for audit. -/
  revokedAt : Option ℚ := none
  appLabels : AppLabels := .empty
  deriving DecidableEq

/-- A grant in the local registry: on top of the wire, what this device last did. -/
@[ext]
structure AppGrantV2 extends WireGrantV2 where
  seenOperationIds : List JsString := []
  lastProjectionHash : Option JsString := none
  lastProjectionAt : Option ℚ := none
  lastPublishState : Option PublishState := none
  deriving DecidableEq

structure GrantsRailPayload where
  createdAt : ℕ
  grants : List WireGrantV2

/-! ## Parsing -/

/-- `typeof v === 'object' && v !== null`. -/
def isObject : JsValue → Bool
  | .obj _ | .arr _ => true
  | _ => false

/-- `typeof v === 'string'`. -/
def isString : JsValue → Option JsString
  | .str s => some s
  | _ => none

/-- `Array.isArray(v)`. -/
def isArray : JsValue → Option (List JsValue)
  | .arr elems => some elems
  | _ => none

/-- `DIRECTORY_ID`: `/^(owner|quarantine|dependant:[0-9a-f]{64})$/`. -/
def isDirectoryId (s : JsString) : Bool :=
  s = lit "owner" || s = lit "quarantine"
    || (stripLit "dependant:" s).any (isHexOf 64)

/-- `/^wss:\/\//i` or `/^ws:\/\/(localhost|127\.0\.0\.1)([:\/]|$)/i`. -/
def isValidRelayUrl (url : JsString) : Bool :=
  let url := toLowerCase url
  (stripLit "wss://" url).isSome
    || ["ws://localhost", "ws://127.0.0.1"].any fun host =>
      (stripLit host url).any fun rest => rest.head?.all fun u => u = unit ':' || u = unit '/'

/-- `HEX64.test(s)`. -/
def isUsableKey (s : JsString) : Bool := isHexOf 64 s

/-- `capLabelCount`: the latest labels, at most `limit` of them. -/
def capLabelCount (labels : AppLabels) (limit : ℕ) : AppLabels :=
  labels.newest AppLabelEntry.updatedAt limit

/-- An optional text as a truth value. -/
def truthy (s : Option JsString) : Option JsString := s.filter fun s => s ≠ []

section
variable [ContactsSdk]

/-- One entry of a label table off the wire. -/
def parseAppLabel (key : JsString) (entry : JsValue) : Option (JsString × AppLabelEntry) := do
  guard (isHexOf 32 key)
  guard (isObject entry)
  let label ← isString (entry.get "label")
  let updatedAt ← isNonNegativeInt (entry.get "updatedAt")
  some (key, { label := sanitizeDisplayName label ContactsSdk.maxAppLabel, updatedAt })

/-- The valid entries are collected first, then capped. -/
def parseAppLabels (value : JsValue) : AppLabels :=
  let entries := value.keys.filterMap fun name => parseAppLabel (lit name) (value.get name)
  capLabelCount (entries.foldl (fun m e => m.set e.1 e.2) .empty) maxAppLabelsPerGrant

/-- `typeof v === 'string' && (v === '' || HEX64.test(v))`. -/
def isRailPrivateKey (v : JsValue) : Option JsString :=
  (isString v).filter fun s => s = [] || isUsableKey s

/-- A relay on the wire: bounded, and of an admitted scheme. -/
def isRelay (v : JsValue) : Option JsString :=
  (isString v).filter fun s => s.length ≤ maxRelayLen && isValidRelayUrl s

/-- `value.filter(isCapability)`. -/
def knownCapabilities (values : List JsValue) : List JsString :=
  (values.filterMap isString).filter ContactsSdk.isCapability

/-- A malformed field drops the whole grant. -/
def parseWireGrant (g : JsValue) : Option WireGrantV2 := do
  guard (isObject g)
  let grantId ← isHex 32 (g.get "grantId")
  let directoryId ← (isString (g.get "directoryId")).filter isDirectoryId
  let ownerIdentityPubkey ← isOpt (isHex 64) (g.get "ownerIdentityPubkey")
  let appPubkey ← isHex 64 (g.get "appPubkey")
  let createdAt ← isNonNegativeInt (g.get "createdAt")
  let updatedAt ← isNonNegativeInt (g.get "updatedAt")
  let appName ← isString (g.get "appName")
  let capabilities ← isArray (g.get "capabilities")
  let railPubkey ← isHex 64 (g.get "railPubkey")
  let railPrivateKey ← isRailPrivateKey (g.get "railPrivateKey")
  let relay ← isRelay (g.get "relay")
  let maxStalenessSeconds ← isNonNegativeInt (g.get "maxStalenessSeconds")
  let autoAcceptInvites ← isOpt isBool (g.get "autoAcceptInvites")
  let revokedAt ← isOpt isNonNegativeInt (g.get "revokedAt")
  some {
    grantId := grantId.val
    directoryId
    ownerIdentityPubkey := ownerIdentityPubkey.map (·.val)
    appPubkey := toLowerCase appPubkey.val
    createdAt
    updatedAt
    appName := sanitizeDisplayName appName ContactsSdk.maxAppName
    capabilities := (ContactsSdk.normaliseCapabilities (knownCapabilities capabilities)).take
      ContactsSdk.maxCapabilities
    railPubkey := toLowerCase railPubkey.val
    railPrivateKey := toLowerCase railPrivateKey
    relay
    maxStalenessSeconds := ContactsSdk.clampStaleness maxStalenessSeconds
    autoAcceptInvites
    revokedAt := revokedAt.map fun (at_ : ℕ) => (at_ : ℚ)
    appLabels := parseAppLabels (g.get "appLabels") }

/-- One candidate of a payload: the grants read so far and how many of them are active. -/
def readGrant (acc : List WireGrantV2 × ℕ) (candidate : JsValue) : List WireGrantV2 × ℕ :=
  match parseWireGrant candidate with
  | none => acc
  | some parsed =>
    if parsed.revokedAt.isSome then (acc.1 ++ [parsed], acc.2)
    else if contactGrantV2Cap ≤ acc.2 then acc
    else (acc.1 ++ [parsed], acc.2 + 1)

/-- Active grants are capped; revoked rows are not. -/
def parseGrantsPayload [Numerals] (raw : JsString) : Option GrantsRailPayload := do
  let obj ← asObject raw
  guard (obj.get "v" = .ofNat 2 ∧ obj.get "kind" = .ofLit "grants")
  let createdAt ← isNonNegativeInt (obj.get "createdAt")
  let candidates ← isArray (obj.get "grants")
  some { createdAt, grants := (candidates.foldl readGrant ([], 0)).1 }

end

/-! ## Merging -/

/-- `undefined` loses to any number, otherwise the smaller wins. -/
def earlierDefined : Option ℚ → Option ℚ → Option ℚ
  | none, b => b
  | some a, none => some a
  | some a, some b => some (min a b)

/-- Labels joined by scoped id: the later entry wins, ties keep the local one. -/
def mergeAppLabels (locals remotes : AppLabels) : AppLabels :=
  capLabelCount (locals.absorb AppLabelEntry.updatedAt remotes) maxAppLabelsPerGrant

/-- A remote-only grant is adopted when it is active and carries a usable rail key. -/
def fromWireOnly (remote : WireGrantV2) : Option AppGrantV2 :=
  if remote.revokedAt.isSome then none
  else if !isUsableKey remote.railPrivateKey then none
  else some { remote with seenOperationIds := [] }

/-- Both sides name an identity list, and not the same one. -/
def scopesDiffer (l : AppGrantV2) (r : WireGrantV2) : Bool :=
  (truthy l.ownerIdentityPubkey).isSome && (truthy r.ownerIdentityPubkey).isSome
    && l.ownerIdentityPubkey != r.ownerIdentityPubkey

/-- The last writer. -/
def base (l : AppGrantV2) (r : WireGrantV2) : WireGrantV2 :=
  if l.updatedAt < r.updatedAt then r else l.toWireGrantV2

/-- The side both rail keys are taken from: the last writer, unless its key is unusable. -/
def keySource (l : AppGrantV2) (r : WireGrantV2) : WireGrantV2 :=
  let (winnerSide, otherSide) :=
    if l.updatedAt < r.updatedAt then (r, l.toWireGrantV2) else (l.toWireGrantV2, r)
  if isUsableKey winnerSide.railPrivateKey then winnerSide else otherSide

/-- On a tie, a side that narrowed the permission wins. -/
def mergedAutoAccept (l : AppGrantV2) (r : WireGrantV2) : Option Bool :=
  if l.updatedAt = r.updatedAt ∧ (l.autoAcceptInvites = some false ∨ r.autoAcceptInvites = some false)
  then some false
  else (base l r).autoAcceptInvites

/-- The merged row. -/
def combine (l : AppGrantV2) (r : WireGrantV2) : AppGrantV2 where
  grantId := l.grantId
  directoryId := (base l r).directoryId
  ownerIdentityPubkey := truthy (base l r).ownerIdentityPubkey
  appPubkey := (base l r).appPubkey
  createdAt := l.createdAt
  updatedAt := (base l r).updatedAt
  appName := (base l r).appName
  capabilities := (base l r).capabilities
  autoAcceptInvites := mergedAutoAccept l r
  railPubkey := (keySource l r).railPubkey
  railPrivateKey := (keySource l r).railPrivateKey
  relay := (base l r).relay
  maxStalenessSeconds := (base l r).maxStalenessSeconds
  revokedAt := earlierDefined l.revokedAt r.revokedAt
  appLabels := mergeAppLabels l.appLabels r.appLabels
  -- What this device did stays its own.
  seenOperationIds := l.seenOperationIds
  lastProjectionHash := l.lastProjectionHash
  lastProjectionAt := l.lastProjectionAt
  lastPublishState := l.lastPublishState

/-- One grant known to both sides; `none` when neither has a usable rail key. -/
def mergeOne (l : AppGrantV2) (r : WireGrantV2) : Option AppGrantV2 :=
  -- Re-scoping is a new consent decision: the old grant can only be disabled.
  if scopesDiffer l r then some { l with revokedAt := earlierDefined l.revokedAt r.revokedAt }
  else if isUsableKey (keySource l r).railPrivateKey then some (combine l r)
  else none

structure GrantMergeResult where
  grants : List AppGrantV2
  /-- How many active remote grants were turned away at the cap. -/
  skippedRemote : ℕ
  deriving DecidableEq

/-- A local row merged with its remote twin, if there is one. -/
def mergeRow (remoteById : OrderedMap JsString WireGrantV2) (l : AppGrantV2) : AppGrantV2 :=
  match remoteById.get l.grantId with
  | some r => (mergeOne l r).getD l
  | none => l

/-- The state of the adoption loop. -/
structure Adoption where
  out : List AppGrantV2
  active : ℕ
  skippedRemote : ℕ

/-- One remote-only grant. -/
def adopt (s : Adoption) (r : WireGrantV2) : Adoption :=
  match fromWireOnly r with
  | none => s
  | some fresh =>
    if contactGrantV2Cap ≤ s.active then { s with skippedRemote := s.skippedRemote + 1 }
    else { s with active := s.active + 1, out := s.out ++ [fresh] }

/-- Is the grant in force? -/
def AppGrantV2.isActive (g : AppGrantV2) : Bool := g.revokedAt.isNone

/-- The active grants only the remote has, most recently updated first. -/
def remoteOnly (locals : List AppGrantV2) (remotes : List WireGrantV2) : List WireGrantV2 :=
  let localById := byKey (fun g : AppGrantV2 => g.grantId) locals
  (remotes.filter fun r => !localById.has r.grantId && r.revokedAt.isNone).insertionSort
    fun a b => b.updatedAt ≤ a.updatedAt

/-- Every local row survives; active remote grants are adopted while the cap allows. -/
def mergeGrantRegistry (locals : List AppGrantV2) (remotes : List WireGrantV2) :
    GrantMergeResult :=
  let remoteById := byKey WireGrantV2.grantId remotes
  let out := locals.map (mergeRow remoteById)
  let s := (remoteOnly locals remotes).foldl adopt
    { out, active := out.countP AppGrantV2.isActive, skippedRemote := 0 }
  { grants := s.out, skippedRemote := s.skippedRemote }

end SignetApp.Apps
