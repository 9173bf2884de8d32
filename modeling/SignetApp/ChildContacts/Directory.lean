import SignetApp.Contacts.Membership
import SignetApp.Contacts.Sanitize
import SignetApp.Family.ChildContactSettings

/-!
# A child's contact directory

`child-contact-directory.ts`: the read-only list of contacts that a guardian sends to a child's phone, its
text, and how two versions of it are merged.
-/

namespace SignetApp.ChildContacts

open SignetApp.Js SignetApp.Sync
open SignetApp.Contacts (ContactTier ContactCeilingTier ContactRecord EffectiveContact DirectoryId Hex32 Hex64
  resolveEffective contactBelongsToList sanitizeDisplayName)
open SignetApp.Family.ChildContact (ChildSettings)

/-- Seconds that a directory is good for. -/
def ttl : ℕ := 900

def maxBytes : ℕ := 48000

def maxTime : ℕ := 253402300799

structure ChildDirectoryEntry where
  id : Hex32
  name : JsString
  tier : ContactTier
  identities : List Hex64
  lists : List Hex64
  deriving DecidableEq

structure ChildContactDirectory where
  guardian : Hex64
  recipient : Hex64
  revision : ℕ
  issuedAt : ℕ
  expiresAt : ℕ
  conflicted : Bool
  personas : List Hex64
  entries : List ChildDirectoryEntry
  deriving DecidableEq

/-! ## Values -/

def keysToJs (ks : List Hex64) : JsValue := .arr (ks.map Hex.toJs)

def ChildDirectoryEntry.toJs (e : ChildDirectoryEntry) : JsValue :=
  .obj [("id", e.id.toJs), ("name", .str e.name), ("tier", StringUnion.toJs e.tier),
    ("identities", keysToJs e.identities), ("lists", keysToJs e.lists)]

def ChildContactDirectory.toJs (d : ChildContactDirectory) : JsValue :=
  .obj [("v", .ofNat 1), ("guardian", d.guardian.toJs), ("recipient", d.recipient.toJs),
    ("revision", .ofNat d.revision), ("issuedAt", .ofNat d.issuedAt), ("expiresAt", .ofNat d.expiresAt),
    ("conflicted", .bool d.conflicted), ("personas", keysToJs d.personas),
    ("entries", .arr (d.entries.map ChildDirectoryEntry.toJs))]

/-! ## Reading -/

/-- `time`. -/
def isTime (v : JsValue) : Option ℕ := (isBoundedNat maxTime v).map (·.val)

/-- `keys`: at most so many, none of them twice. -/
def keys (v : JsValue) (max : ℕ) : Option (List Hex64) :=
  (isArrayOf (isHex 64) v).filter fun ks => decide (ks.length ≤ max ∧ ks.Nodup)

def sorted (ks : List Hex64) : List Hex64 := ks.insertionSort (· ≤ ·)

/-- A name that cleaning leaves as it is. -/
def cleanName : JsValue → Option JsString
  | .str s => if s = sanitizeDisplayName s 200 then some s else none
  | _ => none

def entryOf (personas : List Hex64) (v : JsValue) : Option ChildDirectoryEntry := do
  let id ← isHex 32 (v.get "id")
  let name ← cleanName (v.get "name")
  let tier ← StringUnion.parse (v.get "tier")
  let identities ← keys (v.get "identities") 32
  guard (identities ≠ [])
  let lists ← keys (v.get "lists") 32
  guard (lists ≠ [] ∧ lists.all personas.contains = true)
  pure ⟨id, name, tier, sorted identities, sorted lists⟩

def directoryOf (v : JsValue) : Option ChildContactDirectory := do
  guard (v.get "v" = .ofNat 1)
  let guardian ← isHex 64 (v.get "guardian")
  let recipient ← isHex 64 (v.get "recipient")
  let revision ← isTime (v.get "revision")
  let issuedAt ← isTime (v.get "issuedAt")
  let expiresAt ← isTime (v.get "expiresAt")
  guard (issuedAt < expiresAt ∧ expiresAt - issuedAt ≤ ttl)
  let conflicted ← isBool (v.get "conflicted")
  let personas ← keys (v.get "personas") 32
  let entries ← isArrayOf (entryOf personas) (v.get "entries")
  guard (entries.length ≤ 256 ∧ (entries.map ChildDirectoryEntry.id).Nodup)
  guard (conflicted = true → entries = [])
  pure ⟨guardian, recipient, revision, issuedAt, expiresAt, conflicted, sorted personas,
    entries.insertionSort fun a b => a.id ≤ b.id⟩

section

variable [Numerals]

def parseChildContactDirectory (raw : JsString) : Option ChildContactDirectory :=
  if maxBytes < utf8Length raw then none else (parse raw).bind directoryOf

/-! ## Projecting -/

/-- The directory's text has a tier that is not one of an entry's, for a contact that has none. -/
def projectedEntry (record : EffectiveContact) (identities lists : List Hex64) : JsValue :=
  .obj [("id", record.contactId.toJs), ("name", .str (sanitizeDisplayName record.displayName.val 200)),
    ("tier", StringUnion.toJs record.effectiveTier), ("identities", keysToJs identities),
    ("lists", keysToJs lists)]

def recordKeys (record : EffectiveContact) : List Hex64 :=
  record.identities.map fun i => i.pubkey

/-- Nobody who is blocked, whom a ceiling leaves nothing, or who is not there any more. -/
def shown (record : EffectiveContact) : Bool :=
  !record.blocked && record.effectiveTier ≠ .none && record.lifecycle = .active &&
    !record.archived.getD false && record.removedAt.isNone

def projectedDirectory (guardian recipient : Hex64) (revision now : ℕ) (conflicted : Bool)
    (personas : List Hex64) (entries : List JsValue) : JsValue :=
  .obj [("v", .ofNat 1), ("guardian", guardian.toJs), ("recipient", recipient.toJs),
    ("revision", .ofNat revision), ("issuedAt", .ofNat now), ("expiresAt", .ofNat (now + ttl)),
    ("conflicted", .bool conflicted), ("personas", keysToJs personas), ("entries", .arr entries)]

/-- The entry of a record, if it has one. -/
def entryFor (availablePersonas blockedPeers : List Hex64) (record : EffectiveContact) : Option JsValue :=
  if !shown record then none
  else
    let lists := availablePersonas.filter fun p => contactBelongsToList record.toContactRecord p
    let identities := (distinct (recordKeys record)).filter fun p => !blockedPeers.contains p
    if lists = [] ∨ identities = [] then none else some (projectedEntry record identities lists)

/-- The records as the directory's guardian sees them. -/
def effectiveRecords (guardian : Hex64) (settings : Option ChildSettings) (records : List ContactRecord) :
    List EffectiveContact :=
  records.map fun record => resolveEffective record {
    directoryIsDependant := true
    activeGuardianPubkeys := [guardian]
    defaultChildCeiling := settings.elim .ken fun settings => settings.defaultChildCeiling }

/-- A blocked key is not to reappear through another record. -/
def blockedPeers (effective : List EffectiveContact) : List Hex64 :=
  (effective.filter fun record => record.blocked).flatMap recordKeys

structure ProjectionScope where
  child : JsString
  guardian : JsString
  recipient : JsString
  availablePersonas : List JsString
  settings : Option ChildSettings
  records : List ContactRecord

/-- `none` where it throws. -/
def projectChildContactDirectory (s : ProjectionScope) (revision now : ℕ) : Option ChildContactDirectory := do
  let child ← isHex 64 (.str s.child)
  let guardian ← isHex 64 (.str s.guardian)
  let recipient ← isHex 64 (.str s.recipient)
  let personas ← keys (.arr (s.availablePersonas.map .str)) 32
  guard (now ≤ maxTime ∧ revision ≤ maxTime)
  guard (∀ settings ∈ s.settings, settings.childPubkey = child ∧ settings.guardianPubkey = guardian)
  guard (∀ record ∈ s.records, record.directoryId = .dependant child)
  let effective := effectiveRecords guardian s.settings s.records
  let conflicted := s.settings.any fun settings => settings.contactPolicyConflicted
  let entries := if conflicted then [] else effective.filterMap (entryFor personas (blockedPeers effective))
  parseChildContactDirectory
    (jsonText (projectedDirectory guardian recipient revision now conflicted personas entries))

/-! ## Merging -/

/-- `none` where it throws. -/
def mergeChildContactDirectory (previous : Option ChildContactDirectory) (incoming : ChildContactDirectory) :
    Option ChildContactDirectory := do
  let next ← parseChildContactDirectory (jsonText incoming.toJs)
  match previous with
  | none => pure next
  | some previous =>
    let old ← parseChildContactDirectory (jsonText previous.toJs)
    guard (old.guardian = next.guardian ∧ old.recipient = next.recipient)
    if next.revision < old.revision then pure old
    else if old.revision < next.revision then pure next
    else if jsonText old.toJs = jsonText next.toJs then pure old
    else
      pure { old with
        issuedAt := min old.issuedAt next.issuedAt
        expiresAt := min old.expiresAt next.expiresAt
        conflicted := true
        personas := old.personas.filter next.personas.contains
        entries := [] }

/-! ## Sealing -/

/-- What `sealChildContactDirectory` sends: the directory, under the time it was issued at. -/
structure SealedDirectory where
  createdAt : ℕ
  view : ChildContactDirectory
  deriving DecidableEq

/-- `none` where it throws before anything is encrypted. -/
def sealChildContactDirectory (view : ChildContactDirectory) : Option SealedDirectory :=
  (parseChildContactDirectory (jsonText view.toJs)).map fun parsed => ⟨parsed.issuedAt, parsed⟩

end

end SignetApp.ChildContacts
