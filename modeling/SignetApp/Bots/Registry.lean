import SignetApp.Collections.Keyed
import SignetApp.Contacts.Sanitize
import SignetApp.Sync.Payload

/-!
# The bot registry

`bot-registry.ts`: the check of a registry, what is told of it to other devices, and the merge. A
registry is what `JSON.parse` returns at its type; other values are refused before.
-/

namespace SignetApp.Bots

open SignetApp.Js SignetApp.Sync
open SignetApp.Contacts (sanitizeDisplayName)

/-! ## The record -/

structure NostrEvent where
  id : JsString
  pubkey : JsString
  created_at : ℚ
  kind : ℚ
  tags : List (List JsString)
  content : JsString
  sig : JsString
  deriving DecidableEq

structure BotOwnershipState where
  event : NostrEvent
  publishRequested : Bool
  publishedEventId : Option JsString
  lastAttemptAt : Option ℚ
  deriving DecidableEq

inductive BotSource where
  | derived | generated | imported
  deriving DecidableEq

instance : StringUnion BotSource where
  members := [.derived, .generated, .imported]
  name | .derived => "derived" | .generated => "generated" | .imported => "imported"

structure BotRecord where
  publicKey : JsString
  ownerPersona : JsString
  label : JsString
  source : BotSource
  derivationName : Option JsString
  /-- On this device only. -/
  privateKey : Option JsString
  ownership : Option BotOwnershipState
  hidden : Bool
  createdAt : ℚ
  updatedAt : ℚ
  removedAt : Option ℚ
  deriving DecidableEq

structure BotRegistry where
  ownerRoot : JsString
  bots : List BotRecord
  /-- Never used again, though the creation may have failed. -/
  allocated : List JsString
  showNew : Bool
  preferenceUpdatedAt : ℚ
  deriving DecidableEq

def empty (ownerRoot : JsString) : BotRegistry where
  ownerRoot := ownerRoot
  bots := []
  allocated := []
  showNew := true
  preferenceUpdatedAt := 0

/-! ## As JSON -/

def property {α : Type} (name : String) (toJs : α → JsValue) (v : Option α) : JsObject :=
  v.toList.map fun a => (name, toJs a)

def numberToJs (q : ℚ) : JsValue := .num (.finite q)

def NostrEvent.toJs (e : NostrEvent) : JsValue :=
  .obj [("id", .str e.id), ("pubkey", .str e.pubkey), ("created_at", numberToJs e.created_at),
    ("kind", numberToJs e.kind), ("tags", .arr (e.tags.map fun tag => .arr (tag.map .str))),
    ("content", .str e.content), ("sig", .str e.sig)]

def BotOwnershipState.toJs (claim : BotOwnershipState) : JsValue :=
  .obj ([("event", claim.event.toJs), ("publishRequested", .bool claim.publishRequested)]
    ++ property "publishedEventId" .str claim.publishedEventId
    ++ property "lastAttemptAt" numberToJs claim.lastAttemptAt)

def BotRecord.toJs (bot : BotRecord) : JsValue :=
  .obj ([("publicKey", .str bot.publicKey), ("ownerPersona", .str bot.ownerPersona),
      ("label", .str bot.label), ("source", StringUnion.toJs bot.source)]
    ++ property "derivationName" .str bot.derivationName
    ++ property "privateKey" .str bot.privateKey
    ++ property "ownership" BotOwnershipState.toJs bot.ownership
    ++ [("hidden", .bool bot.hidden), ("createdAt", numberToJs bot.createdAt),
      ("updatedAt", numberToJs bot.updatedAt)]
    ++ property "removedAt" numberToJs bot.removedAt)

def BotRegistry.toJs (r : BotRegistry) : JsValue :=
  .obj [("v", .ofNat 1), ("ownerRoot", .str r.ownerRoot), ("bots", .arr (r.bots.map BotRecord.toJs)),
    ("allocated", .arr (r.allocated.map .str)), ("showNew", .bool r.showNew),
    ("preferenceUpdatedAt", numberToJs r.preferenceUpdatedAt)]

/-! ## The check -/

/-- `verifyEvent` and `getPublicKey` of `nostr-tools`. -/
class Keys where
  verifyEvent : NostrEvent → Bool
  getPublicKey : JsString → JsString

def maxRegistryText : ℕ := 1024 * 1024
def maxBots : ℕ := 128
def maxAllocated : ℕ := 4096
def maxLabel : ℕ := 100
def maxEventText : ℕ := 8192
def maxEventTags : ℕ := 16

/-- The names that are given out end before this number. -/
def tokenEnd : ℕ := 0x7fffffff

def isStamp (q : ℚ) : Bool := q.den = 1 && decide (0 ≤ q ∧ q ≤ maxSafeInteger)

/-- `Number(name.slice(4))`, of a name that passes `token`. -/
def tokenNumber (name : JsString) : ℕ := digitsValue 10 (name.drop 4)

def token (v : JsString) : Bool :=
  match (lit "bot-").isPrefixOf? v with
  | none => false
  | some digits =>
    !digits.isEmpty && digits.all isDigit && (digits == [unit '0'] || digits.head? != some (unit '0'))
      && decide (digitsValue 10 digits < tokenEnd)

section

variable [Platform] [Keys]

def textLength (v : JsValue) : ℕ := (jsonText v).length

/-- The tag is there once, and says what it must. -/
def hasOneTag (event : NostrEvent) (tag expected : JsString) : Bool :=
  match event.tags.filter fun row => row.head? = some tag with
  | [row] => row[1]? = some expected
  | _ => false

def BotOwnershipState.valid (bot : BotRecord) (claim : BotOwnershipState) : Bool :=
  decide (textLength claim.event.toJs ≤ maxEventText) && claim.event.kind = 31000
    && claim.event.pubkey = bot.ownerPersona && decide (claim.event.tags.length ≤ maxEventTags)
    && Keys.verifyEvent claim.event && claim.publishedEventId.all (isHexOf 64)
    && claim.lastAttemptAt.all isStamp
    && hasOneTag claim.event (lit "d") (lit "bot-ownership:" ++ bot.publicKey)
    && hasOneTag claim.event (lit "type") (lit "bot-ownership")
    && hasOneTag claim.event (lit "p") bot.publicKey

def BotRecord.valid (ownerRoot : JsString) (allocated : List JsString) (bot : BotRecord) : Bool :=
  isHexOf 64 bot.publicKey && isHexOf 64 bot.ownerPersona && bot.ownerPersona != ownerRoot
    && bot.ownerPersona != bot.publicKey && !(trim bot.label).isEmpty
    && decide (bot.label.length ≤ maxLabel) && isStamp bot.createdAt && isStamp bot.updatedAt
    && decide (bot.createdAt ≤ bot.updatedAt)
    && bot.removedAt.all (fun t => isStamp t && decide (bot.createdAt ≤ t))
    && (if bot.source = .derived then
        bot.derivationName.any (fun name => token name && allocated.contains name)
          && bot.privateKey.isNone
      else bot.derivationName.isNone)
    && bot.privateKey.all (fun key => isHexOf 64 key && Keys.getPublicKey key = bot.publicKey)
    && bot.ownership.all fun claim => claim.valid bot

/-- `bot.label = sanitizeDisplayName(bot.label, 100)`. -/
def BotRecord.clean (bot : BotRecord) : BotRecord :=
  { bot with label := sanitizeDisplayName bot.label maxLabel }

/-- `none` when it throws. -/
def parseBotRegistry (data : BotRegistry) (ownerRoot : JsString) : Option BotRegistry :=
  if isHexOf 64 ownerRoot = false then none
  else if textLength data.toJs > maxRegistryText then none
  else if data.ownerRoot ≠ ownerRoot ∨ data.bots.length > maxBots
      ∨ data.allocated.length > maxAllocated ∨ data.allocated.all token = false
      ∨ ¬ data.allocated.Nodup ∨ ¬ (data.bots.map BotRecord.publicKey).Nodup
      ∨ isStamp data.preferenceUpdatedAt = false then none
  else if data.bots.all (fun bot => bot.valid ownerRoot data.allocated) = false
      ∨ ¬ (data.bots.filterMap BotRecord.derivationName).Nodup then none
  else if data.bots.any (fun bot => (trim bot.clean.label).isEmpty) then none
  else some { data with bots := data.bots.map BotRecord.clean }

/-! ## What other devices are told -/

def byPublicKey (bots : List BotRecord) : List BotRecord :=
  bots.insertionSort fun a b => a.publicKey ≤ b.publicKey

def BotRecord.snapshot (bot : BotRecord) : BotRecord :=
  { bot with
    privateKey := none
    derivationName := bot.derivationName.filter (· ≠ [])
    ownership := bot.ownership.map fun claim =>
      { claim with publishedEventId := claim.publishedEventId.filter (· ≠ []) } }

/-- Never a key. -/
def botRegistrySnapshot (registry : BotRegistry) : BotRegistry :=
  { registry with
    allocated := registry.allocated.insertionSort (· ≤ ·)
    bots := byPublicKey (registry.bots.map BotRecord.snapshot) }

/-! ## The merge -/

/-- `Math.max(a ?? 0, b ?? 0)`, where either is there. -/
def latest : Option ℚ → Option ℚ → Option ℚ
  | none, none => none
  | a, b => some (max (a.getD 0) (b.getD 0))

def mergeBotOwnership : Option BotOwnershipState → Option BotOwnershipState →
    Option BotOwnershipState
  | none, b => b
  | some a, none => some a
  | some a, some b =>
    let selected := if b.event.created_at > a.event.created_at
      ∨ (b.event.created_at = a.event.created_at ∧ b.event.id < a.event.id) then b else a
    some {
      event := selected.event
      publishRequested := a.publishRequested || b.publishRequested
      publishedEventId :=
        if a.publishedEventId = some selected.event.id ∨ b.publishedEventId = some selected.event.id then
          some selected.event.id
        else none
      lastAttemptAt := latest a.lastAttemptAt b.lastAttemptAt }

/-- `JSON.stringify([bot.label, bot.hidden])`. -/
def choiceText (bot : BotRecord) : JsString := jsonText (.arr [.str bot.label, .bool bot.hidden])

def conflicts (old incoming : BotRecord) : Bool :=
  old.ownerPersona ≠ incoming.ownerPersona || old.source ≠ incoming.source
    || old.derivationName ≠ incoming.derivationName || old.createdAt ≠ incoming.createdAt

/-- Two records of one bot. -/
def mergeBot (old incoming : BotRecord) : BotRecord :=
  let selected := if incoming.updatedAt > old.updatedAt
    ∨ (incoming.updatedAt = old.updatedAt ∧ choiceText incoming < choiceText old) then incoming
    else old
  { selected with
    ownership := mergeBotOwnership old.ownership incoming.ownership
    privateKey := if old.removedAt = none ∧ incoming.removedAt = none then old.privateKey else none
    removedAt := latest old.removedAt incoming.removedAt }

/-- One pass of the loop over the remote bots. -/
def mergeStep (bots : OrderedMap JsString BotRecord) (incoming : BotRecord) :
    Option (OrderedMap JsString BotRecord) :=
  if incoming.privateKey.isSome then none
  else match bots.get incoming.publicKey with
    | none => some (bots.set incoming.publicKey incoming)
    | some old =>
      if conflicts old incoming then none
      else some (bots.set incoming.publicKey (mergeBot old incoming))

/-- The registry that is checked at the end. -/
def mergedData (locals remote : BotRegistry) : Option BotRegistry := do
  let bots ← remote.bots.foldlM mergeStep (byKey BotRecord.publicKey locals.bots)
  let newerPreference := remote.preferenceUpdatedAt > locals.preferenceUpdatedAt
    ∨ (remote.preferenceUpdatedAt = locals.preferenceUpdatedAt ∧ remote.showNew = false)
  pure { locals with
    bots := byPublicKey bots.values
    allocated := (distinct (locals.allocated ++ remote.allocated)).insertionSort (· ≤ ·)
    showNew := if newerPreference then remote.showNew else locals.showNew
    preferenceUpdatedAt := max locals.preferenceUpdatedAt remote.preferenceUpdatedAt }

/-- `none` when it throws. -/
def mergeBotRegistry (locals remote : BotRegistry) : Option BotRegistry :=
  if locals.ownerRoot ≠ remote.ownerRoot then none
  else (mergedData locals remote).bind fun data => parseBotRegistry data locals.ownerRoot

end

end SignetApp.Bots
