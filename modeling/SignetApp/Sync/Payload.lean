import SignetApp.Contacts.Clock
import SignetApp.Contacts.Validation
import SignetApp.Js.JsonRoundTrip

/-!
# Payloads of the contacts rail

`contacts-v2-sync.ts`: the four payload kinds, the tags they are published under, and the parsers
that read them back. A payload holds rows of the log, objects that passed `validateOperation`.
-/

namespace SignetApp.Sync

open SignetApp.Js SignetApp.Contacts

/-! ## Bounds -/

def maxOpsPerPayload : ℕ := 2000

def maxChunks : ℕ := 32

def maxCheckpointOps : ℕ := maxChunks * maxOpsPerPayload

def exceedsCheckpointCeiling (opCount : ℕ) : Bool := maxCheckpointOps < opCount

def maxDeviceIds : ℕ := 16

def outboxCheckpointThreshold : ℕ := 50

def checkpointMaxAgeMs : ℕ := 86400000

/-- `TOP_BUCKET`, in `vault-envelope.ts`. -/
def topBucket : ℕ := 65536

/-- `LENGTH_PREFIX_BYTES`, in `vault-envelope.ts`. -/
def lengthPrefixBytes : ℕ := 4

def maxChunkBodyBytes : ℕ := topBucket - lengthPrefixBytes

/-- How many bytes one code point takes in UTF-8, a lone surrogate being replaced. -/
def utf8PointLength : JsString → ℕ
  | [u] => if u < 0x80 then 1 else if u < 0x800 then 2 else 3
  | _ => 4

/-- `new TextEncoder().encode(s).length`. -/
def utf8Length (s : JsString) : ℕ := ((codePoints s).map utf8PointLength).sum

/-! ## Tags and digests -/

/-- The hash function: `bytesToHex(sha256(new TextEncoder().encode(s)))`. -/
class Sha256 where
  hex : JsString → Hex64

/-- A `d` tag. -/
abbrev Tag := Hex32

inductive TagKind where
  | checkpoint | outbox | chunk
  deriving DecidableEq

def TagKind.text : TagKind → JsString
  | .checkpoint => lit "checkpoint"
  | .outbox => lit "outbox"
  | .chunk => lit "chunk"

/-- `hash.slice(0, 32)`. -/
def tagOfHash (hash : Hex64) : Tag :=
  ⟨hash.val.take 32, by
    have h := hash.property
    simp only [isHexOf, Bool.and_eq_true, beq_iff_eq, List.all_eq_true] at h ⊢
    exact ⟨by rw [List.length_take, h.1]; rfl, fun u hu => h.2 u (List.mem_of_mem_take hu)⟩⟩

/-- The text a tag hashes; `extra` is left out when empty. -/
def tagText (authorPubkey : JsString) (kind : TagKind) (extra : JsString) : JsString :=
  lit "signet:contacts:v2:" ++ kind.text ++ lit ":" ++ toLowerCase authorPubkey
    ++ if extra = [] then [] else lit ":" ++ extra

section
variable [Sha256]

def tagFor (authorPubkey : JsString) (kind : TagKind) (extra : JsString) : Tag :=
  tagOfHash (Sha256.hex (tagText authorPubkey kind extra))

/-- The digest a manifest carries for one chunk. -/
def chunkDigest (plaintext : JsString) : Hex64 := Sha256.hex plaintext

end

/-- `${seq}:${index}`. -/
def chunkExtra [Platform] (seq index : ℕ) : JsString :=
  Platform.numberText seq ++ lit ":" ++ Platform.numberText index

/-! ## Payloads -/

/-- The operation frontier as it travels on the wire. -/
structure CheckpointFrontierWire where
  maxClock : ℕ
  opIds : List JsValue

structure OutboxPayload where
  deviceId : JsString
  baseFrontierMaxClock : ℕ
  ops : List RawOperation

structure CheckpointPayload where
  seq : ℕ
  createdAt : ℤ
  deviceIds : List JsString
  frontier : CheckpointFrontierWire
  ops : List RawOperation

structure CheckpointManifest where
  seq : ℕ
  chunkTags : List Tag
  chunkDigests : List Hex64
  opCount : ℕ
  frontier : CheckpointFrontierWire
  deviceIds : List JsString
  createdAt : ℤ

structure ChunkPayload where
  seq : ℕ
  index : ℕ
  ops : List RawOperation

/-! ### As objects -/

def opsToJs (ops : List RawOperation) : JsValue := .arr (ops.map .obj)

def idsToJs (ids : List JsString) : JsValue := .arr (ids.map .str)

def CheckpointFrontierWire.toJs (f : CheckpointFrontierWire) : JsValue :=
  .obj [("maxClock", .ofNat f.maxClock), ("opIds", .arr f.opIds)]

def OutboxPayload.toJs (p : OutboxPayload) : JsValue :=
  .obj [
    ("v", .ofNat 2),
    ("kind", .ofLit "outbox"),
    ("deviceId", .str p.deviceId),
    ("baseFrontierMaxClock", .ofNat p.baseFrontierMaxClock),
    ("ops", opsToJs p.ops)]

def CheckpointPayload.toJs (p : CheckpointPayload) : JsValue :=
  .obj [
    ("v", .ofNat 2),
    ("kind", .ofLit "checkpoint"),
    ("seq", .ofNat p.seq),
    ("createdAt", .num (.finite p.createdAt)),
    ("deviceIds", idsToJs p.deviceIds),
    ("frontier", p.frontier.toJs),
    ("ops", opsToJs p.ops)]

def CheckpointManifest.toJs (m : CheckpointManifest) : JsValue :=
  .obj [
    ("v", .ofNat 2),
    ("kind", .ofLit "checkpoint-manifest"),
    ("seq", .ofNat m.seq),
    ("chunkTags", .arr (m.chunkTags.map Hex.toJs)),
    ("chunkDigests", .arr (m.chunkDigests.map Hex.toJs)),
    ("opCount", .ofNat m.opCount),
    ("frontier", m.frontier.toJs),
    ("deviceIds", idsToJs m.deviceIds),
    ("createdAt", .num (.finite m.createdAt))]

def ChunkPayload.toJs (c : ChunkPayload) : JsValue :=
  .obj [
    ("v", .ofNat 2),
    ("kind", .ofLit "chunk"),
    ("seq", .ofNat c.seq),
    ("index", .ofNat c.index),
    ("ops", opsToJs c.ops)]

/-- `JSON.stringify(v)` of an object. -/
def jsonText [Platform] (v : JsValue) : JsString := (stringify v).getD []

/-! ## Parsers -/

section
variable [Numerals]

/-- A JSON text that denotes an object. -/
def asObject (raw : JsString) : Option JsValue :=
  (parse raw).bind fun v => if isObj v then some v else none

/-- The rows `validateOperation` accepts. -/
def validRows : List JsValue → Except JsError (List RawOperation)
  | [] => pure []
  | candidate :: rest => do
    let op ← validateOperation candidate
    let rows ← validRows rest
    match op, candidate with
    | some _, .obj row => pure (row :: rows)
    | _, _ => pure rows

/-- Bound, then validate: an over-cap list is refused whole, a malformed row is dropped. -/
def parseOps : JsValue → Except JsError (Option (List RawOperation))
  | .arr elems =>
    if maxOpsPerPayload < elems.length then pure none
    else do
      let rows ← validRows elems
      pure (some rows)
  | _ => pure none

/-- One more id of a list: a well-formed one is added once. -/
def addHexId (out : List JsString) : JsValue → List JsString
  | .str s => if isHexOf 32 s then insertNew out s else out
  | _ => out

/-- The well-formed ids of a list, each once. -/
def hexIds (elems : List JsValue) : List JsString := elems.foldl addHexId []

def parseDeviceIds : JsValue → Option (List JsString)
  | .arr elems => if maxDeviceIds < elems.length then none else some (hexIds elems)
  | _ => none

def parseFrontier (value : JsValue) : Option CheckpointFrontierWire := do
  guard (isObj value)
  let maxClock ← isNonNegativeInt (value.get "maxClock")
  match value.get "opIds" with
  | .arr elems =>
    if maxOpsPerPayload < elems.length then none
    else some { maxClock, opIds := (hexIds elems).map .str }
  | _ => none

/-- A payload of the given kind. -/
def ofKind (kind : String) (raw : JsString) : Option JsValue := do
  let p ← asObject raw
  guard (p.get "v" = .ofNat 2 ∧ p.get "kind" = .ofLit kind)
  some p

/-- The operations of a payload whose other fields were read. -/
def withOps {α : Type} (head : Option (JsValue × (List RawOperation → α))) :
    Except JsError (Option α) :=
  match head with
  | none => pure none
  | some (p, payload) => do
    let ops ← parseOps (p.get "ops")
    pure (ops.map payload)

def parseOutboxPayload (raw : JsString) : Except JsError (Option OutboxPayload) :=
  withOps do
    let p ← ofKind "outbox" raw
    let deviceId ← isHex 32 (p.get "deviceId")
    let baseFrontierMaxClock ← isNonNegativeInt (p.get "baseFrontierMaxClock")
    some (p, fun ops => { deviceId := deviceId.val, baseFrontierMaxClock, ops })

def parseCheckpointPayload (raw : JsString) : Except JsError (Option CheckpointPayload) :=
  withOps do
    let p ← ofKind "checkpoint" raw
    let seq ← isNonNegativeInt (p.get "seq")
    let createdAt ← isNonNegativeInt (p.get "createdAt")
    let deviceIds ← parseDeviceIds (p.get "deviceIds")
    let frontier ← parseFrontier (p.get "frontier")
    some (p, fun ops => { seq, createdAt := createdAt, deviceIds, frontier, ops })

def parseManifest (raw : JsString) : Option CheckpointManifest := do
  let p ← ofKind "checkpoint-manifest" raw
  let seq ← isNonNegativeInt (p.get "seq")
  let createdAt ← isNonNegativeInt (p.get "createdAt")
  let chunkTags ← isArrayOf (isHex 32) (p.get "chunkTags")
  guard (chunkTags ≠ [] ∧ chunkTags.length ≤ maxChunks)
  let chunkDigests ← isArrayOf (isHex 64) (p.get "chunkDigests")
  guard (chunkDigests.length = chunkTags.length)
  let opCount ← isNonNegativeInt (p.get "opCount")
  guard (opCount ≤ maxCheckpointOps)
  let deviceIds ← parseDeviceIds (p.get "deviceIds")
  let frontier ← parseFrontier (p.get "frontier")
  some {
    seq, chunkTags, chunkDigests, opCount, frontier, deviceIds, createdAt := createdAt }

def parseChunkPayload (raw : JsString) : Except JsError (Option ChunkPayload) :=
  withOps do
    let p ← ofKind "chunk" raw
    let seq ← isNonNegativeInt (p.get "seq")
    let index ← isNonNegativeInt (p.get "index")
    guard (index < maxChunks)
    some (p, fun ops => { seq, index, ops })

end

end SignetApp.Sync
