import SignetApp.Collections.Classes
import SignetApp.Collections.Replay
import SignetApp.Collections.UnionFind
import SignetApp.Contacts.Guards
import SignetApp.Contacts.Reducer

/-!
# The reducer, a whole log

`contacts-v2-reducer.ts`, `sortOperations` and `applyOperations`. A first pass replays the sorted
log one contact id at a time and finds out which ids were created concurrently for one key. When
there are none its records are the result. Otherwise a second pass replays the log again, with
every operation redirected to the first id of its group and every identity item to the first item
of its key.

`materialise` is `applyOperations` after its filter.
-/

namespace SignetApp.Contacts

open SignetApp.Js

/-! ## Order -/

/-- What operations are sorted by: clock, then actor, then operation id. -/
def sortKey (op : ContactOperation) : LamportClock ×ₗ Hex64 ×ₗ Hex32 :=
  toLex (op.logicalClock, toLex (op.actorPubkey, op.operationId))

/-- `a` sorts before `b`, or level with it. -/
def operationLE (a b : ContactOperation) : Prop := sortKey a ≤ sortKey b

instance : DecidableRel operationLE := fun a b => inferInstanceAs (Decidable (sortKey a ≤ sortKey b))

instance : Std.Total operationLE := ⟨fun a b => le_total (sortKey a) (sortKey b)⟩

instance : IsTrans ContactOperation operationLE := ⟨fun _ _ _ h h' => le_trans h h'⟩

/-- Deterministic total order. The sort is stable. -/
def sortOperations (ops : List ContactOperation) : List ContactOperation :=
  ops.insertionSort operationLE

/-! ## Rows -/

/-- A row of the sorted log: an operation, and whether it is the object `firstAdds` keeps for its
contact id. -/
structure LogRow where
  op : ContactOperation
  first : Bool
  deriving DecidableEq

/-- Mark the first `add` of each contact id; `seen` holds the ids that had theirs. -/
def markFirstAdds (seen : List RecordKey) : List ContactOperation → List LogRow
  | [] => []
  | op :: rest =>
    if op.action.isAdd ∧ recordKey op ∉ seen then
      ⟨op, true⟩ :: markFirstAdds (recordKey op :: seen) rest
    else ⟨op, false⟩ :: markFirstAdds seen rest

/-- The sorted log. -/
def logRows (ops : List ContactOperation) : List LogRow := markFirstAdds [] (sortOperations ops)

/-- The contact id a row names, before any redirection. -/
def LogRow.sourceKey (row : LogRow) : RecordKey := recordKey row.op

/-- `firstAdds.get(key)`. -/
def firstAddOf (rows : List LogRow) (key : RecordKey) : Option ContactOperation :=
  (rows.find? fun row => row.first && row.sourceKey = key).map LogRow.op

/-- The value of a row that is the first `add` of its contact id. -/
def LogRow.firstAdd (row : LogRow) : Option AddContactValue :=
  match row.op.action with
  | .add v => if row.first then some v else none
  | _ => none

/-! ## First pass -/

/-- The item and the key an `add-identity` or a `key-link` introduces. -/
def ContactAction.introduces : ContactAction → Option (Hex32 × Hex64)
  | .addIdentity v => some (v.itemId, v.pubkey)
  | .keyLink v => some (v.itemId, v.pubkey)
  | _ => none

/-- What the first pass keeps. -/
structure FirstPass where
  raw : OrderedMap RecordKey ContactRecord
  parent : Forest RecordKey
  /-- The records currently holding a key for aliasing, per directory. -/
  holders : OrderedMap (DirectoryId × Hex64) (List RecordKey)
  /-- The key and the record an identity item was introduced with, so that a `remove-item` that
  carries a remapped item id still finds its key. -/
  items : OrderedMap (DirectoryId × Hex32) (Hex64 × RecordKey)

namespace FirstPass

def start : FirstPass := ⟨.empty, .empty, .empty, .empty⟩

/-- The records holding a key. -/
def holdersOf (pass : FirstPass) (slot : DirectoryId × Hex64) : List RecordKey :=
  (pass.holders.get slot).getD []

/-- A record gains a key: it joins the group of every holder, and holds the key as well. -/
def gain (pass : FirstPass) (slot : DirectoryId × Hex64) (key : RecordKey) : FirstPass :=
  let current := pass.holdersOf slot
  { pass with
    parent := pass.parent.links key current
    holders := pass.holders.set slot (insertNew current key) }

/-- A key is dropped by every member of a record's group. -/
def release (pass : FirstPass) (slot : DirectoryId × Hex64) (key : RecordKey) : FirstPass :=
  match pass.holders.get slot with
  | none => pass
  | some current =>
    { pass with
      holders := pass.holders.set slot
        (current.filter fun holder => pass.parent.find holder ≠ pass.parent.find key) }

/-- The bookkeeping after an operation that applied, `next` being the record it left. -/
def follow (pass : FirstPass) (op : ContactOperation) (next : ContactRecord) : FirstPass :=
  let key := recordKey op
  match op.action.introduces with
  | some (itemId, pubkey) =>
    let pass := { pass with items := pass.items.set (op.directoryId, itemId) (pubkey, key) }
    if next.identities.any (fun i => i.pubkey = pubkey) then pass.gain (op.directoryId, pubkey) key
    else pass
  | none =>
    match op.action with
    | .removeItem itemId =>
      match pass.items.get (op.directoryId, itemId) with
      | some (pubkey, introducedBy) =>
        if pass.parent.find introducedBy = pass.parent.find key then
          pass.release (op.directoryId, pubkey) key
        else pass
      | none => pass
    | _ => pass

def step (pass : FirstPass) (op : ContactOperation) : FirstPass :=
  match applyOne (pass.raw.get (recordKey op)) op with
  | none => pass
  | some next => { pass with raw := pass.raw.set (recordKey op) next }.follow op next

end FirstPass

def firstPass (ops : List ContactOperation) : FirstPass := ops.foldl FirstPass.step .start

/-! ## Groups -/

/-- The record keys by the root of their class. -/
def FirstPass.groups (pass : FirstPass) : OrderedMap RecordKey (List RecordKey) :=
  classes pass.parent.find pass.raw.keys

/-- What the second pass reads: the canonical id of each contact id, the ids of each canonical id,
the item that stands for an introduced item, and the first `add` of each contact id. -/
structure MergeContext where
  aliases : OrderedMap RecordKey RecordKey
  grouped : OrderedMap RecordKey (List RecordKey)
  itemAliases : OrderedMap (RecordKey × Hex32) Hex32
  firstAdds : RecordKey → Option ContactOperation

/-- The item a key was first introduced with in each group, and what each introduced item stands
for. -/
structure ItemMaps where
  itemForPubkey : OrderedMap (RecordKey × Hex64) Hex32
  itemAliases : OrderedMap (RecordKey × Hex32) Hex32

def ItemMaps.step (aliases : OrderedMap RecordKey RecordKey) (maps : ItemMaps)
    (op : ContactOperation) : ItemMaps :=
  match op.action.introduces with
  | none => maps
  | some (itemId, pubkey) =>
    let source := recordKey op
    let key := (aliases.get source).getD source
    let item := (maps.itemForPubkey.get (key, pubkey)).getD itemId
    { itemForPubkey := maps.itemForPubkey.set (key, pubkey) item
      itemAliases := maps.itemAliases.set (source, itemId) item }

def itemMaps (aliases : OrderedMap RecordKey RecordKey) (ops : List ContactOperation) : ItemMaps :=
  ops.foldl (ItemMaps.step aliases) ⟨.empty, .empty⟩

/-- The first id of each group is canonical. -/
def mergeContext (groups : List (List RecordKey)) (rows : List LogRow) : MergeContext :=
  let aliases := leaders groups
  { aliases
    grouped := byLeader groups
    itemAliases := (itemMaps aliases (rows.map LogRow.op)).itemAliases
    firstAdds := firstAddOf rows }

namespace MergeContext

/-- The canonical id of a contact id. -/
def canonical (ctx : MergeContext) (key : RecordKey) : RecordKey := (ctx.aliases.get key).getD key

/-- The contact ids of a canonical id. -/
def group (ctx : MergeContext) (key : RecordKey) : List RecordKey := (ctx.grouped.get key).getD [key]

/-- The item that stands for an item id of a contact. -/
def remapItem (ctx : MergeContext) (sourceKey : RecordKey) (id : Hex32) : Hex32 :=
  (ctx.itemAliases.get (sourceKey, id)).getD id

end MergeContext

/-! ## Second pass -/

def LinkedFrom.mapItem (f : Hex32 → Hex32) : LinkedFrom → LinkedFrom
  | .item id => .item (f id)
  | .other v => .other v

def BlockScope.mapItem (f : Hex32 → Hex32) : BlockScope → BlockScope
  | .contact => .contact
  | .identity itemId => .identity (f itemId)

/-- Rewrite every item id an action's value carries. -/
def ContactAction.mapItems (f : Hex32 → Hex32) : ContactAction → ContactAction
  | .addIdentity v => .addIdentity { v with
      itemId := f v.itemId, linkedFromItemId := v.linkedFromItemId.map (LinkedFrom.mapItem f) }
  | .keyLink v => .keyLink { v with
      itemId := f v.itemId, linkedFromItemId := f v.linkedFromItemId }
  | .updateIdentity v => .updateIdentity { v with itemId := f v.itemId }
  | .evidence v => .evidence { v with itemId := f v.itemId }
  | .addMethod v => .addMethod { v with itemId := f v.itemId }
  | .updateMethod v => .updateMethod { v with itemId := f v.itemId }
  | .removeItem itemId => .removeItem (f itemId)
  | .block scope reason => .block (scope.mapItem f) reason
  | action => action

/-- An operation redirected to its group's canonical id and to the standing items. -/
def MergeContext.remap (ctx : MergeContext) (op : ContactOperation) : ContactOperation :=
  { op with
    contactId := (ctx.canonical (recordKey op)).contactId
    itemId := op.itemId.map (ctx.remapItem (recordKey op))
    action := op.action.mapItems (ctx.remapItem (recordKey op)) }

/-- The first `add` of a duplicate id, on the record of its group. It is no restoration and never
revives a tombstone; an app can only request a reviewed link. -/
def duplicateAdd (record : ContactRecord) (op : ContactOperation) (v : AddContactValue) :
    Option ContactRecord :=
  if record.lifecycle = .removed then none
  else
    match v.appIntroduction with
    | some intro =>
      some ((applyOne (some record) { op with action := .appProposeList intro }).getD record)
    | none =>
      if op.actorRole = .app then some record
      else
        let record :=
          match v.ownerIdentityPubkey with
          | some owner => linkContactList record owner op.createdAt
          | none => record
        some { record with
          tier := if record.tier.rank < v.tier.rank then v.tier else record.tier
          tierSetByActorRole :=
            if record.tier.rank ≤ v.tier.rank then some op.actorRole else record.tierSetByActorRole
          createdAt := min record.createdAt op.createdAt }

/-- The list an `add` put its contact in. -/
def AddContactValue.list (v : AddContactValue) : Option Hex64 :=
  v.ownerIdentityPubkey.or (v.appIntroduction.map AppContactIntroductionValue.ownerIdentityPubkey)

/-- Was another contact of the group first added to a different list? -/
def MergeContext.heldElsewhere (ctx : MergeContext) (sourceKey : RecordKey)
    (intro : AppContactIntroductionValue) : Bool :=
  (ctx.group (ctx.canonical sourceKey)).any fun other =>
    other ≠ sourceKey &&
      (match (ctx.firstAdds other).map ContactOperation.action with
        | some (.add v) => v.list
        | _ => none) ≠ some intro.ownerIdentityPubkey

/-- An offline app believed the key was new: once another record is discovered in a different
list, its membership needs owner review too. -/
def MergeContext.awaitReview (ctx : MergeContext) (sourceKey : RecordKey) (v : AddContactValue)
    (next : ContactRecord) : ContactRecord :=
  match v.appIntroduction with
  | none => next
  | some intro =>
    if ctx.heldElsewhere sourceKey intro then
      { next with
        primaryIdentityPubkey := none
        listMemberships := some []
        appIntroductions := next.appIntroductions.map fun is => is.map fun i =>
          if i.grantId = intro.grantId then { i with status := .pending } else i }
    else next

/-- One row of the second pass, on the record of its canonical id. -/
def groupStep (ctx : MergeContext) (record : Option ContactRecord) (row : LogRow) :
    Option ContactRecord :=
  let op := ctx.remap row.op
  match row.firstAdd, record with
  | none, _ => applyOne record op
  | some v, none => (applyOne none op).map (ctx.awaitReview row.sourceKey v)
  | some v, some r =>
    if ctx.canonical row.sourceKey ≠ row.sourceKey then duplicateAdd r op v
    else (applyOne (some r) op).map (ctx.awaitReview row.sourceKey v)

/-- The other ids of a merged record. -/
def MergeContext.withMergedIds (ctx : MergeContext) (key : RecordKey) (record : ContactRecord) :
    ContactRecord :=
  match ctx.group key with
  | _ :: second :: rest =>
    { record with mergedContactIds := some ((second :: rest).map RecordKey.contactId) }
  | _ => record

def secondPass (ctx : MergeContext) (rows : List LogRow) : OrderedMap RecordKey ContactRecord :=
  (replay (fun row => ctx.canonical row.sourceKey) (groupStep ctx) .empty rows).mapEntries
    ctx.withMergedIds

/-! ## `applyOperations` -/

/-- The records of a list of valid operations. -/
def materialise (ops : List ContactOperation) : OrderedMap RecordKey ContactRecord :=
  let rows := logRows ops
  let pass := firstPass (sortOperations ops)
  let groups := pass.groups.entries.map Prod.snd
  if groups.any (fun group => 1 < group.length) then secondPass (mergeContext groups rows) rows
  else pass.raw

section
variable [Platform]

/-- `ops.filter(validateOperation)`. -/
def validOperations (ops : List JsValue) : Except JsError (List ContactOperation) :=
  ops.filterMapM validateOperation

/-- **The reducer.** The operation log folded into materialised records. -/
def applyOperations (ops : List JsValue) : Except JsError (OrderedMap RecordKey ContactRecord) := do
  let valid ← validOperations ops
  pure (materialise valid)

end

end SignetApp.Contacts
