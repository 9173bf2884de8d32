import SignetApp.Contacts.Types

/-!
# Building operations

`contacts-v2-mutations.ts`, `buildOperation`: the single constructor for a locally authored
operation. One user action produces exactly one operation; the caller supplies the id, the clock
and the time.
-/

namespace SignetApp.Contacts

open SignetApp.Js

structure MutationActor where
  actorPubkey : Hex64
  actorRole : ContactActorRole
  actorDeviceId : Hex32

structure OperationParams where
  directoryId : DirectoryId
  contactId : Hex32
  action : ContactAction
  clock : LamportClock
  actor : MutationActor
  now : Timestamp
  operationId : Hex32
  itemId : Option Hex32 := none
  targetOperationId : Option Hex32 := none

def buildOperation (params : OperationParams) : ContactOperation :=
  { operationId := params.operationId
    directoryId := params.directoryId
    contactId := params.contactId
    itemId := params.itemId
    actorPubkey := params.actor.actorPubkey
    actorRole := params.actor.actorRole
    actorDeviceId := params.actor.actorDeviceId
    logicalClock := params.clock
    action := params.action
    targetOperationId := params.targetOperationId
    createdAt := params.now }

/-! ## Small logs

Examples name every id by one hexadecimal digit, which is repeated to the id's length, and stamp an
operation with its clock as the time. -/

def actorOf (role : ContactActorRole) (digit : Fin 16) : MutationActor :=
  ⟨Hex.repeated 64 digit, role, Hex.repeated 32 digit⟩

/-- An operation of the owner's directory: its id, its contact, its clock less one, its author. -/
def sampleOp (id contact : Fin 16) (clock : ℕ) (actor : MutationActor) (action : ContactAction)
    (target : Option (Fin 16) := none) : ContactOperation :=
  buildOperation {
    directoryId := .owner
    contactId := Hex.repeated 32 contact
    action
    clock := ⟨clock + 1, Nat.le_add_left 1 clock⟩
    actor
    now := ⟨clock, Rat.natCast_nonneg⟩
    operationId := Hex.repeated 32 id
    targetOperationId := target.map (Hex.repeated 32) }

/-- The same operation in another directory. -/
def ContactOperation.inDirectory (op : ContactOperation) (directoryId : DirectoryId) :
    ContactOperation :=
  { op with directoryId }

def sampleKey (contact : Fin 16) : RecordKey := ⟨.owner, Hex.repeated 32 contact⟩

def sampleAdd (tier : ContactTier) : ContactAction :=
  .add { type := .person, displayName := ⟨lit "Dave", by decide⟩, tier }

def sampleIdentity (item key : Fin 16) : ContactAction :=
  .addIdentity {
    itemId := Hex.repeated 32 item
    pubkey := Hex.repeated 64 key
    provenance := .direct
    verification := .unverified }

end SignetApp.Contacts
