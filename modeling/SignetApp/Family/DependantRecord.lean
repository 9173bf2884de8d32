import Mathlib.Data.List.Sort
import SignetApp.Bunker.Connecting
import SignetApp.Family.Autonomy
import SignetApp.Js.Value
import SignetApp.Sync.Wire

/-!
# The record of a dependant, and the edits of it

`useDependants.ts` on one dependant, with `dependant-persona-allocation.ts` and
`public-profile-base.ts`: what each operation makes of the record it works from. Where it takes the
record from, and when it saves, is `Edits`.
-/

namespace SignetApp.Family.Edits

open SignetApp.Js

/-! ## The record -/

structure Avatar where
  hash : JsString
  blossomUrl : JsString
  keyHex : JsString
  updatedAt : ℤ
  deriving DecidableEq

structure ContactAvatar where
  contactAvatarKey : JsString
  contactAvatarHash : JsString
  contactAvatarBlossomUrl : JsString
  contactAvatarUpdatedAt : ℤ
  contactAvatarStale : Bool
  deriving DecidableEq

structure PublicProfileConfig where
  about : Option JsString
  pictureUrl : Option JsString
  pictureBlossomHash : Option JsString
  bannerUrl : Option JsString
  bannerBlossomHash : Option JsString
  nip05 : Option JsString
  lud16 : Option JsString
  website : Option JsString
  deriving DecidableEq

def PublicProfileConfig.empty : PublicProfileConfig :=
  ⟨none, none, none, none, none, none, none, none⟩

structure Nip05Check where
  result : JsValue
  checkedAt : ℤ
  deriving DecidableEq

/-- What a persona's slot holds. -/
structure Slot where
  publicKey : JsString
  privateKey : JsString
  displayName : JsString
  avatar : Option Avatar
  contactAvatar : Option ContactAvatar
  config : PublicProfileConfig
  publicProfile : Option JsValue
  publicProfileBase : Option JsValue
  nip05Check : Option Nip05Check
  deriving DecidableEq

structure ExtraPersona where
  slot : Slot
  derivationName : JsString
  hidden : Bool
  deriving DecidableEq

structure ExtraPersonaTombstone where
  derivationName : JsString
  removedAt : BoundedNat maxSafeInteger
  deriving DecidableEq

structure DependantBunkerEndpoint where
  publicKey : JsString
  privateKey : JsString
  createdAt : ℤ
  pairing : Bunker.Connecting.BunkerEndpoint
  deriving DecidableEq

structure Photo where
  photoHash : JsString
  blossomUrl : JsString
  photoKey : JsString
  photoUpdatedAt : ℤ
  deriving DecidableEq

inductive AuditVisibilityOverride where
  | default
  | forceVisible
  | forceHidden
  deriving DecidableEq

structure DependantIdentity where
  displayName : JsString
  derivationPath : JsString
  naturalPerson : Slot
  naturalPersonActive : Bool
  persona : Slot
  extraPersonas : List ExtraPersona
  extraPersonaTombstones : List ExtraPersonaTombstone
  primaryKeypair : JsString
  autonomyStage : AutonomyStage
  auditVisibility : Option AuditVisibilityOverride
  petitionOnDeny : Option Bool
  photo : Option Photo
  sortIndex : Option ℕ
  hiddenOnPairedDeviceKeys : List JsString
  bunkerEndpoint : Option DependantBunkerEndpoint
  deriving DecidableEq

/-- A persona of the record, by its key and the name it was derived under. -/
def DependantIdentity.hasPersona (dep : DependantIdentity) (publicKey derivationName : JsString) :
    Prop :=
  ∃ p ∈ dep.extraPersonas, p.slot.publicKey = publicKey ∧ p.derivationName = derivationName

def DependantIdentity.pairingSecret (dep : DependantIdentity) : Option JsString :=
  dep.bunkerEndpoint.bind (·.pairing.pairingSecret)

/-! ## Persona names -/

/-- `personaNumber`: `none` when it throws. -/
def personaNumber (path name : JsString) : Option (Option ℕ) :=
  match (path ++ lit "-persona-").isPrefixOf? name with
  | none => some none
  | some suffix =>
    if suffix ≠ [] ∧ suffix.all isDigit = true ∧ (suffix = [unit '0'] ∨ suffix.head? ≠ some (unit '0'))
    then
      if digitsValue 10 suffix ≤ maxSafeInteger then some (some (digitsValue 10 suffix)) else none
    else some none

def personaName (path : JsString) (number : ℕ) : JsString :=
  path ++ lit "-persona-" ++ Sync.digitsText number

/-- The names given to personas, removed ones among them. -/
def DependantIdentity.personaNames (dep : DependantIdentity) : List JsString :=
  dep.extraPersonas.map (·.derivationName) ++ dep.extraPersonaTombstones.map (·.derivationName)

/-- One past the highest of the numbers. -/
def nextNumber : List (Option ℕ) → ℕ
  | [] => 0
  | none :: rest => nextNumber rest
  | some n :: rest => max (n + 1) (nextNumber rest)

/-- `nextDependantPersonaName`: `none` when it throws. -/
def nextDependantPersonaName (dep : DependantIdentity) : Option JsString := do
  let numbers ← dep.personaNames.mapM (personaNumber dep.derivationPath)
  guard (nextNumber numbers ≤ maxSafeInteger)
  pure (personaName dep.derivationPath (nextNumber numbers))

/-- One tombstone a name, the latest. -/
def keepLatest (kept : List ExtraPersonaTombstone) (t : ExtraPersonaTombstone) :
    List ExtraPersonaTombstone :=
  if kept.any fun k => k.derivationName = t.derivationName && decide (t.removedAt.val ≤ k.removedAt.val) then
    kept
  else (kept.filter fun k => k.derivationName ≠ t.derivationName) ++ [t]

def dependantPersonaTombstones (path : JsString) (input : List ExtraPersonaTombstone) :
    List ExtraPersonaTombstone :=
  ((input.filter fun t => (personaNumber path t.derivationName).any (·.isSome)).foldl
    keepLatest []).insertionSort fun a b => a.derivationName ≤ b.derivationName

/-- Deletion wins over a live copy. -/
def applyDependantPersonaTombstones (dep : DependantIdentity) : DependantIdentity :=
  if dep.extraPersonaTombstones = [] then dep
  else
    let extras := dep.extraPersonas.filter fun ep =>
      !(dep.extraPersonaTombstones.any fun t => t.derivationName = ep.derivationName)
    { dep with
      extraPersonas := extras
      primaryKeypair :=
        if dep.primaryKeypair ≠ lit "persona" ∧ dep.primaryKeypair ≠ lit "natural-person"
            ∧ (extras.any fun ep => ep.slot.publicKey = dep.primaryKeypair) = false then lit "persona"
        else dep.primaryKeypair }

/-! ## Slots -/

inductive Target where
  | naturalPerson
  | persona
  | extra (publicKey : JsString)
  deriving DecidableEq

/-- A change of the slot a target names. -/
def DependantIdentity.mapSlot (dep : DependantIdentity) (target : Target) (f : Slot → Slot) :
    DependantIdentity :=
  match target with
  | .naturalPerson => { dep with naturalPerson := f dep.naturalPerson }
  | .persona => { dep with persona := f dep.persona }
  | .extra publicKey => { dep with
      extraPersonas := dep.extraPersonas.map fun p =>
        if p.slot.publicKey = publicKey then { p with slot := f p.slot } else p }

/-- `resolvePublicProfileBase`: `incoming` may be absent, `null` or a base. -/
def resolvePublicProfileBase (stored : Option JsValue) (incoming : Option (Option JsValue))
    (state : Option JsValue) : Option JsValue :=
  match incoming with
  | some base => base
  | none => if state.isSome then stored else none

/-- A check of an identifier is dropped when the identifier changes. -/
def Slot.setPublicProfile (slot : Slot) (config : Option PublicProfileConfig) (state : Option JsValue)
    (base : Option (Option JsValue)) : Slot :=
  let cfgPatch := config.getD .empty
  { slot with
    config := cfgPatch
    nip05Check := if cfgPatch.nip05 = slot.config.nip05 then slot.nip05Check else none
    publicProfile := state
    publicProfileBase := resolvePublicProfileBase slot.publicProfileBase base state }

/-! ## The operations -/

/-- A call of one of the operations, with what it is given or makes up: the time, a fresh key. -/
inductive Operation where
  | updateAutonomyStage (stage : AutonomyStage)
  | setDependantPersonaAvatar (target : Target) (avatar : Avatar)
  | clearDependantPersonaAvatar (target : Target)
  | setDependantPersonaContactAvatar (target : Target) (contact : ContactAvatar)
  | clearDependantPersonaContactAvatar (target : Target)
  | setDependantSlotNip05Check (target : Target) (check : Nip05Check)
  | setDependantPersonaPublicProfile (target : Target) (config : Option PublicProfileConfig)
      (state : Option JsValue) (base : Option (Option JsValue))
  | clearDependantPersonaPublicProfile (target : Target)
  | updateAuditVisibility (override : AuditVisibilityOverride)
  | updatePetitionOnDeny (on : Bool)
  | updateDependantPhoto (photo : Photo)
  | updateDependantName (displayName : JsString)
  | reorderDependants (sortIndex : ℕ)
  | switchDependantPrimary (keypair : JsString)
  | updateDependantPersonaName (target : Target) (name : JsString)
  /-- With the sanitised name. -/
  | activateDependantNaturalPerson (name : JsString)
  | addDependantPersona (displayName : JsString)
  | updatePersonaVisibility (personaPubkey : JsString) (visible : Bool)
  | removeDependantExtraPersona (personaPubkey : JsString) (now : BoundedNat maxSafeInteger)
  | setDepExtraPersonaHidden (personaPubkey : JsString) (hidden : Bool)
  | ensureDependantBunkerEndpoint (publicKey privateKey : JsString) (createdAt : ℤ)
  | saveDependantPairingSecret (secret : JsString)
  | bindDependantBunkerClient (clientPubkey : JsString)
  | clearDependantBunkerEndpoint
  deriving DecidableEq

/-- What an operation comes to on a record. -/
inductive Outcome where
  | saves (updated : DependantIdentity)
  | returns
  | throws
  deriving DecidableEq

/-- A persona's slot as it is derived. -/
def Slot.derived (publicKey privateKey displayName : JsString) : Slot where
  publicKey := publicKey
  privateKey := privateKey
  displayName := displayName
  avatar := none
  contactAvatar := none
  config := .empty
  publicProfile := none
  publicProfileBase := none
  nip05Check := none

section

-- the public and the private key derived under a name
variable (derive : JsString → JsString × JsString)

def addDependantPersona (dep : DependantIdentity) (displayName : JsString) : Outcome :=
  match nextDependantPersonaName dep with
  | none => .throws
  | some derivationName =>
    let keys := derive derivationName
    .saves { dep with extraPersonas := dep.extraPersonas ++
      [{ slot := .derived keys.1 keys.2 displayName, derivationName, hidden := false }] }

def removeDependantExtraPersona (dep : DependantIdentity) (personaPubkey : JsString)
    (now : BoundedNat maxSafeInteger) : Outcome :=
  match dep.extraPersonas.find? fun p => p.slot.publicKey = personaPubkey with
  | none => .returns
  | some persona =>
    .saves (applyDependantPersonaTombstones { dep with
      extraPersonas := dep.extraPersonas.filter fun p => p.slot.publicKey ≠ personaPubkey
      extraPersonaTombstones := dependantPersonaTombstones dep.derivationPath
        (dep.extraPersonaTombstones ++ [⟨persona.derivationName, now⟩])
      primaryKeypair := if dep.primaryKeypair = personaPubkey then lit "persona"
        else dep.primaryKeypair })

def ensureDependantBunkerEndpoint (dep : DependantIdentity) (publicKey privateKey : JsString)
    (createdAt : ℤ) : Outcome :=
  if dep.naturalPerson.privateKey = [] then .throws
  else if dep.bunkerEndpoint.any fun e => decide (e.privateKey ≠ [] ∧ e.publicKey ≠ []) then .returns
  else
    .saves { dep with
      bunkerEndpoint := some { publicKey, privateKey, createdAt, pairing := ⟨none, none⟩ } }

def saveDependantPairingSecret (dep : DependantIdentity) (secret : JsString) : Outcome :=
  match dep.bunkerEndpoint with
  | none => .throws
  | some e =>
    if e.pairing.pairingSecret = some secret then .returns
    else
      .saves { dep with
        bunkerEndpoint := some { e with pairing.pairingSecret := some secret } }

def bindDependantBunkerClient (dep : DependantIdentity) (clientPubkey : JsString) : Outcome :=
  match dep.bunkerEndpoint with
  | none => .returns
  | some e =>
    match Bunker.Connecting.bindDependantBunkerClient (some e.pairing) clientPubkey with
    | none => .returns
    | some pairing => .saves { dep with bunkerEndpoint := some { e with pairing } }

def Operation.run (dep : DependantIdentity) : Operation → Outcome
  | .updateAutonomyStage stage => .saves { dep with autonomyStage := stage }
  | .setDependantPersonaAvatar target avatar =>
    .saves (dep.mapSlot target fun s => { s with avatar := some avatar })
  | .clearDependantPersonaAvatar target =>
    .saves (dep.mapSlot target fun s => { s with avatar := none })
  | .setDependantPersonaContactAvatar target contact =>
    .saves (dep.mapSlot target fun s => { s with contactAvatar := some contact })
  | .clearDependantPersonaContactAvatar target =>
    .saves (dep.mapSlot target fun s => { s with contactAvatar := none })
  | .setDependantSlotNip05Check target check =>
    .saves (dep.mapSlot target fun s => { s with nip05Check := some check })
  | .setDependantPersonaPublicProfile target config state base =>
    .saves (dep.mapSlot target fun s => s.setPublicProfile config state base)
  | .clearDependantPersonaPublicProfile target =>
    .saves (dep.mapSlot target fun s =>
      { s with publicProfile := none, publicProfileBase := none })
  | .updateAuditVisibility override => .saves { dep with auditVisibility := some override }
  | .updatePetitionOnDeny on => .saves { dep with petitionOnDeny := some on }
  | .updateDependantPhoto photo => .saves { dep with photo := some photo }
  | .updateDependantName displayName =>
    if dep.naturalPersonActive then
      .saves { dep with displayName, naturalPerson := { dep.naturalPerson with displayName } }
    else .saves { dep with displayName }
  | .reorderDependants sortIndex => .saves { dep with sortIndex := some sortIndex }
  | .switchDependantPrimary keypair => .saves { dep with primaryKeypair := keypair }
  | .updateDependantPersonaName target name =>
    .saves (dep.mapSlot target fun s => { s with displayName := name })
  | .activateDependantNaturalPerson name =>
    if name = [] ∨ dep.naturalPerson.publicKey = [] then .throws
    else .saves { dep with
      naturalPerson := { dep.naturalPerson with displayName := name }, naturalPersonActive := true }
  | .addDependantPersona displayName => Edits.addDependantPersona derive dep displayName
  | .updatePersonaVisibility personaPubkey visible =>
    let current := dep.hiddenOnPairedDeviceKeys
    .saves { dep with hiddenOnPairedDeviceKeys :=
      if visible then current.filter (· ≠ personaPubkey)
      else if current.contains personaPubkey then current else current ++ [personaPubkey] }
  | .removeDependantExtraPersona personaPubkey now =>
    Edits.removeDependantExtraPersona dep personaPubkey now
  | .setDepExtraPersonaHidden personaPubkey hidden =>
    .saves { dep with extraPersonas := dep.extraPersonas.map fun p =>
      if p.slot.publicKey = personaPubkey then { p with hidden } else p }
  | .ensureDependantBunkerEndpoint publicKey privateKey createdAt =>
    Edits.ensureDependantBunkerEndpoint dep publicKey privateKey createdAt
  | .saveDependantPairingSecret secret => Edits.saveDependantPairingSecret dep secret
  | .bindDependantBunkerClient clientPubkey => Edits.bindDependantBunkerClient dep clientPubkey
  | .clearDependantBunkerEndpoint =>
    if dep.bunkerEndpoint = none then .returns else .saves { dep with bunkerEndpoint := none }

/-- The record after the operation. -/
def Operation.effect (dep : DependantIdentity) (op : Operation) : DependantIdentity :=
  match op.run derive dep with
  | .saves updated => updated
  | .returns => dep
  | .throws => dep

end

/-- The operations that read the storage again; the others work from the array of their closure. -/
def Operation.readsFresh : Operation → Bool
  | .setDependantPersonaContactAvatar _ _ | .clearDependantPersonaContactAvatar _
  | .setDependantSlotNip05Check _ _ | .activateDependantNaturalPerson _ | .addDependantPersona _
  | .removeDependantExtraPersona _ _ | .saveDependantPairingSecret _ => true
  | _ => false

/-- The operations that go through `personaMutations`, one after the other. -/
def Operation.isPersonaMutation : Operation → Bool
  | .addDependantPersona _ | .removeDependantExtraPersona _ _ => true
  | _ => false

end SignetApp.Family.Edits
