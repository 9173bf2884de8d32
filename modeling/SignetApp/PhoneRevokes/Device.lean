import SignetApp.ChildPhone.Slots
import SignetApp.Concurrency.Reach

/-!
# Revoking a child's phone

`child-device-pairing.ts`: `revokeChildDeviceSlot` and `retryPendingChildRevokes`, with the requests of
`heartwood-mgmt.ts` that they send. The Heartwood is not part of the app: it may reply anything.
-/

namespace SignetApp.PhoneRevokes

open SignetApp.Js
open SignetApp.Family (DeviceClientSlot)
open SignetApp.ChildPhone (SlotRef)

/-! ## Rows of a list -/

/-- Flags default to false where they are absent; present, they are booleans. -/
def optBool : JsValue → Option Bool
  | .undefined => some false
  | .bool b => some b
  | _ => none

def isString : JsValue → Option JsString
  | .str s => some s
  | _ => none

/-- A text, or none where the value is `null` or absent. -/
def isNullable (guard : JsValue → Option JsString) : JsValue → Option (Option JsString)
  | .null | .undefined => some none
  | v => (guard v).map some

/-- `HEX64.test(v.toLowerCase())`. -/
def lowerHex64 (v : JsValue) : Option JsString :=
  (isString v).bind fun s => if isHexOf 64 (toLowerCase s) then some (toLowerCase s) else none

/-- One row of `list_clients`; a malformed one is dropped. -/
def parseDeviceClientSlot (row : JsValue) : Option DeviceClientSlot := do
  guard (isObj row)
  let slotIndex ← isNonNegativeInt (row.get "slot_index")
  let secretFingerprint ← (isString (row.get "secret_fingerprint")).filter (· ≠ [])
  let autoApprove ← isBool (row.get "auto_approve")
  let signingApproved ← isBool (row.get "signing_approved")
  let strictPermissions ← isBool (row.get "strict_permissions")
  let currentPubkey ← isNullable isString (row.get "current_pubkey")
  let authorizedPubkeys ← isArrayOf isString (row.get "authorized_pubkeys")
  let allowedKinds ← isArrayOf isNonNegativeInt (row.get "allowed_kinds")
  let allowedMethods ← isArrayOf isString (row.get "allowed_methods")
  let escalate ← optBool (row.get "escalate")
  let petitionOnDeny ← optBool (row.get "petition_on_deny")
  let auditChildWrap ← optBool (row.get "audit_child_wrap")
  let boundIdentity ← isNullable lowerHex64 (row.get "bound_identity")
  some {
    slotIndex, secretFingerprint, autoApprove, signingApproved, strictPermissions, currentPubkey, authorizedPubkeys
    allowedKinds, allowedMethods, escalate, petitionOnDeny, auditChildWrap, boundIdentity
    label := (isString (row.get "label")).getD [] }

/-! ## Requests -/

/-- What a request comes to: a result, or the text of what is thrown. -/
inductive Reply where
  | ok (result : JsObject)
  | error (message : JsString)

/-- The rows of a list. A reply without an array has none. -/
def listClients : Reply → Except JsString (List DeviceClientSlot)
  | .error message => .error message
  | .ok result =>
    match (JsValue.obj result).get "clients" with
    | .arr rows => .ok (rows.filterMap parseDeviceClientSlot)
    | _ => .ok []

/-- `revokeClient`, once it has its reply. -/
def revokeClient (slot : SlotRef) : Reply → Except JsString Unit
  | .error message => .error message
  | .ok result =>
    if (JsValue.obj result).get "revoked" ≠ .bool true then .error (lit "revoke_client did not confirm the revocation")
    else if (JsValue.obj result).get "slot_index" ≠ .ofNat slot.slotIndex then
      .error (lit "revoke_client confirmed a different slot")
    else .ok ()

/-- `/^no such slot: \d+$/`. -/
def isNoSuchSlotError (message : JsString) : Bool :=
  (lit "no such slot: ").isPrefixOf message && !(message.drop 14).isEmpty && (message.drop 14).all isDigit

def isStaleClientSlotMessage (message : JsString) : Bool :=
  (lit "stale_client_slot: slot credential changed").isPrefixOf message

/-- The fingerprint of a credential, in any case. -/
def sameFingerprint (fingerprint : JsString) (ref : SlotRef) : Bool :=
  toLowerCase fingerprint = toLowerCase ref.secretFingerprint

/-- Does a list show the credential? -/
def shown (slots : List DeviceClientSlot) (ref : SlotRef) : Bool :=
  slots.any fun s => sameFingerprint s.secretFingerprint ref

/-! ## The two functions, between their awaits -/

/-- What is being asked about a credential. -/
inductive Stage where
  | revoking
  /-- Revoking it threw `message`; the list is asked for. -/
  | listing (message : JsString)

structure Asking where
  ref : SlotRef
  stage : Stage
  /-- The reply, once it is there. -/
  reply : Option Reply := none

inductive CallState where
  | idle
  | asking (asking : Asking)
  | returned (ref : SlotRef)
  | threw (message : JsString)

/-- `revokeChildDeviceSlot`, from a reply to its next await or its end. -/
def revokeChildDeviceSlot (ref : SlotRef) (stage : Stage) (reply : Reply) : CallState :=
  match stage with
  | .revoking =>
    match revokeClient ref reply with
    | .ok () => .returned ref
    | .error message => if isNoSuchSlotError message then .returned ref else .asking { ref, stage := .listing message }
  | .listing thrown =>
    match listClients reply with
    | .error message => .threw message
    | .ok slots => if shown slots ref then .threw thrown else .returned ref

/-- Nothing is sent for a slot without a fingerprint. -/
def startRevoke (ref : SlotRef) : CallState :=
  if ref.secretFingerprint = [] then .asking { ref, stage := .listing (lit "secretFingerprint is required") }
  else .asking { ref, stage := .revoking }

inductive RunState where
  | idle
  | asking (asking : Asking) (rest : List SlotRef) (cleared : ℕ)
  | removing (ref : SlotRef) (rest : List SlotRef) (cleared : ℕ)
  | done (cleared : ℕ)

/-- The next record of a run. -/
def goOn (cleared : ℕ) : List SlotRef → RunState
  | [] => .done cleared
  | ref :: rest => .asking { ref, stage := .revoking } rest cleared

/-- `retryPendingChildRevokes`, from a reply to its next await or its end. -/
def retryPendingChildRevokes (ref : SlotRef) (stage : Stage) (rest : List SlotRef) (cleared : ℕ) (reply : Reply) :
    RunState :=
  match stage with
  | .revoking =>
    match revokeClient ref reply with
    | .ok () => .removing ref rest cleared
    | .error message =>
      if isNoSuchSlotError message then .removing ref rest cleared
      else if isStaleClientSlotMessage message then .asking { ref, stage := .listing message } rest cleared
      else goOn cleared rest
  | .listing _ =>
    match listClients reply with
    | .error _ => goOn cleared rest
    | .ok slots => if shown slots ref then goOn cleared rest else .removing ref rest cleared

/-! ## The app and the Heartwood -/

structure World where
  /-- The slots of the device. -/
  slots : List SlotRef
  /-- The pending revokes that are stored. -/
  records : List SlotRef
  calls : ℕ → CallState
  run : RunState
  /-- Every credential that was recorded, by a call or as a pending revoke. -/
  recorded : List SlotRef
  /-- The records that the runs have removed. -/
  dropped : List SlotRef
  /-- The records of the current run whose slot was gone as it began. -/
  gone : List SlotRef

def carries (slots : List SlotRef) (ref : SlotRef) : Bool := slots.any fun s => sameFingerprint s.secretFingerprint ref

/-- Who asks: a call, or the run. -/
abbrev Who := Option ℕ

/-- What the one who asks waits for. -/
def World.waits (w : World) : Who → Option Asking
  | some i =>
    match w.calls i with
    | .asking a => some a
    | _ => none
  | none =>
    match w.run with
    | .asking a _ _ => some a
    | _ => none

def World.setCall (w : World) (i : ℕ) (state : CallState) : World :=
  { w with calls := fun j => if j = i then state else w.calls j }

/-- The one who asks has a reply. -/
def World.receive (w : World) (who : Who) (reply : Reply) : World :=
  match who with
  | some i =>
    match w.calls i with
    | .asking a => w.setCall i (.asking { a with reply := some reply })
    | _ => w
  | none =>
    match w.run with
    | .asking a rest cleared => { w with run := .asking { a with reply := some reply } rest cleared }
    | _ => w

inductive Happening where
  /-- Other managers change the slots. -/
  | manage (slots : List SlotRef)
  /-- A pending revoke is remembered. -/
  | remember (ref : SlotRef)
  | call (i : ℕ) (ref : SlotRef)
  /-- The stored records are listed, and gone through. -/
  | retry
  /-- The device serves a request. -/
  | serve (who : Who) (reply : Reply) (slots : List SlotRef)
  /-- A request is given up, served or not. -/
  | lose (who : Who) (message : JsString)
  | resume (who : Who)
  | remove (ok : Bool)

def next (w : World) : Happening → World
  | .manage slots => { w with slots }
  | .remember ref =>
    if w.records.any ref.same then w
    else { w with
      records := w.records ++ [ref], recorded := ref :: w.recorded, gone := w.gone.filter fun r => !r.same ref }
  | .call i ref =>
    match w.calls i with
    | .idle => { w with recorded := ref :: w.recorded }.setCall i (startRevoke ref)
    | _ => w
  | .retry =>
    match w.run with
    | .idle | .done _ => { w with run := goOn 0 w.records, gone := w.records.filter fun r => !carries w.slots r }
    | _ => w
  | .serve who reply slots =>
    match w.waits who with
    | some { reply := none, .. } => { w with slots }.receive who reply
    | _ => w
  | .lose who message => w.receive who (.error message)
  | .resume (some i) =>
    match w.calls i with
    | .asking { ref, stage, reply := some reply } => w.setCall i (revokeChildDeviceSlot ref stage reply)
    | _ => w
  | .resume none =>
    match w.run with
    | .asking { ref, stage, reply := some reply } rest cleared =>
      { w with run := retryPendingChildRevokes ref stage rest cleared reply }
    | _ => w
  | .remove ok =>
    match w.run with
    | .removing ref rest cleared =>
      if ok then
        { w with
          records := w.records.filter fun r => !r.same ref, dropped := ref :: w.dropped
          run := goOn (cleared + 1) rest }
      else { w with run := goOn cleared rest }
    | _ => w

/-! ## What is relied on of the device -/

/-- A reply that confirms a revocation. -/
def confirms (ref : SlotRef) (reply : Reply) : Bool :=
  match revokeClient ref reply with
  | .ok () => true
  | .error _ => false

/-- A reply that says the index is empty. -/
def saysEmpty : Reply → Bool
  | .ok _ => false
  | .error message => isNoSuchSlotError message

/-- No recorded credential is added again. The device confirms a revocation where it makes it, and says of an index
that it is empty where it is; otherwise it changes nothing. -/
def Documented (w : World) : Happening → Prop
  | .manage slots => ∀ ref ∈ w.recorded, carries slots ref = true → carries w.slots ref = true
  | .serve who reply slots => ∀ a ∈ w.waits who,
      match a.stage with
      | .revoking =>
        if confirms a.ref reply then ∀ s, s ∈ slots ↔ s ∈ w.slots ∧ s.same a.ref = false
        else slots = w.slots ∧ (saysEmpty reply = true → ∀ s ∈ w.slots, s.slotIndex ≠ a.ref.slotIndex)
      | .listing _ => slots = w.slots
  | _ => True

/-- What is taken as the sign that a slot is gone is one: where the device confirms a revocation, or says of the index
that it is empty, no slot at another index carries the credential; a list shows the credential where a slot carries
it; and no lost request gives the text of an empty index. -/
def Telling (w : World) : Happening → Prop
  | .serve who reply _ => ∀ a ∈ w.waits who,
      match a.stage with
      | .revoking => confirms a.ref reply = true ∨ saysEmpty reply = true →
          ∀ s ∈ w.slots, sameFingerprint s.secretFingerprint a.ref = true → s.slotIndex = a.ref.slotIndex
      | .listing _ => ∀ slots, listClients reply = .ok slots → carries w.slots a.ref = true → shown slots a.ref = true
  | .lose _ message => isNoSuchSlotError message = false
  | _ => True

/-- The run is answered in the documented form: of a slot that is gone, the device says that the index is empty, or
that it holds another credential; a list shows no credential that is gone; and what is removed is removed. -/
def InForm (w : World) : Happening → Prop
  | .serve none reply _ => ∀ a ∈ w.waits none, carries w.slots a.ref = false →
      match a.stage with
      | .revoking => ∃ message, reply = .error message ∧
          (isNoSuchSlotError message = true ∨ isStaleClientSlotMessage message = true)
      | .listing _ => ∃ slots, listClients reply = .ok slots ∧ shown slots a.ref = false
  | .lose none _ => False
  | .remove ok => ok = true
  | _ => True

end SignetApp.PhoneRevokes
