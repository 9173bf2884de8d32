import SignetApp.Family.Autonomy
import SignetApp.Js.SafeUrl

/-!
# What a request is for

`scope-inference.ts`: the scope of an event template, and the origin its remembered decision is
keyed on. The platform parses URLs.
-/

namespace SignetApp.Child

open SignetApp.Js SignetApp.Family

/-- An event before it is signed. -/
structure UnsignedEvent where
  kind : ℚ
  pubkey : JsString
  content : JsString
  tags : List (List JsString)

/-- The value of the first tag of a name, when it has one. -/
def UnsignedEvent.tagValue (template : UnsignedEvent) (name : String) : Option JsString :=
  (template.tags.find? fun t => t.head? = some (lit name)).bind (·[1]?)

def inferScope (template : UnsignedEvent) : Option Scope :=
  if template.kind = 21236 then some .signIn
  else if template.kind = 21235 then some .venueEntry
  else if template.kind = 1 then
    if template.tags.any fun t => t.head? = some (lit "e") then some .reactZapReply
    else some .postPublic
  else if template.kind = 7 ∨ template.kind = 9734 then some .reactZapReply
  else if template.kind = 4 ∨ template.kind = 13 ∨ template.kind = 1059 then some .dmPrivate
  else if template.kind = 24242 then some .uploadPhoto
  else if template.kind = 24133 then some .pairDevice
  else if template.kind = 0 then some .mutateIdentity
  else if template.kind = 30420 then some .appPermission
  else if template.kind = 31000 then
    if (template.tagValue "type").any (lit "name-change").isSuffixOf then some .mutateIdentity
    else none
  else none

/-- A platform that also gives the origin of a URL it parses. -/
class Web extends Platform where
  /-- `new URL(s).origin`. -/
  origin : JsString → JsString

/-- `^[0-9a-f]{64}$`, in any case. -/
def isHex64AnyCase (s : JsString) : Bool := isHexOf 64 (toLowerCase s)

section
variable [Web]

/-- Only https, and the local host for development. -/
def safeOriginForGrant (raw : JsString) : Option JsString :=
  match Platform.parseUrl raw with
  | none => none
  | some (protocol, hostname) =>
    if protocol = lit "https:" then some (Web.origin raw)
    else if protocol = lit "http:" ∧ (hostname = lit "localhost" ∨ hostname = lit "127.0.0.1") then
      some (Web.origin raw)
    else none

def inferOrigin (template : UnsignedEvent) (scope : Scope) : Option JsString :=
  match scope with
  | .signIn =>
    match template.tagValue "origin" with
    | none => none
    | some value => if value = [] then none else safeOriginForGrant value
  | .uploadPhoto => (template.tagValue "u").bind safeOriginForGrant
  | .dmPrivate | .reactZapReply =>
    match template.tagValue "p" with
    | none => none
    | some value => if isHex64AnyCase value then some (toLowerCase value) else none
  | _ => none

end

theorem inferScope_eq_appPermission_iff {template : UnsignedEvent} :
    inferScope template = some .appPermission ↔ template.kind = 30420 := by
  constructor
  · intro h
    unfold inferScope at h
    grind
  · intro h
    unfold inferScope
    rw [h]
    norm_num

end SignetApp.Child
