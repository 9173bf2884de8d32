import SignetApp.Child.Inference
import SignetApp.Child.Rules
import SignetApp.Contacts.Sanitize

/-!
# Permission for an app

`app-permission.ts`: the one shape of the statement an app may ask for (kind 30420), and what the
app says about itself. Whether a key lifts to a point of the curve belongs to the curve library.
-/

namespace SignetApp.Child

open SignetApp.Js

/-- `schnorr.utils.lift_x`: does a number lift to a point? -/
class Curve where
  liftsX : ℕ → Bool

inductive AppPermissionTemplateRefusal where
  | kind | content | pubkey | tags | d | p | validFrom | validUntil | v | role | expiration
  deriving DecidableEq

structure AppPermissionTemplateDetails where
  appId : JsString
  installKey : JsString
  validFrom : ℕ
  validUntil : ℕ
  deriving DecidableEq

/-- A statement that passed the check: its key and what its tags say. -/
structure AppPermissionTemplate where
  pubkey : JsString
  details : AppPermissionTemplateDetails
  deriving DecidableEq

/-- `/^(0|[1-9][0-9]{0,15})$/` and a safe integer. -/
def uint (s : JsString) : Option ℕ :=
  if s = lit "0" ∨ (s ≠ [] ∧ s.length ≤ 16 ∧ s.all isDigit ∧ s.head? ≠ some (unit '0')) then
    let n := digitsValue 10 s
    if n ≤ maxSafeInteger then some n else none
  else none

/-- `/^[a-z0-9-]{1,64}$/`. -/
def isAppId (s : JsString) : Bool :=
  0 < s.length && s.length ≤ 64 && s.all fun u => isDigit u || (97 ≤ u && u ≤ 122) || u = unit '-'

def isXOnlyPoint [Curve] (hex : JsString) : Bool :=
  isHexOf 64 hex && Curve.liftsX (digitsValue 16 hex)

def tagNames : List String := ["d", "p", "valid_from", "valid_until", "v", "role", "expiration"]

/-- A tag `[name, value]`. -/
def pairOf : List JsString → Option (JsString × JsString)
  | [name, value] => some (name, value)
  | _ => none

/-- The tags by name, when they are exactly the listed ones. -/
def readTags (tags : List (List JsString)) : Option (JsString → Option JsString) :=
  let pairs := tags.filterMap pairOf
  if tags.length = tagNames.length ∧ pairs.length = tags.length
      ∧ (pairs.map Prod.fst).all (· ∈ tagNames.map lit) ∧ (pairs.map Prod.fst).Nodup then
    some fun name => List.lookup name pairs
  else none

def freshnessS : ℕ := 300

def maxValidityS : ℕ := 90 * 86400

/-- The checks of what the tags say; `v` is the value of a tag. -/
def checkTags [Curve] (pubkey : JsString) (v : String → JsString) (nowS : ℤ) (checkTime : Bool) :
    Except AppPermissionTemplateRefusal AppPermissionTemplateDetails :=
  if !isAppId (v "d") then .error .d
  else if !isXOnlyPoint (v "p") || v "p" = pubkey then .error .p
  else
    match uint (v "valid_from") with
    | none => .error .validFrom
    | some validFrom =>
      if checkTime && decide ((freshnessS : ℤ) < |validFrom - nowS|) then .error .validFrom
      else
        match uint (v "valid_until") with
        | none => .error .validUntil
        | some validUntil =>
          if validUntil ≤ validFrom ∨ validFrom + maxValidityS < validUntil then .error .validUntil
          else if v "v" ≠ lit "1" then .error .v
          else if v "role" ≠ lit "player" then .error .role
          else if v "expiration" ≠ v "valid_until" then .error .expiration
          else .ok { appId := v "d", installKey := v "p", validFrom, validUntil }

/-- `validateAppPermissionTemplate(appPermissionTemplateOf(template), …)`: of an event template the
four keys are always there. -/
def validateAppPermissionTemplate [Curve] (template : UnsignedEvent) (nowS : ℤ) (checkTime : Bool) :
    Except AppPermissionTemplateRefusal AppPermissionTemplate :=
  if template.kind ≠ 30420 then .error .kind
  else if template.content ≠ [] then .error .content
  else if !isHexOf 64 template.pubkey then .error .pubkey
  else
    match readTags template.tags with
    | none => .error .tags
    | some get =>
      (checkTags template.pubkey (fun name => (get (lit name)).getD []) nowS checkTime).map
        fun details => { pubkey := template.pubkey, details }

/-! ## The claim -/

/-- What the app says about itself. -/
structure AppPermissionClaim where
  permission : JsString
  name : JsString
  origin : JsString
  reason : JsString
  deriving DecidableEq

def codePointValue : JsString → ℕ
  | [u] => u.val
  | [u, v] => 0x10000 + (u.val - 0xD800) * 0x400 + (v.val - 0xDC00)
  | _ => 0

/-- The ranges of the general category Cf, with U+180E. -/
def formatRanges : List (ℕ × ℕ) :=
  [(0xAD, 0xAD), (0x600, 0x605), (0x61C, 0x61C), (0x6DD, 0x6DD), (0x70F, 0x70F), (0x890, 0x891),
    (0x8E2, 0x8E2), (0x180E, 0x180E), (0x200B, 0x200F), (0x202A, 0x202E), (0x2060, 0x2064),
    (0x2066, 0x206F), (0xFEFF, 0xFEFF), (0xFFF9, 0xFFFB), (0x110BD, 0x110BD), (0x110CD, 0x110CD),
    (0x13430, 0x1343F), (0x1BCA0, 0x1BCA3), (0x1D173, 0x1D17A), (0xE0001, 0xE0001),
    (0xE0020, 0xE007F)]

/-- `/[\p{Cf}\u180e]/u`. -/
def isFormatChar (c : JsString) : Bool :=
  formatRanges.any fun (lo, hi) => lo ≤ codePointValue c && codePointValue c ≤ hi

def boundedText (raw : JsString) (max : ℕ) : Option JsString :=
  let shown := Contacts.sanitizeDisplayName raw raw.length
  let clean := trim ((codePoints shown).filter fun c => !isFormatChar c).flatten
  let n := (codePoints clean).length
  if 1 ≤ n ∧ n ≤ max then some clean else none

def isPermission (raw : JsString) : Bool := raw = lit "online-play"

def canonicalOrigin [Web] (raw : JsString) : Option JsString :=
  (safeOriginForGrant raw).filter (· = raw)

def checkAppPermissionClaim [Web] (raw : AppPermissionClaim) : Option AppPermissionClaim :=
  if !isPermission raw.permission then none
  else
    match canonicalOrigin raw.origin, boundedText raw.name 64, boundedText raw.reason 200 with
    | some origin, some name, some reason =>
      if origin = [] then none else some { permission := raw.permission, name, origin, reason }
    | _, _, _ => none

/-! ## What the checks give -/

theorem eq_of_pairOf {t : List JsString} {name value : JsString}
    (h : pairOf t = some (name, value)) : t = [name, value] := by
  unfold pairOf at h
  split at h
  · next n v =>
    obtain ⟨rfl, rfl⟩ := Prod.mk.inj (Option.some.inj h)
    rfl
  · cases h

theorem lookup_pairs {tags : List (List JsString)}
    (h : (tags.filterMap pairOf).length = tags.length) (name : JsString) :
    List.lookup name (tags.filterMap pairOf)
      = (tags.find? fun t => t.head? = some name).bind (·[1]?) := by
  induction tags with
  | nil => rfl
  | cons t tags ih =>
    have hle := List.length_filterMap_le pairOf tags
    cases hpair : pairOf t with
    | none =>
      rw [List.filterMap_cons_none hpair, List.length_cons] at h
      omega
    | some pair =>
      obtain ⟨n, v⟩ := pair
      obtain rfl := eq_of_pairOf hpair
      rw [List.filterMap_cons_some hpair, List.length_cons, List.length_cons] at h
      rw [List.filterMap_cons_some hpair, List.lookup_cons, List.find?_cons]
      by_cases hname : name = n
      · subst hname
        simp
      · have hne : ¬ n = name := fun heq => hname heq.symm
        have hbeq : (name == n) = false := beq_eq_false_iff_ne.mpr hname
        simp [hne, hbeq, ih (by omega)]

variable {template : UnsignedEvent}

theorem get_of_readTags {get : JsString → Option JsString}
    (h : readTags template.tags = some get) (name : String) :
    get (lit name) = template.tagValue name := by
  unfold readTags at h
  dsimp only at h
  split at h
  · next hall =>
    obtain rfl := Option.some.inj h
    exact lookup_pairs hall.2.1 (lit name)
  · cases h

variable {checkTime : Bool} {nowS : ℤ}

theorem checkTags_ok [Curve] {pubkey : JsString} {v : String → JsString} {details : AppPermissionTemplateDetails}
    (h : checkTags pubkey v nowS checkTime = .ok details) :
    details.appId = v "d" ∧ isAppId (v "d") = true
      ∧ details.installKey = v "p" ∧ isXOnlyPoint (v "p") = true := by
  unfold checkTags at h
  split at h
  · cases h
  · next happ =>
    split at h
    · cases h
    · next hpoint =>
      rw [Bool.or_eq_true, not_or] at hpoint
      have hsame : details.appId = v "d" ∧ details.installKey = v "p" := by
        repeat' first
          | (obtain rfl := Except.ok.inj h; exact ⟨rfl, rfl⟩)
          | cases h
          | split at h
      exact ⟨hsame.1, by simpa using happ, hsame.2, by simpa using hpoint.1⟩

/-- What was checked of a statement is what it says. -/
theorem validateAppPermissionTemplate_ok [Curve] {checked : AppPermissionTemplate}
    (h : validateAppPermissionTemplate template nowS checkTime = .ok checked) :
    checked.pubkey = template.pubkey
      ∧ template.tagValue "d" = some checked.details.appId
      ∧ template.tagValue "p" = some checked.details.installKey := by
  unfold validateAppPermissionTemplate at h
  split at h
  · cases h
  split at h
  · cases h
  split at h
  · cases h
  split at h
  · cases h
  · next get hget =>
    cases hcheck : checkTags template.pubkey (fun name => (get (lit name)).getD []) nowS
        checkTime with
    | error refusal =>
      rw [hcheck] at h
      cases h
    | ok details =>
      rw [hcheck] at h
      obtain rfl := Except.ok.inj h
      obtain ⟨happId, happ, hinstallKey, hpoint⟩ := checkTags_ok hcheck
      -- Neither check takes an empty text, so both tags are there.
      rw [← get_of_readTags hget, ← get_of_readTags hget]
      refine ⟨rfl, ?_, ?_⟩
      · show _ = some details.appId
        rw [happId]
        cases hd : get (lit "d") with
        | some d => rfl
        | none =>
          rw [hd] at happ
          cases happ
      · show _ = some details.installKey
        rw [hinstallKey]
        cases hp : get (lit "p") with
        | some p => rfl
        | none =>
          rw [hp] at hpoint
          cases hpoint

theorem origin_of_checkAppPermissionClaim [Web] {raw claim : AppPermissionClaim}
    (h : checkAppPermissionClaim raw = some claim) : claim.origin = raw.origin := by
  unfold checkAppPermissionClaim at h
  split at h
  · cases h
  · split at h
    · next origin name reason horigin _ _ =>
      split at h
      · cases h
      · obtain rfl := Option.some.inj h
        unfold canonicalOrigin at horigin
        exact of_decide_eq_true (Option.filter_eq_some_iff.mp horigin).2
    · cases h

end SignetApp.Child
