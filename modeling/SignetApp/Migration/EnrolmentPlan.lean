import SignetApp.Js.SafeUrl

/-!
# The enrolment plan

`heartwood-enrolment.ts`: which keys of a phone a signing device can derive again from the recovery words,
and which stay on the phone.
-/

namespace SignetApp.Migration

open Js

/-! ## The records -/

/-- A slot with a key of its own. -/
structure SlotKeypair where
  displayName : JsString
  publicKey : JsString
  privateKey : JsString

structure ExtraPersona extends SlotKeypair where
  /-- Empty where the key is not from the recovery words. -/
  derivationName : JsString
  imported : Bool

structure SignetIdentity where
  mnemonic : JsString
  naturalPerson : SlotKeypair
  persona : SlotKeypair
  professionalPersona : Option SlotKeypair
  extraPersonas : List ExtraPersona

structure DependantIdentity where
  id : JsString
  displayName : JsString
  derivationPath : JsString
  naturalPerson : SlotKeypair
  persona : SlotKeypair
  extraPersonas : List ExtraPersona

/-! ## The plan -/

inductive SlotKind where
  | ownerNp | ownerPersona | ownerPro | ownerExtra | depNp | depPersona | depExtra
  deriving DecidableEq

structure EnrolmentSlot where
  token : JsString
  /-- In lower case. -/
  expectedPubkeyHex : JsString
  label : JsString
  kind : SlotKind
  depId : Option JsString
  deriving DecidableEq

inductive SkipReason where
  | importedPersona | importedDependant | mirrorPersona | missingPubkey
  deriving DecidableEq

structure SkippedSlot where
  label : JsString
  reason : SkipReason
  deriving DecidableEq

structure EnrolmentPlan where
  slots : List EnrolmentSlot
  skipped : List SkippedSlot

/-- `/^dependant-\d+$/`. -/
def isDependantPath (path : JsString) : Bool :=
  (lit "dependant-").isPrefixOf path && !(path.drop 10).isEmpty &&
    (path.drop 10).all fun u => 48 ≤ u && u ≤ 57

def isTreeDerivedExtra (derivationName : JsString) : Bool := derivationName ≠ []

namespace EnrolmentPlan

def skip (plan : EnrolmentPlan) (label : JsString) (reason : SkipReason) : EnrolmentPlan :=
  { plan with skipped := plan.skipped ++ [⟨label, reason⟩] }

def pushOrSkip (plan : EnrolmentPlan) (token : JsString) (kind : SlotKind) (label : JsString)
    (depId : Option JsString) (publicKey : JsString) : EnrolmentPlan :=
  if publicKey = [] then plan.skip label .missingPubkey
  else { plan with slots := plan.slots ++ [⟨token, toLowerCase publicKey, label, kind, depId⟩] }

/-- An extra persona, under the label that its list gives it. -/
def pushExtra (kind : SlotKind) (depId : Option JsString) (label : ExtraPersona → JsString)
    (plan : EnrolmentPlan) (extra : ExtraPersona) : EnrolmentPlan :=
  if !isTreeDerivedExtra extra.derivationName then
    plan.skip (label extra) (if extra.imported then .importedPersona else .mirrorPersona)
  else plan.pushOrSkip extra.derivationName kind (label extra) depId extra.publicKey

def pushDependant (plan : EnrolmentPlan) (dep : DependantIdentity) : EnrolmentPlan :=
  if !isDependantPath dep.derivationPath then plan.skip dep.displayName .importedDependant
  else
    let plan := plan.pushOrSkip (dep.derivationPath ++ lit "-np") .depNp
      (dep.displayName ++ lit " — natural person") (some dep.id) dep.naturalPerson.publicKey
    let plan := plan.pushOrSkip (dep.derivationPath ++ lit "-persona") .depPersona
      (dep.displayName ++ lit " — anonymous persona") (some dep.id) dep.persona.publicKey
    dep.extraPersonas.foldl
      (pushExtra .depExtra (some dep.id) fun extra => dep.displayName ++ lit " — " ++ extra.displayName) plan

end EnrolmentPlan

def buildEnrolmentPlan (identity : SignetIdentity) (dependants : List DependantIdentity) : EnrolmentPlan :=
  let plan := EnrolmentPlan.pushOrSkip ⟨[], []⟩ (lit "natural-person") .ownerNp
    (identity.naturalPerson.displayName ++ lit " (you)") none identity.naturalPerson.publicKey
  let plan := plan.pushOrSkip (lit "persona") .ownerPersona identity.persona.displayName none
    identity.persona.publicKey
  let plan := match identity.professionalPersona with
    | some pro => plan.pushOrSkip (lit "professional") .ownerPro pro.displayName none pro.publicKey
    | none => plan
  let plan := identity.extraPersonas.foldl
    (EnrolmentPlan.pushExtra .ownerExtra none fun extra => extra.displayName) plan
  dependants.foldl EnrolmentPlan.pushDependant plan

/-! ## Stripping keys

`heartwood-strip.ts`: the private keys that a device can derive again are emptied. A slot is looked up by its
token alone. -/

/-! ## The strippers -/

def SlotKeypair.emptied (s : SlotKeypair) : SlotKeypair := { s with privateKey := [] }

def stripSlot (verifiedTokens : List JsString) (token : JsString) (s : SlotKeypair) : SlotKeypair :=
  if token ∈ verifiedTokens then s.emptied else s

def stripExtraPersona (verifiedTokens : List JsString) (extra : ExtraPersona) : ExtraPersona :=
  if !isTreeDerivedExtra extra.derivationName then extra
  else if extra.derivationName ∉ verifiedTokens then extra
  else { extra with privateKey := [] }

/-- The recovery words go as soon as anything is verified. -/
def stripIdentityKeys (identity : SignetIdentity) (verifiedTokens : List JsString) : SignetIdentity where
  mnemonic := if verifiedTokens ≠ [] then [] else identity.mnemonic
  naturalPerson := stripSlot verifiedTokens (lit "natural-person") identity.naturalPerson
  persona := stripSlot verifiedTokens (lit "persona") identity.persona
  professionalPersona := identity.professionalPersona.map (stripSlot verifiedTokens (lit "professional"))
  extraPersonas := identity.extraPersonas.map (stripExtraPersona verifiedTokens)

/-- `none` where the record is left alone. -/
def stripDependantKeys (dep : DependantIdentity) (verifiedTokens : List JsString) : Option DependantIdentity :=
  if !isDependantPath dep.derivationPath then none
  else
    let npToken := dep.derivationPath ++ lit "-np"
    let personaToken := dep.derivationPath ++ lit "-persona"
    let hasVerifiedExtra := dep.extraPersonas.any fun extra =>
      isTreeDerivedExtra extra.derivationName && decide (extra.derivationName ∈ verifiedTokens)
    if npToken ∈ verifiedTokens ∨ personaToken ∈ verifiedTokens ∨ hasVerifiedExtra = true then
      some { dep with
        naturalPerson := stripSlot verifiedTokens npToken dep.naturalPerson
        persona := stripSlot verifiedTokens personaToken dep.persona
        extraPersonas := dep.extraPersonas.map (stripExtraPersona verifiedTokens) }
    else none

/-! ## What a phone holds -/

/-- The records of a phone. -/
structure Records where
  identity : SignetIdentity
  dependants : List DependantIdentity

/-- A slot as the records have it, with the token it is derived by if it is. -/
structure Held where
  token : Option JsString
  publicKey : JsString
  privateKey : JsString
  deriving DecidableEq

def SlotKeypair.held (token : Option JsString) (s : SlotKeypair) : Held := ⟨token, s.publicKey, s.privateKey⟩

def ExtraPersona.held (derived : Bool) (extra : ExtraPersona) : Held :=
  extra.toSlotKeypair.held
    (if derived && isTreeDerivedExtra extra.derivationName then some extra.derivationName else none)

def SignetIdentity.held (identity : SignetIdentity) : List Held :=
  identity.naturalPerson.held (some (lit "natural-person")) :: identity.persona.held (some (lit "persona")) ::
    ((identity.professionalPersona.map (SlotKeypair.held (some (lit "professional")))).toList ++
      identity.extraPersonas.map (ExtraPersona.held true))

/-- None of an imported dependant's slots is derived. -/
def DependantIdentity.held (dep : DependantIdentity) : List Held :=
  let derived := isDependantPath dep.derivationPath
  let token := fun suffix => if derived then some (dep.derivationPath ++ suffix) else none
  dep.naturalPerson.held (token (lit "-np")) :: dep.persona.held (token (lit "-persona")) ::
    dep.extraPersonas.map (ExtraPersona.held derived)

def Records.held (r : Records) : List Held := r.identity.held ++ r.dependants.flatMap DependantIdentity.held

/-- The records after the strip. -/
def Records.stripped (r : Records) (verifiedTokens : List JsString) : Records :=
  ⟨stripIdentityKeys r.identity verifiedTokens,
    r.dependants.map fun dep => (stripDependantKeys dep verifiedTokens).getD dep⟩

/-- What a strip does to a slot. -/
def Held.stripped (verifiedTokens : List JsString) (s : Held) : Held :=
  if s.token.any (· ∈ verifiedTokens) then { s with privateKey := [] } else s

/-! ## A strip is the same at every slot -/

section

variable {verifiedTokens : List JsString}

@[simp]
theorem Held.stripped_token (s : Held) : (s.stripped verifiedTokens).token = s.token := by
  unfold Held.stripped
  split <;> rfl

@[simp]
theorem Held.stripped_publicKey (s : Held) : (s.stripped verifiedTokens).publicKey = s.publicKey := by
  unfold Held.stripped
  split <;> rfl

theorem Held.stripped_of_mem {s : Held} {t : JsString} (ht : s.token = some t) (hmem : t ∈ verifiedTokens) :
    s.stripped verifiedTokens = { s with privateKey := [] } := by
  unfold Held.stripped
  rw [ht]
  exact if_pos (decide_eq_true hmem)

theorem Held.stripped_of_not_mem {s : Held} (hmem : ∀ t, s.token = some t → t ∉ verifiedTokens) :
    s.stripped verifiedTokens = s := by
  unfold Held.stripped
  cases ht : s.token with
  | none => exact if_neg Bool.false_ne_true
  | some t => exact if_neg (by simpa using hmem t ht)

theorem held_stripSlot (token : JsString) (s : SlotKeypair) :
    (stripSlot verifiedTokens token s).held (some token) = (s.held (some token)).stripped verifiedTokens := by
  unfold stripSlot
  split
  · next hmem => exact (Held.stripped_of_mem (s := s.held (some token)) rfl hmem).symm
  · next hmem =>
    refine (Held.stripped_of_not_mem (s := s.held (some token)) ?_).symm
    rintro t ⟨⟩
    exact hmem

theorem held_stripExtraPersona (extra : ExtraPersona) :
    (stripExtraPersona verifiedTokens extra).held true = (extra.held true).stripped verifiedTokens := by
  unfold stripExtraPersona
  by_cases hderived : isTreeDerivedExtra extra.derivationName = true
  · have htoken : (extra.held true).token = some extra.derivationName := by
      simp [ExtraPersona.held, SlotKeypair.held, hderived]
    rw [hderived, Bool.not_true, if_neg Bool.false_ne_true]
    by_cases hmem : extra.derivationName ∈ verifiedTokens
    · rw [if_neg (not_not.2 hmem), Held.stripped_of_mem htoken hmem]
      rfl
    · rw [if_pos hmem, Held.stripped_of_not_mem]
      intro t ht
      obtain rfl := Option.some.inj (htoken.symm.trans ht)
      exact hmem
  · have htoken : (extra.held true).token = none := by
      simp [ExtraPersona.held, SlotKeypair.held, hderived]
    rw [Bool.not_eq_true] at hderived
    rw [hderived, Bool.not_false, if_pos rfl, Held.stripped_of_not_mem]
    intro t ht
    cases htoken.symm.trans ht

theorem held_stripIdentityKeys (identity : SignetIdentity) :
    (stripIdentityKeys identity verifiedTokens).held =
      identity.held.map (Held.stripped verifiedTokens) := by
  have hextras : (identity.extraPersonas.map (stripExtraPersona verifiedTokens)).map (ExtraPersona.held true) =
      (identity.extraPersonas.map (ExtraPersona.held true)).map (Held.stripped verifiedTokens) := by
    rw [List.map_map, List.map_map]
    exact List.map_congr_left fun extra _ => held_stripExtraPersona extra
  have hpro : ((identity.professionalPersona.map (stripSlot verifiedTokens (lit "professional"))).map
      (SlotKeypair.held (some (lit "professional")))).toList =
      (identity.professionalPersona.map (SlotKeypair.held (some (lit "professional")))).toList.map
        (Held.stripped verifiedTokens) := by
    cases identity.professionalPersona with
    | none => rfl
    | some pro => exact congrArg (fun s => [s]) (held_stripSlot _ pro)
  simp only [SignetIdentity.held, stripIdentityKeys, held_stripSlot, hextras, hpro, List.map_cons,
    List.map_append]

theorem token_of_imported {dep : DependantIdentity} (h : isDependantPath dep.derivationPath = false) {s : Held}
    (hs : s ∈ dep.held) : s.token = none := by
  simp only [DependantIdentity.held, h, Bool.false_eq_true, if_false, List.mem_cons, List.mem_map] at hs
  rcases hs with rfl | rfl | ⟨extra, -, rfl⟩ <;> rfl

theorem token_of_derived {dep : DependantIdentity} (h : isDependantPath dep.derivationPath = true) {s : Held}
    (hs : s ∈ dep.held) : s.token = some (dep.derivationPath ++ lit "-np") ∨
      s.token = some (dep.derivationPath ++ lit "-persona") ∨
      ∃ extra ∈ dep.extraPersonas, s = extra.held true := by
  simp only [DependantIdentity.held, h, if_true, List.mem_cons, List.mem_map] at hs
  rcases hs with rfl | rfl | ⟨extra, hextra, rfl⟩
  · exact .inl rfl
  · exact .inr (.inl rfl)
  · exact .inr (.inr ⟨extra, hextra, rfl⟩)

theorem map_stripped_eq_self {l : List Held} (h : ∀ s ∈ l, ∀ t, s.token = some t → t ∉ verifiedTokens) :
    l.map (Held.stripped verifiedTokens) = l := by
  induction l with
  | nil => rfl
  | cons s l ih =>
    rw [List.map_cons, Held.stripped_of_not_mem (h s List.mem_cons_self),
      ih fun s' hs' => h s' (List.mem_cons_of_mem _ hs')]

theorem held_stripDependantKeys (dep : DependantIdentity) :
    ((stripDependantKeys dep verifiedTokens).getD dep).held = dep.held.map (Held.stripped verifiedTokens) := by
  unfold stripDependantKeys
  cases hpath : isDependantPath dep.derivationPath with
  | false =>
    rw [map_stripped_eq_self]
    · rfl
    · intro s hs t ht
      cases (token_of_imported hpath hs).symm.trans ht
  | true =>
    rw [Bool.not_true, if_neg Bool.false_ne_true]
    dsimp only
    split
    · have hextras : (dep.extraPersonas.map (stripExtraPersona verifiedTokens)).map (ExtraPersona.held true) =
          (dep.extraPersonas.map (ExtraPersona.held true)).map (Held.stripped verifiedTokens) := by
        rw [List.map_map, List.map_map]
        exact List.map_congr_left fun extra _ => held_stripExtraPersona extra
      simp only [DependantIdentity.held, Option.getD_some, hpath, if_true, held_stripSlot, hextras,
        List.map_cons]
    · next hnone =>
      rw [not_or, not_or] at hnone
      obtain ⟨hnp, hpersona, hextra⟩ := hnone
      rw [map_stripped_eq_self]
      · rfl
      · intro s hs t ht
        rcases token_of_derived hpath hs with htoken | htoken | ⟨extra, hmem, rfl⟩
        · obtain rfl := Option.some.inj (htoken.symm.trans ht)
          exact hnp
        · obtain rfl := Option.some.inj (htoken.symm.trans ht)
          exact hpersona
        · intro hverified
          apply hextra
          rw [List.any_eq_true]
          refine ⟨extra, hmem, ?_⟩
          cases hderived : isTreeDerivedExtra extra.derivationName with
          | false => simp [ExtraPersona.held, SlotKeypair.held, hderived] at ht
          | true =>
            have htoken : extra.derivationName = t := by
              simpa [ExtraPersona.held, SlotKeypair.held, hderived] using ht
            rw [htoken]
            exact decide_eq_true hverified

theorem held_stripped (r : Records) :
    (r.stripped verifiedTokens).held = r.held.map (Held.stripped verifiedTokens) := by
  unfold Records.held Records.stripped
  rw [List.map_append, held_stripIdentityKeys]
  congr 1
  induction r.dependants with
  | nil => rfl
  | cons dep deps ih =>
    rw [List.map_cons, List.flatMap_cons, List.flatMap_cons, List.map_append, ih, held_stripDependantKeys]

end

end SignetApp.Migration
