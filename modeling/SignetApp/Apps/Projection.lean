import SignetApp.Contacts.Effective
import SignetApp.Js.SafeUrl

/-!
# What leaves the device for an app

`contact-projection.ts`: the projection of a directory an app may read. Every field is written only
when its capability is present, so two directories that agree on what the capabilities grant give
one projection (`buildContactProjection_congr`): what is not granted does not even reach the app
through the order of contacts, a cap or the truncation.
-/

namespace SignetApp.Apps

open SignetApp.Js SignetApp.Contacts

/-! ## The wire -/

structure ProjectedIdentity where
  pubkey : JsString
  verification : Option ContactVerification := none

structure ProjectedCheck where
  pubkey : Hex64
  method : CheckMethod
  checkedAt : BoundedNat maxCheckTime

structure ProjectedMethod where
  kind : ContactMethodKind
  value : JsString
  verification : Option MethodVerification := none

/-- A contact as an app sees it; a field that is not granted is absent. -/
structure ProjectedContact where
  contactId : JsString
  blocked : Option Bool := none
  effectiveTier : Option ContactCeilingTier := none
  tierSource : Option ContactTierSource := none
  identities : Option (List ProjectedIdentity) := none
  checks : Option (List ProjectedCheck) := none
  displayName : Option JsString := none
  roles : Option (List JsString) := none
  contactMethods : Option (List ProjectedMethod) := none

structure ProjectionFrontier where
  maxClock : ℕ
  opCount : ℕ
  publishedAt : ℚ
  deviceId : JsString

structure ContactProjectionV2 where
  grantId : JsString
  scopes : List JsString
  frontier : ProjectionFrontier
  issuedAt : ℚ
  expiresAt : ℚ
  contacts : List ProjectedContact
  truncated : Bool := false

/-- What the projection takes from the contacts SDK. Every result holds for any SDK. -/
class ProjectionSdk where
  maxAppLabel : ℕ
  maxContactsPerProjection : ℕ
  maxDisplayName : ℕ
  maxIdentitiesPerContact : ℕ
  maxMethodsPerContact : ℕ
  maxMethodValue : ℕ
  maxRolesPerContact : ℕ
  maxRoleLen : ℕ
  maxWireBytes : ℕ
  clampStaleness : ℚ → ℚ
  normaliseCapabilities : List JsString → List JsString
  /-- The one sanitiser of texts on the wire. -/
  sanitizeWireText : JsString → ℕ → JsString
  /-- The one-way id of a contact under a grant. -/
  scopedContactId : JsString → JsString → JsString
  /-- The length of a projection on the wire. -/
  projectionByteLength : ContactProjectionV2 → ℕ

/-- A set of granted capabilities. -/
abbrev Capabilities := List JsString

structure ProjectionInput where
  grantId : JsString
  capabilities : Capabilities
  contacts : List EffectiveContact
  frontier : ProjectionFrontier
  appLabels : JsString → Option JsString
  issuedAt : ℚ
  maxStalenessSeconds : ℚ

/-! ## Capabilities -/

namespace Capabilities

def readDirectory (caps : Capabilities) : Bool := caps.contains (lit "signet.contacts.read:directory")
def readBlocks (caps : Capabilities) : Bool := caps.contains (lit "signet.contacts.blocks.read")

/-- A capability that counts only along with the directory. -/
def readsField (caps : Capabilities) (field : String) : Bool :=
  readDirectory caps && caps.contains (lit "signet.contacts.read:" ++ lit field)

def readChecks (caps : Capabilities) : Bool := readsField caps "checks"
def readTier (caps : Capabilities) : Bool := readsField caps "tier"
def readCheckRecords (caps : Capabilities) : Bool := readsField caps "check-records"
def readRoles (caps : Capabilities) : Bool := readsField caps "roles"

/-- May a method be read? It must be grantable, and its kind granted. -/
def readsMethod (caps : Capabilities) (m : ContactMethod) : Bool :=
  m.sharingPolicy = .grantable
    && caps.contains (lit "signet.contacts.read:method:" ++ lit (StringUnion.name m.kind))

end Capabilities

/-! ## One contact -/

section
variable [ProjectionSdk]

/-- Sanitised twice: a cut may leave a trailing space that only a second pass removes. -/
def sanitizeFixedPoint (raw : JsString) (maxLen : ℕ) : JsString :=
  ProjectionSdk.sanitizeWireText (ProjectionSdk.sanitizeWireText raw maxLen) maxLen

def someUnlessEmpty {α : Type} (as : List α) : Option (List α) := if as.isEmpty then none else some as

def projectIdentities (contact : EffectiveContact) (caps : Capabilities) : List ProjectedIdentity :=
  ((contact.identities.map fun i =>
      { pubkey := toLowerCase i.pubkey.val
        verification := if caps.readChecks then some i.verification else none : ProjectedIdentity }).filter
    fun i => isHexOf 64 i.pubkey).take ProjectionSdk.maxIdentitiesPerContact

def projectChecks (contact : EffectiveContact) (caps : Capabilities)
    (identities : List ProjectedIdentity) : List ProjectedCheck :=
  if caps.readCheckRecords then
    (((contact.checks.getD []).filter fun c =>
        identities.any fun i => i.pubkey = c.identityPubkey.val).take 128).map fun c =>
      { pubkey := c.identityPubkey, method := c.method, checkedAt := c.checkedAt }
  else []

/-- The name an app reads: the label it gave the contact, or the owner's name for it. -/
def projectDisplayName (contact : EffectiveContact) (label : Option JsString) : JsString :=
  match label with
  | some label =>
    if label ≠ [] then sanitizeFixedPoint label ProjectionSdk.maxAppLabel
    else sanitizeFixedPoint contact.displayName.val ProjectionSdk.maxDisplayName
  | none => sanitizeFixedPoint contact.displayName.val ProjectionSdk.maxDisplayName

def projectRoles (contact : EffectiveContact) : List JsString :=
  ((contact.roles.take ProjectionSdk.maxRolesPerContact).map fun r =>
    sanitizeFixedPoint r.val ProjectionSdk.maxRoleLen).filter fun r => r ≠ []

/-- The loop over the methods: what is not granted is passed over, and the first granted one past
the cap ends it. -/
def projectMethods (caps : Capabilities) : List ContactMethod → List ProjectedMethod →
    List ProjectedMethod
  | [], methods => methods
  | m :: rest, methods =>
    if !caps.readsMethod m then projectMethods caps rest methods
    else if ProjectionSdk.maxMethodsPerContact ≤ methods.length then methods
    else
      let value := sanitizeFixedPoint m.value.val ProjectionSdk.maxMethodValue
      if value = [] then projectMethods caps rest methods
      else projectMethods caps rest (methods ++ [{
        kind := m.kind
        value
        verification := if caps.readChecks then some m.verification else none }])

/-- Does a contact appear at all? -/
def appears (contact : EffectiveContact) (caps : Capabilities) : Bool :=
  (caps.readDirectory || caps.readBlocks)
    -- Block state is visible only through its own capability.
    && !(contact.blocked && !caps.readBlocks)
    -- With that capability alone the grant is a filter list.
    && !(!caps.readDirectory && !contact.blocked)
    -- A blocked contact survives its removal.
    && !(!contact.blocked && (contact.lifecycle ≠ .active || contact.archived = some true))

def projectContact (contact : EffectiveContact) (grantId : JsString) (caps : Capabilities)
    (appLabels : JsString → Option JsString) : Option ProjectedContact :=
  if !appears contact caps then none
  else
    let scopedId := ProjectionSdk.scopedContactId grantId contact.contactId.val
    let identities := projectIdentities contact caps
    let displayName := projectDisplayName contact (appLabels scopedId)
    some {
      contactId := scopedId
      blocked := if caps.readBlocks then some contact.blocked else none
      effectiveTier := if caps.readTier then some contact.effectiveTier else none
      tierSource := if caps.readTier then some contact.tierSource else none
      identities := someUnlessEmpty identities
      checks := someUnlessEmpty (projectChecks contact caps identities)
      displayName := if caps.readDirectory && displayName ≠ [] then some displayName else none
      roles := if caps.readRoles then someUnlessEmpty (projectRoles contact) else none
      contactMethods :=
        if caps.readDirectory then someUnlessEmpty (projectMethods caps contact.contactMethods [])
        else none }

/-! ## The projection -/

def appCreated (contact : EffectiveContact) : ℕ := if contact.createdByActorRole = .app then 1 else 0

/-- The drop order: app-created last, then the most recently updated first, then by id. -/
def keptBefore (a b : EffectiveContact) : Prop :=
  appCreated a < appCreated b ∨ (appCreated a = appCreated b ∧
    (b.updatedAt < a.updatedAt ∨ (b.updatedAt = a.updatedAt ∧ a.contactId ≤ b.contactId)))

instance decidableKeptBefore : DecidableRel keptBefore :=
  fun _ _ => inferInstanceAs (Decidable (_ ∨ (_ ∧ (_ ∨ (_ ∧ _)))))

/-- The emitted order: by scoped id. -/
def emittedBefore (a b : ProjectedContact) : Prop := a.contactId ≤ b.contactId

instance decidableEmittedBefore : DecidableRel emittedBefore :=
  fun a b => inferInstanceAs (Decidable (a.contactId ≤ b.contactId))

/-- The contacts of a projection, in drop order and under the cap. -/
def projectedContacts (input : ProjectionInput) : List ProjectedContact :=
  ((input.contacts.insertionSort keptBefore).filterMap fun c =>
    projectContact c input.grantId input.capabilities input.appLabels).take
      ProjectionSdk.maxContactsPerProjection

/-- `emit(keep, truncated)`. -/
def emit (input : ProjectionInput) (keep : List ProjectedContact) (truncated : Bool) :
    ContactProjectionV2 where
  grantId := input.grantId
  scopes := ProjectionSdk.normaliseCapabilities input.capabilities
  frontier := input.frontier
  issuedAt := input.issuedAt
  expiresAt := input.issuedAt + ProjectionSdk.clampStaleness input.maxStalenessSeconds
  contacts := keep.insertionSort emittedBefore
  truncated

/-- Does a projection fit the wire? -/
def fits (projection : ContactProjectionV2) : Bool :=
  ProjectionSdk.projectionByteLength projection ≤ ProjectionSdk.maxWireBytes

/-- The search for the longest prefix that fits, of a length between `lo` and `hi`. -/
def searchPrefix (input : ProjectionInput) (projected : List ProjectedContact) (lo hi : ℕ)
    (best : ContactProjectionV2) : ContactProjectionV2 :=
  if lo < hi then
    let mid := (lo + (hi - 1)) / 2
    let candidate := emit input (projected.take (mid + 1)) true
    if fits candidate then searchPrefix input projected (mid + 1) hi candidate
    else searchPrefix input projected lo mid best
  else best
termination_by hi - lo

def buildContactProjection (input : ProjectionInput) : ContactProjectionV2 :=
  let projected := projectedContacts input
  let full := emit input projected false
  if fits full then full
  else searchPrefix input projected 0 projected.length (emit input [] true)

/-! ## What two directories share -/

/-- What an app may read of a method. -/
def methodView (caps : Capabilities) (m : ContactMethod) :
    ContactMethodKind × Text capMethodValue × Option MethodVerification :=
  (m.kind, m.value, if caps.readChecks then some m.verification else none)

/-- What an app may read of a check. -/
def checkView (c : ContactCheck) : Hex64 × CheckMethod × BoundedNat maxCheckTime :=
  (c.identityPubkey, c.method, c.checkedAt)

/-- Two contacts that agree on what the capabilities grant; the rest may differ. -/
structure AgreeUnder (caps : Capabilities) (c d : EffectiveContact) : Prop where
  contactId : c.contactId = d.contactId
  updatedAt : c.updatedAt = d.updatedAt
  createdByActorRole : c.createdByActorRole = d.createdByActorRole
  blocked : c.blocked = d.blocked
  lifecycle : c.lifecycle = d.lifecycle
  archived : c.archived = d.archived
  pubkeys : c.identities.map ContactIdentity.pubkey = d.identities.map ContactIdentity.pubkey
  tier : caps.readTier = true → c.effectiveTier = d.effectiveTier ∧ c.tierSource = d.tierSource
  verification : caps.readChecks = true →
    c.identities.map ContactIdentity.verification = d.identities.map ContactIdentity.verification
  checks : caps.readCheckRecords = true →
    (c.checks.getD []).map checkView = (d.checks.getD []).map checkView
  displayName : caps.readDirectory = true → c.displayName = d.displayName
  roles : caps.readRoles = true → c.roles = d.roles
  methods : caps.readDirectory = true →
    (c.contactMethods.filter caps.readsMethod).map (methodView caps)
      = (d.contactMethods.filter caps.readsMethod).map (methodView caps)

section
variable {caps : Capabilities} {c d : EffectiveContact}

theorem projectIdentities_congr (h : AgreeUnder caps c d) :
    projectIdentities c caps = projectIdentities d caps := by
  have hlength : c.identities.length = d.identities.length := by
    simpa using congrArg List.length h.pubkeys
  have hmap : (c.identities.map fun i =>
        { pubkey := toLowerCase i.pubkey.val
          verification := if caps.readChecks then some i.verification else none : ProjectedIdentity })
      = d.identities.map fun i =>
        { pubkey := toLowerCase i.pubkey.val
          verification := if caps.readChecks then some i.verification else none } := by
    apply List.ext_getElem
    · simpa using hlength
    · intro n hn hn'
      rw [List.length_map] at hn hn'
      have hpubkey : c.identities[n].pubkey = d.identities[n].pubkey := by
        simpa [hn, hn'] using congrArg (fun l => l[n]?) h.pubkeys
      rw [List.getElem_map, List.getElem_map, hpubkey]
      by_cases hchecks : caps.readChecks = true
      · have hverification : c.identities[n].verification = d.identities[n].verification := by
          simpa [hn, hn'] using congrArg (fun l => l[n]?) (h.verification hchecks)
        rw [hverification]
      · rw [if_neg hchecks, if_neg hchecks]
  rw [projectIdentities, hmap, projectIdentities]

omit [ProjectionSdk] in
theorem projectChecks_congr (h : AgreeUnder caps c d) (identities : List ProjectedIdentity) :
    projectChecks c caps identities = projectChecks d caps identities := by
  have hview : ∀ checks : List ContactCheck,
      ((checks.filter fun c => identities.any fun i => i.pubkey = c.identityPubkey.val).take 128).map
          (fun c => ({ pubkey := c.identityPubkey, method := c.method, checkedAt := c.checkedAt } :
            ProjectedCheck))
        = (((checks.map checkView).filter fun v => identities.any fun i => i.pubkey = v.1.val).take
            128).map fun v => { pubkey := v.1, method := v.2.1, checkedAt := v.2.2 } := by
    intro checks
    rw [List.filter_map, ← List.map_take, List.map_map]
    rfl
  unfold projectChecks
  cases hrecords : caps.readCheckRecords with
  | false => rfl
  | true => rw [if_pos rfl, if_pos rfl, hview, hview, h.checks hrecords]

omit [ProjectionSdk] in
theorem readsMethod_of_view {m : ContactMethod} {ms : List ContactMethod}
    (h : m ∈ ms.filter caps.readsMethod) : caps.readsMethod m = true := (List.mem_filter.mp h).2

theorem projectMethods_filter (ms : List ContactMethod) (methods : List ProjectedMethod) :
    projectMethods caps (ms.filter caps.readsMethod) methods = projectMethods caps ms methods := by
  induction ms generalizing methods with
  | nil => rfl
  | cons m ms ih =>
    cases hreads : caps.readsMethod m with
    | false =>
      rw [List.filter_cons_of_neg (by simp [hreads]), ih]
      simp [projectMethods, hreads]
    | true =>
      rw [List.filter_cons_of_pos hreads]
      simp only [projectMethods, hreads, Bool.not_true, Bool.false_eq_true, if_false, ih]

theorem projectMethods_of_views {ms ns : List ContactMethod}
    (hms : ∀ m ∈ ms, caps.readsMethod m = true) (hns : ∀ n ∈ ns, caps.readsMethod n = true)
    (h : ms.map (methodView caps) = ns.map (methodView caps)) (methods : List ProjectedMethod) :
    projectMethods caps ms methods = projectMethods caps ns methods := by
  induction ms generalizing ns methods with
  | nil =>
    cases ns with
    | nil => rfl
    | cons n ns => cases h
  | cons m ms ih =>
    cases ns with
    | nil => cases h
    | cons n ns =>
      rw [List.map_cons, List.map_cons, List.cons.injEq] at h
      obtain ⟨hview, hrest⟩ := h
      have hm := hms m List.mem_cons_self
      have hn := hns n List.mem_cons_self
      have ih := fun methods => ih (fun m hm => hms m (List.mem_cons_of_mem _ hm))
        (fun n hn => hns n (List.mem_cons_of_mem _ hn)) hrest methods
      simp only [methodView, Prod.mk.injEq] at hview
      obtain ⟨hkind, hvalue, hverification⟩ := hview
      simp only [projectMethods, hm, hn, Bool.not_true, Bool.false_eq_true, if_false, hkind, hvalue,
        hverification, ih]

theorem projectMethods_congr (h : AgreeUnder caps c d) (hdirectory : caps.readDirectory = true) :
    projectMethods caps c.contactMethods [] = projectMethods caps d.contactMethods [] := by
  rw [← projectMethods_filter c.contactMethods, ← projectMethods_filter d.contactMethods]
  exact projectMethods_of_views (fun _ => readsMethod_of_view) (fun _ => readsMethod_of_view)
    (h.methods hdirectory) []

omit [ProjectionSdk] in
theorem appears_congr (h : AgreeUnder caps c d) : appears c caps = appears d caps := by
  unfold appears
  rw [h.blocked, h.lifecycle, h.archived]

/-- **One contact is projected from what is granted of it.** -/
theorem projectContact_congr (h : AgreeUnder caps c d) (grantId : JsString)
    (appLabels : JsString → Option JsString) :
    projectContact c grantId caps appLabels = projectContact d grantId caps appLabels := by
  have htier : (if caps.readTier then some c.effectiveTier else none)
        = (if caps.readTier then some d.effectiveTier else none) ∧
      (if caps.readTier then some c.tierSource else none)
        = (if caps.readTier then some d.tierSource else none) := by
    cases htier : caps.readTier with
    | false => exact ⟨rfl, rfl⟩
    | true =>
      obtain ⟨heffective, hsource⟩ := h.tier htier
      exact ⟨by rw [heffective], by rw [hsource]⟩
  have hroles : (if caps.readRoles then someUnlessEmpty (projectRoles c) else none)
      = if caps.readRoles then someUnlessEmpty (projectRoles d) else none := by
    cases hroles : caps.readRoles with
    | false => rfl
    | true => rw [projectRoles, h.roles hroles, projectRoles]
  unfold projectContact
  rw [appears_congr h, h.contactId, h.blocked, projectIdentities_congr h, htier.1, htier.2, hroles]
  simp only [projectChecks_congr h]
  cases hdirectory : caps.readDirectory with
  | false => simp
  | true =>
    have hname : projectDisplayName c = projectDisplayName d := by
      funext label
      unfold projectDisplayName
      rw [h.displayName hdirectory]
    rw [hname, projectMethods_congr h hdirectory]

omit [ProjectionSdk] in
theorem keptBefore_congr {c' d' : EffectiveContact} (h : AgreeUnder caps c d)
    (h' : AgreeUnder caps c' d') : keptBefore c c' ↔ keptBefore d d' := by
  unfold keptBefore appCreated
  rw [h.createdByActorRole, h'.createdByActorRole, h.updatedAt, h'.updatedAt, h.contactId,
    h'.contactId]

end

/-! ## Two directories -/

variable {input : ProjectionInput}

theorem projectedContacts_congr {ds : List EffectiveContact}
    (h : List.Forall₂ (AgreeUnder input.capabilities) input.contacts ds) :
    projectedContacts input = projectedContacts { input with contacts := ds } := by
  obtain ⟨hlength, hagree⟩ := List.forall₂_iff_zip.mp h
  -- Both directories are sorted as one list of pairs.
  set pairs := input.contacts.zip ds with hpairs
  let pairBefore : EffectiveContact × EffectiveContact → EffectiveContact × EffectiveContact → Prop :=
    fun p q => keptBefore p.1 q.1
  have hfst : (pairs.insertionSort pairBefore).map Prod.fst
      = input.contacts.insertionSort keptBefore := by
    rw [List.map_insertionSort pairBefore keptBefore Prod.fst pairs fun _ _ _ _ => Iff.rfl, hpairs,
      List.map_fst_zip hlength.le]
  have hsnd : (pairs.insertionSort pairBefore).map Prod.snd = ds.insertionSort keptBefore := by
    rw [List.map_insertionSort pairBefore keptBefore Prod.snd pairs fun p hp q hq =>
      keptBefore_congr (hagree hp) (hagree hq), hpairs, List.map_snd_zip hlength.ge]
  unfold projectedContacts
  rw [← hfst, ← hsnd, List.filterMap_map, List.filterMap_map]
  congr 1
  apply List.filterMap_congr
  intro p hp
  exact projectContact_congr (hagree ((List.mem_insertionSort _).mp hp)) _ _

theorem searchPrefix_eq (input : ProjectionInput) (projected : List ProjectedContact) (lo hi : ℕ)
    (best : ContactProjectionV2) :
    searchPrefix input projected lo hi best =
      if lo < hi then
        if fits (emit input (projected.take ((lo + (hi - 1)) / 2 + 1)) true) then
          searchPrefix input projected ((lo + (hi - 1)) / 2 + 1) hi
            (emit input (projected.take ((lo + (hi - 1)) / 2 + 1)) true)
        else searchPrefix input projected lo ((lo + (hi - 1)) / 2) best
      else best := by
  rw [searchPrefix]

theorem searchPrefix_congr {input' : ProjectionInput}
    (h : ∀ keep truncated, emit input keep truncated = emit input' keep truncated)
    (projected : List ProjectedContact) (lo hi : ℕ) (best : ContactProjectionV2) :
    searchPrefix input projected lo hi best = searchPrefix input' projected lo hi best := by
  induction lo, hi, best using searchPrefix.induct input projected with
  | case1 lo hi best hlt mid candidate hfits ih =>
    rw [searchPrefix_eq input, searchPrefix_eq input', if_pos hlt, if_pos hlt, ← h, if_pos hfits,
      if_pos hfits]
    exact ih
  | case2 lo hi best hlt mid candidate hfits ih =>
    rw [searchPrefix_eq input, searchPrefix_eq input', if_pos hlt, if_pos hlt, ← h, if_neg hfits,
      if_neg hfits]
    exact ih
  | case3 lo hi best hlt =>
    rw [searchPrefix_eq input, searchPrefix_eq input', if_neg hlt, if_neg hlt]

theorem buildContactProjection_congr {ds : List EffectiveContact}
    (h : List.Forall₂ (AgreeUnder input.capabilities) input.contacts ds) :
    buildContactProjection input = buildContactProjection { input with contacts := ds } := by
  have hemit : ∀ keep truncated,
      emit input keep truncated = emit { input with contacts := ds } keep truncated :=
    fun _ _ => rfl
  unfold buildContactProjection
  simp only [← projectedContacts_congr h, ← hemit, searchPrefix_congr hemit]

/-! ## Who appears -/

variable {p : ProjectedContact}

theorem mem_emit {keep : List ProjectedContact} {truncated : Bool} : p ∈ (emit input keep truncated).contacts ↔ p ∈ keep :=
  List.mem_insertionSort _

theorem mem_searchPrefix {projected : List ProjectedContact} {lo hi : ℕ} {best : ContactProjectionV2}
    (hbest : p ∈ best.contacts → p ∈ projected)
    (hp : p ∈ (searchPrefix input projected lo hi best).contacts) : p ∈ projected := by
  induction lo, hi, best using searchPrefix.induct input projected with
  | case1 lo hi best hlt mid candidate hfits ih =>
    rw [searchPrefix_eq, if_pos hlt, if_pos hfits] at hp
    exact ih (fun h => List.mem_of_mem_take (mem_emit.mp h)) hp
  | case2 lo hi best hlt mid candidate hfits ih =>
    rw [searchPrefix_eq, if_pos hlt, if_neg hfits] at hp
    exact ih hbest hp
  | case3 lo hi best hlt =>
    rw [searchPrefix_eq, if_neg hlt] at hp
    exact hbest hp

theorem appears_of_mem (hp : p ∈ (buildContactProjection input).contacts) :
    ∃ c ∈ input.contacts, appears c input.capabilities = true ∧
      projectContact c input.grantId input.capabilities input.appLabels = some p := by
  have hmem : p ∈ projectedContacts input := by
    unfold buildContactProjection at hp
    dsimp only at hp
    split at hp
    · exact mem_emit.mp hp
    · exact mem_searchPrefix (fun h => absurd (mem_emit.mp h) List.not_mem_nil) hp
  obtain ⟨c, hc, hproject⟩ := List.mem_filterMap.mp (List.mem_of_mem_take hmem)
  refine ⟨c, (List.mem_insertionSort _).mp hc, ?_, hproject⟩
  by_contra hnot
  rw [projectContact, if_pos (by simpa using hnot)] at hproject
  cases hproject

/-- **A projection reveals only what its capabilities allow**: what they do not grant does not
change it, a blocked contact is in it only with `blocks.read`, and with that capability alone
nothing else is. -/
theorem buildContactProjection_reveals (input : ProjectionInput) :
    (∀ ds, List.Forall₂ (AgreeUnder input.capabilities) input.contacts ds →
      buildContactProjection input = buildContactProjection { input with contacts := ds }) ∧
    (input.capabilities.readBlocks = false → ∀ p ∈ (buildContactProjection input).contacts,
      ∃ c ∈ input.contacts, c.blocked = false ∧
        projectContact c input.grantId input.capabilities input.appLabels = some p) ∧
    (input.capabilities.readDirectory = false → ∀ p ∈ (buildContactProjection input).contacts,
      ∃ c ∈ input.contacts, c.blocked = true ∧
        projectContact c input.grantId input.capabilities input.appLabels = some p) := by
  refine ⟨fun _ h => buildContactProjection_congr h, fun hblocks p hp => ?_, fun hdirectory p hp => ?_⟩
  · obtain ⟨c, hc, happears, hproject⟩ := appears_of_mem hp
    refine ⟨c, hc, ?_, hproject⟩
    cases hblocked : c.blocked with
    | false => rfl
    | true => simp [appears, hblocks, hblocked] at happears
  · obtain ⟨c, hc, happears, hproject⟩ := appears_of_mem hp
    refine ⟨c, hc, ?_, hproject⟩
    cases hblocked : c.blocked with
    | false => simp [appears, hdirectory, hblocked] at happears
    | true => rfl

end

end SignetApp.Apps
