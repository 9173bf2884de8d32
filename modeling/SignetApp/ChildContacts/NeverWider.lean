import SignetApp.ChildContacts.DirectoryProjection
import SignetApp.ChildContacts.PolicyDecision
import SignetApp.ChildContacts.PublisherOrder
import SignetApp.Sync.Decimal

/-!
# Publications of one pairing

The publications of a directory are ordered by what they contain, in every run that keeps to `Allowed`.
-/

namespace SignetApp.ChildContacts

open SignetApp.Js SignetApp.Sync
open SignetApp.Contacts (BlockFact ContactRecord Hex64)
open PublisherWorld

section

variable [Numerals]

/-- Does the guardian's state have a block on the key? -/
def Blocks (p : DirectoryPairing) (scope : PublicationScope) (key : Hex64) : Prop :=
  ∃ guardian, isHex 64 (.str p.guardian) = some guardian ∧
    key ∈ blockedPeers (effectiveRecords guardian scope.settings scope.records)

/-- Is the event what the state reads as? -/
def Projects (p : DirectoryPairing) (t : Ticket) (event : SealedDirectory) (scope : PublicationScope) : Prop :=
  p.read scope event.view.revision event.view.issuedAt = some ⟨t.endpoint, event.view⟩

/-- **Publications are ordered by what they contain.** -/
structure Ordered (p : DirectoryPairing) (w : PublisherWorld) : Prop where
  increasing : w.handed.Pairwise fun a b => a.1 < b.1 ∧ a.2 < b.2
  handedOut : ∀ i t event m s, w.publishers i = .sent t event m s →
    (event.view.revision, event.createdAt) ∈ w.handed ∧ event.createdAt = event.view.issuedAt
  onePayload : ∀ i j t t' event event' m m' s s', w.publishers i = .sent t event m s →
    w.publishers j = .sent t' event' m' s' → event.view.revision = event'.view.revision → event = event'
  sinceReserved : ∀ i t event m s, w.publishers i = .sent t event m s →
    t.reservedAt ≤ m ∧ ∃ scope, w.stateAt m = some scope ∧ Projects p t event scope
  /-- No state older than that of a lower revision. -/
  neverOlder : ∀ i j t t' event event' m m' s s', w.publishers i = .sent t event m s →
    w.publishers j = .sent t' event' m' s' → event.view.revision < event'.view.revision →
    ∃ m'' scope, m ≤ m'' ∧ w.stateAt m'' = some scope ∧ Projects p t' event' scope
  /-- Whoever is blocked from the sending of a lower revision on is not in a higher one. -/
  staysBlocked : ∀ i j t t' event event' m m' s s', w.publishers i = .sent t event m s →
    w.publishers j = .sent t' event' m' s' → event.view.revision < event'.view.revision →
    ∀ key, (∀ m'' scope, s ≤ m'' → w.stateAt m'' = some scope → Blocks p scope key) →
      ∀ e ∈ event'.view.entries, key ∉ e.identities

variable {p : DirectoryPairing} {w : PublisherWorld}

variable {scope : PublicationScope}

theorem projects_of_reads {t : Ticket} (h : reads p t scope = true) :
    Projects p t t.event scope := by
  unfold reads at h
  exact of_decide_eq_true (p := p.read scope t.expected.revision t.expected.issuedAt = some t.binding) h

theorem not_listed (hint : IntegersSurvive) {revision : ℕ} {issuedAt : ℤ}
    {b : DirectoryBinding} (h : p.read scope revision issuedAt = some b) {key : Hex64}
    (hblocks : Blocks p scope key) : ∀ e ∈ b.view.entries, key ∉ e.identities := by
  obtain ⟨guardian, hguardian, hkey⟩ := hblocks
  simp only [DirectoryPairing.read, Option.bind_eq_bind, Option.bind_eq_some_iff, Option.pure_def,
    Option.some.injEq] at h
  obtain ⟨_, -, _, -, _, -, _, -, view, hview, rfl⟩ := h
  by_cases hwithdrawn : scope.dependant.autonomyStage = .fullControl
  · -- there are no records that an entry could be of
    intro e he
    obtain ⟨_, hentry⟩ := exists_record_of_project hint hview hguardian
    obtain ⟨record, hrecord, -⟩ := hentry e he
    simp [effectiveRecords, hwithdrawn] at hrecord
  · refine not_listed_of_blocked hint hview hguardian ?_
    simpa [hwithdrawn] using hkey

theorem PublisherWorld.Inv.ordered (h : Inv p w) (hint : IntegersSurvive) : Ordered p w := by
  have hsent : ∀ {i t event m s}, w.publishers i = .sent t event m s →
      w.Issued t ∧ event = t.event ∧ t.reservedAt ≤ m ∧ m ≤ s ∧ s ≤ w.moment ∧
        ∃ scope, w.stateAt m = some scope ∧ reads p t scope = true := by
    intro i t event m s hi
    have hk := h.keeps i
    rwa [hi] at hk
  have hcarried : ∀ {i t event m s}, w.publishers i = .sent t event m s →
      carried p (w.publishers i) = some (t, m) := by
    intro i t event m s hi
    rw [hi]
    rfl
  refine ⟨h.increasing, ?_, ?_, ?_, ?_, ?_⟩
  · intro i t event m s hi
    obtain ⟨hissued, rfl, -⟩ := hsent hi
    exact ⟨hissued.handed, rfl⟩
  · intro i j t t' event event' m m' s s' hi hj heq
    obtain ⟨-, rfl, -⟩ := hsent hi
    obtain ⟨-, rfl, -⟩ := hsent hj
    obtain rfl : i = j := h.own i j t t' (by rw [hi]; rfl) (by rw [hj]; rfl) heq
    cases hi.symm.trans hj
    rfl
  · intro i t event m s hi
    obtain ⟨-, rfl, hreserved, -, -, scope, hscope, hreads⟩ := hsent hi
    exact ⟨hreserved, scope, hscope, projects_of_reads hreads⟩
  · intro i j t t' event event' m m' s s' hi hj hlt
    obtain ⟨-, rfl, -, hms, -⟩ := hsent hi
    obtain ⟨-, rfl, -⟩ := hsent hj
    obtain ⟨m'', scope, hle, hscope, hreads⟩ := h.later i j t _ m s t' m' hi (hcarried hj) hlt
    exact ⟨m'', scope, hms.trans hle, hscope, projects_of_reads hreads⟩
  · intro i j t t' event event' m m' s s' hi hj hlt key hblocks
    obtain ⟨-, rfl, -⟩ := hsent hi
    obtain ⟨-, rfl, -⟩ := hsent hj
    obtain ⟨m'', scope, hle, hscope, hreads⟩ := h.later i j t _ m s t' m' hi (hcarried hj) hlt
    exact not_listed hint (projects_of_reads hreads) (hblocks m'' scope hle hscope)

/-- A world in which nobody has called yet. -/
structure PublisherWorld.Fresh (w : PublisherWorld) : Prop where
  handed : w.handed = []
  publishers : ∀ i, w.publishers i = .idle

theorem PublisherWorld.Fresh.inv (h : w.Fresh) : Inv p w := by
  refine ⟨?_, ?_, fun i => ?_, ?_, ?_⟩
  · rw [h.handed]
    exact List.Pairwise.nil
  · intro a ha
    rw [h.handed] at ha
    cases ha
  · rw [h.publishers i]
    trivial
  · intro i j t t' ht
    rw [h.publishers i] at ht
    cases ht
  · intro i j t event m s t' m' hi
    rw [h.publishers i] at hi
    cases hi

/-- The call that a happening is about, if it is about one. -/
def PublisherHappening.call? : PublisherHappening → Option ℕ
  | .edit _ => none
  | .call i | .read i | .resume i _ => some i

theorem next_publishers_of_ne {e : PublisherHappening} {j : ℕ} (h : e.call? ≠ some j) :
    (w.next p e).publishers j = w.publishers j := by
  have hsettle : ∀ {i : ℕ}, i ≠ j → ∀ phase, (w.settle i phase).publishers j = w.publishers j :=
    fun hij phase => Function.update_of_ne hij.symm _ _
  cases e with
  | edit scope => rfl
  | call i =>
    have hij : i ≠ j := fun heq => h (congrArg some heq)
    unfold PublisherWorld.next
    dsimp only
    split
    · exact hsettle hij _
    · rfl
  | read i =>
    have hij : i ≠ j := fun heq => h (congrArg some heq)
    show (w.read i).publishers j = w.publishers j
    unfold PublisherWorld.read
    split <;> first | exact hsettle hij _ | rfl
  | resume i c =>
    have hij : i ≠ j := fun heq => h (congrArg some heq)
    have hreserve : ∀ initial old revision issuedAt,
        (w.reserve i initial old revision issuedAt).publishers j = w.publishers j :=
      fun _ _ _ _ => Function.update_of_ne hij.symm _ _
    show (w.resume p i c).publishers j = w.publishers j
    unfold PublisherWorld.resume
    grind

variable {i : ℕ}

theorem allowed_of_alone (halone : ∀ j, j ≠ i → w.publishers j = .idle) (e : PublisherHappening) :
    Allowed p w e := by
  cases e with
  | resume k c =>
    intro t event scope readAt hk _ j t' m hj hlt
    have hki : k = i := by
      by_contra hne
      rw [halone k hne] at hk
      cases hk
    have hji : j = i := by
      by_contra hne
      rw [halone j hne] at hj
      cases hj
    rw [hji, ← hki, hk] at hj
    simp only [carried, Option.ite_none_right_eq_some, Option.some.injEq, Prod.mk.injEq] at hj
    obtain ⟨-, rfl, -⟩ := hj
    exact absurd hlt (Nat.lt_irrefl _)
  | _ => trivial

theorem reaches_of_alone {es : List PublisherHappening}
    (halone : ∀ j, j ≠ i → w.publishers j = .idle) (hes : ∀ e ∈ es, e.call? = some i ∨ e.call? = none) :
    Reaches (PublisherWorld.next p) (Allowed p) w (es.foldl (PublisherWorld.next p) w) := by
  have hstill : ∀ es : List PublisherHappening, (∀ e ∈ es, e.call? = some i ∨ e.call? = none) →
      ∀ j, j ≠ i → (es.foldl (PublisherWorld.next p) w).publishers j = .idle := by
    intro es
    induction es using List.reverseRecOn with
    | nil => exact fun _ => halone
    | append_singleton es e ih =>
      intro hes j hj
      rw [List.foldl_append, List.foldl_cons, List.foldl_nil, next_publishers_of_ne]
      · exact ih (fun e he => hes e (List.mem_append_left _ he)) j hj
      · rcases hes e (List.mem_append_right _ List.mem_cons_self) with hcall | hcall
        · rw [hcall]
          exact fun heq => hj (Option.some.inj heq).symm
        · simp [hcall]
  exact Reaches.run fun n e _ =>
    allowed_of_alone (hstill _ fun e he => hes e (List.mem_of_mem_take he)) e

end

/-! ## Two calls that cross -/

def samplePairing : DirectoryPairing where
  guardian := (Hex.repeated 64 0).val
  child := (Hex.repeated 64 1).val
  endpoint := (Hex.repeated 64 2).val
  recipient := (Hex.repeated 64 3).val

def samplePersona : Hex64 := Hex.repeated 64 4

def sampleFriend : Hex64 := Hex.repeated 64 5

theorem noTime_nonneg : (0 : ℚ) ≤ 0 := le_refl 0

def noTime : Timestamp := ⟨0, noTime_nonneg⟩

def sampleBlock : BlockFact where
  blockedBy := Hex.repeated 64 0
  scope := .contact
  blockedAt := noTime
  reason := none
  operationId := Hex.repeated 32 0
  liftedByOperationId := none

def sampleRecord (blocks : List BlockFact) : ContactRecord where
  directoryId := .dependant (Hex.repeated 64 1)
  contactId := Hex.repeated 32 1
  type := .person
  displayName := ⟨lit "Finn", by decide⟩
  tier := .ken
  roles := []
  identities := [{
    itemId := Hex.repeated 32 2
    pubkey := sampleFriend
    label := none
    provenance := .direct
    verification := .unverified
    direct := none
    linkedFromItemId := none
    addedAt := noTime }]
  lifecycle := .active
  createdAt := noTime
  updatedAt := noTime
  createdByActorRole := .guardian
  createdByOperationId := Hex.repeated 32 3
  blocks := blocks
  listMemberships := some [{
    ownerIdentityPubkey := samplePersona
    addedAt := noTime
    removedAt := none }]

def sampleScope (blocks : List BlockFact) : PublicationScope where
  dependant := {
    id := samplePairing.child
    guardianPubkey := samplePairing.guardian
    autonomyStage := .fullAutonomy
    naturalPerson := { publicKey := [], displayName := [] }
    naturalPersonActive := none
    persona := { publicKey := samplePersona.val, displayName := lit "Kit" }
    extraPersonas := []
    hiddenOnPairedDeviceKeys := []
    bunkerEndpoint := some {
      publicKey := samplePairing.endpoint
      privateKey := (Hex.repeated 64 6).val
      createdAt := 0
      authorizedClientPubkey := some samplePairing.recipient } }
  settings := none
  records := [sampleRecord blocks]

/-- Finn is blocked. -/
def sampleStart : PublisherWorld where
  scope := sampleScope [sampleBlock]
  history := []
  row := none
  handed := []
  publishers := fun _ => .idle

theorem sampleStart_fresh : sampleStart.Fresh := ⟨rfl, fun _ => rfl⟩

def sampleCircumstances : Circumstances where
  isCurrent := true
  succeeded := true
  signer := samplePairing.endpoint
  now := 1000
  later := 1000

/-- A call as far as its revision. -/
def opens (i : ℕ) : List PublisherHappening :=
  [.call i, .read i, .resume i sampleCircumstances]

def reserves (i : ℕ) : List PublisherHappening := [.read i, .resume i sampleCircumstances]

/-- And on to its event. -/
def finishes (i : ℕ) : List PublisherHappening :=
  [.resume i sampleCircumstances, .read i, .resume i sampleCircumstances, .resume i sampleCircumstances,
    .read i, .resume i sampleCircumstances]

/-- The first call opens, Finn is let in, the first call has its revision; the second call is made and sends its
event; Finn is blocked again, and the first call sends its own. -/
def crossing : List PublisherHappening :=
  opens 0 ++ [.edit (sampleScope [])] ++ reserves 0 ++ opens 1 ++ reserves 1 ++ finishes 1 ++
    [.edit (sampleScope [sampleBlock])] ++ finishes 0

/-- An event that was sent, and when. -/
def sentAs (check : SealedDirectory → ℕ → Bool) : PublisherPhase → Bool
  | .sent _ event _ sentAt => check event sentAt
  | _ => false

theorem exists_of_sentAs {check : SealedDirectory → ℕ → Bool} {phase : PublisherPhase}
    (h : sentAs check phase = true) :
    ∃ t event m s, phase = .sent t event m s ∧ check event s = true := by
  cases phase with
  | sent t event m s => exact ⟨t, event, m, s, rfl, h⟩
  | _ => cases h

section

attribute [local instance] decimalNumerals

def crossed : PublisherWorld := crossing.foldl (PublisherWorld.next samplePairing) sampleStart

theorem crossed_lower :
    sentAs (fun event s => event.view.revision = 1 ∧ s = 2) (crossed.publishers 0) = true := by
  decide +kernel

theorem crossed_higher : sentAs (fun event _ => event.view.revision = 2 ∧
    event.view.entries.any (fun e => decide (sampleFriend ∈ e.identities))) (crossed.publishers 1) = true := by
  decide +kernel

theorem crossed_scope : crossed.history.length = 2 ∧ crossed.scope = sampleScope [sampleBlock] := by
  decide +kernel

/-- One call with nobody beside it. -/
def single : List PublisherHappening := opens 0 ++ reserves 0 ++ finishes 0

end

end SignetApp.ChildContacts

/-!
## A child's view is never wider than the guardian's decision

However the views arrive, and wherever a directory has room.
-/

namespace SignetApp.ChildContacts

open SignetApp.Js SignetApp.Sync
open SignetApp.Disagreement (mergeAll)
open SignetApp.Contacts (ContactRecord EffectiveContact Hex64)
open SignetApp.Family.ChildContact (contactInviteDecision)

section

variable [Numerals]

/-- A view of the pairing that the phone has read. -/
structure Received (guardian recipient : Hex64) (view : ChildContactPolicyView) : Prop where
  guardian : view.guardian = guardian
  recipient : view.recipient = recipient
  read : ∃ raw, parseChildContactPolicy raw = some view

variable {view : ChildContactPolicyView} {guardian recipient : Hex64}

theorem Received.tidy (h : Received guardian recipient view) : view.Tidy := by
  obtain ⟨raw, hraw⟩ := h.read
  exact tidy_of_parsePolicy hraw

theorem Received.ofPairing
    (h : Received guardian recipient view) : OfPairing guardian recipient view :=
  ⟨h.guardian, h.recipient, h.tidy.allowed, h.tidy.blocked⟩

/-- What is merged from the views: no more than each of the newest allows, and everybody that one blocks. -/
structure NoWider (views : List ChildContactPolicyView) (result : ChildContactPolicyView) : Prop where
  newest : ∀ view ∈ views, view.revision ≤ result.revision
  ofOne : ∃ view ∈ views, view.revision = result.revision
  allows : ∀ view ∈ views, view.revision = result.revision → ∀ peer now,
    childContactPolicyDecision (some result) peer now = .allow →
      childContactPolicyDecision (some view) peer now = .allow
  blocks : ∀ view ∈ views, view.revision = result.revision → ∀ key ∈ view.blocked, key ∈ result.blocked

variable {views : List ChildContactPolicyView}

omit [Numerals] in
theorem noWider_of_left
    {result : ChildContactPolicyView} (h : (policies guardian recipient).Left views result) :
    NoWider views result where
  newest := h.age_le
  ofOne := h.exists_age_eq
  allows _ hview hnewest _ _ hallow := allow_of_left h hallow hview hnewest
  blocks _ hview hnewest := (lists_of_left h hview hnewest).2

/-- What is merged from directories: no entry that one of the newest does not have. -/
structure NoMoreEntries (directories : List ChildContactDirectory) (result : ChildContactDirectory) : Prop where
  newest : ∀ d ∈ directories, d.revision ≤ result.revision
  ofOne : ∃ d ∈ directories, d.revision = result.revision
  entries : ∀ d ∈ directories, d.revision = result.revision → ∀ e ∈ result.entries, e ∈ d.entries

variable {ds : List ChildContactDirectory}

omit [Numerals] in
theorem noMoreEntries_of_left
    {result : ChildContactDirectory} (h : (directories guardian recipient).Left ds result) :
    NoMoreEntries ds result where
  newest := h.age_le
  ofOne := h.exists_age_eq
  entries d hd hnewest e he := by
    cases h with
    | one ha hle hone => rwa [hone d hd hnewest]
    | settled ha hb hage hne hle hlub => cases he

theorem decode_tidy (hint : IntegersSurvive) (hdecimal : IntegersInDecimal)
    (h : view.Tidy) : decode view.guardian view.recipient (some (jsonText view.toJs)) = some (some view) := by
  have hread := parse_tidy hint hdecimal h
  unfold decode
  simp [hread, Option.filter]

theorem view_of_project (hint : IntegersSurvive) (hdecimal : IntegersInDecimal) {s : PolicyScope} {now : ℕ} (h : projectChildContactPolicy s now = some view) {child : Hex64}
    (hchild : child.val = s.child) (hguardian : guardian.val = s.guardian) :
    parseChildContactPolicy (jsonText view.toJs) = some view ∧
      ∀ peer later, later ≤ maxTime → view.revision ≤ later + 300 → later < view.expiresAt →
        childContactPolicyDecision (some view) peer later =
          contactInviteDecision peer s.records (.dependant child) s.settings [guardian] := by
  have htidy : view.Tidy := by
    unfold projectChildContactPolicy at h
    simp only [Option.bind_eq_bind, Option.bind_eq_some_iff] at h
    obtain ⟨_, -, _, -, _, -, _, -, _, -, _, -, _, -, _, -, h⟩ := h
    exact tidy_of_parsePolicy h
  exact ⟨parse_tidy hint hdecimal htidy, fun peer later hlater hfrom huntil =>
    projected_decision hint h hchild hguardian hlater hfrom huntil peer⟩

theorem merged_views (hint : IntegersSurvive) (hdecimal : IntegersInDecimal) (hviews : ∀ view ∈ views, Received guardian recipient view)
    (hne : views ≠ []) :
    ∃ result, mergeAll mergeChildContactPolicy views = some (some result) ∧
      (∀ views', (∀ view, view ∈ views' ↔ view ∈ views) →
        mergeAll mergeChildContactPolicy views' = some (some result)) ∧
      NoWider views result ∧
      ((keysOf views result.revision).length ≤ maxPeers →
        decode guardian recipient (some (jsonText result.toJs)) = some (some result)) := by
  have hof := fun view hview => (hviews view hview).ofPairing
  obtain ⟨result, hresult, hleft, hpairing⟩ := (merges_policies hint).left hof hne
  refine ⟨result, hresult, fun views' hmem => ?_, noWider_of_left hleft, fun hroom => ?_⟩
  · rw [← hresult]
    exact (merges_policies hint).congr (fun view hview => hof view ((hmem view).1 hview)) hmem
  · have hread := decode_tidy hint hdecimal (tidy_of_left hleft (fun view hview => (hviews view hview).tidy) hroom)
    rwa [hpairing.guardian, hpairing.recipient] at hread

theorem merged_directories (hint : IntegersSurvive) (hdecimal : IntegersInDecimal) (hds : ∀ d ∈ ds, Accepted guardian recipient d) (hne : ds ≠ []) :
    ∃ result, mergeAll mergeChildContactDirectory ds = some (some result) ∧
      (∀ ds', (∀ d, d ∈ ds' ↔ d ∈ ds) → mergeAll mergeChildContactDirectory ds' = some (some result)) ∧
      NoMoreEntries ds result ∧ Accepted guardian recipient result := by
  obtain ⟨result, hresult, hleft, haccepted⟩ := (merges_directories hint hdecimal).left hds hne
  refine ⟨result, hresult, fun ds' hmem => ?_, noMoreEntries_of_left hleft, haccepted⟩
  rw [← hresult]
  exact (merges_directories hint hdecimal).congr (fun d hd => hds d ((hmem d).1 hd)) hmem

/-- **The child's view is never wider than the guardian's decision.** -/
theorem view_never_wider (hint : IntegersSurvive) (hdecimal : IntegersInDecimal) :
    (∀ s now view (child guardian : Hex64), projectChildContactPolicy s now = some view → child.val = s.child →
      guardian.val = s.guardian →
        parseChildContactPolicy (jsonText view.toJs) = some view ∧
        ∀ peer later, later ≤ maxTime → view.revision ≤ later + 300 → later < view.expiresAt →
          childContactPolicyDecision (some view) peer later =
            contactInviteDecision peer s.records (.dependant child) s.settings [guardian]) ∧
    (∀ guardian recipient views, (∀ view ∈ views, Received guardian recipient view) → views ≠ [] →
      ∃ result, mergeAll mergeChildContactPolicy views = some (some result) ∧
        (∀ views', (∀ view, view ∈ views' ↔ view ∈ views) →
          mergeAll mergeChildContactPolicy views' = some (some result)) ∧
        NoWider views result ∧
        ((keysOf views result.revision).length ≤ maxPeers →
          decode guardian recipient (some (jsonText result.toJs)) = some (some result))) ∧
    (∀ guardian recipient ds, (∀ d ∈ ds, Accepted guardian recipient d) → ds ≠ [] →
      ∃ result, mergeAll mergeChildContactDirectory ds = some (some result) ∧
        (∀ ds', (∀ d, d ∈ ds' ↔ d ∈ ds) → mergeAll mergeChildContactDirectory ds' = some (some result)) ∧
        NoMoreEntries ds result ∧ Accepted guardian recipient result) ∧
    (∀ s child guardian recipient personas, InScope s child guardian recipient personas →
      ∀ revision now, revision ≤ maxTime → now + ttl ≤ maxTime →
        (s.records.map fun record => record.contactId).Nodup →
        Fits (projected guardian recipient personas s.settings s.records revision now) →
          (projectChildContactDirectory s revision now).isSome) ∧
    (∀ s revision now d (guardian : Hex64), projectChildContactDirectory s revision now = some d →
      guardian.val = s.guardian →
        parseChildContactDirectory (jsonText d.toJs) = some d ∧
        ∀ e ∈ d.entries, ∃ record ∈ effectiveRecords guardian s.settings s.records,
          Shows (blockedPeers (effectiveRecords guardian s.settings s.records)) record e) := by
  refine ⟨fun _ _ _ _ _ h hchild hguardian => view_of_project hint hdecimal h hchild hguardian,
    fun _ _ _ hviews hne => merged_views hint hdecimal hviews hne,
    fun _ _ _ hds hne => merged_directories hint hdecimal hds hne, ?_, ?_⟩
  · intro s child guardian recipient personas hscope revision now hrevision hnow hids hfits
    rw [project_of_fits hint hscope hnow hrevision hids hfits]
    rfl
  · intro s revision now d guardian h hguardian
    have hread : isHex 64 (.str s.guardian) = some guardian := by
      rw [← hguardian]
      exact isHex_toJs guardian
    exact ⟨parse_of_project hint h hread, shows_of_project hint h hread⟩

end

/-! ## A run -/

section

attribute [local instance] decimalNumerals

def sampleDirectoryScope (records : List ContactRecord) : ProjectionScope where
  child := samplePairing.child
  guardian := samplePairing.guardian
  recipient := samplePairing.recipient
  availablePersonas := [samplePersona.val]
  settings := none
  records

/-- A name of two digits. -/
def numbered (n : ℕ) (a b : Fin 16) : Hex (n + 1) :=
  ⟨hexDigit a :: List.replicate n (hexDigit b), by simp [isHexOf, isHexDigit_hexDigit]⟩

/-- Finn with more keys than an entry has room for. -/
def crowdedRecord : ContactRecord :=
  { sampleRecord [] with
    identities := (sampleRecord []).identities.flatMap fun identity =>
      (List.finRange 16).flatMap fun a => [0, 1, 2].map fun b =>
        { identity with itemId := numbered 31 a b, pubkey := numbered 63 a b } }

/-- Finn's old record, removed. -/
def removedRecord : ContactRecord := { sampleRecord [] with contactId := Hex.repeated 32 4, removedAt := some noTime }

/-- What is projected of Finn is read again. -/
theorem sample_never_wider :
    (projectChildContactDirectory (sampleDirectoryScope [sampleRecord []]) 0 1000).isSome = true ∧
    ∀ d ∈ projectChildContactDirectory (sampleDirectoryScope [sampleRecord []]) 0 1000,
      parseChildContactDirectory (jsonText d.toJs) = some d :=
  ⟨by decide +kernel, fun _ hd =>
    ((view_never_wider integersSurvive_decimal integersInDecimal_decimal).2.2.2.2 _ _ _ _ (Hex.repeated 64 0) hd
      rfl).1⟩

/-- A record may have more keys than an entry, and a key may be on a removed record and on a current one. -/
theorem project_throws_or_shows_removed :
    projectChildContactDirectory (sampleDirectoryScope [crowdedRecord]) 0 1000 = none ∧
    (projectChildContactDirectory (sampleDirectoryScope [removedRecord, sampleRecord []]) 0 1000).any (fun d =>
      d.entries.any fun e => e.identities.contains sampleFriend) = true ∧
    removedRecord.removedAt ≠ none ∧ removedRecord.identities.any (fun i => i.pubkey = sampleFriend) = true := by
  refine ⟨?_, ?_, ?_, ?_⟩ <;> decide +kernel

end

end SignetApp.ChildContacts
