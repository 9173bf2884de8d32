import Mathlib.Data.Prod.Lex
import SignetApp.Apps.Registry
import SignetApp.Collections.Replaced
import SignetApp.Concurrency.Reach
import SignetApp.Contacts.Types
import SignetApp.Sync.Wire

/-!
# Companion snapshots

`companion-rail.ts`: the contacts that a companion app is shown, and the digest by which a snapshot is known
again. How a contact is shown is kenspeckle's, and taken as it comes.
-/

namespace SignetApp.Companion

open SignetApp.Js SignetApp.Sync
open SignetApp.Contacts (ContactTier Hex64)

/-- A contact of one of the owner's personas; `rest` is what its view alone depends on. -/
structure KindredEntry (ρ : Type) where
  pubkey : Hex64
  ownerPubkey : Hex64
  tier : ContactTier
  addedAt : JsNumber
  rest : ρ

inductive PersonaScope where
  | all
  | only (personas : List JsString)
  deriving DecidableEq

structure GrantScope where
  tiers : List ContactTier
  personas : PersonaScope
  deriving DecidableEq

def PersonaScope.toJs : PersonaScope → JsValue
  | .all => .ofLit "all"
  | .only personas => .arr (personas.map .str)

def GrantScope.toJs (scope : GrantScope) : JsValue :=
  .obj [("tiers", .arr (scope.tiers.map StringUnion.toJs)), ("personas", scope.personas.toJs)]

def PersonaScope.includes (personas : PersonaScope) (owner : Hex64) : Bool :=
  match personas with
  | .all => true
  | .only personas => personas.contains owner.val

/-! ## Filtering -/

def grantContactsCap : ℕ := 5000

/-- The whole seconds of a time, if they are a safe integer. -/
def sanitiseAddedAt : JsNumber → Option ℕ
  | .finite q => if 0 ≤ ⌊q⌋ ∧ ⌊q⌋ ≤ maxSafeInteger then some ⌊q⌋.toNat else none
  | _ => none

section

variable {ρ : Type}

/-- An entry as the scope lets it through. -/
def admitEntry (scope : GrantScope) (e : KindredEntry ρ) : Option (KindredEntry ρ) :=
  if scope.tiers.contains e.tier && scope.personas.includes e.ownerPubkey then
    (sanitiseAddedAt e.addedAt).map fun (t : ℕ) => { e with addedAt := .finite t }
  else none

def KindredEntry.time (e : KindredEntry ρ) : ℚ :=
  match e.addedAt with
  | .finite q => q
  | _ => 0

/-- What the trim sorts by: the latest first, then the owner, the tier and the key. -/
def KindredEntry.trimKey (e : KindredEntry ρ) : ℚᵒᵈ ×ₗ Hex64 ×ₗ JsString ×ₗ Hex64 :=
  toLex (OrderDual.toDual e.time, toLex (e.ownerPubkey, toLex (lit (StringUnion.name e.tier), e.pubkey)))

def filterByScope (entries : List (KindredEntry ρ)) (scope : GrantScope) : List (KindredEntry ρ) :=
  let inScope := entries.filterMap (admitEntry scope)
  if inScope.length ≤ grantContactsCap then inScope
  else (inScope.insertionSort fun a b => a.trimKey ≤ b.trimKey).take grantContactsCap

/-! ## Digests -/

/-- `toGrantView`. -/
class GrantViews (ρ : Type) where
  toGrantView : KindredEntry ρ → JsValue

/-- A view has its contact's key, and is an object of its own fields. -/
structure GrantViews.Documented (ρ : Type) [Numerals] [GrantViews ρ] : Prop where
  pubkey : ∀ e : KindredEntry ρ, (toGrantView e).get "pubkey" = e.pubkey.toJs
  json : ∀ e : KindredEntry ρ, IsJson (toGrantView e)

def pubkeyOf (view : JsValue) : JsString :=
  match view.get "pubkey" with
  | .str s => s
  | _ => []

variable [Numerals] [Sha256]

/-- What is hashed. -/
def canonical (scope : GrantScope) (views : List JsValue) : JsString :=
  jsonText (.obj [("scope", scope.toJs),
    ("sorted", .arr (views.insertionSort fun a b => pubkeyOf a ≤ pubkeyOf b))])

def hashSnapshot (scope : GrantScope) (views : List JsValue) : Hex64 := Sha256.hex (canonical scope views)

def snapshotViews [GrantViews ρ] (scope : GrantScope) (entries : List (KindredEntry ρ)) : List JsValue :=
  (filterByScope entries scope).map GrantViews.toGrantView

end

/-! ## Texts -/

theorem PersonaScope.toJs_injective : Function.Injective PersonaScope.toJs := by
  rintro (_ | ps) (_ | qs) h
  · rfl
  · cases h
  · cases h
  · have hmap : ps.map JsValue.str = qs.map JsValue.str := JsValue.arr.inj h
    rw [List.map_injective_iff.2 (fun _ _ h => JsValue.str.inj h) hmap]

theorem GrantScope.toJs_injective : Function.Injective GrantScope.toJs := by
  rintro ⟨ts, ps⟩ ⟨us, qs⟩ h
  simp only [GrantScope.toJs, JsValue.obj.injEq, List.cons.injEq, Prod.mk.injEq, JsValue.arr.injEq, true_and,
    and_true] at h
  obtain ⟨htiers, hpersonas⟩ := h
  have htier : Function.Injective (StringUnion.toJs : ContactTier → JsValue) := by
    intro t u htu
    have hread := congrArg (StringUnion.parse : JsValue → Option ContactTier) htu
    simpa using hread
  rw [List.map_injective_iff.2 htier htiers, PersonaScope.toJs_injective hpersonas]

section

variable [Numerals]

theorem GrantScope.isJson_toJs (scope : GrantScope) : IsJson scope.toJs := by
  have htiers : IsJson (.arr (scope.tiers.map StringUnion.toJs)) := by
    rw [IsJson, areJson_iff]
    intro v hv
    obtain ⟨t, -, rfl⟩ := List.mem_map.1 hv
    exact isJson_ofLit _
  have hpersonas : IsJson scope.personas.toJs := by
    cases scope.personas with
    | all => exact isJson_ofLit _
    | only ps => exact isJson_map_str ps
  simp only [GrantScope.toJs, IsJson, HoldJson, and_true, List.map_cons, List.map_nil]
  exact ⟨by decide, htiers, hpersonas⟩

theorem jsonText_injective {v w : JsValue} (hv : IsJson v) (hw : IsJson w) (h : jsonText v = jsonText w) :
    v = w := by
  have hread := parse_jsonText hv
  rw [h, parse_jsonText hw] at hread
  exact (Option.some.inj hread).symm

end

/-! ## The order of a list does not show -/

section

variable {ρ : Type}

theorem sort_eq_of_perm {α κ : Type} [LinearOrder κ] {key : α → κ} {as bs : List α} (h : as.Perm bs)
    (hkey : ∀ a ∈ as, ∀ b ∈ as, key a = key b → a = b) :
    as.insertionSort (fun a b => key a ≤ key b) = bs.insertionSort (fun a b => key a ≤ key b) := by
  have hmem : ∀ a, a ∈ as.insertionSort (fun a b => key a ≤ key b) → a ∈ as :=
    fun a => (List.perm_insertionSort _ as).mem_iff.1
  have hmem' : ∀ b, b ∈ bs.insertionSort (fun a b => key a ≤ key b) → b ∈ as :=
    fun b hb => h.mem_iff.2 ((List.perm_insertionSort _ bs).mem_iff.1 hb)
  have hanti : ∀ a b, a ∈ as.insertionSort (fun a b => key a ≤ key b) →
      b ∈ bs.insertionSort (fun a b => key a ≤ key b) → key a ≤ key b → key b ≤ key a → a = b := by
    intro a b ha hb hab hba
    exact hkey a (hmem a ha) b (hmem' b hb) (le_antisymm hab hba)
  refine List.Perm.eq_of_pairwise hanti ?_ ?_ ?_
  · exact List.pairwise_insertionSort (fun a b => key a ≤ key b) as
  · exact List.pairwise_insertionSort (fun a b => key a ≤ key b) bs
  · exact ((List.perm_insertionSort _ as).trans h).trans (List.perm_insertionSort _ bs).symm

variable {scope : GrantScope} {entries entries' : List (KindredEntry ρ)}

theorem filterByScope_perm (h : entries.Perm entries') (hone : ∀ a ∈ entries.filterMap (admitEntry scope), ∀ b ∈ entries.filterMap (admitEntry scope),
      a.pubkey = b.pubkey → a = b) :
    (filterByScope entries scope).Perm (filterByScope entries' scope) := by
  have hscope := h.filterMap (admitEntry scope)
  unfold filterByScope
  dsimp only
  rw [← hscope.length_eq]
  split
  · exact hscope
  · rw [sort_eq_of_perm hscope]
    intro a ha b hb hkey
    refine hone a ha b hb ?_
    simp only [KindredEntry.trimKey, toLex_inj, Prod.mk.injEq] at hkey
    exact hkey.2.2.2

variable [Numerals] [Sha256]

variable {views views' : List JsValue}

theorem hashSnapshot_perm (h : views.Perm views') (scope : GrantScope)
    (hone : ∀ v ∈ views, ∀ w ∈ views, pubkeyOf v = pubkeyOf w → v = w) :
    hashSnapshot scope views = hashSnapshot scope views' := by
  unfold hashSnapshot canonical
  rw [sort_eq_of_perm h hone]

omit [Sha256] in
theorem pubkeyOf_toGrantView [GrantViews ρ] (hviews : GrantViews.Documented ρ) (e : KindredEntry ρ) :
    pubkeyOf (GrantViews.toGrantView e) = e.pubkey.val := by
  unfold pubkeyOf
  rw [hviews.pubkey e]
  rfl

theorem hashSnapshot_views_perm [GrantViews ρ] (hviews : GrantViews.Documented ρ) (h : entries.Perm entries')
    (hone : ∀ a ∈ entries.filterMap (admitEntry scope), ∀ b ∈ entries.filterMap (admitEntry scope),
      a.pubkey = b.pubkey → a = b) :
    hashSnapshot scope (snapshotViews scope entries) = hashSnapshot scope (snapshotViews scope entries') := by
  refine hashSnapshot_perm ((filterByScope_perm h hone).map _) scope ?_
  have hsub : ∀ e ∈ filterByScope entries scope, e ∈ entries.filterMap (admitEntry scope) := by
    intro e he
    unfold filterByScope at he
    dsimp only at he
    split at he
    · exact he
    · exact (List.perm_insertionSort _ _).mem_iff.1 (List.mem_of_mem_take he)
  intro v hv w hw heq
  obtain ⟨a, ha, rfl⟩ := List.mem_map.1 hv
  obtain ⟨b, hb, rfl⟩ := List.mem_map.1 hw
  rw [pubkeyOf_toGrantView hviews, pubkeyOf_toGrantView hviews] at heq
  rw [hone a (hsub a ha) b (hsub b hb) (Subtype.ext heq)]

/-! ## What is shared shows -/

theorem perm_of_hashSnapshot_eq {scope' : GrantScope}
    (hjson : ∀ v ∈ views, IsJson v) (hjson' : ∀ v ∈ views', IsJson v)
    (hfree : Sha256.hex (canonical scope views) = Sha256.hex (canonical scope' views') →
      canonical scope views = canonical scope' views')
    (h : hashSnapshot scope views = hashSnapshot scope' views') : scope = scope' ∧ views.Perm views' := by
  have hobject : ∀ (s : GrantScope) (vs : List JsValue), (∀ v ∈ vs, IsJson v) →
      IsJson (.obj [("scope", s.toJs),
        ("sorted", .arr (vs.insertionSort fun a b => pubkeyOf a ≤ pubkeyOf b))]) := by
    intro s vs hvs
    simp only [IsJson, HoldJson, and_true, List.map_cons, List.map_nil]
    refine ⟨by decide, s.isJson_toJs, areJson_iff.2 fun v hv => hvs v ?_⟩
    exact (List.perm_insertionSort _ _).mem_iff.1 hv
  have htext := jsonText_injective (hobject _ _ hjson) (hobject _ _ hjson') (hfree h)
  simp only [JsValue.obj.injEq, List.cons.injEq, Prod.mk.injEq, JsValue.arr.injEq, true_and, and_true] at htext
  obtain ⟨hscope, hsorted⟩ := htext
  refine ⟨GrantScope.toJs_injective hscope, ?_⟩
  have hperm := List.perm_insertionSort (fun a b => pubkeyOf a ≤ pubkeyOf b) views
  rw [hsorted] at hperm
  exact hperm.symm.trans (List.perm_insertionSort _ _)

end

end SignetApp.Companion

/-!
## The companion rail

`companion-rail.ts` and `useCompanionRail.ts`: the passes that publish snapshots, and the revocations of
grants, of one device. Each pass over a grant goes on by itself, as it would if it were the only one its pass
comes to. Every step has the time of its own at which it is taken.
-/

namespace SignetApp.Companion

open SignetApp.Js SignetApp.Sync
open SignetApp.Apps (isValidRelayUrl)
open SignetApp.Contacts (Hex64)

/-! ## Grants -/

structure CompanionGrant where
  appPubkey : Hex64
  snapshotRelay : JsString
  scope : GrantScope
  lastPublishedAt : Option ℤ := none
  lastPayloadHash : Option Hex64 := none
  revokedAt : Option ℤ := none
  deriving DecidableEq

/-- `if (grant.revokedAt)`: a time of zero is none. -/
def CompanionGrant.isRevoked (g : CompanionGrant) : Bool := g.revokedAt.any (· ≠ 0)

def companionGrantCap : ℕ := 5

def getCompanionGrant (rows : List CompanionGrant) (app : Hex64) : Option CompanionGrant :=
  rows.find? fun g => g.appPubkey = app

/-- Does `saveCompanionGrant` come to its write? -/
def maySave (rows : List CompanionGrant) (g : CompanionGrant) : Bool :=
  (getCompanionGrant rows g.appPubkey).isSome || decide (rows.length < companionGrantCap)

def deleteCompanionGrant (rows : List CompanionGrant) (app : Hex64) : List CompanionGrant :=
  rows.filter fun g => g.appPubkey ≠ app

/-- `grant.snapshotRelay || relayUrl`. -/
def CompanionGrant.relay (g : CompanionGrant) (relayUrl : JsString) : JsString :=
  if g.snapshotRelay = [] then relayUrl else g.snapshotRelay

/-! ## Events -/

/-- An event under the address of an app's rail key. -/
structure RailEvent where
  relay : JsString
  app : Hex64
  createdAt : ℤ
  views : List JsValue
  revoked : Bool
  /-- When the row was read that it was made for. -/
  readAt : ℕ
  deriving DecidableEq

/-! ## Passes and revocations -/

inductive PublishPhase where
  | idle
  | listing
  | holding (g : CompanionGrant) (readAt : ℕ)
  | publishing (g : CompanionGrant) (event : RailEvent) (hash : Hex64)
  /-- It reads the row again before it writes. -/
  | checking (g : CompanionGrant) (hash : Hex64)
  | saving (g : CompanionGrant) (hash : Hex64) (checkedAt : ℕ)
  | putting (g : CompanionGrant) (hash : Hex64) (checkedAt : ℕ)
  | wrote (app : Hex64) (checkedAt wroteAt : ℕ)
  | done
  deriving DecidableEq

inductive RevokePhase where
  | idle
  | tombstoning (g : CompanionGrant) (relayUrl : JsString) (now : ℤ)
  | publishing (g : CompanionGrant) (relayUrl : JsString) (now : ℤ) (event : RailEvent)
  /-- The tombstone is accepted; what is left is the deletion request, and then the row. -/
  | deleting (g : CompanionGrant) (relayUrl : JsString) (now : ℤ)
  | softening (g : CompanionGrant) (relayUrl : JsString) (now : ℤ)
  | putting (g : CompanionGrant) (relayUrl : JsString) (now : ℤ)
  | returned (g : CompanionGrant) (relayUrl : JsString) (now : ℤ) (tombstoned : Bool) (wroteAt : ℕ)
  | threw
  deriving DecidableEq

structure RailWorld where
  clock : ℕ
  rows : List CompanionGrant
  /-- The events that were signed and sent, and those of them that have come to their relay. -/
  sent : List RailEvent
  events : List RailEvent
  passes : ℕ → PublishPhase
  revocations : ℕ → RevokePhase

inductive RailHappening (ρ : Type) where
  | publish (i : ℕ)
  /-- The rows are read, and the pass comes to an app whose backend it has. -/
  | list (i : ℕ) (app : Hex64)
  /-- The snapshot is built and signed, if nothing fails. -/
  | sign (i : ℕ) (now : ℤ) (relayUrl : JsString) (entries : List (KindredEntry ρ)) (signed : Bool)
  /-- What was sent comes to its relay, or comes there again. -/
  | deliver (k : ℕ)
  | answer (i : ℕ) (ok : Bool)
  | check (i : ℕ)
  | save (i : ℕ)
  | put (i : ℕ) (now : ℤ)
  | revoke (r : ℕ) (g : CompanionGrant) (relayUrl : JsString) (now : ℤ)
  | signTombstone (r : ℕ) (signed : Bool)
  | answerTombstone (r : ℕ) (ok : Bool)
  | delete (r : ℕ)
  | soften (r : ℕ)
  | putSoft (r : ℕ)

namespace RailWorld

def goesOn (w : RailWorld) (i : ℕ) (phase : PublishPhase) : RailWorld :=
  { w with passes := Function.update w.passes i phase }

def revokes (w : RailWorld) (r : ℕ) (phase : RevokePhase) : RailWorld :=
  { w with revocations := Function.update w.revocations r phase }

def put (w : RailWorld) (g : CompanionGrant) : RailWorld :=
  { w with rows := replace CompanionGrant.appPubkey w.rows g }

def sends (w : RailWorld) (event : RailEvent) : RailWorld := { w with sent := w.sent ++ [event] }

def tombstone (w : RailWorld) (g : CompanionGrant) (relayUrl : JsString) (now : ℤ) : RailEvent where
  relay := g.relay relayUrl
  app := g.appPubkey
  createdAt := now
  views := []
  revoked := true
  readAt := w.clock

def tick (w : RailWorld) : RailWorld := { w with clock := w.clock + 1 }

variable {ρ : Type} [GrantViews ρ] [Numerals] [Sha256]

def step (w : RailWorld) : RailHappening ρ → RailWorld
  | .publish i =>
    match w.passes i with
    | .idle => w.goesOn i .listing
    | _ => w
  | .list i app =>
    match w.passes i with
    | .listing =>
      match getCompanionGrant w.rows app with
      | some g => if g.isRevoked then w.goesOn i .done else w.goesOn i (.holding g w.clock)
      | none => w.goesOn i .done
    | _ => w
  | .sign i now relayUrl entries signed =>
    match w.passes i with
    | .holding g readAt =>
      let views := snapshotViews g.scope entries
      if isValidRelayUrl (g.relay relayUrl) && signed then
        let event := {
          relay := g.relay relayUrl, app := g.appPubkey, createdAt := now, views, revoked := false, readAt }
        (w.sends event).goesOn i (.publishing g event (hashSnapshot g.scope views))
      else w.goesOn i .done
    | _ => w
  | .deliver k =>
    match w.sent[k]? with
    | some event => { w with events := w.events ++ [event] }
    | none => w
  | .answer i ok =>
    match w.passes i with
    | .publishing g event hash =>
      if ok && w.events.contains event && decide (g.lastPayloadHash ≠ some hash) then w.goesOn i (.checking g hash)
      else w.goesOn i .done
    | _ => w
  | .check i =>
    match w.passes i with
    | .checking g hash =>
      match getCompanionGrant w.rows g.appPubkey with
      | some current => if current.isRevoked then w.goesOn i .done else w.goesOn i (.saving g hash w.clock)
      | none => w.goesOn i .done
    | _ => w
  | .save i =>
    match w.passes i with
    | .saving g hash checkedAt =>
      if maySave w.rows g then w.goesOn i (.putting g hash checkedAt) else w.goesOn i .done
    | _ => w
  | .put i now =>
    match w.passes i with
    | .putting g hash checkedAt =>
      (w.put { g with lastPayloadHash := some hash, lastPublishedAt := some now }).goesOn i
        (.wrote g.appPubkey checkedAt w.clock)
    | _ => w
  | .revoke r g relayUrl now =>
    match w.revocations r with
    | .idle =>
      -- without a relay to send it to, no tombstone is built
      if isValidRelayUrl (g.relay relayUrl) then w.revokes r (.tombstoning g relayUrl now)
      else w.revokes r (.softening g relayUrl now)
    | _ => w
  | .signTombstone r signed =>
    match w.revocations r with
    | .tombstoning g relayUrl now =>
      if signed then
        (w.sends (w.tombstone g relayUrl now)).revokes r
          (.publishing g relayUrl now (w.tombstone g relayUrl now))
      else w.revokes r .threw
    | _ => w
  | .answerTombstone r ok =>
    match w.revocations r with
    | .publishing g relayUrl now event =>
      if ok && w.events.contains event then w.revokes r (.deleting g relayUrl now) else w.revokes r (.softening g relayUrl now)
    | _ => w
  | .delete r =>
    match w.revocations r with
    | .deleting g relayUrl now =>
      { w with rows := deleteCompanionGrant w.rows g.appPubkey }.revokes r
        (.returned g relayUrl now true w.clock)
    | _ => w
  | .soften r =>
    match w.revocations r with
    | .softening g relayUrl now =>
      if maySave w.rows g then w.revokes r (.putting g relayUrl now) else w.revokes r .threw
    | _ => w
  | .putSoft r =>
    match w.revocations r with
    | .putting g relayUrl now =>
      (w.put { g with revokedAt := some now }).revokes r (.returned g relayUrl now false w.clock)
    | _ => w

def next (w : RailWorld) (e : RailHappening ρ) : RailWorld := (w.step e).tick

end RailWorld

end SignetApp.Companion
