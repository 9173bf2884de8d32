import Mathlib.Data.List.Sort
import SignetApp.ChildContacts.DirectoryText
import SignetApp.Concurrency.Reach
import SignetApp.Family.Autonomy

/-!
# Publishing a directory

`child-contact-directory-publisher.ts`: a guardian's tabs publish one child's directory. Each call reads the
guardian's state, reserves a revision, reads twice more, and sends what it read if that did not change. What
its callers are promised to do is taken as it comes: `readScope` gives the state as it is at some moment of
the call.
-/

namespace SignetApp.ChildContacts

open SignetApp.Js SignetApp.Sync
open SignetApp.Contacts (ContactRecord)
open SignetApp.Family (AutonomyStage)
open SignetApp.Family.ChildContact (ChildSettings)

/-! ## The guardian's state -/

structure BunkerEndpoint where
  publicKey : JsString
  privateKey : JsString
  createdAt : ℤ
  pairingSecret : Option JsString := none
  authorizedClientPubkey : Option JsString := none
  deriving DecidableEq

structure DependantSlot where
  publicKey : JsString
  displayName : JsString
  hidden : Bool := false
  deriving DecidableEq

/-- The fields of a dependant that its directory depends on. -/
structure PublishedDependant where
  id : JsString
  guardianPubkey : JsString
  autonomyStage : AutonomyStage
  naturalPerson : DependantSlot
  naturalPersonActive : Option Bool
  persona : DependantSlot
  extraPersonas : List DependantSlot
  hiddenOnPairedDeviceKeys : List JsString
  bunkerEndpoint : Option BunkerEndpoint
  deriving DecidableEq

structure PublicationScope where
  dependant : PublishedDependant
  settings : Option ChildSettings
  records : List ContactRecord
  deriving DecidableEq

/-- `isDependantNaturalPersonActive`. -/
def PublishedDependant.isNaturalPersonActive (dep : PublishedDependant) : Bool :=
  dep.naturalPersonActive.getD (trim dep.naturalPerson.displayName ≠ [])

def childDirectoryPersonas (dep : PublishedDependant) : List JsString :=
  let slots := dep.persona.publicKey :: (dep.extraPersonas.filter fun p => !p.hidden).map (·.publicKey) ++
    (if dep.isNaturalPersonActive then [dep.naturalPerson.publicKey] else [])
  (distinct (slots.filter fun p => p ≠ [] ∧ p ∉ dep.hiddenOnPairedDeviceKeys)).insertionSort (· ≤ ·)

/-- One phone of one child, as its guardian's tabs see it. -/
structure DirectoryPairing where
  guardian : JsString
  child : JsString
  endpoint : JsString
  recipient : JsString

/-- What a call compares: two of these are the same exactly when their texts are. -/
structure DirectoryBinding where
  endpoint : BunkerEndpoint
  view : ChildContactDirectory
  deriving DecidableEq

section

variable [Numerals]

/-- `read`, of a state: `none` where it throws. -/
def DirectoryPairing.read (p : DirectoryPairing) (scope : PublicationScope) (revision : ℕ) (issuedAt : ℤ) :
    Option DirectoryBinding := do
  let dep := scope.dependant
  let endpoint ← dep.bunkerEndpoint
  let recipient ← endpoint.authorizedClientPubkey.filter (· ≠ [])
  guard (dep.id = p.child ∧ dep.guardianPubkey = p.guardian ∧ isHexOf 64 endpoint.publicKey = true)
  guard (0 ≤ issuedAt)
  let withdrawn := dep.autonomyStage = .fullControl
  let view ← projectChildContactDirectory {
    child := p.child
    guardian := p.guardian
    recipient
    availablePersonas := if withdrawn then [] else childDirectoryPersonas dep
    settings := scope.settings
    records := if withdrawn then [] else scope.records } revision issuedAt.toNat
  pure ⟨endpoint, view⟩

end

/-! ## Revisions -/

/-- The last revision, and the time it was issued at. -/
structure RevisionFloor where
  revision : ℕ
  issuedAt : Option ℕ

/-- The stored floor. Every write moves its generation on. -/
structure RevisionRow where
  generation : ℕ
  floor : RevisionFloor

def RevisionFloor.valid (f : RevisionFloor) : Bool :=
  1 ≤ f.revision && f.revision < maxTime && f.issuedAt.all (· < maxTime)

/-- The next floor: `none` where the change throws. -/
def nextFloor (old : Option RevisionFloor) (now : ℤ) : Option (ℕ × ℕ) :=
  let floor := (old.bind RevisionFloor.issuedAt).elim (now - 1) fun t => (t : ℤ)
  let issuedAt := max now (floor + 1)
  if old.all RevisionFloor.valid = true ∧ 0 ≤ now ∧ issuedAt ≤ now + 300 ∧ issuedAt < maxTime then
    some (old.elim 0 RevisionFloor.revision + 1, issuedAt.toNat)
  else none

/-! ## Calls -/

/-- What a call holds once it has a revision. -/
structure Ticket where
  endpoint : BunkerEndpoint
  /-- The view it read first, under its revision. -/
  expected : ChildContactDirectory
  /-- The moment its revision was reserved at. -/
  reservedAt : ℕ

def Ticket.binding (t : Ticket) : DirectoryBinding := ⟨t.endpoint, t.expected⟩

/-- `now() >= expected.expiresAt || now() < issuedAt - 300`, which it must not be. -/
def Ticket.timely (t : Ticket) (now later : ℤ) : Bool :=
  now < t.expected.expiresAt && (t.expected.issuedAt : ℤ) - 300 ≤ later

inductive PublisherPhase where
  | idle
  /-- It waits for the state. -/
  | opening
  | opened (scope : PublicationScope)
  /-- It waits for the stored floor, with so many tries left; then for its encryption. -/
  | reserving (initial : DirectoryBinding) (now : ℤ) (tries : ℕ)
  | encrypting (initial : DirectoryBinding) (now : ℤ) (tries : ℕ) (old : Option RevisionRow)
  | signing (t : Ticket)
  | confirming (t : Ticket)
  | confirmed (t : Ticket) (scope : PublicationScope)
  | sealing (t : Ticket)
  | closing (t : Ticket) (event : SealedDirectory)
  /-- It has read for the last time, at this moment. -/
  | closed (t : Ticket) (event : SealedDirectory) (scope : PublicationScope) (readAt : ℕ)
  /-- It has sent the event, at the second of these moments. -/
  | sent (t : Ticket) (event : SealedDirectory) (readAt sentAt : ℕ)
  | failed

structure PublisherWorld where
  /-- The guardian's state, and those before it. -/
  scope : PublicationScope
  history : List PublicationScope
  row : Option RevisionRow
  /-- The revisions that were reserved, with their times. -/
  handed : List (ℕ × ℕ)
  publishers : ℕ → PublisherPhase

/-- How things stand when a call goes on. -/
structure Circumstances where
  isCurrent : Bool
  /-- What it waited for did not fail. -/
  succeeded : Bool
  signer : JsString
  now : ℤ
  later : ℤ

inductive PublisherHappening where
  | edit (scope : PublicationScope)
  | call (i : ℕ)
  /-- What the call waits for is read. -/
  | read (i : ℕ)
  | resume (i : ℕ) (c : Circumstances)

namespace PublisherWorld

def moment (w : PublisherWorld) : ℕ := w.history.length

/-- The guardian's state at a moment. -/
def stateAt (w : PublisherWorld) (m : ℕ) : Option PublicationScope := (w.history ++ [w.scope])[m]?

def settle (w : PublisherWorld) (i : ℕ) (phase : PublisherPhase) : PublisherWorld :=
  { w with publishers := Function.update w.publishers i phase }

/-- The revision is stored, and the call has its ticket. -/
def reserve (w : PublisherWorld) (i : ℕ) (initial : DirectoryBinding) (old : Option RevisionRow)
    (revision issuedAt : ℕ) : PublisherWorld :=
  { w with
    row := some ⟨old.elim 0 RevisionRow.generation + 1, ⟨revision, some issuedAt⟩⟩
    handed := w.handed ++ [(revision, issuedAt)]
    publishers := Function.update w.publishers i (.signing {
      endpoint := initial.endpoint
      expected := { initial.view with
        revision := revision, issuedAt := issuedAt, expiresAt := issuedAt + ttl }
      reservedAt := w.moment }) }

/-- The state or the stored floor is read for a call. -/
def read (w : PublisherWorld) (i : ℕ) : PublisherWorld :=
  match w.publishers i with
  | .opening => w.settle i (.opened w.scope)
  | .reserving initial now tries => w.settle i (.encrypting initial now tries w.row)
  | .confirming t => w.settle i (.confirmed t w.scope)
  | .closing t event => w.settle i (.closed t event w.scope w.moment)
  | _ => w

variable [Numerals]

/-- Does the state read as the ticket's view? -/
def reads (p : DirectoryPairing) (t : Ticket) (scope : PublicationScope) : Bool :=
  p.read scope t.expected.revision t.expected.issuedAt = some t.binding

/-- Does a call send its event? -/
def sends (p : DirectoryPairing) (c : Circumstances) (t : Ticket) (scope : PublicationScope) : Bool :=
  c.isCurrent && c.succeeded && reads p t scope && t.timely c.now c.later

def resume (p : DirectoryPairing) (w : PublisherWorld) (i : ℕ) (c : Circumstances) : PublisherWorld :=
  let goesOn := c.isCurrent && c.succeeded
  match w.publishers i with
  | .opened scope =>
    match p.read scope 0 c.now with
    | some initial =>
      if goesOn && initial.endpoint.publicKey = p.endpoint && initial.view.recipient.val = p.recipient then
        w.settle i (.reserving initial c.later 8)
      else w.settle i .failed
    | none => w.settle i .failed
  | .encrypting initial now tries old =>
    match nextFloor (old.map RevisionRow.floor) now with
    | some (revision, issuedAt) =>
      if !goesOn then w.settle i .failed
      else if w.row.map RevisionRow.generation = old.map RevisionRow.generation then
        w.reserve i initial old revision issuedAt
      else if tries ≤ 1 then w.settle i .failed
      else w.settle i (.reserving initial now (tries - 1))
    | none => w.settle i .failed
  | .signing t =>
    if goesOn && c.signer = t.endpoint.publicKey then w.settle i (.confirming t) else w.settle i .failed
  | .confirmed t scope =>
    if goesOn && reads p t scope then w.settle i (.sealing t) else w.settle i .failed
  | .sealing t =>
    match sealChildContactDirectory t.expected with
    | some event => if goesOn then w.settle i (.closing t event) else w.settle i .failed
    | none => w.settle i .failed
  | .closed t event scope readAt =>
    if sends p c t scope then w.settle i (.sent t event readAt w.moment) else w.settle i .failed
  | _ => w

def next (p : DirectoryPairing) (w : PublisherWorld) : PublisherHappening → PublisherWorld
  | .edit scope => { w with scope, history := w.history ++ [w.scope] }
  | .call i =>
    match w.publishers i with
    | .idle => w.settle i .opening
    | _ => w
  | .read i => w.read i
  | .resume i c => w.resume p i c

end PublisherWorld

end SignetApp.ChildContacts

/-!
## The order of publications

Revisions only grow, and each call that was given one keeps to the view it took it for. That a higher revision
carries no older state needs one thing more: `Allowed`.
-/

namespace SignetApp.ChildContacts

open SignetApp.Js SignetApp.Sync
open SignetApp.Contacts (Hex64)

/-! ## What a call holds -/

def PublisherPhase.ticket : PublisherPhase → Option Ticket
  | .signing t | .confirming t | .confirmed t _ | .sealing t | .closing t _ | .closed t _ _ _ | .sent t _ _ _ =>
    some t
  | _ => none

def Ticket.event (t : Ticket) : SealedDirectory := ⟨t.expected.issuedAt, t.expected⟩

namespace PublisherWorld

/-- A floor that was read is the one stored, or an earlier one. -/
def Seen (w : PublisherWorld) (old : Option RevisionRow) : Prop :=
  ∀ o, old = some o → ∃ row, w.row = some row ∧ o.generation ≤ row.generation ∧
    (o.generation = row.generation → o = row)

structure Issued (w : PublisherWorld) (t : Ticket) : Prop where
  handed : (t.expected.revision, t.expected.issuedAt) ∈ w.handed
  reserved : t.reservedAt ≤ w.moment
  tidy : Tidy t.expected

section

variable [Numerals]

/-- A ticket whose state was read for the last time, with the moment of that reading. -/
def carried (p : DirectoryPairing) : PublisherPhase → Option (Ticket × ℕ)
  | .closed t _ scope readAt => if reads p t scope then some (t, readAt) else none
  | .sent t _ readAt _ => some (t, readAt)
  | _ => none

/-- What holds of a call in each phase. -/
def Keeps (p : DirectoryPairing) (w : PublisherWorld) : PublisherPhase → Prop
  | .reserving initial _ _ => Tidy initial.view
  | .encrypting initial _ _ old => Tidy initial.view ∧ w.Seen old
  | .signing t | .confirming t | .confirmed t _ | .sealing t => w.Issued t
  | .closing t event => w.Issued t ∧ event = t.event
  | .closed t event scope readAt =>
    w.Issued t ∧ event = t.event ∧ t.reservedAt ≤ readAt ∧ w.stateAt readAt = some scope
  | .sent t event readAt sentAt =>
    w.Issued t ∧ event = t.event ∧ t.reservedAt ≤ readAt ∧ readAt ≤ sentAt ∧ sentAt ≤ w.moment ∧
      ∃ scope, w.stateAt readAt = some scope ∧ reads p t scope = true
  | _ => True

/-- At that moment or later the state was as the ticket has it. -/
def HeldSince (p : DirectoryPairing) (w : PublisherWorld) (t : Ticket) (m : ℕ) : Prop :=
  ∃ m' scope, m ≤ m' ∧ w.stateAt m' = some scope ∧ reads p t scope = true

structure Inv (p : DirectoryPairing) (w : PublisherWorld) : Prop where
  increasing : w.handed.Pairwise fun a b => a.1 < b.1 ∧ a.2 < b.2
  floor : ∀ h ∈ w.handed, ∃ row issuedAt, w.row = some row ∧ row.floor.issuedAt = some issuedAt ∧
    h.1 ≤ row.floor.revision ∧ h.2 ≤ issuedAt
  keeps : ∀ i, w.Keeps p (w.publishers i)
  own : ∀ i j t t', (w.publishers i).ticket = some t → (w.publishers j).ticket = some t' →
    t.expected.revision = t'.expected.revision → i = j
  later : ∀ i j t event m sentAt t' m', w.publishers i = .sent t event m sentAt →
    carried p (w.publishers j) = some (t', m') → t.expected.revision < t'.expected.revision →
    w.HeldSince p t' sentAt

/-- **When a call sends its event,** those of higher revisions that have read for the last time, and found
what they are to send, would find it now too. -/
def Allowed (p : DirectoryPairing) (w : PublisherWorld) : PublisherHappening → Prop
  | .resume i c => ∀ t event scope readAt, w.publishers i = .closed t event scope readAt →
    sends p c t scope = true → ∀ j t' m, carried p (w.publishers j) = some (t', m) →
      t.expected.revision < t'.expected.revision → reads p t' w.scope = true
  | _ => True

end

/-! ## Moments -/

theorem stateAt_moment (w : PublisherWorld) : w.stateAt w.moment = some w.scope := by
  simp [stateAt, moment]

variable {scope : PublicationScope}

theorem le_moment {w : PublisherWorld} {m : ℕ} (h : w.stateAt m = some scope) : m ≤ w.moment := by
  have hlt := (List.getElem?_eq_some_iff.1 h).1
  simp only [List.length_append, List.length_singleton] at hlt
  exact Nat.le_of_lt_succ hlt

/-- What a world keeps of an earlier one. -/
structure Extends (w w' : PublisherWorld) : Prop where
  handed : ∀ h ∈ w.handed, h ∈ w'.handed
  moment : w.moment ≤ w'.moment
  stateAt : ∀ m scope, w.stateAt m = some scope → w'.stateAt m = some scope
  seen : ∀ old, w.Seen old → w'.Seen old

theorem extends_settle (w : PublisherWorld) (i : ℕ) (phase : PublisherPhase) : Extends w (w.settle i phase) :=
  ⟨fun _ h => h, Nat.le_refl _, fun _ _ h => h, fun _ h => h⟩

theorem extends_edit (w : PublisherWorld) (scope : PublicationScope) :
    Extends w { w with scope, history := w.history ++ [w.scope] } := by
  refine ⟨fun _ h => h, ?_, ?_, fun _ h => h⟩
  · show w.history.length ≤ (w.history ++ [w.scope]).length
    simp
  · intro m s hs
    show (w.history ++ [w.scope] ++ [scope])[m]? = some s
    rw [List.getElem?_append_left (List.getElem?_eq_some_iff.1 hs).1]
    exact hs

variable {t : Ticket}

theorem Extends.issued {w w' : PublisherWorld} (h : Extends w w') (ht : w.Issued t) : w'.Issued t :=
  ⟨h.handed _ ht.handed, ht.reserved.trans h.moment, ht.tidy⟩

theorem settle_publishers (w : PublisherWorld) (i j : ℕ) (phase : PublisherPhase) :
    (w.settle i phase).publishers j = if j = i then phase else w.publishers j := by
  by_cases h : j = i
  · subst h; simp [settle]
  · simp [settle, h]

/-! ## Revisions -/

theorem Seen.eq {w : PublisherWorld} {old : Option RevisionRow} (h : w.Seen old)
    (hsame : w.row.map RevisionRow.generation = old.map RevisionRow.generation) : w.row = old := by
  cases old with
  | none => exact Option.map_eq_none_iff.1 hsame
  | some o =>
    obtain ⟨row, hrow, -, heq⟩ := h o rfl
    rw [hrow] at hsame ⊢
    rw [heq (Option.some.inj hsame).symm]

variable {revision : ℕ}

theorem nextFloor_spec {old : Option RevisionFloor} {now : ℤ} {issuedAt : ℕ}
    (h : nextFloor old now = some (revision, issuedAt)) :
    ∀ f, old = some f → f.revision < revision ∧ ∀ t, f.issuedAt = some t → t < issuedAt := by
  rintro f rfl
  simp only [nextFloor, Option.ite_none_right_eq_some, Option.some.injEq, Prod.mk.injEq] at h
  obtain ⟨-, hrevision, hissued⟩ := h
  refine ⟨?_, ?_⟩
  · simp only [Option.elim_some] at hrevision
    omega
  · intro t ht
    simp only [Option.bind_some, ht, Option.elim_some] at hissued
    omega

variable {i : ℕ}

theorem extends_reserve {w : PublisherWorld} {initial : DirectoryBinding} {old : Option RevisionRow} {issuedAt : ℕ}
    (hrow : w.row = old) : Extends w (w.reserve i initial old revision issuedAt) := by
  refine ⟨fun h hh => List.mem_append_left _ hh, Nat.le_refl _, fun _ _ h => h, ?_⟩
  intro seen hseen o ho
  obtain ⟨row, hw, hle, -⟩ := hseen o ho
  refine ⟨_, rfl, ?_, ?_⟩
  · rw [← hrow, hw]
    exact Nat.le_succ_of_le hle
  · intro heq
    rw [← hrow, hw] at heq
    exact absurd heq (Nat.ne_of_lt (Nat.lt_succ_of_le hle))

variable [Numerals] {p : DirectoryPairing} {w w' : PublisherWorld}

theorem tidy_of_read {issuedAt : ℤ} {b : DirectoryBinding}
    (h : p.read scope revision issuedAt = some b) : Tidy b.view := by
  simp only [DirectoryPairing.read, Option.bind_eq_bind, Option.bind_eq_some_iff, Option.pure_def,
    Option.some.injEq] at h
  obtain ⟨_, -, _, -, _, -, _, -, view, hview, rfl⟩ := h
  exact tidy_of_project hview

variable {phase : PublisherPhase}

theorem Extends.keeps (h : Extends w w') (hk : w.Keeps p phase) : w'.Keeps p phase := by
  cases phase with
  | encrypting => exact ⟨hk.1, h.seen _ hk.2⟩
  | signing | confirming | confirmed | sealing => exact h.issued hk
  | closing => exact ⟨h.issued hk.1, hk.2⟩
  | closed => exact ⟨h.issued hk.1, hk.2.1, hk.2.2.1, h.stateAt _ _ hk.2.2.2⟩
  | sent =>
    obtain ⟨hissued, hevent, hat, hread, hsent, scope, hscope, hreads⟩ := hk
    exact ⟨h.issued hissued, hevent, hat, hread, hsent.trans h.moment, scope, h.stateAt _ _ hscope, hreads⟩
  | _ => exact hk

theorem Extends.heldSince (h : Extends w w') {m : ℕ} (ht : w.HeldSince p t m) :
    w'.HeldSince p t m := by
  obtain ⟨m', scope, hle, hscope, hreads⟩ := ht
  exact ⟨m', scope, hle, h.stateAt _ _ hscope, hreads⟩

/-! ## Steps of one call -/

theorem own_settle (h : Inv p w)
    (hticket : ∀ t, phase.ticket = some t → (w.publishers i).ticket = some t) :
    ∀ j k t t', ((w.settle i phase).publishers j).ticket = some t →
      ((w.settle i phase).publishers k).ticket = some t' →
      t.expected.revision = t'.expected.revision → j = k := by
  have hticket' : ∀ j t, ((w.settle i phase).publishers j).ticket = some t →
      (w.publishers j).ticket = some t := by
    intro j t ht
    rw [settle_publishers] at ht
    split at ht
    · rename_i hj
      rw [hj]
      exact hticket t ht
    · exact ht
  exact fun j k t t' ht ht' => h.own j k t t' (hticket' j t ht) (hticket' k t' ht')

theorem Inv.settle (h : Inv p w) (hkeeps : w.Keeps p phase)
    (hticket : ∀ t, phase.ticket = some t → (w.publishers i).ticket = some t)
    (hcarried : carried p phase = none) : Inv p (w.settle i phase) := by
  have hcarried' : ∀ j c, carried p ((w.settle i phase).publishers j) = some c →
      carried p (w.publishers j) = some c := by
    intro j c hc
    rw [settle_publishers] at hc
    split at hc
    · rw [hcarried] at hc
      cases hc
    · exact hc
  refine ⟨h.increasing, h.floor, fun j => ?_, own_settle h hticket, ?_⟩
  · rw [settle_publishers]
    split
    · exact (extends_settle w i phase).keeps hkeeps
    · exact (extends_settle w i phase).keeps (h.keeps j)
  · intro j k t event m sentAt t' m' hj hc' hlt
    rw [settle_publishers] at hj
    split at hj
    · rw [hj] at hcarried
      cases hcarried
    · exact (extends_settle w i phase).heldSince (h.later j k t event m sentAt t' m' hj (hcarried' k _ hc') hlt)

theorem Inv.settle_plain (h : Inv p w) (i : ℕ) (hkeeps : w.Keeps p phase)
    (hticket : phase.ticket = none) : Inv p (w.settle i phase) := by
  refine h.settle hkeeps (fun t ht => ?_) ?_
  · rw [hticket] at ht
    cases ht
  · cases phase <;> first | rfl | cases hticket

theorem Inv.fail (h : Inv p w) (i : ℕ) : Inv p (w.settle i .failed) :=
  h.settle_plain i trivial rfl

theorem Inv.edit (h : Inv p w) (scope : PublicationScope) :
    Inv p { w with scope, history := w.history ++ [w.scope] } :=
  ⟨h.increasing, h.floor, fun i => (extends_edit w scope).keeps (h.keeps i), h.own,
    fun i j t event m sentAt t' m' hi hc' hlt =>
      (extends_edit w scope).heldSince (h.later i j t event m sentAt t' m' hi hc' hlt)⟩

theorem Inv.close (h : Inv p w) {event : SealedDirectory}
    (hphase : w.publishers i = .closing t event) :
    Inv p (w.settle i (.closed t event w.scope w.moment)) := by
  have hext := extends_settle w i (.closed t event w.scope w.moment)
  have hkeep := h.keeps i
  rw [hphase] at hkeep
  refine ⟨h.increasing, h.floor, fun j => ?_, own_settle h fun t' ht => ?_, ?_⟩
  · rw [settle_publishers]
    split
    · exact hext.keeps ⟨hkeep.1, hkeep.2, hkeep.1.reserved, stateAt_moment w⟩
    · exact hext.keeps (h.keeps j)
  · rw [hphase]
    exact ht
  · intro j k tj event' m sentAt tk m' hj hc' hlt
    rw [settle_publishers] at hj hc'
    refine hext.heldSince ?_
    split at hj
    · cases hj
    · split at hc'
      · have hk := h.keeps j
        rw [hj] at hk
        simp only [carried, Option.ite_none_right_eq_some, Option.some.injEq, Prod.mk.injEq] at hc'
        obtain ⟨hreads, rfl, -⟩ := hc'
        exact ⟨w.moment, w.scope, hk.2.2.2.2.1, stateAt_moment w, hreads⟩
      · exact h.later j k tj event' m sentAt tk m' hj hc' hlt

/-- The sending of an event: those of higher revisions are as the state is now. -/
theorem Inv.send (h : Inv p w) {event : SealedDirectory}
    {readAt : ℕ} (hphase : w.publishers i = .closed t event scope readAt) (hreads : reads p t scope = true)
    (hallowed : ∀ j t' m, carried p (w.publishers j) = some (t', m) →
      t.expected.revision < t'.expected.revision → reads p t' w.scope = true) :
    Inv p (w.settle i (.sent t event readAt w.moment)) := by
  have hext := extends_settle w i (.sent t event readAt w.moment)
  have hkeep := h.keeps i
  rw [hphase] at hkeep
  have hcarried : ∀ j c, carried p ((w.settle i (.sent t event readAt w.moment)).publishers j) = some c →
      carried p (w.publishers j) = some c := by
    intro j c hc
    rw [settle_publishers] at hc
    split at hc
    · rename_i hj
      rw [hj, hphase]
      simpa only [carried, hreads, if_true] using hc
    · exact hc
  refine ⟨h.increasing, h.floor, fun j => ?_, own_settle h fun t' ht => ?_, ?_⟩
  · rw [settle_publishers]
    split
    · exact hext.keeps ⟨hkeep.1, hkeep.2.1, hkeep.2.2.1, le_moment hkeep.2.2.2, Nat.le_refl _, scope,
        hkeep.2.2.2, hreads⟩
    · exact hext.keeps (h.keeps j)
  · rw [hphase]
    exact ht
  · intro j k tj event' m sentAt tk m' hj hc' hlt
    rw [settle_publishers] at hj
    refine hext.heldSince ?_
    split at hj
    · cases hj
      exact ⟨w.moment, w.scope, Nat.le_refl _, stateAt_moment w, hallowed k tk m' (hcarried k _ hc') hlt⟩
    · exact h.later j k tj event' m sentAt tk m' hj (hcarried k _ hc') hlt

/-! ## Reserving -/

theorem Inv.of_ticket (h : Inv p w) (ht : (w.publishers i).ticket = some t) : w.Issued t := by
  have hk := h.keeps i
  cases hphase : w.publishers i with
  | signing t' | confirming t' | confirmed t' _ | sealing t' =>
    rw [hphase] at hk ht
    cases ht
    exact hk
  | closing t' _ | closed t' _ _ _ | sent t' _ _ _ =>
    rw [hphase] at hk ht
    cases ht
    exact hk.1
  | _ =>
    rw [hphase] at ht
    cases ht

theorem Inv.reserve (h : Inv p w) {initial : DirectoryBinding} {old : Option RevisionRow} {now : ℤ}
    {issuedAt : ℕ} (htidy : Tidy initial.view) (hrow : w.row = old)
    (hnext : nextFloor (old.map RevisionRow.floor) now = some (revision, issuedAt)) :
    Inv p (w.reserve i initial old revision issuedAt) := by
  have hext : Extends w (w.reserve i initial old revision issuedAt) := extends_reserve hrow
  -- the new revision and its time are above all that were handed out
  have hnew : ∀ a ∈ w.handed, a.1 < revision ∧ a.2 < issuedAt := by
    intro a ha
    obtain ⟨row, t, hw, ht, hle, hle'⟩ := h.floor a ha
    obtain ⟨hrevision, hissued⟩ := nextFloor_spec hnext row.floor (by rw [← hrow, hw]; rfl)
    exact ⟨Nat.lt_of_le_of_lt hle hrevision, Nat.lt_of_le_of_lt hle' (hissued t ht)⟩
  have hphase : ∀ j, j ≠ i → (w.reserve i initial old revision issuedAt).publishers j = w.publishers j :=
    fun j hj => Function.update_of_ne hj _ _
  have hself : (w.reserve i initial old revision issuedAt).publishers i = .signing {
      endpoint := initial.endpoint
      expected := { initial.view with
        revision := revision, issuedAt := issuedAt, expiresAt := issuedAt + ttl }
      reservedAt := w.moment } := Function.update_self _ _ _
  -- nobody else has it
  have hother : ∀ j t, j ≠ i → (w.publishers j).ticket = some t → t.expected.revision ≠ revision := by
    intro j t hj ht
    exact Nat.ne_of_lt (hnew _ (h.of_ticket ht).handed).1
  refine ⟨?_, ?_, fun j => ?_, ?_, ?_⟩
  · refine List.pairwise_append.2 ⟨h.increasing, List.pairwise_singleton _ _, fun a ha b hb => ?_⟩
    rw [List.mem_singleton.1 hb]
    exact hnew a ha
  · intro a ha
    refine ⟨_, issuedAt, rfl, rfl, ?_⟩
    rcases List.mem_append.1 ha with ha | ha
    · exact ⟨(hnew a ha).1.le, (hnew a ha).2.le⟩
    · rw [List.mem_singleton.1 ha]
      exact ⟨Nat.le_refl _, Nat.le_refl _⟩
  · by_cases hj : j = i
    · rw [hj, hself]
      exact ⟨List.mem_append_right _ List.mem_cons_self, Nat.le_refl _,
        ⟨htidy.personas, htidy.entries, htidy.identities, htidy.lists⟩⟩
    · rw [hphase j hj]
      exact hext.keeps (h.keeps j)
  · intro j k t t' ht ht' heq
    by_cases hj : j = i <;> by_cases hk : k = i
    · rw [hj, hk]
    · rw [hj, hself] at ht
      rw [hphase k hk] at ht'
      cases ht
      exact absurd heq.symm (hother k t' hk ht')
    · rw [hk, hself] at ht'
      rw [hphase j hj] at ht
      cases ht'
      exact absurd heq (hother j t hj ht)
    · rw [hphase j hj] at ht
      rw [hphase k hk] at ht'
      exact h.own j k t t' ht ht' heq
  · intro j k t event m sentAt t' m' hj hc' hlt
    have hcarried : ∀ j c, carried p ((w.reserve i initial old revision issuedAt).publishers j) = some c →
        carried p (w.publishers j) = some c := by
      intro j c hc
      by_cases hj : j = i
      · rw [hj, hself] at hc
        cases hc
      · rwa [hphase j hj] at hc
    have hne : j ≠ i := by
      rintro rfl
      rw [hself] at hj
      cases hj
    rw [hphase j hne] at hj
    exact hext.heldSince (h.later j k t event m sentAt t' m' hj (hcarried k _ hc') hlt)

/-! ## Every step -/

theorem Inv.read (h : Inv p w) (i : ℕ) : Inv p (w.read i) := by
  have hkeep := h.keeps i
  unfold PublisherWorld.read
  cases hphase : w.publishers i with
  | opening => exact h.settle_plain i trivial rfl
  | reserving initial now tries =>
    rw [hphase] at hkeep
    exact h.settle_plain i ⟨hkeep, fun o ho => ⟨o, ho, Nat.le_refl _, fun _ => rfl⟩⟩ rfl
  | confirming t =>
    rw [hphase] at hkeep
    refine h.settle hkeep (fun _ ht => ?_) rfl
    rw [hphase]
    exact ht
  | closing t event => exact h.close hphase
  | _ => exact h

theorem Inv.resume (h : Inv p w) (hint : IntegersSurvive) (i : ℕ) (c : Circumstances)
    (hallowed : Allowed p w (.resume i c)) : Inv p (w.resume p i c) := by
  have hkeep := h.keeps i
  unfold PublisherWorld.resume
  cases hphase : w.publishers i with
  | opened scope =>
    dsimp only
    split
    · rename_i initial hread
      split
      · exact h.settle_plain i (tidy_of_read hread) rfl
      · exact h.fail i
    · exact h.fail i
  | encrypting initial now tries old =>
    rw [hphase] at hkeep
    dsimp only
    split
    · rename_i revision issuedAt hnext
      split
      · exact h.fail i
      · split
        · rename_i hsame
          exact h.reserve hkeep.1 (hkeep.2.eq hsame) hnext
        · split
          · exact h.fail i
          · exact h.settle_plain i hkeep.1 rfl
    · exact h.fail i
  | signing t =>
    rw [hphase] at hkeep
    dsimp only
    split
    · refine h.settle hkeep (fun _ ht => ?_) rfl
      rw [hphase]
      exact ht
    · exact h.fail i
  | confirmed t scope =>
    rw [hphase] at hkeep
    dsimp only
    split
    · refine h.settle hkeep (fun _ ht => ?_) rfl
      rw [hphase]
      exact ht
    · exact h.fail i
  | sealing t =>
    rw [hphase] at hkeep
    dsimp only
    split
    · rename_i event hseal
      split
      · refine h.settle ⟨hkeep, seal_eq hint hkeep.tidy hseal⟩ (fun _ ht => ?_) rfl
        rw [hphase]
        exact ht
      · exact h.fail i
    · exact h.fail i
  | closed t event scope readAt =>
    dsimp only
    split
    · rename_i hsends
      have hreads : reads p t scope = true := by
        simp only [sends, Bool.and_eq_true] at hsends
        exact hsends.1.2
      exact h.send hphase hreads (hallowed t event scope readAt hphase hsends)
    · exact h.fail i
  | _ => exact h

theorem Inv.next (h : Inv p w) (hint : IntegersSurvive) (e : PublisherHappening) (hallowed : Allowed p w e) :
    Inv p (w.next p e) := by
  cases e with
  | edit scope => exact h.edit scope
  | call i =>
    unfold PublisherWorld.next
    dsimp only
    split
    · exact h.settle_plain i trivial rfl
    · exact h
  | read i => exact h.read i
  | resume i c => exact h.resume hint i c hallowed

end PublisherWorld

end SignetApp.ChildContacts
