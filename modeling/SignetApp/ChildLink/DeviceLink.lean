import SignetApp.Js.SafeUrl
import SignetApp.Pairing.Replies

/-!
# The child's device link

`useChildDeviceLink.ts`: what a paired child's phone keeps of its pairing. The rules come from a cache and
from events; the phone finds that it is unpaired by a notice, or by what its device answers; and each persona
is approved on the device by a probe, one at a time. What an event of the rules rail opens to is taken as it
comes.
-/

namespace SignetApp.ChildLink

open SignetApp.Js
open SignetApp.Contacts (Hex64)
open SignetApp.Pairing (NostrEvent Signatures)

/-! ## Values -/

structure ChildRulesPayload where
  updatedAt : ℤ
  personas : Option (List JsString)
  rest : JsObject
  deriving DecidableEq

/-- `newerRulesPayload`, of a payload that is there: the one that is held wins a tie. -/
def newerRulesPayload (current : Option ChildRulesPayload) (incoming : ChildRulesPayload) :
    ChildRulesPayload :=
  match current with
  | some current => if current.updatedAt < incoming.updatedAt then incoming else current
  | none => incoming

inductive Approval where
  | approved | waiting | failed | deferred
  deriving DecidableEq

/-- A pairing with a device. -/
structure PairedChildRecord where
  id : JsString
  dependantPubkey : Hex64
  clientPub : JsString
  clientPriv : JsString
  railPub : JsString
  railRelay : JsString
  personaPubkey : JsString
  personas : List JsString
  identityApprovals : List (JsString × Approval)
  deriving DecidableEq

/-- The device's connections: those that `backendFor` gives. -/
structure BunkerBackendRouter where
  primaryClientPubkeyHex : JsString
  backends : List JsString
  deriving DecidableEq

structure Options where
  /-- `direct`: none for a pairing of another mode. -/
  record : Option PairedChildRecord
  encryptionKey : JsString
  router : Option BunkerBackendRouter
  inventoryPersonas : List JsString
  withheldSlots : List JsString
  deriving DecidableEq

def childUnpairedDTag : JsString := lit "signet:child-unpaired:v1"

def kind : ℤ := 30078

def unpairedStrikes : ℕ := 3

section

variable [Numerals] [Signatures]

def isUnpairedNotice (ev : NostrEvent) (railPubkey clientPubkey : JsString) : Bool :=
  decide (ev.kind = kind) && decide (ev.pubkey = railPubkey) && isHexOf 64 railPubkey && isHexOf 64 clientPubkey
    && decide (ev.tags.length = 2) && decide (ev.content.length ≤ 1000)
    && decide (ev.tags[0]?.bind (·[0]?) = some (lit "d"))
    && decide (ev.tags[0]?.bind (·[1]?) = some childUnpairedDTag)
    && decide (ev.tags[1]?.bind (·[0]?) = some (lit "p"))
    && decide (ev.tags[1]?.bind (·[1]?) = some clientPubkey)
    && (parse ev.content).any (fun body =>
      decide (body.get "v" = .ofNat 1) && decide (body.get "clientPubkey" = .str clientPubkey))
    && Signatures.verifyEvent ev

end

def isOfUnpairedRail (ev : NostrEvent) : Bool :=
  ev.tags.any fun t => decide (t[0]? = some (lit "d")) && decide (t[1]? = some childUnpairedDTag)

/-! ## Candidates -/

def childAllowedPersonas (list : List JsString) (rules : Option ChildRulesPayload) (bound : JsString) :
    List JsString :=
  match rules.bind ChildRulesPayload.personas with
  | none => list
  | some personas =>
    list.filter fun p => decide (toLowerCase p = toLowerCase bound) ||
      (personas.map toLowerCase).contains (toLowerCase p)

def Options.candidates (o : Options) (rules : Option ChildRulesPayload) : List JsString :=
  match o.record with
  | none => []
  | some direct =>
    let named := (direct.personas ++ o.inventoryPersonas).filter (isHexOf 64) ++
      (if direct.personaPubkey = [] then [] else [direct.personaPubkey])
    let withheld := (o.withheldSlots.map toLowerCase).filter fun s => decide (s ≠ direct.personaPubkey)
    childAllowedPersonas (named.dedup.filter fun p => !withheld.contains p) rules direct.personaPubkey

/-! ## The state -/

/-- What the observer of answers was set up with. -/
structure Watched where
  clientPub : JsString
  bound : JsString

/-- What the rules rail was subscribed with. -/
structure Linked where
  dep : Hex64
  clientPub : JsString
  railPub : JsString

/-- What has been begun and not waited for. -/
inductive LinkTask where
  | loading (gen : ℕ) (dep : Hex64)
  | loaded (gen : ℕ) (dep : Hex64) (payload : Option ChildRulesPayload)
  | opening (gen : ℕ) (payload : Option ChildRulesPayload)
  | saving (dep : Hex64) (payload : ChildRulesPayload)
  | clearing (dep : Hex64)
  | confirming (watch : ℕ)
  deriving DecidableEq

/-- What was heard of the pairing since it is watched. -/
inductive Heard where
  | notice (ev : NostrEvent) (railPub clientPub : JsString)
  | answered
  | refused
  | keyRefused

/-- How a turn of the ceremony ended. -/
inductive TurnEnd where
  | putOff
  | unavailable
  | probed (ok : Bool)
  deriving DecidableEq

/-- What the caller is told. -/
def TurnEnd.result : TurnEnd → Bool
  | .probed ok => ok
  | _ => false

inductive TurnPhase where
  | queued
  | probing
  | ended (how : TurnEnd)
  deriving DecidableEq

def TurnPhase.isEnded : TurnPhase → Bool
  | .ended _ => true
  | _ => false

/-- A call of `approve`. -/
structure Turn where
  persona : JsString
  force : Bool
  phase : TurnPhase
  deriving DecidableEq

/-- A probe that was sent: for which turn, and whether its persona was deferred then. -/
structure Probe where
  turn : ℕ
  persona : JsString
  force : Bool
  deferred : Bool
  deriving DecidableEq

/-- The rules of the effect that runs, and what was offered to it since it began. -/
structure RulesState where
  gen : ℕ
  linked : Option Linked
  rules : Option ChildRulesPayload
  cacheRead : Bool
  offered : List ChildRulesPayload

/-- The watch over the pairing, and what it has heard. -/
structure WatchState where
  watch : ℕ
  watched : Option Watched
  strikes : ℕ
  confirming : Bool
  unpaired : Bool
  heard : List Heard

/-- The approvals, with every turn of the ceremony and every probe there ever was. -/
structure ApprovalState where
  approvals : JsString → Option Approval
  attempted : List JsString
  turns : List Turn
  inflight : JsString → Option ℕ
  probes : List Probe

structure DeviceLink where
  /-- The options of the last rendering, with its candidates and whether it found the cache read. -/
  options : Options
  candidates : List JsString
  cacheRead : Bool
  /-- The options that the effects have run with. -/
  committed : Option Options
  tasks : List LinkTask
  cache : Hex64 → Option ChildRulesPayload
  /-- The rules of a dependant that were accepted since its device was last found to be gone. -/
  accepted : Hex64 → List ChildRulesPayload
  rules : RulesState
  pairing : WatchState
  ceremony : ApprovalState

/-- What a call to the device came to. -/
inductive CallResult where
  | ok | unauthorised | failed
  deriving DecidableEq

inductive LinkHappening where
  | render (options : Options)
  | commit
  | event (ev : NostrEvent) (opened : Option ChildRulesPayload)
  | stamped (persona : JsString) (result : CallResult)
  /-- Something that was begun comes to its next point. -/
  | settle (k : ℕ) (result : CallResult)
  | begin (k : ℕ)
  | finish (k : ℕ) (ok : Bool)
  | retryApproval (persona : JsString)
  | deferApproval (persona : JsString)
  | ensureApproved (persona : JsString)

/-! ## Rules -/

namespace RulesState

/-- Does the phone take the payload? -/
def takes (s : RulesState) (gen : ℕ) (payload : ChildRulesPayload) : Bool :=
  decide (gen = s.gen) && s.linked.isSome && decide (some (newerRulesPayload s.rules payload) ≠ s.rules)

/-- `apply`, on a phone that is paired. -/
def apply (s : RulesState) (gen : ℕ) (payload : ChildRulesPayload) : RulesState :=
  if gen = s.gen ∧ s.linked.isSome = true then
    { s with rules := some (newerRulesPayload s.rules payload), offered := s.offered ++ [payload] }
  else s

def clear (s : RulesState) : RulesState := { s with rules := none, offered := [] }

/-- The effect is set up anew. -/
def restart (s : RulesState) (o : Options) : RulesState where
  gen := s.gen + 1
  rules := none
  cacheRead := false
  offered := []
  linked := o.record.bind fun r =>
    if r.clientPub ≠ [] ∧ r.clientPriv ≠ [] ∧ r.railPub ≠ [] ∧ r.railRelay ≠ [] ∧ o.encryptionKey ≠ [] then
      some ⟨r.dependantPubkey, r.clientPub, r.railPub⟩
    else none

end RulesState

/-! ## The watch -/

namespace WatchState

def restart (s : WatchState) (o : Options) : WatchState where
  watch := s.watch + 1
  strikes := 0
  confirming := false
  unpaired := false
  heard := []
  watched := o.record.bind fun r =>
    if r.clientPub ≠ [] ∧ r.personaPubkey ≠ [] then some ⟨r.clientPub, r.personaPubkey⟩ else none

def hears (s : WatchState) (h : Heard) : WatchState := { s with heard := s.heard ++ [h] }

/-- An unauthorised answer: whether it is to be confirmed. -/
def strike (s : WatchState) (routerCurrent : Bool) : WatchState × Bool :=
  let s := { s with strikes := s.strikes + 1 }.hears .refused
  if s.strikes < unpairedStrikes ∨ s.confirming = true then (s, false)
  else if routerCurrent then ({ s with confirming := true }, true)
  else ({ s with strikes := 0 }, false)

end WatchState

/-! ## Approvals -/

/-- The backend of a persona, over the connections of the present record. -/
def Options.backendFor (o : Options) (persona : JsString) : Bool :=
  o.router.any fun r =>
    decide (o.record.map PairedChildRecord.clientPub = some r.primaryClientPubkeyHex) &&
      r.backends.contains persona

namespace ApprovalState

def restart (s : ApprovalState) (o : Options) : ApprovalState :=
  { s with
    approvals := fun p => (o.record.map PairedChildRecord.identityApprovals).bind (·.lookup p)
    attempted := []
    inflight := fun _ => none }

def setApproval (s : ApprovalState) (persona : JsString) (state : Approval) : ApprovalState :=
  { s with approvals := Function.update s.approvals persona (some state) }

def attempt (s : ApprovalState) (persona : JsString) : ApprovalState :=
  { s with attempted := s.attempted ++ [persona] }

/-- `approve`: a turn in the queue. -/
def approve (s : ApprovalState) (persona : JsString) (force : Bool) : ApprovalState :=
  { s with
    turns := s.turns ++ [⟨persona, force, .queued⟩]
    inflight := Function.update s.inflight persona (some s.turns.length) }

def setPhase (s : ApprovalState) (k : ℕ) (phase : TurnPhase) : ApprovalState :=
  { s with turns := s.turns.modify k fun t => { t with phase } }

/-- A turn ends, and is no longer the one in flight for its persona. -/
def endTurn (s : ApprovalState) (k : ℕ) (persona : JsString) (how : TurnEnd) : ApprovalState :=
  let s := s.setPhase k (.ended how)
  if s.inflight persona = some k then { s with inflight := Function.update s.inflight persona none } else s

def probe (s : ApprovalState) (k : ℕ) (persona : JsString) (force : Bool) : ApprovalState :=
  { s with probes := s.probes ++ [⟨k, persona, force, decide (s.approvals persona = some .deferred)⟩] }

/-- A turn comes up when those before it have ended. -/
def beginTurn (o : Options) (s : ApprovalState) (k : ℕ) : ApprovalState :=
  match s.turns[k]? with
  | some ⟨persona, force, .queued⟩ =>
    if (s.turns.take k).all fun t => t.phase.isEnded then
      if !force && decide (s.approvals persona = some .deferred) then s.endTurn k persona .putOff
      else if o.backendFor persona then
        ((s.probe k persona force).setApproval persona .waiting).setPhase k .probing
      else (s.setApproval persona .failed).endTurn k persona .unavailable
    else s
  | _ => s

def finishTurn (s : ApprovalState) (k : ℕ) (ok : Bool) : ApprovalState :=
  match s.turns[k]? with
  | some ⟨persona, force, .probing⟩ =>
    if ok then (s.setApproval persona .approved).endTurn k persona (.probed true)
    -- "Later" was pressed meanwhile
    else if !force && decide (s.approvals persona = some .deferred) then s.endTurn k persona (.probed false)
    else (s.setApproval persona .failed).endTurn k persona (.probed false)
  | _ => s

/-- One candidate of the ceremony. -/
def invite (bound : JsString) (s : ApprovalState) (p : JsString) : ApprovalState :=
  if p = bound ∨ s.attempted.contains p = true then s
  else
    match s.approvals p with
    | some .approved | some .failed | some .deferred => s
    | _ => (s.attempt p).approve p false

end ApprovalState

/-! ## Effects -/

def watchKey (o : Options) : Option (Hex64 × JsString × JsString) :=
  o.record.map fun r => (r.dependantPubkey, r.clientPub, r.personaPubkey)

def rulesKey (o : Options) : Option (Hex64 × List JsString) × JsString :=
  (o.record.map fun r => (r.dependantPubkey, [r.clientPub, r.clientPriv, r.railPub, r.railRelay]), o.encryptionKey)

def recordKey (o : Options) : JsString := o.record.elim [] fun r => r.id ++ lit ":" ++ r.clientPub

namespace DeviceLink

def begins (w : DeviceLink) (t : LinkTask) : DeviceLink := { w with tasks := w.tasks ++ [t] }

def markUnpaired (w : DeviceLink) : DeviceLink :=
  if w.pairing.unpaired then w
  else
    let w := { w with pairing := { w.pairing with unpaired := true }, rules := w.rules.clear }
    match w.options.record with
    | some record =>
      { w with accepted := Function.update w.accepted record.dependantPubkey [] }.begins
        (.clearing record.dependantPubkey)
    | none => w

def changed {κ : Type} [DecidableEq κ] (w : DeviceLink) (key : Options → κ) : Bool :=
  decide (w.committed.map key ≠ some (key w.options))

def watchEffect (w : DeviceLink) : DeviceLink :=
  if w.changed watchKey then { w with pairing := w.pairing.restart w.options } else w

def rulesEffect (w : DeviceLink) : DeviceLink :=
  if w.changed rulesKey then
    let rules := w.rules.restart w.options
    match rules.linked with
    | some linked => { w with rules }.begins (.loading rules.gen linked.dep)
    | none => { w with rules }
  else w

/-- The ceremony begins once the router of this pairing is up and the rendering found the cache read. Where
nothing that it depends on has changed it finds nothing left to do. -/
def approvalEffects (w : DeviceLink) : DeviceLink :=
  let ceremony := if w.changed recordKey then w.ceremony.restart w.options else w.ceremony
  let routerCurrent := w.options.record.any fun r => decide (r.clientPub ≠ []) && decide (r.personaPubkey ≠ []) &&
    w.options.router.any fun rt => decide (rt.primaryClientPubkeyHex = r.clientPub)
  if routerCurrent && w.cacheRead then
    { w with
      ceremony := w.candidates.foldl
        (ApprovalState.invite (w.options.record.elim [] PairedChildRecord.personaPubkey)) ceremony }
  else { w with ceremony }

/-- The effects of a rendering, those whose dependencies have changed. -/
def commit (w : DeviceLink) : DeviceLink :=
  { w.watchEffect.rulesEffect.approvalEffects with committed := some w.options }

/-- The observer of stamped calls. -/
def observe (w : DeviceLink) (persona : JsString) (result : CallResult) : DeviceLink :=
  match w.pairing.watched with
  | none => w
  | some watched =>
    if persona ≠ watched.bound then w
    else
      match result with
      | .ok => { w with pairing := { w.pairing with strikes := 0 }.hears .answered }
      | .failed => w
      | .unauthorised =>
        let struck := w.pairing.strike
          (w.options.router.any fun rt => decide (rt.primaryClientPubkeyHex = watched.clientPub))
        let w := { w with pairing := struck.1 }
        if struck.2 then w.begins (.confirming w.pairing.watch) else w

/-- What was begun comes to its next point. -/
def settle (w : DeviceLink) (k : ℕ) (result : CallResult) : DeviceLink :=
  let w' := { w with tasks := w.tasks.eraseIdx k }
  match w.tasks[k]? with
  | none => w
  | some (.loading gen dep) =>
    w'.begins (.loaded gen dep (if result = .ok then w.cache dep else none))
  | some (.loaded gen _ payload) =>
    let rules := if w.pairing.unpaired then w.rules else payload.elim w.rules (w.rules.apply gen)
    { w' with rules := if gen = w.rules.gen then { rules with cacheRead := true } else rules }
  | some (.opening gen payload) =>
    match payload, w.rules.linked with
    | some payload, some linked =>
      if w.pairing.unpaired = true ∨ gen ≠ w.rules.gen then w'
      else
        let accepting := { w' with
          rules := w.rules.apply gen payload
          accepted := Function.update w.accepted linked.dep (w.accepted linked.dep ++ [payload]) }
        if w.rules.takes gen payload then accepting.begins (.saving linked.dep payload) else accepting
    | _, _ => w'
  | some (.saving dep payload) =>
    if result = .ok then { w' with cache := Function.update w.cache dep (some payload) } else w'
  | some (.clearing dep) =>
    if result = .ok then { w' with cache := Function.update w.cache dep none } else w'
  | some (.confirming watch) =>
    if watch ≠ w.pairing.watch then w'
    else if result = .unauthorised then
      markUnpaired { w' with pairing := { w.pairing with confirming := false }.hears .keyRefused }
    else { w' with pairing := { w.pairing with confirming := false, strikes := 0 } }

/-- Whom a retry and a deferral may be about. -/
def asked (w : DeviceLink) (persona : JsString) : Bool :=
  isHexOf 64 persona && decide (w.options.record.map PairedChildRecord.personaPubkey ≠ some persona) &&
    w.candidates.contains persona

/-- What is asked of the approvals. -/
def approvalStep (w : DeviceLink) : LinkHappening → ApprovalState
  | .begin k => w.ceremony.beginTurn w.options k
  | .finish k ok => w.ceremony.finishTurn k ok
  | .retryApproval persona =>
    if w.asked persona then (w.ceremony.attempt persona).approve persona true else w.ceremony
  | .deferApproval persona =>
    if w.asked persona && decide (w.ceremony.approvals persona ≠ some .approved) then
      (w.ceremony.attempt persona).setApproval persona .deferred
    else w.ceremony
  | .ensureApproved persona =>
    let p := toLowerCase persona
    if (w.ceremony.inflight p).isSome || decide (w.ceremony.approvals p ≠ some .deferred) then w.ceremony
    else (w.ceremony.attempt p).approve p true
  | _ => w.ceremony

variable [Numerals] [Signatures]

def onEvent (w : DeviceLink) (ev : NostrEvent) (opened : Option ChildRulesPayload) : DeviceLink :=
  match w.rules.linked with
  | none => w
  | some linked =>
    if isOfUnpairedRail ev then
      if isUnpairedNotice ev linked.railPub linked.clientPub then
        markUnpaired { w with pairing := w.pairing.hears (.notice ev linked.railPub linked.clientPub) }
      else w
    else w.begins (.opening w.rules.gen opened)

def next (w : DeviceLink) (h : LinkHappening) : DeviceLink :=
  match h with
  | .render options =>
    { w with options, candidates := options.candidates w.rules.rules, cacheRead := w.rules.cacheRead }
  | .commit => w.commit
  | .event ev opened => w.onEvent ev opened
  | .stamped persona result => w.observe persona result
  | .settle k result => w.settle k result
  | _ => { w with ceremony := w.approvalStep h }

end DeviceLink

end SignetApp.ChildLink
