import SignetApp.Child.AppPermission
import SignetApp.Concurrency.Reach
import SignetApp.Js.Guards
import SignetApp.Js.Json

/-!
# The answer seal pass

`answer-seal-pass.ts`: the wrapper around a persona's route for one request of an app. The approved
signature is the guardian's to decide; the encryption and the seal that carry that answer back go
past the gate on a pass, and nothing else does. Its calls overlap: what the gate answers, what the
inner route returns and when is up to the run.
-/

namespace SignetApp.Child

open SignetApp.Js

/-! ## The gate -/

inductive ChildGateMethod where
  | signEvent | nip44Encrypt | nip44Decrypt
  deriving DecidableEq

inductive ChildGateError where
  | denied | blocked | expired | unpaired | busy | asked
  | unsent | rateLimited | deviceUnreachable | withdrawn
  deriving DecidableEq

/-- What the gate is asked; `signIn` holds `sharesHandle`. -/
structure ChildGateRequest where
  persona : Hex 64
  appId : JsString
  appLabel : JsString
  siteOrigin : Option JsString
  method : ChildGateMethod
  template : Option UnsignedEvent
  peer : Option JsString
  appPermission : Option AppPermissionClaim
  appPermissionApproved : Option Bool
  signIn : Option Bool

inductive ChildGateOutcome where
  | ok (requestCreatedAt : ℤ) (template : Option UnsignedEvent) (alsoOpened : Option (List ℚ))
  | refused (error : ChildGateError)

def sealKind : ℚ := 13

/-- `outcome.ok && outcome.alsoOpened.includes(SEAL_KIND)`. -/
def ChildGateOutcome.opensSeal : ChildGateOutcome → Bool
  | .ok _ _ (some kinds) => decide (sealKind ∈ kinds)
  | _ => false

/-- An event as the inner route returns it. -/
structure SignedEvent where
  id : JsValue
  kind : ℚ
  pubkey : JsString

/-! ## The wrapper -/

namespace AnswerSeal

/-- `ANSWER_SEAL_PASS_LIFETIME_MS`. -/
def passLifetimeMs : ℤ := 60000

def answerRumorKind : ℚ := 29999

def childOwnAppId : JsString := lit "mysignet"

structure AnswerSealingInput where
  /-- `inner.activePublicKeyHex`. -/
  innerKey : JsString
  persona : JsString
  appLabel : JsString
  siteOrigin : Option JsString
  appPermission : Option AppPermissionClaim
  appPermissionApproved : Bool
  signIn : Option Bool
  sessionPubkey : JsString
  eligibleKind : ℚ
  responseField : String

/-- What a wrapper was made from, once its checks have passed. -/
structure AnswerSealing where
  persona : Hex 64
  appLabel : JsString
  siteOrigin : Option JsString
  appPermission : Option AppPermissionClaim
  appPermissionApproved : Bool
  signIn : Option Bool
  session : JsString
  eligibleKind : ℚ
  responseField : String
  origin_claimed : ∀ claim, appPermission = some claim → siteOrigin = some claim.origin

/-- The checks `answerSealingBackend` makes before anything is wrapped. -/
def answerSealingBackend (input : AnswerSealingInput) : Option AnswerSealing :=
  let siteOrigin := input.siteOrigin.or (input.appPermission.map (·.origin))
  if hkey : isHexOf 64 (toLowerCase input.persona) = true
      ∧ toLowerCase input.innerKey = toLowerCase input.persona then
    if horigin : ∀ claim, input.appPermission = some claim → siteOrigin = some claim.origin then
      some { persona := ⟨toLowerCase input.persona, hkey.1⟩, appLabel := input.appLabel, siteOrigin
             appPermission := input.appPermission
             appPermissionApproved := input.appPermissionApproved, signIn := input.signIn
             session := toLowerCase input.sessionPubkey, eligibleKind := input.eligibleKind
             responseField := input.responseField, origin_claimed := horigin }
    else none
  else none

inductive Operation where
  /-- Of a template object, by reference. -/
  | signEvent (ref : ℕ)
  | nip44Encrypt (peer plaintext : JsString)
  | nip44Decrypt (peer ciphertext : JsString)
  deriving DecidableEq

def Operation.isSign : Operation → Bool
  | .signEvent _ => true
  | _ => false

def Operation.isEncrypt : Operation → Bool
  | .nip44Encrypt .. => true
  | _ => false

def Operation.isDecrypt : Operation → Bool
  | .nip44Decrypt .. => true
  | _ => false

/-- The two entries of the gate. -/
inductive GateEntry where
  | authorise | forwardPassed
  deriving DecidableEq

inductive Settled where
  | event (signed : SignedEvent)
  | text (s : JsString)
  | failed

structure Call where
  op : Operation
  entry : GateEntry
  calledAt : ℤ
  /-- What the gate answered, once it has. -/
  outcome : Option ChildGateOutcome
  settled : Option Settled

structure Pass where
  eventId : Hex 64
  mintedAt : ℤ
  ciphertext : Option JsString
  used : Bool

structure GateCall where
  caller : ℕ
  entry : GateEntry
  request : ChildGateRequest

/-- An event of the eligible kind that came back signed. -/
structure Signing where
  caller : ℕ
  event : SignedEvent
  signedAt : ℤ

/-- The closure of a wrapper, with the calls made through it. -/
structure Wrapper where
  now : ℤ
  pass : Option Pass
  minted : Bool
  /-- The weak map, by the reference of the template object. -/
  sealOpened : ℕ → Option Bool
  calls : List Call
  gateCalls : List GateCall
  signings : List Signing

def fresh (now : ℤ) : Wrapper where
  now := now
  pass := none
  minted := false
  sealOpened := fun _ => none
  calls := []
  gateCalls := []
  signings := []

/-- Everything that may happen to a wrapper. -/
inductive Happening where
  | tick (ms : ℕ)
  | call (op : Operation)
  | answer (i : ℕ) (outcome : ChildGateOutcome)
  | gateFails (i : ℕ)
  | signed (i : ℕ) (event : SignedEvent)
  | encrypted (i : ℕ) (ciphertext : JsString)
  | decrypted (i : ℕ) (plaintext : JsString)
  | innerFails (i : ℕ)

/-- A tag `[name, text]`. -/
def isPair (name : String) : JsValue → Bool
  | .arr [key, .str _] => decide (key = .ofLit name)
  | _ => false

/-- `Array.isArray(t) && t[0] === name`. -/
def isTagOf (name : String) : JsValue → Bool
  | .arr (key :: _) => decide (key = .ofLit name)
  | _ => false

/-- The plaintext is the answer rumor for the event with this id. -/
def isAnswerRumor [Numerals] (persona : Hex 64) (responseField : String) (plaintext : JsString)
    (eventId : Hex 64) : Bool :=
  ((parse plaintext).bind fun r =>
    match r.get "tags", r.get "content" with
    | .arr tags, .str text =>
      if isObj r ∧ r.get "kind" = .num (.finite answerRumorKind) ∧ r.get "pubkey" = persona.toJs
          ∧ tags.filter (isTagOf "status") = [.arr [.ofLit "status", .ofLit "approved"]]
          ∧ tags.any (isPair "session") = true then
        (parse text).bind fun content =>
          if isObj content ∧ isObj (content.get responseField)
              ∧ (content.get responseField).get "id" = eventId.toJs then
            some ()
          else none
      else none
    | _, _ => none).isSome

def Wrapper.livePass (w : Wrapper) : Option Pass :=
  w.pass.filter fun p => !p.used && decide (w.now - p.mintedAt ≤ passLifetimeMs)

section

variable (s : AnswerSealing) (template : ℕ → UnsignedEvent)

/-- Does the live pass let this operation through? -/
def takesPass [Numerals] (p : Pass) : Operation → Bool
  | .signEvent ref =>
    decide (p.ciphertext = some (template ref).content ∧ (template ref).kind = sealKind
      ∧ (template ref).tags = [] ∧ (template ref).pubkey = s.persona.val)
  | .nip44Encrypt peer plaintext =>
    decide (toLowerCase peer = s.session) && isAnswerRumor s.persona s.responseField plaintext p.eventId
  | .nip44Decrypt _ _ => false

/-- The request as the gate sees it; only the approved signature carries the claim. -/
def request (entry : GateEntry) (op : Operation) : ChildGateRequest :=
  let base : ChildGateRequest :=
    { persona := s.persona, appId := childOwnAppId, appLabel := s.appLabel
      siteOrigin := s.siteOrigin.filter (· ≠ []), method := .nip44Decrypt, template := none
      peer := none, appPermission := none, appPermissionApproved := none, signIn := none }
  match op with
  | .signEvent ref =>
    let eligible := decide (entry = .authorise ∧ (template ref).kind = s.eligibleKind)
    { base with method := .signEvent, template := some (template ref)
                appPermission := if eligible then s.appPermission else none
                appPermissionApproved :=
                  if eligible then s.appPermission.map fun _ => s.appPermissionApproved else none
                signIn := if eligible then s.signIn else none }
  | .nip44Encrypt peer _ =>
    { base with method := .nip44Encrypt, peer := some peer }
  | .nip44Decrypt peer _ => { base with peer := some peer }

/-- A call, up to where it waits for the entry of the gate it asks. -/
def Wrapper.ask (w : Wrapper) (op : Operation) (entry : GateEntry) (pass : Option Pass) : Wrapper :=
  { w with
    pass := pass
    calls := w.calls ++ [{ op, entry, calledAt := w.now, outcome := none, settled := none }]
    gateCalls := w.gateCalls ++
      [{ caller := w.calls.length, entry, request := request s template entry op }] }

def Wrapper.begin [Numerals] (w : Wrapper) (op : Operation) : Wrapper :=
  match w.livePass.filter fun p => takesPass s template p op with
  -- a seal uses the pass up before it is asked for
  | some p => w.ask s template op .forwardPassed (some { p with used := op.isSign })
  | none => w.ask s template op .authorise w.pass

/-- What the ordinary gate's answer leaves in the weak map. -/
def noteAnswer (w : Wrapper) (c : Call) (outcome : ChildGateOutcome) : ℕ → Option Bool :=
  match c.op, c.entry with
  | .signEvent ref, .authorise =>
    if (template ref).kind = s.eligibleKind then
      Function.update w.sealOpened ref (some outcome.opensSeal)
    else w.sealOpened
  | _, _ => w.sealOpened

/-- Call `i`, when it has got as far as `test` says. -/
def Wrapper.atCall (w : Wrapper) (i : ℕ) (test : Call → Bool) (f : Call → Wrapper) : Wrapper :=
  match w.calls[i]? with
  | some c => if test c then f c else w
  | none => w

def Call.atGate (c : Call) : Bool := c.outcome.isNone && c.settled.isNone

/-- The gate allowed it, and the inner route is at work. -/
def Call.atInner (c : Call) : Bool :=
  c.settled.isNone && c.outcome.any fun o => match o with
    | .ok .. => true
    | .refused _ => false

def Call.isSign (c : Call) : Bool := c.op.isSign

def Call.isEncrypt (c : Call) : Bool := c.op.isEncrypt

def Call.isDecrypt (c : Call) : Bool := c.op.isDecrypt

def Wrapper.setCall (w : Wrapper) (i : ℕ) (c : Call) : Wrapper :=
  { w with calls := w.calls.set i c }

/-- A refusal raises; an allowed call goes on to the inner route. -/
def Call.answered (c : Call) (outcome : ChildGateOutcome) : Call :=
  { c with outcome := some outcome
           settled := match outcome with
             | .ok .. => none
             | .refused _ => some .failed }

def Wrapper.answered (w : Wrapper) (i : ℕ) (outcome : ChildGateOutcome) (c : Call) : Wrapper :=
  { w.setCall i (c.answered outcome) with sealOpened := noteAnswer s template w c outcome }

/-- The pass an eligible signature of the ordinary gate mints. -/
def Wrapper.mint (w : Wrapper) (c : Call) (event : SignedEvent) : Option Pass :=
  match c.op with
  | .signEvent ref =>
    if w.sealOpened ref = some true ∧ event.pubkey = s.persona.val then
      (isHex 64 event.id).map fun id => { eventId := id, mintedAt := w.now, ciphertext := none,
                                          used := false }
    else none
  | _ => none

def Wrapper.signedBack (w : Wrapper) (i : ℕ) (event : SignedEvent) (c : Call) : Wrapper :=
  let w' := { w.setCall i { c with settled := some (.event event) } with
    signings := if event.kind = s.eligibleKind then
      w.signings ++ [{ caller := i, event, signedAt := w.now }] else w.signings }
  -- the first eligible signature decides, pass or not
  if c.entry = .authorise ∧ w.minted = false ∧ event.kind = s.eligibleKind then
    { w' with minted := true, pass := (w.mint s c event).or w.pass }
  else w'

def Wrapper.encryptedBack (w : Wrapper) (i : ℕ) (ciphertext : JsString) (c : Call) : Wrapper :=
  { w.setCall i { c with settled := some (.text ciphertext) } with
    pass := if c.entry = .forwardPassed then
      w.pass.map fun p => if p.used then p else { p with ciphertext := some ciphertext }
    else w.pass }

def Wrapper.next [Numerals] (w : Wrapper) : Happening → Wrapper
  | .tick ms => { w with now := w.now + ms }
  | .call op => w.begin s template op
  | .answer i outcome => w.atCall i Call.atGate (w.answered s template i outcome)
  | .gateFails i => w.atCall i Call.atGate fun c => w.setCall i { c with settled := some .failed }
  | .signed i event => w.atCall i (fun c => c.atInner && c.isSign) (w.signedBack s i event)
  | .encrypted i ciphertext =>
    w.atCall i (fun c => c.atInner && c.isEncrypt) (w.encryptedBack i ciphertext)
  | .decrypted i plaintext =>
    w.atCall i (fun c => c.atInner && c.isDecrypt) fun c =>
      w.setCall i { c with settled := some (.text plaintext) }
  | .innerFails i => w.atCall i Call.atInner fun c => w.setCall i { c with settled := some .failed }

end

/-! ## What it promises -/

section

variable (s : AnswerSealing) (template : ℕ → UnsignedEvent)

/-- What an operation past the gate has to do with the answer that carries the event `id`. -/
def Answers [Numerals] (w : Wrapper) (id : Hex 64) : Operation → Prop
  | .signEvent ref =>
    (template ref).kind = sealKind ∧ (template ref).tags = [] ∧ (template ref).pubkey = s.persona.val
      ∧ ∃ d ∈ w.calls, d.entry = .forwardPassed ∧ d.isEncrypt = true
        ∧ d.settled = some (.text (template ref).content)
  | .nip44Encrypt peer plaintext =>
    toLowerCase peer = s.session ∧ isAnswerRumor s.persona s.responseField plaintext id = true
  | .nip44Decrypt _ _ => False

/-- `e` is the first eligible event signed, with this id, and the gate's own answer to that call
said that the seal is open. -/
structure OpenedBy (w : Wrapper) (e : Signing) (id : Hex 64) : Prop where
  first : w.signings.head? = some e
  id : isHex 64 e.event.id = some id
  persona : e.event.pubkey = s.persona.val
  kind : e.event.kind = s.eligibleKind
  allowed : ∃ d o, w.calls[e.caller]? = some d ∧ d.isSign = true ∧ d.entry = .authorise
    ∧ d.outcome = some o ∧ o.opensSeal = true ∧ d.settled = some (.event e.event)

/-- A call past the gate carries the one answer, in time. -/
def Carried [Numerals] (w : Wrapper) (c : Call) : Prop :=
  ∃ e id, OpenedBy s w e id ∧ Answers s template w id c.op
    ∧ e.signedAt ≤ c.calledAt ∧ c.calledAt ≤ e.signedAt + passLifetimeMs

/-- The pass opened for one answer only. -/
structure OneAnswer [Numerals] (w : Wrapper) : Prop where
  /-- Each call asks one entry of the gate, once. -/
  gate : w.gateCalls = w.calls.mapIdx fun i c =>
    { caller := i, entry := c.entry, request := request s template c.entry c.op }
  one_seal : ∀ (i j : ℕ) (c d : Call), w.calls[i]? = some c → w.calls[j]? = some d →
    c.entry = .forwardPassed → d.entry = .forwardPassed → c.isSign = true → d.isSign = true → i = j
  carried : ∀ c ∈ w.calls, c.entry = .forwardPassed → Carried s template w c

/-- When the gate reports the seal opened for an eligible signature and none has decided yet, no
other call on the same template object, allowed without that report, is still being signed. -/
def Careful (w : Wrapper) : Happening → Prop
  | .answer i outcome => outcome.opensSeal = true → w.minted = false →
    ∀ (c : Call) (ref : ℕ), w.calls[i]? = some c → c.atGate = true → c.entry = .authorise →
      c.op = .signEvent ref → (template ref).kind = s.eligibleKind →
      ∀ d ∈ w.calls, d.op = .signEvent ref → d.entry = .authorise → d.atInner = true →
        ∀ o, d.outcome = some o → o.opensSeal = true
  | _ => True

end

end AnswerSeal

end SignetApp.Child
