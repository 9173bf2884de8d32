import SignetApp.Apps.Registry
import SignetApp.Bunker.OwnerRoutes
import SignetApp.Concurrency.Reach
import SignetApp.Migration.Enrolment

/-!
# What a phone app asks for

`nip55.ts`: what a request of another app on the phone means, whether it is well formed, and what is to be done with it
before any key is touched.
-/

namespace SignetApp.PhoneApps

open SignetApp.Js
open SignetApp.Apps (isString)
open SignetApp.Bunker.OwnerRoutes (isKinterestAuthority)
open SignetApp.Child (UnsignedEvent inferScope)
open SignetApp.Migration (Npubs)

inductive Nip55Method where
  | getPublicKey | signEvent | nip44Encrypt | nip44Decrypt
  deriving DecidableEq

/-- What the native shell lifts off an intent or a provider query. -/
structure NativeNip55Request where
  id : JsString
  callerPackage : Option JsString
  type : JsString
  payload : Option JsString
  peerPubkey : Option JsString
  currentUser : Option JsString
  viaProvider : Bool
  deriving DecidableEq

structure ParsedNip55 where
  method : Nip55Method
  template : Option UnsignedEvent := none
  peer : Option JsString := none
  payload : Option JsString := none
  /-- The key the app named. -/
  currentUser : Option JsString

/-- What the phone remembers about one calling app. -/
structure Nip55Grant where
  pubkey : JsString
  allowAlways : Bool
  denyAlways : Bool
  deriving DecidableEq

/-! ## Requests -/

section

variable [Numerals] [Npubs]

/-- A key from its hexadecimal form or its npub. -/
def pubkeyHexFrom (value : Option JsString) : Option JsString :=
  (value.filter (· ≠ [])).bind fun value =>
    if isHexOf 64 (toLowerCase (trim value)) then some (toLowerCase (trim value))
    else (Npubs.decodeNpub (trim value)).map toLowerCase

def maxPayload : ℕ := 256 * 1024

/-- The time of a template is checked, and filled in where it is absent. -/
def isCreatedAt : JsValue → Bool
  | .undefined => true
  | v => (isNonNegativeInt v).isSome

/-- The key of a template, where there is one. -/
def templatePubkey : JsValue → Option JsString
  | .undefined => some []
  | v => if (pubkeyHexFrom (isString v)).isSome then some (((isString v).map toLowerCase).getD []) else none

def templateTags : JsValue → Option (List (List JsString))
  | .undefined => some []
  | v => isArrayOf (isArrayOf isString) v

def parseTemplate (payload : Option JsString) : Option UnsignedEvent := do
  let text ← payload.filter (· ≠ [])
  let e ← Js.parse text
  guard (isObj e)
  let kind ← isBoundedNat 65535 (e.get "kind")
  let content ← isString (e.get "content")
  let tags ← templateTags (e.get "tags")
  guard (isCreatedAt (e.get "created_at"))
  let pubkey ← templatePubkey (e.get "pubkey")
  some { kind := kind.val, content, tags, pubkey }

/-- The methods that take a peer and a text. -/
def parseCrypto (method : Nip55Method) (raw : NativeNip55Request) (currentUser : Option JsString) : Option ParsedNip55 := do
  let peer ← pubkeyHexFrom raw.peerPubkey
  let payload ← (raw.payload.map trim).filter (· ≠ [])
  some { method, peer := some peer, payload := some payload, currentUser }

def parseNip55Request (raw : NativeNip55Request) : Option ParsedNip55 :=
  let currentUser := pubkeyHexFrom raw.currentUser
  if raw.currentUser.any (· ≠ []) && currentUser.isNone then none
  else if raw.payload.any (maxPayload < ·.length) then none
  else if toLowerCase raw.type = lit "get_public_key" then some { method := .getPublicKey, currentUser }
  else if toLowerCase raw.type = lit "sign_event" then
    (parseTemplate raw.payload).map fun template => { method := .signEvent, template := some template, currentUser }
  else if toLowerCase raw.type = lit "nip44_encrypt" then parseCrypto .nip44Encrypt raw currentUser
  else if toLowerCase raw.type = lit "nip44_decrypt" then parseCrypto .nip44Decrypt raw currentUser
  else none

end

/-! ## The decision table -/

inductive Nip55Plan where
  | reject (reason : JsString)
  | defer
  | forward (pubkey : JsString)
  | ask (pubkey : Option JsString)
  deriving DecidableEq

/-- A standing app permission, which is asked for every time. -/
def isAppPermission (parsed : ParsedNip55) : Bool :=
  parsed.template.any fun template => inferScope template = some .appPermission

/-- The key that a request means: the one it names, the one chosen for its app before, the only one, the active one. -/
def identityFor (parsed : ParsedNip55) (grant : Option Nip55Grant) (owned : List JsString) (activePubkey : Option JsString) :
    Option JsString :=
  let remembered := (grant.filter fun g => owned.contains g.pubkey).map Nip55Grant.pubkey
  let active := (activePubkey.map toLowerCase).filter owned.contains
  (parsed.currentUser.or remembered).or (if owned.length = 1 then owned.head? else active)

def planNip55 (parsed : Option ParsedNip55) (viaProvider : Bool) (grant : Option Nip55Grant) (ownerPubkeys : List JsString)
    (activePubkey : Option JsString) : Nip55Plan :=
  match parsed with
  | none => .reject (lit "malformed")
  | some parsed =>
    let owned := ownerPubkeys.map toLowerCase
    if parsed.template.any isKinterestAuthority then .reject (lit "malformed")
    else if grant.any Nip55Grant.denyAlways then .reject (lit "denied")
    else if owned = [] then if viaProvider then .defer else .reject (lit "no-identity")
    else if parsed.currentUser.any fun named => !owned.contains named then .reject (lit "unknown-identity")
    else
      let identity := identityFor parsed grant owned activePubkey
      if grant.any (fun g => g.allowAlways && identity = some g.pubkey) && !isAppPermission parsed then
        .forward (identity.getD [])
      else if viaProvider then .defer
      else .ask identity

/-- The key an approval screen starts on, where the request named none. -/
def defaultNip55Pubkey (ownedPubkeys : List JsString) (grant : Option Nip55Grant) (activePubkey : Option JsString) :
    Option JsString :=
  let owned := ownedPubkeys.map toLowerCase
  let remembered := (grant.map fun g => toLowerCase g.pubkey).filter owned.contains
  let active := (activePubkey.map toLowerCase).filter owned.contains
  (remembered.or active).or owned.head?

/-- On a child's phone, what would be asked for is left to the gate, except for the key itself. -/
def planFor (gated : Bool) (parsed : Option ParsedNip55) (viaProvider : Bool) (grant : Option Nip55Grant)
    (owned : List JsString) (activePubkey : Option JsString) : Nip55Plan :=
  if gated && parsed.any (fun p => p.method ≠ .getPublicKey) && !owned.isEmpty then
    match planNip55 parsed false grant owned activePubkey with
    | .ask (some pubkey) => .forward pubkey
    | .ask none => .reject (lit "no-identity")
    | plan => plan
  else planNip55 parsed viaProvider grant owned activePubkey

/-! ## Plans -/

section

variable {gated viaProvider : Bool} {parsed : Option ParsedNip55} {p : ParsedNip55} {grant : Option Nip55Grant}
  {owned : List JsString} {activePubkey : Option JsString} {key : JsString}

/-- What a silent answer takes: the key is owned and the one that was named, and the app was allowed always, for this
very key and not for a standing permission. -/
structure AllowedAlways (p : ParsedNip55) (grant : Option Nip55Grant) (key : JsString) : Prop where
  grant : ∃ g, grant = some g ∧ g.allowAlways = true ∧ g.denyAlways = false ∧ g.pubkey = key
  permission : isAppPermission p = false

theorem named_mem {owned : List JsString} (h : ¬ (p.currentUser.any fun named => !owned.contains named) = true) :
    ∀ named ∈ p.currentUser, named ∈ owned := by
  intro named hnamed
  by_contra hnot
  refine h ((Option.any_eq_true _ _).2 ⟨named, hnamed, ?_⟩)
  simpa using hnot

theorem identityFor_mem {owned : List JsString} (hnamed : ∀ named ∈ p.currentUser, named ∈ owned)
    (h : identityFor p grant owned activePubkey = some key) :
    key ∈ owned ∧ ∀ named ∈ p.currentUser, key = named := by
  unfold identityFor at h
  dsimp only at h
  cases hcurrent : p.currentUser with
  | some named =>
    rw [hcurrent] at h
    obtain rfl : named = key := Option.some.inj h
    exact ⟨hnamed _ hcurrent, fun other hother => Option.some.inj (by rw [← hother])⟩
  | none =>
    rw [hcurrent, Option.none_or, Option.or_eq_some_iff] at h
    refine ⟨?_, fun named hnamed => by cases hnamed⟩
    rcases h with h | ⟨-, h⟩
    · obtain ⟨g, hg, rfl⟩ := Option.map_eq_some_iff.1 h
      exact List.contains_iff_mem.1 (Option.filter_eq_some_iff.1 hg).2
    · split at h
      · exact List.mem_of_head? h
      · exact List.contains_iff_mem.1 (Option.filter_eq_some_iff.1 h).2

theorem planNip55_forward (h : planNip55 (some p) viaProvider grant owned activePubkey = .forward key) :
    key ∈ owned.map toLowerCase ∧ (∀ named ∈ p.currentUser, key = named) ∧ AllowedAlways p grant key := by
  unfold planNip55 at h
  dsimp only at h
  split at h
  · cases h
  split at h
  · cases h
  rename_i hdenied
  split at h
  · split at h <;> cases h
  split at h
  · cases h
  rename_i hunknown
  split at h
  · rename_i hallowed
    rw [Bool.and_eq_true, Bool.not_eq_true'] at hallowed
    obtain ⟨hgrant, hpermission⟩ := hallowed
    obtain ⟨g, rfl, hg⟩ := (Option.any_eq_true _ _).1 hgrant
    rw [Bool.and_eq_true, decide_eq_true_eq] at hg
    obtain ⟨halways, hidentity⟩ := hg
    rw [hidentity] at h
    obtain rfl : g.pubkey = key := Nip55Plan.forward.inj h
    obtain ⟨hmem, hnamed⟩ := identityFor_mem (named_mem hunknown) hidentity
    exact ⟨hmem, hnamed, ⟨g, rfl, halways, by simpa using hdenied, rfl⟩, hpermission⟩
  · split at h <;> cases h

theorem planNip55_ask (h : planNip55 (some p) viaProvider grant owned activePubkey = .ask (some key)) :
    key ∈ owned.map toLowerCase ∧ ∀ named ∈ p.currentUser, key = named := by
  unfold planNip55 at h
  dsimp only at h
  split at h
  · cases h
  split at h
  · cases h
  split at h
  · split at h <;> cases h
  split at h
  · cases h
  rename_i hunknown
  split at h
  · cases h
  · split at h
    · cases h
    · exact identityFor_mem (named_mem hunknown) (Nip55Plan.ask.inj h)

/-- **What is forwarded** is forwarded with an owned key, the one the app named; on its own account it takes an allowance,
and otherwise there is a gate, which is not asked for the key itself. -/
theorem planFor_forward (h : planFor gated (some p) viaProvider grant owned activePubkey = .forward key) :
    key ∈ owned.map toLowerCase ∧ (∀ named ∈ p.currentUser, key = named) ∧
      (AllowedAlways p grant key ∨ gated = true ∧ p.method ≠ .getPublicKey) := by
  unfold planFor at h
  split at h
  · rename_i hgated
    rw [Bool.and_eq_true, Bool.and_eq_true, Option.any_some, decide_eq_true_eq] at hgated
    split at h
    · rename_i pubkey hask
      obtain rfl : pubkey = key := Nip55Plan.forward.inj h
      obtain ⟨hmem, hnamed⟩ := planNip55_ask hask
      exact ⟨hmem, hnamed, .inr ⟨hgated.1.1, hgated.1.2⟩⟩
    · cases h
    · obtain ⟨hmem, hnamed, hallowed⟩ := planNip55_forward h
      exact ⟨hmem, hnamed, .inl hallowed⟩
  · obtain ⟨hmem, hnamed, hallowed⟩ := planNip55_forward h
    exact ⟨hmem, hnamed, .inl hallowed⟩

end

end SignetApp.PhoneApps

/-!
## Serving phone apps

`useNip55Server.ts`, between its awaits and its renders. A render copies the properties and the state into the refs, and
plans again what was held; an update of the queue or of the grants is in the state at once, and in the refs after the
next render. The key's window, the gate and the signer are the environment's.
-/

namespace SignetApp.PhoneApps

open SignetApp.Js
open SignetApp.Migration (Npubs)

/-- A route of a key; those of dependants are not the person's own. -/
structure Route where
  pubkey : JsString
  dependantId : Option JsString := none

structure Waiting where
  handle : ℕ
  raw : NativeNip55Request
  parsed : ParsedNip55
  pubkey : Option JsString

inductive Stage where
  /-- The gate has been asked. -/
  | gating
  /-- The signer has been asked. -/
  | working
  deriving DecidableEq

/-- A request that is being executed. -/
structure Task where
  raw : NativeNip55Request
  parsed : ParsedNip55
  key : JsString
  stage : Stage
  /-- Was it withdrawn as its execution began? -/
  withdrawn : Bool

/-- One use of a key, with what held then. -/
structure Served where
  id : JsString
  parsed : ParsedNip55
  key : JsString
  owned : Bool
  locked : Bool
  expired : Bool
  withdrawn : Bool
  /-- The person pressed for this request. -/
  approved : Bool
  /-- The gate let this request through. -/
  gateAllowed : Bool
  /-- What is stored for the app. -/
  stored : Option Nip55Grant

structure World where
  /-- `routesRef.current`, and the other refs of the last render. -/
  routes : List Route
  locked : Bool
  active : Option JsString
  gated : Bool
  shownGrants : JsString → Option Nip55Grant
  /-- The queue that the buttons were rendered with. -/
  shown : List Waiting
  /-- `queueRef.current`. -/
  held : List Waiting
  queue : List Waiting
  grants : JsString → Option Nip55Grant
  nextHandle : ℕ
  seen : List JsString
  /-- `keyExpired()`. -/
  expired : Bool
  tasks : List Task
  served : List Served
  /-- The ids that were answered. -/
  answers : List JsString
  /-- The ids whose callers are gone. -/
  withdrawn : List JsString

/-- The person's own keys. -/
def World.owner (w : World) : List JsString :=
  (w.routes.filter fun r => (r.dependantId.filter (· ≠ [])).isNone).map Route.pubkey

def World.owns (w : World) (key : JsString) : Bool := w.owner.any fun pubkey => toLowerCase pubkey = key

/-- The grant of the calling app. -/
def grantOf (grants : JsString → Option Nip55Grant) (raw : NativeNip55Request) : Option Nip55Grant :=
  (raw.callerPackage.filter (· ≠ [])).bind grants

/-! ## Answers -/

def World.answer (w : World) (id : JsString) : World := { w with answers := id :: w.answers }

/-- The key is given or used. -/
def World.serve (w : World) (raw : NativeNip55Request) (parsed : ParsedNip55) (key : JsString)
    (withdrawn approved gateAllowed : Bool) : World :=
  let served : Served :=
    { id := raw.id, parsed, key, owned := w.owns key, locked := w.locked, expired := w.expired, withdrawn, approved
      gateAllowed, stored := grantOf w.grants raw }
  if parsed.method = .getPublicKey then { w with served := served :: w.served, answers := raw.id :: w.answers }
  else
    { w with served := served :: w.served, tasks := { raw, parsed, key, stage := .working, withdrawn } :: w.tasks }

/-- Signs, encrypts or decrypts with the route that holds the key, on a child's phone as the gate has it. -/
def World.execute (w : World) (raw : NativeNip55Request) (parsed : ParsedNip55) (key : JsString) (approved : Bool) :
    World :=
  let withdrawn := w.withdrawn.contains raw.id
  if !w.owns key then w.answer raw.id
  else if w.gated && parsed.method ≠ .getPublicKey then
    if (raw.callerPackage.filter (· ≠ [])).isNone then w.answer raw.id
    else { w with tasks := { raw, parsed, key, stage := .gating, withdrawn } :: w.tasks }
  else w.serve raw parsed key withdrawn approved false

/-! ## Requests -/

/-- A request is shown to the person, in its turn. -/
def World.push (w : World) (raw : NativeNip55Request) (parsed : ParsedNip55) (pubkey : Option JsString) : World :=
  { w with queue := w.queue ++ [{ handle := w.nextHandle, raw, parsed, pubkey }], nextHandle := w.nextHandle + 1 }

section

variable [Numerals] [Npubs]

def World.handleRequest (w : World) (raw : NativeNip55Request) : World :=
  if w.seen.contains raw.id then w
  else
    -- where the window has ended, the key is dropped first
    let w := { w with seen := raw.id :: w.seen, locked := w.locked || w.expired }
    match parseNip55Request raw with
    | none => w.answer raw.id
    | some parsed =>
      let owned := if w.locked then [] else w.owner
      match planFor w.gated (some parsed) raw.viaProvider (grantOf w.shownGrants raw) owned w.active with
      | .reject reason =>
        -- locked: the keys are not there yet
        if !raw.viaProvider && w.locked && reason = lit "no-identity" then w.push raw parsed parsed.currentUser
        else w.answer raw.id
      | .defer => w.answer raw.id
      | .forward key => w.execute raw parsed key false
      | .ask pubkey => w.push raw parsed pubkey

end

def World.withdraw (w : World) (id : JsString) : World :=
  { w with
    seen := id :: w.seen, withdrawn := id :: w.withdrawn
    queue := w.queue.filter fun item => item.raw.id ≠ id }

/-! ## Renders -/

/-- The plan for a request that was held. -/
def World.planOf (w : World) (item : Waiting) : Nip55Plan :=
  planFor w.gated (some item.parsed) item.raw.viaProvider (grantOf w.shownGrants item.raw) (w.owner.map toLowerCase)
    w.active

def World.isSettled (w : World) (item : Waiting) : Bool :=
  match w.planOf item with
  | .forward _ | .reject _ => true
  | _ => false

def World.settleItem (w : World) (plan : Nip55Plan) (item : Waiting) : World :=
  match plan with
  | .forward key => w.execute item.raw item.parsed key false
  | _ => w.answer item.raw.id

/-- A request that goes on waiting gets its key. -/
def World.keyItem (w : World) (item : Waiting) : Waiting :=
  match item.pubkey, w.planOf item with
  | none, .ask pubkey =>
    { item with
      pubkey := pubkey.or (defaultNip55Pubkey (w.owner.map toLowerCase) (grantOf w.shownGrants item.raw) w.active) }
  | _, _ => item

/-- What was held is planned against the keys. -/
def World.settleHeld (w : World) : World :=
  if w.locked || w.queue.isEmpty || w.owner.isEmpty then w
  else
    (w.queue.filter w.isSettled).foldl (fun u item => u.settleItem (w.planOf item) item)
      { w with queue := (w.queue.filter fun item => !w.isSettled item).map w.keyItem }

structure Props where
  routes : List Route
  locked : Bool
  active : Option JsString
  gated : Bool

/-- A render, with the effect where something it depends on has changed. -/
def World.render (w : World) (props : Props) (changed : Bool) : World :=
  let w : World :=
    { w with
      routes := props.routes, locked := props.locked, active := props.active, gated := props.gated
      shownGrants := w.grants, shown := w.queue, held := w.queue }
  if changed then w.settleHeld else w

/-! ## The person -/

def World.remember (w : World) (pkg : JsString) (grant : Nip55Grant) : World :=
  { w with grants := fun p => if p = pkg then some grant else w.grants p }

def World.rememberFor (w : World) (raw : NativeNip55Request) (grant : Nip55Grant) : World :=
  match raw.callerPackage.filter (· ≠ []) with
  | none => w
  | some pkg => w.remember pkg grant

/-- `take`: the item is looked for in the queue of the last render. -/
def World.take (w : World) (handle : ℕ) : Option (Waiting × World) :=
  (w.shown.find? fun item => item.handle = handle).map fun item =>
    (item, { w with queue := w.queue.filter fun item => item.handle ≠ handle })

/-- The key an approval may answer with: an owner route's, and exactly the one the app named. -/
def World.approvedKey (w : World) (item : Waiting) (pubkey : Option JsString) : Option JsString :=
  ((pubkey.or item.pubkey).map toLowerCase).filter fun key =>
    key ≠ [] && !item.parsed.currentUser.any (· ≠ key) && w.owns key

/-- `approveOnce` and `approveAlways`. -/
def World.approve (w : World) (always : Bool) (handle : ℕ) (pubkey : Option JsString) : World :=
  match w.take handle with
  | none => w
  | some (item, w) =>
    match w.approvedKey item pubkey with
    | none => w.answer item.raw.id
    | some key =>
      let prior := grantOf w.shownGrants item.raw
      let allowAlways := always || prior.any fun g => g.allowAlways && g.pubkey = key
      (w.rememberFor item.raw { pubkey := key, allowAlways, denyAlways := false }).execute item.raw item.parsed key true

/-- `deny` and `denyAlways`. -/
def World.refuse (w : World) (always : Bool) (handle : ℕ) : World :=
  match w.take handle with
  | none => w
  | some (item, w) =>
    let pubkey := (item.pubkey.or w.active).getD (List.replicate 64 (unit '0'))
    let w := if always then w.rememberFor item.raw { pubkey, allowAlways := false, denyAlways := true } else w
    w.answer item.raw.id

/-- The unlock was turned down. -/
def World.refuseHeld (w : World) : World :=
  if w.locked && !w.held.isEmpty then
    { w with held := [], queue := [], answers := w.held.map (·.raw.id) ++ w.answers }
  else w

/-! ## Runs -/

inductive Happening where
  | request (raw : NativeNip55Request)
  | withdraw (id : JsString)
  | render (props : Props) (changed : Bool)
  /-- The key's window ends, or begins. -/
  | window (expired : Bool)
  | approve (always : Bool) (handle : ℕ) (pubkey : Option JsString)
  | refuse (always : Bool) (handle : ℕ)
  | refuseHeld
  | forget (pkg : JsString)
  /-- The gate answers. -/
  | gate (i : ℕ) (allowed : Bool)
  /-- The signer is done, or fails. -/
  | finish (i : ℕ)

def next [Numerals] [Npubs] (w : World) : Happening → World
  | .request raw => w.handleRequest raw
  | .withdraw id => w.withdraw id
  | .render props changed => w.render props changed
  | .window expired => { w with expired }
  | .approve always handle pubkey => w.approve always handle pubkey
  | .refuse always handle => w.refuse always handle
  | .refuseHeld => w.refuseHeld
  | .forget pkg => { w with grants := fun p => if p = pkg then none else w.grants p }
  | .gate i allowed =>
    match w.tasks[i]? with
    | some task =>
      if task.stage = .gating then
        if allowed then
          { w with tasks := w.tasks.eraseIdx i }.serve task.raw task.parsed task.key task.withdrawn false true
        else { w with tasks := w.tasks.eraseIdx i }.answer task.raw.id
      else w
    | none => w
  | .finish i =>
    match w.tasks[i]? with
    | some task => if task.stage = .working then { w with tasks := w.tasks.eraseIdx i }.answer task.raw.id else w
    | none => w

/-! ## What is asked of a run -/

/-- **A use of a key is by the right key, with consent**: the key is an owner route's and the one the app named; the
person approved the request, or the app is allowed always for this very key, or the gate let the request through; and
the app was not locked, the key's window had not ended and the request had not been withdrawn. -/
structure Served.IsRight (s : Served) : Prop where
  owned : s.owned = true
  named : ∀ named ∈ s.parsed.currentUser, s.key = named
  consent : s.approved = true ∨ AllowedAlways s.parsed s.stored s.key ∨ s.gateAllowed = true
  unlocked : s.locked = false
  unexpired : s.expired = false
  standing : s.withdrawn = false

/-- Each step finds what it goes by as the last render left it: an allowance is read as it is stored; no render comes
unlocked once the key's window has ended; a button finds its request still waiting, and an approval with a key finds that
key still there, and so does the gate's answer; and what is refused with the unlock still waits. -/
def UpToDate (w : World) : Happening → Prop
  | .request raw => ∀ g ∈ grantOf w.shownGrants raw, g.allowAlways = true → grantOf w.grants raw = some g
  | .render props _ => w.expired = true → props.locked = true
  | .approve _ handle pubkey => ∀ item ∈ w.shown, item.handle = handle →
      (∃ waiting ∈ w.queue, waiting.raw.id = item.raw.id) ∧
        ((w.approvedKey item pubkey).isSome = true → w.locked = false ∧ w.expired = false)
  | .refuse _ handle => ∀ item ∈ w.shown, item.handle = handle → ∃ waiting ∈ w.queue, waiting.raw.id = item.raw.id
  | .refuseHeld => ∀ item ∈ w.held, ∃ waiting ∈ w.queue, waiting.raw.id = item.raw.id
  | .gate i allowed => allowed = true → ∀ task ∈ w.tasks[i]?, task.stage = .gating →
      w.locked = false ∧ w.expired = false ∧ w.owns task.key = true
  | _ => True

end SignetApp.PhoneApps
