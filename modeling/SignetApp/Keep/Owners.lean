import SignetApp.Collections.OrderedMap
import SignetApp.Contacts.Types

/-!
# The owner personas of a Keep

Who is linked, what the owners update says, and the games invites that follow from it. A Keep
holds here what reconciling reads or writes; its name, relays, claim, passes and settings ride
along unchanged.
-/

namespace SignetApp.Keep

open SignetApp.Js SignetApp.Contacts

/-- The section that lets a persona into the game. -/
def KEEP_SECTION_GAMES : JsString := lit "games"

/-- The most owner personas one Keep takes. -/
def KEEP_MAX_OWNER_PERSONAS : ℕ := 16

/-- A games invite lasts an hour less than a year. -/
def KEEP_GAMES_INVITE_S : ℤ := 365 * 86400 - 3600

/-- A games invite is renewed in its last thirty days. -/
def KEEP_GAMES_RENEW_BEFORE_S : ℤ := 30 * 86400

/-! ## Records -/

inductive InviteStatus
  | waiting | active | revoked | refused
  deriving DecidableEq

inductive InviteKind
  | personal | guest
  deriving DecidableEq

inductive RefusalReason
  | expired | expiryTooLong | revoked | full | conflict | malformed | stale | tooMany
  deriving DecidableEq

structure StoredInvite where
  grant : Hex32
  secret : Hex64
  kind : InviteKind
  persona : Option Hex64
  /-- The owner persona the invite keeps in the game; a member's invite has none. -/
  gamesFor : Option Hex64
  label : Option JsString
  createdAt : ℤ
  expiration : ℤ
  status : InviteStatus
  reason : Option RefusalReason
  revokeSent : Bool
  sentAt : Option ℤ
  revokeSentAt : Option ℤ
  ackAt : Option ℤ
  deriving DecidableEq

/-- A persona's acceptance, while the Keep has not confirmed it. -/
structure Accept where
  rev : ℤ
  sentAt : ℤ
  composedAt : ℤ
  pending : Bool
  deriving DecidableEq

structure PersonaLink where
  sections : List JsString
  addedRev : Option ℤ
  active : Bool
  accept : Option Accept
  deriving DecidableEq

inductive UpdateFailure
  | stale | tooMany | malformed
  deriving DecidableEq

structure PendingUpdate where
  rev : ℤ
  signer : Hex64
  personas : List (Hex64 × List JsString)
  sentAt : ℤ
  composedAt : ℤ
  refusedAt : Option ℤ
  retried : Bool
  failed : Option UpdateFailure
  deriving DecidableEq

inductive KeepScope
  | one | all
  deriving DecidableEq

inductive KeepStatus
  | pending | paired
  deriving DecidableEq

structure StoredKeep where
  claimedBy : Hex64
  scope : KeepScope
  rev : ℤ
  links : OrderedMap Hex64 PersonaLink
  seen : List Hex64
  update : Option PendingUpdate
  status : KeepStatus
  invites : List StoredInvite
  deriving DecidableEq

/-! ## Who is an owner -/

/-- The linked personas: `personas` always lists the keys of `links`. -/
def StoredKeep.personas (keep : StoredKeep) : List Hex64 := keep.links.keys

def isActiveOwner (keep : StoredKeep) (persona : Hex64) : Bool :=
  (keep.links.get persona).any (·.active)

def activeOwners (keep : StoredKeep) : List Hex64 := keep.personas.filter (isActiveOwner keep)

def isLinked (keep : StoredKeep) (persona : Hex64) : Bool := keep.links.has persona

def gamesOn (keep : StoredKeep) (persona : Hex64) : Bool :=
  (keep.links.get persona).any (·.sections.contains KEEP_SECTION_GAMES)

/-- The active owner that signs what nobody asked for in the moment. -/
def pickSigner (keep : StoredKeep) (canSign : Hex64 → Bool) (prefer : Option Hex64) :
    Option Hex64 :=
  (prefer.toList ++ keep.claimedBy :: activeOwners keep).find? fun p =>
    isActiveOwner keep p && canSign p

/-! ## Changing the list -/

/-- The highest revision the Keep or its unanswered update is at. -/
def lastRev (keep : StoredKeep) : ℤ := max keep.rev ((keep.update.map (·.rev)).getD 0)

/-- The next revision can be stored. -/
def canCompose (keep : StoredKeep) : Bool := lastRev keep < maxSafeInteger

/-- A link as the update at `rev` lists it: asked for an accept unless it is active. -/
def composedLink (rev now : ℤ) (link : PersonaLink) : PersonaLink :=
  { link with
    addedRev := some (link.addedRev.getD rev)
    accept := if link.active then none else some ⟨rev, 0, now, false⟩ }

/-- The owners update of the current links; nothing where it throws. -/
def composeUpdate (keep : StoredKeep) (signer : Hex64) (now : ℤ) : Option StoredKeep :=
  if canCompose keep then
    let rev := lastRev keep + 1
    let links := keep.links.mapEntries fun _ link => composedLink rev now link
    let update : PendingUpdate :=
      { rev, signer, sentAt := 0, composedAt := now
        refusedAt := keep.update.bind (·.refusedAt)
        personas := links.entries.map fun e => (e.1, e.2.sections)
        retried := false, failed := none }
    some { keep with links, update := some update }
  else none

/-- The list with `persona` added, or nothing when it is linked already or the list is full. -/
def linkPersona (keep : StoredKeep) (persona : Hex64) : Option StoredKeep :=
  if isLinked keep persona || KEEP_MAX_OWNER_PERSONAS ≤ keep.personas.length then none
  else
    let link : PersonaLink := ⟨[KEEP_SECTION_GAMES], none, false, none⟩
    some { keep with
      links := keep.links.set persona link
      seen := if keep.seen.contains persona then keep.seen else keep.seen ++ [persona] }

/-! ## Games invites -/

def isExpired (invite : StoredInvite) (now : ℤ) : Bool := invite.expiration ≤ now

def liveInvite (i : StoredInvite) (now : ℤ) : Bool :=
  (i.status = .waiting || i.status = .active) && !i.revokeSent && !isExpired i now

def gamesInvitesFor (keep : StoredKeep) (persona : Hex64) : List StoredInvite :=
  keep.invites.filter fun i => i.gamesFor == some persona

/-- What reconciling is told. The `n`th invite it makes draws the `n`th grant and secret. -/
structure ReconcileContext where
  now : ℤ
  /-- Every persona of the account this device can sign for, dependants left out. -/
  eligible : List Hex64
  canSign : Hex64 → Bool
  nameOf : Hex64 → JsString
  grants : ℕ → Hex32
  secrets : ℕ → Hex64

def GAMES_LABEL_NAME_MAX : ℕ := 31

def newGamesInvite (persona : Hex64) (ctx : ReconcileContext) (drawn : ℕ) : StoredInvite :=
  { grant := ctx.grants drawn, secret := ctx.secrets drawn, kind := .personal
    persona := some persona, gamesFor := some persona
    label := some (((codePoints (ctx.nameOf persona)).take GAMES_LABEL_NAME_MAX).flatten
      ++ lit " (owner)")
    createdAt := ctx.now, expiration := ctx.now + KEEP_GAMES_INVITE_S
    status := .waiting, reason := none, revokeSent := false, sentAt := some 0
    revokeSentAt := none, ackAt := none }

/-! ## Linking the personas an `all` Keep has not met -/

/-- The eligible personas the Keep has not met, as many as there is room for. -/
def freshPersonas (k : StoredKeep) (ctx : ReconcileContext) : List Hex64 :=
  (ctx.eligible.filter fun p => !k.seen.contains p && !isLinked k p).take
    (KEEP_MAX_OWNER_PERSONAS - k.personas.length)

/-- Who signs the first list, or the list with the fresh personas. -/
def autoSigner (k : StoredKeep) (ctx : ReconcileContext) : Option Hex64 :=
  -- Right after pairing the first list goes out even with only the claimer on it.
  let first := k.rev = 0 && k.update.isNone
  if (!(freshPersonas k ctx).isEmpty || first) && canCompose k then pickSigner k ctx.canSign none
  else none

/-- The first part of `reconcileKeep`: the Keep, and whether it is a new object. -/
def autoLink (k : StoredKeep) (ctx : ReconcileContext) : Option (StoredKeep × Bool) :=
  if k.scope = .all && !(k.update.any (·.failed.isSome)) then
    match autoSigner k ctx with
    | some signer =>
      let added := (freshPersonas k ctx).foldl (fun added p => (linkPersona added p).getD added) k
      (composeUpdate added signer ctx.now).map fun k' => (k', true)
    | none => some (k, false)
  else some (k, false)

/-! ## Bringing the games invites in line -/

/-- The invites while they are brought in line, how many were made, and whether the list is a new
object. -/
structure Sweep where
  invites : List StoredInvite
  drawn : ℕ
  replaced : Bool

def StoredInvite.marked (i : StoredInvite) : StoredInvite :=
  { i with revokeSent := true, revokeSentAt := some 0 }

/-- Mark an invite to be revoked, by its grant. -/
def mark (s : Sweep) (i : StoredInvite) : Sweep :=
  { s with
    invites := s.invites.map fun x => if x.grant = i.grant then x.marked else x
    replaced := true }

/-- Append a new games invite. -/
def Sweep.add (s : Sweep) (persona : Hex64) (ctx : ReconcileContext) : Sweep :=
  ⟨s.invites ++ [newGamesInvite persona ctx s.drawn], s.drawn + 1, true⟩

/-- An invite to be marked because the owner does not want it. -/
def unwantedInvite (i : StoredInvite) : Bool :=
  i.status ≠ .revoked && !i.revokeSent && (i.status = .waiting || i.status = .active)

/-- `[...invites].sort((a, b) => b.expiration - a.expiration)[0]`. -/
def longest (invites : List StoredInvite) : Option StoredInvite :=
  (invites.mergeSort fun a b => b.expiration ≤ a.expiration).head?

/-- `[...invites].sort((a, b) => b.createdAt - a.createdAt)[0]`. -/
def latest (invites : List StoredInvite) : Option StoredInvite :=
  (invites.mergeSort fun a b => b.createdAt ≤ a.createdAt).head?

/-- A persona with these invites needs a new one. A refusal of the newest stands until the owner
tries again. -/
def needsInvite (mine : List StoredInvite) (now : ℤ) : Bool :=
  !((latest mine).any (·.status = .refused)) &&
    (longest (mine.filter (liveInvite · now))).all
      (·.expiration - now < KEEP_GAMES_RENEW_BEFORE_S)

/-- The live invites that an active one outlasts. -/
def superseded (mine : List StoredInvite) (now : ℤ) : List StoredInvite :=
  let live := mine.filter (liveInvite · now)
  match longest (live.filter (·.status = .active)) with
  | some active =>
    if KEEP_GAMES_RENEW_BEFORE_S ≤ active.expiration - now then
      live.filter (·.expiration < active.expiration)
    else []
  | none => []

/-- One owner's turn. -/
def sweepOwner (k : StoredKeep) (ctx : ReconcileContext) (s : Sweep) (p : Hex64) : Sweep :=
  let mine := s.invites.filter fun i => i.gamesFor == some p
  if gamesOn k p then
    let s := if needsInvite mine ctx.now then s.add p ctx else s
    (superseded mine ctx.now).foldl mark s
  else (mine.filter unwantedInvite).foldl mark s

/-- Everyone linked and everyone with a games invite. -/
def gamesOwners (k : StoredKeep) : List Hex64 :=
  distinct (k.personas ++ k.invites.filterMap (·.gamesFor))

/-- What `reconcileKeep` returns: the Keep, and whether it is the very object it was given. -/
structure Reconciled where
  keep : StoredKeep
  same : Bool
  deriving DecidableEq

/-- Bring a paired Keep in line with what the owner wants; nothing where it throws. -/
def reconcileKeep (keep : StoredKeep) (ctx : ReconcileContext) : Option Reconciled :=
  if keep.status ≠ .paired then some ⟨keep, true⟩
  else
    (autoLink keep ctx).map fun linked =>
      let k := linked.1
      let s := (gamesOwners k).foldl (sweepOwner k ctx) ⟨k.invites, 0, false⟩
      ⟨if s.replaced then { k with invites := s.invites } else k, !linked.2 && !s.replaced⟩

end SignetApp.Keep
