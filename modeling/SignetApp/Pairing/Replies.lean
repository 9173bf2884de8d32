import SignetApp.Pairing.Requests

/-!
# Replies and outboxes

`child-contact-exchange.ts`, `child-contact-reply-delivery.ts` and the reply inbox of
`useChildContactReplyInbox.ts`: what a reply may say, how one reply follows another, and the rows
that hold requests and replies on their way.
-/

namespace SignetApp.Pairing

open SignetApp.Js SignetApp.Contacts

/-! ## Replies -/

inductive ChildContactReplyStatus where
  | pending | denied | expired | conflict | completed
  deriving DecidableEq

structure ChildContactReply where
  requestId : Hex32
  guardian : Hex64
  endpoint : Hex64
  client : Hex64
  persona : Hex64
  revision : ℤ
  createdAt : ℤ
  expiresAt : ℤ
  status : ChildContactReplyStatus
  exchangeId : Option Hex32
  contactId : Option Hex32
  deriving DecidableEq

/-- `parseChildContactReply(JSON.stringify(r))`. The JSON of a reply with these members stays under
its 4096 bytes. -/
def parseChildContactReply (r : ChildContactReply) : Option ChildContactReply :=
  if !stamp r.revision || r.revision < 1 || !stamp r.createdAt || !stamp r.expiresAt
      || r.expiresAt ≤ r.createdAt || ttl < r.expiresAt - r.createdAt
      || r.status = .completed && r.exchangeId.isNone
      || r.status ≠ .completed && (r.exchangeId.isSome || r.contactId.isSome) then none
  else some r

/-- A reply of this request that belongs to the pairing. -/
def ChildContactReply.belongs (r : ChildContactReply) (scope : ChildRequestScope)
    (requestId : Hex32) : Bool :=
  r.requestId = requestId && r.guardian = scope.guardian && r.endpoint = scope.endpoint
    && r.client = scope.client

inductive ReplyTransition where
  | same | advance | stale
  deriving DecidableEq

def childContactReplyTransition (previous next : ChildContactReply) :
    Except String ReplyTransition :=
  if previous.requestId ≠ next.requestId || previous.guardian ≠ next.guardian
      || previous.endpoint ≠ next.endpoint || previous.client ≠ next.client
      || previous.persona ≠ next.persona || previous.revision ≠ next.revision then
    .error "Child reply scope conflict"
  else if next.createdAt < previous.createdAt then .ok .stale
  else if previous.status = next.status && previous.exchangeId = next.exchangeId
      && previous.contactId = next.contactId then .ok .same
  else if previous.status ≠ .pending || next.status = .pending
      || next.createdAt ≤ previous.createdAt then .error "Child reply conflict"
  else .ok .advance

/-! ## Events -/

structure NostrEvent where
  id : JsString
  pubkey : JsString
  kind : ℤ
  createdAt : ℤ
  tags : List (List JsString)
  content : JsString
  sig : JsString
  deriving DecidableEq

/-- `verifyEvent` of `nostr-tools`. -/
class Signatures where
  verifyEvent : NostrEvent → Bool

/-- `event.tags.find(t => t[0] === 'd')?.[1]`. -/
def NostrEvent.dTag (event : NostrEvent) : Option JsString :=
  (event.tags.find? fun t => t[0]? = some (lit "d")).bind fun t => t[1]?

def requestPrefix : JsString := lit "signet:child-contact-request:v1:"

/-- `REPLY_PREFIX`, and `PREFIX` in `child-contact-reply-delivery.ts`. -/
def replyPrefix : JsString := lit "signet:child-contact-reply:v1:"

def eventShape (event : NostrEvent) (dPrefix : JsString) (author : Hex64)
    (recipient : Option Hex64) : Bool :=
  event.pubkey = author.val && event.kind = 30078
    && event.tags.length = (if recipient.isNone then 1 else 2)
    && event.tags.all (fun t => t.length = 2)
    && event.tags.any (fun t => t[0]? = some (lit "d") && t[1]?.any dPrefix.isPrefixOf)
    && recipient.all (fun k => event.tags.any fun t => t[0]? = some (lit "p") && t[1]? = some k.val)
    && event.content.length ≤ 20000

variable [Signatures]

def validEvent (event : NostrEvent) (scope : ChildRequestScope) : Bool :=
  isHexOf 64 event.id && event.pubkey = scope.endpoint.val && event.kind = 30078
    && event.content.length ≤ 20000 && event.tags.length = 2
    && event.tags.all (fun t => t.length = 2)
    && event.dTag.any (fun d => replyPrefix.isPrefixOf d && isHexOf 32 (d.drop replyPrefix.length))
    && event.tags.any (fun t => t[0]? = some (lit "p") && t[1]? = some scope.client.val)
    && Signatures.verifyEvent event

/-! ## The guardian's reply outbox -/

structure ChildContactReplyOutboxEntry where
  id : Hex32
  requestId : Hex32
  event : NostrEvent
  /-- Absent from entries of an older version. -/
  reply : Option ChildContactReply
  relays : List JsString
  createdAt : ℤ
  acknowledgedAt : Option ℤ

/-- Whether `acknowledgedAt` is a truthy value. -/
def ChildContactReplyOutboxEntry.acknowledged (e : ChildContactReplyOutboxEntry) : Bool :=
  e.acknowledgedAt.any (· ≠ 0)

abbrev ReplyOutbox := PairingRow ChildContactReplyOutboxEntry

/-- One entry as the outbox's reader demands it. -/
def acceptsReplyEntry (scope : ChildRequestScope) (e : ChildContactReplyOutboxEntry) : Bool :=
  e.event.dTag = some (replyPrefix ++ e.id.val) && validEvent e.event scope && e.requestId = e.id
    && e.relays.length ≤ 32 && e.relays.all (fun r => r.length ≤ 500) && stamp e.createdAt
    && e.acknowledgedAt.all stamp
    && e.reply.all fun r => (parseChildContactReply r).any fun reply =>
        reply.belongs scope e.requestId && reply.createdAt = e.event.createdAt

def parseReplyOutbox (raw : ReplyOutbox) (scope : ChildRequestScope) : Except String ReplyOutbox :=
  if raw.toPairingKeys ≠ scope.toPairingKeys || liveLimit < raw.entries.length then
    .error "Invalid child reply outbox"
  else if !raw.entries.all (acceptsReplyEntry scope) then
    .error "Invalid child reply outbox entry"
  else if !(raw.entries.map (·.id)).Nodup then .error "Duplicate child reply outbox entry"
  else .ok raw

/-- What `queueChildContactReply` asks of its arguments before it touches the row. -/
def mayQueueReply (scope : ChildRequestScope) (requestId : Hex32) (event : NostrEvent)
    (reply : ChildContactReply) (relays : List JsString) (now : ℤ) : Except String Unit :=
  if !stamp now || !validEvent event scope || relays.isEmpty || 32 < relays.length then
    .error "Invalid child reply outbox entry"
  else if !(parseChildContactReply reply).any fun r => r.belongs scope requestId
      && scope.personas.contains r.persona && r.createdAt = event.createdAt
      && event.dTag = some (replyPrefix ++ requestId.val) then
    .error "Invalid child reply payload"
  else .ok ()

/-- An entry the reply outbox keeps when it is full. -/
def undelivered (now : ℤ) (e : ChildContactReplyOutboxEntry) : Bool :=
  e.reply.all fun r => now < r.expiresAt

/-- The change of `queueChildContactReply`. -/
def queueReply (scope : ChildRequestScope) (requestId : Hex32) (event : NostrEvent)
    (reply : ChildContactReply) (relays : List JsString) (now : ℤ) (replaceUnreconciled : Bool)
    (previous : Option ReplyOutbox) : Except String ReplyOutbox := do
  let state ← parseReplyOutbox (previous.getD scope.empty) scope
  let entry : ChildContactReplyOutboxEntry :=
    { id := requestId, requestId, event, reply := some reply, relays, createdAt := now,
      acknowledgedAt := none }
  let replace : ReplyOutbox := { state with
    entries := state.entries.map fun e => if e.id = requestId then entry else e }
  match state.entries.find? fun e => e.id = requestId with
  | some old =>
    if old.requestId ≠ requestId then throw "Child reply outbox conflict"
    else if old.event.id = event.id then return state
    else match old.reply with
      | none =>
        if !(replaceUnreconciled && reply.status = .expired) then
          throw "Child reply needs reconciliation"
        else return replace
      | some oldReply =>
        if (← childContactReplyTransition oldReply reply) ≠ .advance then return state
        else return replace
  | none =>
    let kept := if liveLimit ≤ state.entries.length then state.entries.filter (undelivered now)
      else state.entries
    if liveLimit ≤ kept.length then throw "Child reply outbox is full"
    else return { state with entries := kept ++ [entry] }

/-- The change of `deliverChildContactReply` once the relay took the event. -/
def acknowledgeReply (scope : ChildRequestScope) (id : Hex32) (eventId : JsString) (now : ℤ)
    (previous : Option ReplyOutbox) : Except String ReplyOutbox :=
  match previous with
  | none => .error "Invalid child reply outbox"
  | some row => do
    let state ← parseReplyOutbox row scope
    if !(state.entries.find? fun e => e.id = id).any
        fun e => !e.acknowledged && e.event.id = eventId then
      throw "Child reply outbox changed"
    else return { state with
      entries := state.entries.map fun e =>
        if e.id = id then { e with acknowledgedAt := some now } else e }

/-! ## The child's request outbox -/

variable [InviteSdk]

structure ChildContactOutboxEntry where
  request : ChildContactRequest
  fingerprint : Hex64
  event : Option NostrEvent
  createdAt : ℤ

abbrev Outbox := PairingRow ChildContactOutboxEntry

/-- One entry as the outbox's reader takes it. -/
def readOutboxEntry (scope : ChildRequestScope) (e : ChildContactOutboxEntry) :
    Except String ChildContactOutboxEntry :=
  match parseChildContactRequest e.request with
  | none => .error "Invalid child request outbox entry"
  | some request =>
    if request.client ≠ scope.client || request.guardian ≠ scope.guardian || !stamp e.createdAt then
      .error "Invalid child request outbox entry"
    else if e.event.any fun event => !eventShape event requestPrefix scope.client none
        || !Signatures.verifyEvent event || event.dTag ≠ some (requestPrefix ++ request.id.val)
        || event.createdAt ≠ request.createdAt then
      .error "Invalid child request outbox event"
    else .ok { e with request }

def parseOutbox (raw : Outbox) (scope : ChildRequestScope) : Except String Outbox :=
  if raw.toPairingKeys ≠ scope.toPairingKeys || liveLimit < raw.entries.length then
    .error "Invalid child request outbox"
  else do
    let entries ← raw.entries.mapM (readOutboxEntry scope)
    if !(entries.map (·.request.id)).Nodup then throw "Duplicate child request outbox entry"
    else return { scope.toPairingKeys with entries }

/-- The change of `queueChildContactRequest`. -/
def queueRequest (scope : ChildRequestScope) (request : ChildContactRequest) (fingerprint : Hex64)
    (now : ℤ) (previous : Option Outbox) : Except String Outbox := do
  let box ← parseOutbox (previous.getD scope.empty) scope
  match box.entries.find? fun e => e.request.id = request.id with
  | some existing =>
    if existing.fingerprint ≠ fingerprint then throw "Child request outbox conflict"
    else return box
  | none =>
    if liveLimit ≤ box.entries.length then throw "Child request outbox is full"
    else return { box with
      entries := box.entries ++ [{ request, fingerprint, event := none, createdAt := now }] }

/-- The change of `attachChildContactRequestEvent`. -/
def attachEvent (scope : ChildRequestScope) (requestId : Hex32) (event : NostrEvent)
    (previous : Option Outbox) : Except String Outbox := do
  let box ← parseOutbox (previous.getD scope.empty) scope
  match box.entries.find? fun e => e.request.id = requestId with
  | none => throw "Child request outbox entry changed"
  | some entry =>
    if event.createdAt ≠ entry.request.createdAt
        || event.dTag ≠ some (requestPrefix ++ requestId.val) then
      throw "Child request outbox entry changed"
    else if entry.event.any fun old => old.id ≠ event.id then
      throw "Child request outbox event conflict"
    else return { box with
      entries := box.entries.map fun e =>
        if e.request.id = requestId then { e with event := some event } else e }

/-! ## The child's reply inbox -/

structure ChildContactReplyReceipt where
  id : Hex32
  fingerprint : Hex64
  reply : ChildContactReply
  receivedAt : ℤ

abbrev ReplyInbox := PairingRow ChildContactReplyReceipt

omit [Signatures] [InviteSdk]

/-- The integers a JavaScript number holds exactly. -/
def isSafeInteger (n : ℤ) : Bool := n.natAbs ≤ maxSafeInteger

/-- One receipt as the reply inbox's reader demands it. -/
def acceptsReplyReceipt (scope : ChildRequestScope) (r : ChildContactReplyReceipt) : Bool :=
  r.reply.belongs scope r.id && scope.personas.contains r.reply.persona && isSafeInteger r.receivedAt

def parseReplyInbox (raw : ReplyInbox) (scope : ChildRequestScope) : Except String ReplyInbox :=
  if raw.toPairingKeys ≠ scope.toPairingKeys || retainLimit < raw.entries.length then
    .error "Invalid child reply inbox"
  else if !raw.entries.all (acceptsReplyReceipt scope) then .error "Invalid child reply receipt"
  else if !(raw.entries.map (·.id)).Nodup then .error "Duplicate child reply receipt"
  else .ok raw

/-- The change of `saveChildContactReplyReceipt`. -/
def saveReplyReceipt (scope : ChildRequestScope) (receipt : ChildContactReplyReceipt)
    (previous : Option ReplyInbox) : Except String ReplyInbox := do
  let inbox ← parseReplyInbox (previous.getD scope.empty) scope
  match inbox.entries.find? fun r => r.id = receipt.id with
  | some old =>
    if old.fingerprint = receipt.fingerprint then return inbox
    else if (← childContactReplyTransition old.reply receipt.reply) ≠ .advance then return inbox
    else return { inbox with
      entries := inbox.entries.map fun r => if r.id = receipt.id then receipt else r }
  | none =>
    if retainLimit ≤ inbox.entries.length then throw "Child reply inbox is full"
    else return { inbox with entries := inbox.entries ++ [receipt] }

end SignetApp.Pairing
