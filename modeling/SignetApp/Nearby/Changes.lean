import SignetApp.Nearby.Link

/-!
# `HandshakeNearby`

One handshake screen's Bluetooth session: the links a phone has, the frames they carry, and what the
phone earned on each. What the radio does, when timers fire and when a store finishes is up to the
surroundings: each is an action.

Scanning, dialling and advertising decide only when the radio makes a link, and are left to it.
-/

namespace SignetApp.Nearby

open Js NearbyLink

abbrev maxIncoming : ℕ := 2
abbrev maxOutgoing : ℕ := 1
abbrev maxEventsPerLink : ℕ := 64
abbrev maxEventsPerSession : ℕ := 128

/-- Who dials over Bluetooth: the lower session key. -/
def sessionDialler (own peer : JsString) : Bool :=
  isHexOf 64 own && isHexOf 64 peer && decide (own < peer)

/-- What the receiver did with a wrap. -/
inductive NearbyReceipt where
  | stored
  | duplicate
  | rejected
  deriving DecidableEq

/-- What a link's `queue` has still to do: hand on an event or an offer, and acknowledge it. -/
inductive Task where
  | event (event : NostrEvent)
  | offer (uri id : JsString)

/-- One link, from the moment it is made. The phone's map of links holds those that are `present`,
in the order they were made. -/
structure LinkState where
  link : NearbyLink
  outgoing : Bool
  present : Bool
  /-- The persona this link speaks for, once bound. -/
  peer : Option JsString
  delivered : List JsString
  /-- The frames whose receipt is awaited, each with the promise of its sender. -/
  acks : List (JsString × ℕ)
  queue : List Task
  events : ℕ
  /-- Set when a twin link outlived this one. -/
  successor : Option ℕ
  /-- Whether the link has ever been trusted. -/
  authenticated : Bool
  /-- How many links had been made when this one left. -/
  closedAt : ℕ
  /-- The receipts heard on it. -/
  heard : List (JsString × Bool)
  /-- The receipts sent on it. -/
  acked : List (JsString × Bool)

/-- `new NearbyLink(..)` in its slot. -/
def LinkState.new (link : NearbyLink) (outgoing : Bool) : LinkState :=
  ⟨link, outgoing, true, none, [], [], [], 0, none, false, 0, [], []⟩

/-- Whether a link is in the map and trusted. -/
def LinkState.live (s : LinkState) : Bool := s.present && s.link.trusted

/-- How far `await native.send` has come. -/
inductive Sending where
  | pending
  | sent
  | failed
  deriving DecidableEq

/-- One call of `sendFrame`. -/
structure FramePromise where
  link : ℕ
  id : JsString
  /-- What its receipt resolved to. -/
  receipt : Option Bool
  sending : Sending

/-- `resolve(value)`: only the first call counts. -/
def FramePromise.settle (p : FramePromise) (value : Bool) : FramePromise :=
  { p with receipt := p.receipt.or (some value) }

/-- What the call resolves to, once it does. -/
def FramePromise.result (p : FramePromise) : Option Bool :=
  match p.sending with
  | .pending => none
  | .sent => p.receipt
  | .failed => some false

structure Carrier where
  session : Session
  profile : NearbyProfile
  target : Option (Hex 64)
  expected : Option JsString
  closed : Bool
  links : List LinkState
  promises : List FramePromise
  /-- `budget.events`. -/
  budget : ℕ

namespace Carrier

/-- The carrier of a screen that has just opened. -/
def start (session : Session) (profile : NearbyProfile) : Carrier :=
  ⟨session, profile, none, none, false, [], [], 0⟩

def put (c : Carrier) (i : ℕ) (s : LinkState) : Carrier := { c with links := c.links.set i s }

/-- The receipts of these promises resolve to `value`. -/
def settle (c : Carrier) (ps : List ℕ) (value : Bool) : Carrier :=
  { c with promises := c.promises.mapIdx fun k p => if k ∈ ps then p.settle value else p }

/-- The promises of these entries of a link's `acks` resolve to `value`, and the entries go. -/
def release (c : Carrier) (i : ℕ) (s : LinkState) (entries : JsString × ℕ → Bool) (value : Bool) :
    Carrier :=
  (c.put i { s with acks := s.acks.filter (!entries ·) }).settle
    ((s.acks.filter entries).map Prod.snd) value

def drop (c : Carrier) (i : ℕ) : Carrier :=
  match c.links[i]? with
  | none => c
  | some s =>
    if s.present then
      c.release i { s with present := false, link := s.link.drop, closedAt := c.links.length }
        (fun _ => true) false
    else c

/-- The twin of link `i`: another trusted link to its peer session. -/
def twin (c : Carrier) (i : ℕ) (s : LinkState) : Option ℕ :=
  (List.range c.links.length).find? fun j =>
    j ≠ i && c.links[j]?.any fun t => t.live && t.link.peerSession = s.link.peerSession

/-- The survivor inherits what the dropped one had earned. -/
def inherit (k l : LinkState) : LinkState :=
  { k with peer := k.peer.or l.peer, delivered := k.delivered ++ l.delivered }

/-- What `dedupe` does once it has chosen. -/
def supersede (c : Carrier) (keep lose : ℕ) : Carrier :=
  match c.links[keep]?, c.links[lose]? with
  | some k, some l =>
    ((c.put keep (inherit k l)).put lose { l with successor := some keep }).drop lose
  | _, _ => c

/-- Two links to one peer session may both authenticate: the one the lower session dialled stays. -/
def dedupe (c : Carrier) (i : ℕ) : Carrier :=
  match c.links[i]? with
  | none => c
  | some state =>
    match c.twin i state, state.link.peerSession with
    | some j, some peer =>
      if state.outgoing = sessionDialler c.session.publicKey.val peer then c.supersede i j
      else c.supersede j i
    | _, _ => c

/-- One more event or offer came over link `i`. -/
def enqueue (c : Carrier) (i : ℕ) (s : LinkState) (task : Task) : Carrier :=
  let s := { s with events := s.events + 1 }
  if s.events > maxEventsPerLink then (c.put i s).drop i
  else
    let c := { c with budget := c.budget + 1 }
    if c.budget > maxEventsPerSession then (c.put i s).drop i
    else c.put i { s with queue := s.queue ++ [task] }

def step (c : Carrier) (i : ℕ) (step : NearbyStep) : Carrier :=
  match c.links[i]? with
  | none => c
  | some s =>
    match step with
    | .send _ => c
    | .drop => c.drop i
    | .trusted => (c.put i { s with authenticated := true }).dedupe i
    | .ack id stored =>
      c.release i { s with heard := s.heard ++ [(id, stored)] } (·.1 = id) stored
    | .event event => c.enqueue i s (.event event)
    | .offer uri id => c.enqueue i s (.offer uri id)

section
variable [LinkCrypto] [Numerals]

/-- The session a new link is for, as far as it is known. -/
def wanted (c : Carrier) (outgoing : Bool) : Option JsString :=
  if outgoing then c.target.map (·.val) else c.expected

/-- Whether `onLink` turns a new link away. -/
def turnsAway (c : Carrier) (outgoing : Bool) : Prop :=
  c.closed ∨ (c.links.filter fun s => s.present && s.outgoing = outgoing).length
      ≥ (if outgoing then maxOutgoing else maxIncoming)
    ∨ (outgoing ∧ c.wanted outgoing = none)

instance (c : Carrier) (outgoing : Bool) : Decidable (c.turnsAway outgoing) :=
  inferInstanceAs (Decidable (_ ∨ _ ∨ _))

def onLink (c : Carrier) (outgoing : Bool) (nonce : Nonce) : Carrier :=
  if c.turnsAway outgoing then c
  else
    match NearbyLink.create (if outgoing then .connector else .advertiser) nonce c.session
      (c.wanted outgoing) c.profile with
    | none => c
    | some l => { c with links := c.links ++ [.new l outgoing] }

/-- `onFrame`: `none` is text that is not base64. -/
def onFrame (c : Carrier) (i : ℕ) (data : Option Bytes) : Carrier :=
  match c.links[i]?, data with
  | some s, some bytes =>
    if s.present then
      (s.link.receive bytes).2.foldl (fun c y => c.step i y)
        (c.put i { s with link := (s.link.receive bytes).1 })
    else c
  | _, _ => c.drop i

/-- One link hears of the session expected. -/
def expectLink (session : JsString) (c : Carrier) (i : ℕ) : Carrier :=
  match c.links[i]? with
  | none => c
  | some s =>
    if s.present then
      let c := c.put i { s with link := (s.link.expect session).1 }
      if (s.link.expect session).2 then c else c.drop i
    else c

/-- `expect`: a link from any other session is dropped. -/
def expect (c : Carrier) (session : JsString) : Carrier :=
  if c.closed ∨ ¬ isHexOf 64 session ∨ c.expected = some session then c
  else
    (List.range c.links.length).foldl (expectLink session) { c with expected := some session }

/-- `connect`: the target of this screen. -/
def connect (c : Carrier) (session : Hex 64) : Carrier :=
  if c.closed ∨ c.target.isSome then c
  else { c.expect session.val with target := some session }

/-- The first link that fits speaks for `peer`, unless another link does. -/
def bindFirst (c : Carrier) (peer : JsString) (fits : LinkState → Bool) : Carrier :=
  if c.links.any fun s => s.present && s.peer = some peer then c
  else
    match c.links.findIdx? fun s => s.live && s.peer.isNone && fits s with
    | none => c
    | some i =>
      match c.links[i]? with
      | none => c
      | some s => c.put i { s with peer := some peer }

def bindSession (c : Carrier) (session persona : JsString) : Carrier :=
  c.bindFirst persona fun s => s.link.peerSession = some session

def bind (c : Carrier) (eventId peer : JsString) : Carrier :=
  c.bindFirst peer fun s => s.delivered.contains eventId

def sendFrame (c : Carrier) (i : ℕ) (id : JsString) (frame : Bytes) : Carrier :=
  match c.links[i]? with
  | none => c
  | some s =>
    let refused : Carrier := { c with promises := c.promises ++ [⟨i, id, some false, .failed⟩] }
    if s.acks.any (·.1 = id) then refused
    else
      match s.link.wire frame with
      | none => refused
      | some (_, l) =>
        { c.put i { s with link := l, acks := s.acks ++ [(id, c.promises.length)] } with
          promises := c.promises ++ [⟨i, id, none, .pending⟩] }

/-- `sendEvent`, over the first link that fits. -/
def sendEvent (c : Carrier) (fits : LinkState → Bool) (event : NostrEvent) : Carrier :=
  match c.links.findIdx? fun s => s.live && fits s, nearbyEventFrame event with
  | some i, some frame => c.sendFrame i event.id.val frame
  | _, _ => c

def deliver (c : Carrier) (counterparty : JsString) (event : NostrEvent) : Carrier :=
  c.sendEvent (fun s => s.peer = some counterparty) event

def deliverSession (c : Carrier) (session : JsString) (event : NostrEvent) : Carrier :=
  c.sendEvent (fun s => s.link.peerSession = some session) event

def sendOffer (c : Carrier) (session uri : JsString) : Carrier :=
  if c.profile ≠ .childPair then c
  else
    match nearbyOfferFrame uri,
      c.links.findIdx? fun s => s.live && s.link.peerSession = some session with
    | some frame, some i => c.sendFrame i (nearbyOfferId frame) frame
    | _, _ => c

/-- `await native.send` in `sendFrame` has settled. -/
def sent (c : Carrier) (p : ℕ) (ok : Bool) : Carrier :=
  match c.promises[p]? with
  | none => c
  | some q =>
    if q.sending ≠ .pending then c
    else if ok then { c with promises := c.promises.set p { q with sending := .sent } }
    else
      let c := { c with promises := c.promises.set p { q with sending := .failed } }
      match c.links[q.link]? with
      | none => c
      | some s =>
        let c := c.release q.link s (·.1 = q.id) false
        if s.link.seals then c.drop q.link else c

/-- The timer of a call of `sendFrame` fires. -/
def timeout (c : Carrier) (p : ℕ) : Carrier :=
  match c.promises[p]? with
  | none => c
  | some q =>
    match c.links[q.link]? with
    | none => c
    | some s =>
      c.release q.link s (· = (q.id, p)) false

def sendSealedAck (c : Carrier) (i : ℕ) (id : JsString) : Carrier :=
  match c.links[i]? with
  | none => c
  | some s =>
    if s.present then
      match s.link.ack id true with
      | none => c.drop i
      | some (_, l) => c.put i { s with link := l, acked := s.acked ++ [(id, true)] }
    else c

/-- The link that acknowledges for link `i`: itself, or the twin that outlived it. -/
def receiver (c : Carrier) (i : ℕ) (s : LinkState) : Option ℕ :=
  if s.present then some i
  else s.successor.filter fun k => c.links[k]?.any (·.present)

/-- A store has finished: the link that is left records and acknowledges it. -/
def acknowledge (c : Carrier) (i : ℕ) (id : JsString) (receipt : NearbyReceipt) : Carrier :=
  match c.links[i]? with
  | none => c
  | some s =>
    match c.receiver i s with
    | none => c
    | some k =>
      match c.links[k]? with
      | none => c
      | some t =>
        let delivered := if receipt = .stored then t.delivered ++ [id] else t.delivered
        match t.link.ack id (receipt ≠ .rejected) with
        | none => c.put k { t with delivered := delivered }
        | some (_, l) => c.put k { t with
            link := l
            delivered := delivered
            acked := t.acked ++ [(id, decide (receipt ≠ .rejected))] }

/-- The first task of link `i` has settled. -/
def finish (c : Carrier) (i : ℕ) (receipt : NearbyReceipt) : Carrier :=
  match c.links[i]? with
  | none => c
  | some s =>
    match s.queue with
    | [] => c
    | .offer _ id :: rest => (c.put i { s with queue := rest }).sendSealedAck i id
    | .event event :: rest =>
      let c := c.put i { s with queue := rest }
      if c.profile = .childPair then c.sendSealedAck i event.id.val
      else c.acknowledge i event.id.val receipt

def close (c : Carrier) : Carrier :=
  (List.range c.links.length).foldl drop { c with closed := true }

end

end Carrier

/-- What can happen to a carrier. -/
inductive Happening where
  | link (outgoing : Bool) (nonce : Nonce)
  | frame (i : ℕ) (data : Option Bytes)
  /-- The link closed, a send or `trust` on it failed, or its deadline passed. -/
  | closed (i : ℕ)
  | expect (session : JsString)
  | connect (session : Hex 64)
  | bindSession (session persona : JsString)
  | bind (eventId peer : JsString)
  | deliver (counterparty : JsString) (event : NostrEvent)
  | deliverSession (session : JsString) (event : NostrEvent)
  | sendOffer (session uri : JsString)
  | sent (p : ℕ) (ok : Bool)
  | timeout (p : ℕ)
  | finish (i : ℕ) (receipt : NearbyReceipt)
  | close

/-- One thing happens. -/
def Carrier.next [LinkCrypto] [Numerals] (c : Carrier) : Happening → Carrier
  | .link outgoing nonce => c.onLink outgoing nonce
  | .frame i data => c.onFrame i data
  | .closed i => c.drop i
  | .expect session => c.expect session
  | .connect session => c.connect session
  | .bindSession session persona => c.bindSession session persona
  | .bind eventId peer => c.bind eventId peer
  | .deliver counterparty event => c.deliver counterparty event
  | .deliverSession session event => c.deliverSession session event
  | .sendOffer session uri => c.sendOffer session uri
  | .sent p ok => c.sent p ok
  | .timeout p => c.timeout p
  | .finish i receipt => c.finish i receipt
  | .close => c.close

/-!
## What one thing happening changes

Everything that can happen to a carrier either opens a link, binds one, makes one trusted, or moves
every link a little: a link is kept, or leaves. The promises of its sends follow their own rule: one
that waits for a receipt has an entry on its link, and an entry that goes settles its promise.
-/

/-! ## One link -/

/-- What a link has of a peer it has heard from. -/
def NearbyLink.Known (l : NearbyLink) : Prop :=
  l.state ≠ .hello → l.peerNonce.isSome = true ∧ l.peerSession.isSome = true

/-- A link keeps its profile, and the peer it has met. -/
structure Onward (l l' : NearbyLink) : Prop where
  profile : l'.profile = l.profile
  met : l.state ≠ .hello →
    l'.state ≠ .hello ∧ l'.peerNonce = l.peerNonce ∧ l'.peerSession = l.peerSession

theorem Onward.refl (l : NearbyLink) : Onward l l := ⟨rfl, fun h => ⟨h, rfl, rfl⟩⟩

theorem Onward.trans {l l' l'' : NearbyLink} (h : Onward l l') (h' : Onward l' l'') :
    Onward l l'' := by
  refine ⟨h'.profile.trans h.profile, ?_⟩
  intro hs
  obtain ⟨hs₁, hn₁, hp₁⟩ := h.met hs
  obtain ⟨hs₂, hn₂, hp₂⟩ := h'.met hs₁
  exact ⟨hs₂, hn₂.trans hn₁, hp₂.trans hp₁⟩

theorem Onward.drop (l : NearbyLink) : Onward l l.drop :=
  ⟨rfl, fun _ => ⟨NearbyPhase.noConfusion, rfl, rfl⟩⟩

/-- What `deliver`, `bind` and the dedupe see of a link, apart from what it has earned. -/
structure Face where
  present : Bool
  outgoing : Bool
  peer : Option JsString
  successor : Option ℕ
  authenticated : Bool
  closedAt : ℕ

def LinkState.face (s : LinkState) : Face :=
  ⟨s.present, s.outgoing, s.peer, s.successor, s.authenticated, s.closedAt⟩

/-- A link that stays as it is, but for its counters, its frames and what it earns. -/
structure Kept (s s' : LinkState) : Prop where
  face : s'.face = s.face
  onward : Onward s.link s'.link
  trusted : s'.link.trusted = s.link.trusted
  known : s.link.Known → s'.link.Known
  delivered : s.delivered ⊆ s'.delivered
  /-- A link that is gone, or was never trusted, earns nothing. -/
  idle : ¬ (s.present = true ∧ s.authenticated = true) →
    s'.delivered = s.delivered ∧ s'.queue <:+ s.queue

/-- A link that stays and earns nothing. -/
structure Idle (s s' : LinkState) : Prop extends Kept s s' where
  still : s'.delivered = s.delivered
  queue : s'.queue <:+ s.queue

/-- A link that leaves when `n` links have been made. -/
structure Left (n : ℕ) (s s' : LinkState) : Prop where
  present : s.present = true
  face : s'.face = { s.face with present := false, closedAt := n }
  onward : Onward s.link s'.link
  delivered : s'.delivered = s.delivered
  queue : s'.queue <:+ s.queue

theorem Kept.refl (s : LinkState) : Kept s s :=
  ⟨rfl, .refl _, rfl, id, fun _ h => h, fun _ => ⟨rfl, List.suffix_rfl⟩⟩

theorem LinkState.face_eq {s s' : LinkState} (h : s'.face = s.face) :
    s'.present = s.present ∧ s'.outgoing = s.outgoing ∧ s'.peer = s.peer
      ∧ s'.successor = s.successor ∧ s'.authenticated = s.authenticated
      ∧ s'.closedAt = s.closedAt := by
  simp only [LinkState.face, Face.mk.injEq] at h
  exact h

variable {s'' : LinkState}

theorem Kept.trans {s s' : LinkState} (h : Kept s s') (h' : Kept s' s'') : Kept s s'' := by
  obtain ⟨hp, -, -, -, ha, -⟩ := LinkState.face_eq h.face
  refine ⟨h'.face.trans h.face, h.onward.trans h'.onward, h'.trusted.trans h.trusted,
    h'.known ∘ h.known, fun _ hx => h'.delivered (h.delivered hx), ?_⟩
  intro hidle
  obtain ⟨hd, hq⟩ := h.idle hidle
  obtain ⟨hd', hq'⟩ := h'.idle (by rwa [hp, ha])
  exact ⟨hd'.trans hd, hq'.trans hq⟩

variable {n : ℕ}

theorem Left.keep {s s' : LinkState} (h : Left n s s') (h' : Kept s' s'') : Left n s s'' := by
  have hp : s'.present = false := congrArg Face.present h.face
  obtain ⟨hd, hq⟩ := h'.idle (by simp [hp])
  exact ⟨h.present, h'.face.trans h.face, h.onward.trans h'.onward, hd.trans h.delivered,
    hq.trans h.queue⟩

theorem Idle.refl (s : LinkState) : Idle s s := ⟨.refl s, rfl, List.suffix_rfl⟩

theorem Idle.trans {s s' : LinkState} (h : Idle s s') (h' : Idle s' s'') : Idle s s'' :=
  ⟨h.toKept.trans h'.toKept, h'.still.trans h.still, h'.queue.trans h.queue⟩

theorem Idle.leave {s s' : LinkState} (h : Idle s s') (h' : Left n s' s'') : Left n s s'' :=
  ⟨(LinkState.face_eq h.face).1 ▸ h'.present, by rw [h'.face, h.face], h.onward.trans h'.onward,
    h'.delivered.trans h.still, h'.queue.trans h.queue⟩

/-! ## The promises -/

/-- What becomes of a call of `sendFrame`: what it has heard stays heard. -/
structure FramePromise.Goes (q q' : FramePromise) : Prop where
  link : q'.link = q.link
  id : q'.id = q.id
  receipt : ∀ b, q.receipt = some b → q'.receipt = some b
  sending : q.sending ≠ .pending → q'.sending = q.sending

theorem FramePromise.Goes.refl (q : FramePromise) : q.Goes q :=
  ⟨rfl, rfl, fun _ h => h, fun _ => rfl⟩

variable {q q' : FramePromise}

theorem FramePromise.Goes.trans {q'' : FramePromise} (h : q.Goes q') (h' : q'.Goes q'') :
    q.Goes q'' := by
  refine ⟨h'.link.trans h.link, h'.id.trans h.id, fun b hb => h'.receipt b (h.receipt b hb), ?_⟩
  intro hq
  have hq' := h.sending hq
  rw [h'.sending (by rwa [hq']), hq']

theorem FramePromise.goes_settle (q : FramePromise) (value : Bool) : q.Goes (q.settle value) := by
  refine ⟨rfl, rfl, ?_, fun _ => rfl⟩
  intro b hb
  show q.receipt.or (some value) = some b
  rw [hb]
  rfl

theorem FramePromise.Goes.result (h : q.Goes q') {b : Bool}
    (hb : q.result = some b) : q'.result = some b := by
  rcases q with ⟨link, id, receipt, sending⟩
  cases sending with
  | pending => cases hb
  | sent =>
    have hs : q'.sending = .sent := h.sending Sending.noConfusion
    rw [FramePromise.result, hs]
    exact h.receipt b hb
  | failed =>
    have hs : q'.sending = .failed := h.sending Sending.noConfusion
    rw [FramePromise.result, hs]
    exact hb

/-- The promises there are go on. -/
def Goes (ps ps' : List FramePromise) : Prop :=
  ∀ (p : ℕ) (q : FramePromise), ps[p]? = some q → ∃ q', ps'[p]? = some q' ∧ q.Goes q'

theorem Goes.refl (ps : List FramePromise) : Goes ps ps := fun _ q h => ⟨q, h, .refl q⟩

theorem Goes.trans {ps ps' ps'' : List FramePromise} (h : Goes ps ps') (h' : Goes ps' ps'') :
    Goes ps ps'' := by
  intro p q hq
  obtain ⟨q₁, hq₁, hg₁⟩ := h p q hq
  obtain ⟨q₂, hq₂, hg₂⟩ := h' p q₁ hq₁
  exact ⟨q₂, hq₂, hg₁.trans hg₂⟩

namespace Carrier

/-- Who waits, and what has been heard. -/
structure Promised (c : Carrier) : Prop where
  /-- A call still waiting for its receipt is on the `acks` of a link that is still there. -/
  awaited : ∀ (p : ℕ) (q : FramePromise), c.promises[p]? = some q → q.receipt = none →
    ∃ s, c.links[q.link]? = some s ∧ s.present = true ∧ (q.id, p) ∈ s.acks
  owned : ∀ (i : ℕ) (s : LinkState) (e : JsString × ℕ), c.links[i]? = some s → e ∈ s.acks →
    ∃ q, c.promises[e.2]? = some q ∧ q.link = i ∧ q.id = e.1
  heard : ∀ (p : ℕ) (q : FramePromise), c.promises[p]? = some q → q.receipt = some true →
    ∃ s, c.links[q.link]? = some s ∧ (q.id, true) ∈ s.heard

variable {c : Carrier} {i : ℕ} {s s' : LinkState}

theorem settle_promises (c : Carrier) (ps : List ℕ) (value : Bool) (p : ℕ) :
    (c.settle ps value).promises[p]?
      = (c.promises[p]?).map fun q => if p ∈ ps then q.settle value else q := by
  rw [settle, List.getElem?_mapIdx]

@[simp] theorem settle_links (c : Carrier) (ps : List ℕ) (value : Bool) :
    (c.settle ps value).links = c.links := rfl

theorem goes_settle (c : Carrier) (ps : List ℕ) (value : Bool) :
    Goes c.promises (c.settle ps value).promises := by
  intro p q hq
  rw [settle_promises, hq]
  refine ⟨_, rfl, ?_⟩
  show q.Goes (if p ∈ ps then q.settle value else q)
  split
  · exact q.goes_settle value
  · exact .refl q

theorem put_get (h : c.links[i]? = some s) (s' : LinkState) (j : ℕ) :
    (c.put i s').links[j]? = if j = i then some s' else c.links[j]? := by
  show (c.links.set i s')[j]? = _
  rw [List.getElem?_set]
  obtain ⟨hi, -⟩ := List.getElem?_eq_some_iff.1 h
  by_cases hij : i = j
  · rw [if_pos hij, if_pos hij.symm, if_pos hi]
  · rw [if_neg hij, if_neg fun h => hij h.symm]

/-- Links only change in what no promise looks at, or hear more. -/
theorem Promised.put (h : Promised c) (hi : c.links[i]? = some s) (hacks : s'.acks = s.acks)
    (hheard : s.heard ⊆ s'.heard) (hpresent : s'.present = s.present) :
    Promised (c.put i s') := by
  have hput := put_get hi s'
  refine ⟨?_, ?_, ?_⟩
  · intro p q hq hr
    obtain ⟨t, ht, hp, hmem⟩ := h.awaited p q hq hr
    rw [hput]
    by_cases hqi : q.link = i
    · rw [hqi, hi] at ht
      obtain rfl := Option.some.inj ht
      exact ⟨s', if_pos hqi, hpresent.trans hp, hacks ▸ hmem⟩
    · exact ⟨t, (if_neg hqi).trans ht, hp, hmem⟩
  · intro j t e ht he
    rw [hput] at ht
    split at ht
    · next hj =>
      obtain rfl := Option.some.inj ht
      exact hj ▸ h.owned i s e hi (hacks ▸ he)
    · exact h.owned j t e ht he
  · intro p q hq hr
    obtain ⟨t, ht, hmem⟩ := h.heard p q hq hr
    rw [hput]
    by_cases hqi : q.link = i
    · rw [hqi, hi] at ht
      obtain rfl := Option.some.inj ht
      exact ⟨s', if_pos hqi, hheard hmem⟩
    · exact ⟨t, (if_neg hqi).trans ht, hmem⟩

variable {value : Bool} {entries : JsString × ℕ → Bool}

/-- The entries that go settle their promises. -/
theorem Promised.release (h : Promised c)
    (hi : c.links[i]? = some s) (hacks : s'.acks = s.acks) (hheard : s.heard ⊆ s'.heard)
    (hvalue : value = true → ∀ e ∈ s'.acks, entries e = true → (e.1, true) ∈ s'.heard)
    (hpresent : s'.present = s.present ∨ ∀ e, entries e = true) :
    Promised (c.release i s' entries value) := by
  have hput := put_get hi { s' with acks := s'.acks.filter (!entries ·) }
  have hlinks : ∀ j, (c.release i s' entries value).links[j]?
      = if j = i then some { s' with acks := s'.acks.filter (!entries ·) } else c.links[j]? :=
    fun j => hput j
  have hpromise := settle_promises (c.put i { s' with acks := s'.acks.filter (!entries ·) })
    ((s'.acks.filter entries).map Prod.snd) value
  -- what a promise was before
  have hbefore : ∀ {p q}, (c.release i s' entries value).promises[p]? = some q →
      ∃ q₀, c.promises[p]? = some q₀ ∧ q.link = q₀.link ∧ q.id = q₀.id
        ∧ (q = q₀ ∧ p ∉ (s'.acks.filter entries).map Prod.snd
          ∨ q = q₀.settle value ∧ p ∈ (s'.acks.filter entries).map Prod.snd) := by
    intro p q hq
    obtain ⟨q₀, hq₀, rfl⟩ := Option.map_eq_some_iff.1 ((hpromise p).symm.trans hq)
    refine ⟨q₀, hq₀, ?_⟩
    split
    · next hmem => exact ⟨rfl, rfl, .inr ⟨rfl, hmem⟩⟩
    · next hmem => exact ⟨rfl, rfl, .inl ⟨rfl, hmem⟩⟩
  refine ⟨?_, ?_, ?_⟩
  · intro p q hq hr
    obtain ⟨q₀, hq₀, hl, hid, ⟨rfl, hmem⟩ | ⟨rfl, -⟩⟩ := hbefore hq
    · obtain ⟨t, ht, hp, ht'⟩ := h.awaited p q hq₀ hr
      rw [hlinks]
      by_cases hqi : q.link = i
      · rw [hqi, hi] at ht
        obtain rfl := Option.some.inj ht
        rw [← hacks] at ht'
        have hentry : ¬ entries (q.id, p) = true := fun hentry =>
          hmem (List.mem_map.2 ⟨_, List.mem_filter.2 ⟨ht', hentry⟩, rfl⟩)
        refine ⟨_, if_pos hqi, ?_, List.mem_filter.2 ⟨ht', by simpa using hentry⟩⟩
        rcases hpresent with hpe | hall
        · exact hpe.trans hp
        · exact absurd (hall _) hentry
      · exact ⟨t, (if_neg hqi).trans ht, hp, ht'⟩
    · simp [FramePromise.settle] at hr
  · intro j t e ht he
    have howned : ∃ q, c.promises[e.2]? = some q ∧ q.link = j ∧ q.id = e.1 := by
      rw [hlinks] at ht
      split at ht
      · next hj =>
        obtain rfl := Option.some.inj ht
        exact hj ▸ h.owned i s e hi (hacks ▸ (List.mem_filter.1 he).1)
      · exact h.owned j t e ht he
    obtain ⟨q, hq, hl, hid⟩ := howned
    obtain ⟨q', hq', hg⟩ := goes_settle (c.put i { s' with acks := s'.acks.filter (!entries ·) })
      ((s'.acks.filter entries).map Prod.snd) value e.2 q hq
    exact ⟨q', hq', hg.link.trans hl, hg.id.trans hid⟩
  · intro p q hq hr
    obtain ⟨q₀, hq₀, hl, hid, hcase⟩ := hbefore hq
    rw [hlinks, hl, hid]
    by_cases hold : q₀.receipt = some true
    · obtain ⟨t, ht, hmem⟩ := h.heard p q₀ hq₀ hold
      by_cases hqi : q₀.link = i
      · rw [hqi, hi] at ht
        obtain rfl := Option.some.inj ht
        exact ⟨_, if_pos hqi, hheard hmem⟩
      · exact ⟨t, (if_neg hqi).trans ht, hmem⟩
    · obtain ⟨rfl, -⟩ | ⟨rfl, hmem⟩ := hcase
      · exact absurd hr hold
      · obtain ⟨e, he, rfl⟩ := List.mem_map.1 hmem
        obtain ⟨hacked, hentry⟩ := List.mem_filter.1 he
        have htrue : value = true := by
          cases hrc : q₀.receipt with
          | none =>
            simp only [FramePromise.settle, hrc] at hr
            exact Option.some.inj hr
          | some b =>
            simp only [FramePromise.settle, hrc] at hr
            exact absurd (hrc.trans hr) hold
        obtain ⟨q₁, hq₁, hlink, hid₁⟩ := h.owned i s e hi (hacks ▸ hacked)
        obtain rfl := Option.some.inj (hq₀.symm.trans hq₁)
        refine ⟨_, if_pos hlink, ?_⟩
        rw [hid₁]
        exact hvalue htrue e hacked hentry

/-! ## Moves -/

/-- What everything that happens keeps. -/
structure Upkeep (c c' : Carrier) : Prop where
  session : c'.session = c.session
  profile : c'.profile = c.profile
  goes : Goes c.promises c'.promises
  promised : Promised c → Promised c'

variable {c' c'' : Carrier}

theorem Upkeep.trans {c : Carrier} (h : Upkeep c c') (h' : Upkeep c' c'') : Upkeep c c'' :=
  ⟨h'.session.trans h.session, h'.profile.trans h.profile, h.goes.trans h'.goes,
    h'.promised ∘ h.promised⟩

/-- Every link changes as `K` allows, or leaves as one of those `lost`. -/
structure Moves (K : LinkState → LinkState → Prop) (lost : ℕ → Prop) (c c' : Carrier) : Prop
    extends Upkeep c c' where
  length : c'.links.length = c.links.length
  link : ∀ i s s', c.links[i]? = some s → c'.links[i]? = some s' →
    K s s' ∨ lost i ∧ Left c.links.length s s'

theorem Moves.refl (c : Carrier) (lost : ℕ → Prop) : Moves Idle lost c c := by
  refine ⟨⟨rfl, rfl, .refl _, id⟩, rfl, ?_⟩
  intro i s s' hs hs'
  obtain rfl := Option.some.inj (hs.symm.trans hs')
  exact .inl (.refl s)

theorem Moves.kept {lost : ℕ → Prop} {c : Carrier} (h : Moves Idle lost c c') :
    Moves Kept lost c c' :=
  ⟨h.toUpkeep, h.length, fun i s s' hs hs' => (h.link i s s' hs hs').imp_left Idle.toKept⟩

variable {K : LinkState → LinkState → Prop}

theorem Moves.after {lost : ℕ → Prop} {c : Carrier}
    (h : Moves Idle lost c c') (h' : Moves K lost c' c'')
    (hK : ∀ {s s' s''}, Idle s s' → K s' s'' → K s s'') (hkept : ∀ {s s'}, K s s' → Kept s s') :
    Moves K lost c c'' := by
  refine ⟨h.toUpkeep.trans h'.toUpkeep, h'.length.trans h.length, ?_⟩
  intro i s s'' hs hs''
  obtain ⟨hi, -⟩ := List.getElem?_eq_some_iff.1 hs
  obtain ⟨s', hs'⟩ : ∃ s', c'.links[i]? = some s' :=
    ⟨_, List.getElem?_eq_getElem (h.length ▸ hi)⟩
  rcases h.link i s s' hs hs' with hk | ⟨hl, hleft⟩ <;>
    rcases h'.link i s' s'' hs' hs'' with hk' | ⟨hl', hleft'⟩
  · exact .inl (hK hk hk')
  · exact .inr ⟨hl', hk.leave (h.length ▸ hleft')⟩
  · exact .inr ⟨hl, hleft.keep (hkept hk')⟩
  · cases (congrArg Face.present hleft.face).symm.trans hleft'.present

theorem Moves.trans {lost : ℕ → Prop} {c : Carrier} (h : Moves Idle lost c c')
    (h' : Moves Idle lost c' c'') : Moves Idle lost c c'' :=
  h.after h' Idle.trans Idle.toKept

theorem Moves.earn {lost : ℕ → Prop} {c : Carrier} (h : Moves Idle lost c c')
    (h' : Moves Kept lost c' c'') : Moves Kept lost c c'' :=
  h.after h' (fun hk => hk.toKept.trans) id

variable {lost : ℕ → Prop}

theorem put_length (c : Carrier) (i : ℕ) (s : LinkState) :
    (c.put i s).links.length = c.links.length := List.length_set ..

theorem put_upkeep (hi : c.links[i]? = some s) (hacks : s'.acks = s.acks)
    (hheard : s.heard ⊆ s'.heard) (hpresent : s'.present = s.present) : Upkeep c (c.put i s') :=
  ⟨rfl, rfl, .refl _, fun h => h.put hi hacks hheard hpresent⟩

theorem put_moves (hrefl : ∀ s, K s s)
    (hi : c.links[i]? = some s) (hK : K s s') (hacks : s'.acks = s.acks)
    (hheard : s.heard ⊆ s'.heard) (hpresent : s'.present = s.present) :
    Moves K lost c (c.put i s') := by
  refine ⟨put_upkeep hi hacks hheard hpresent, put_length c i s', ?_⟩
  intro j t t' ht ht'
  rw [put_get hi] at ht'
  split at ht'
  · next hj =>
    subst hj
    obtain rfl := Option.some.inj (hi.symm.trans ht)
    obtain rfl := Option.some.inj ht'
    exact .inl hK
  · obtain rfl := Option.some.inj (ht.symm.trans ht')
    exact .inl (hrefl t)

theorem put_idle (hi : c.links[i]? = some s) (h : Idle s s') (hacks : s'.acks = s.acks)
    (hheard : s.heard ⊆ s'.heard) : Moves Idle lost c (c.put i s') :=
  put_moves Idle.refl hi h hacks hheard (LinkState.face_eq h.face).1

theorem put_kept (hi : c.links[i]? = some s) (h : Kept s s') (hacks : s'.acks = s.acks)
    (hheard : s.heard ⊆ s'.heard) : Moves Kept lost c (c.put i s') :=
  put_moves Kept.refl hi h hacks hheard (LinkState.face_eq h.face).1

theorem release_idle (hi : c.links[i]? = some s)
    (h : Idle s s') (hacks : s'.acks = s.acks) (hheard : s.heard ⊆ s'.heard)
    (hvalue : value = true → ∀ e ∈ s'.acks, entries e = true → (e.1, true) ∈ s'.heard) :
    Moves Idle lost c (c.release i s' entries value) := by
  refine ⟨⟨rfl, rfl, goes_settle _ _ _, fun hp =>
      hp.release hi hacks hheard hvalue (.inl (LinkState.face_eq h.face).1)⟩,
    put_length c i _, ?_⟩
  intro j t t' ht ht'
  rw [release, settle_links, put_get hi] at ht'
  split at ht'
  · next hj =>
    subst hj
    obtain rfl := Option.some.inj (hi.symm.trans ht)
    obtain rfl := Option.some.inj ht'
    exact .inl ⟨⟨h.face, h.onward, h.trusted, h.known, h.delivered, h.idle⟩, h.still, h.queue⟩
  · obtain rfl := Option.some.inj (ht.symm.trans ht')
    exact .inl (.refl t)

/-- A link is dropped, whatever its protocol state came to just before. -/
theorem put_drop_moves (hi : c.links[i]? = some s) (hpresent : s.present = true)
    (hface : s'.face = s.face) (honward : Onward s.link s'.link)
    (hdelivered : s'.delivered = s.delivered) (hqueue : s'.queue <:+ s.queue)
    (hacks : s'.acks = s.acks) (hheard : s.heard ⊆ s'.heard) (hlost : lost i) :
    Moves Idle lost c ((c.put i s').drop i) := by
  have hp' : s'.present = true := (LinkState.face_eq hface).1.trans hpresent
  have hput : (c.put i s').links[i]? = some s' := (put_get hi s' i).trans (if_pos rfl)
  have hdrop : (c.put i s').drop i = (c.put i s').release i
      { s' with present := false, link := s'.link.drop, closedAt := (c.put i s').links.length }
      (fun _ => true) false := by
    rw [drop, hput]
    exact if_pos hp'
  rw [hdrop]
  refine ⟨⟨rfl, rfl, goes_settle _ _ _, ?_⟩, ?_, ?_⟩
  · intro hp
    exact (hp.put hi hacks hheard (LinkState.face_eq hface).1).release hput rfl
      (List.Subset.refl _) nofun (.inr fun _ => rfl)
  · exact (put_length _ _ _).trans (put_length _ _ _)
  · intro j t t' ht ht'
    rw [release, settle_links, put_get hput, put_get hi] at ht'
    split at ht'
    · next hj =>
      subst hj
      obtain rfl := Option.some.inj (hi.symm.trans ht)
      obtain rfl := Option.some.inj ht'
      refine .inr ⟨hlost, hpresent, ?_, honward.trans (.drop _), hdelivered, hqueue⟩
      rw [← hface, ← put_length c j s']
      rfl
    · obtain rfl := Option.some.inj (ht.symm.trans ht')
      exact .inl (.refl t)

theorem put_self (hi : c.links[i]? = some s) : c.put i s = c := by
  rw [put]
  have h : c.links.set i s = c.links := by
    obtain ⟨h, rfl⟩ := List.getElem?_eq_some_iff.1 hi
    exact List.set_getElem_self h
  rw [h]

theorem drop_moves (hlost : lost i) : Moves Idle lost c (c.drop i) := by
  cases hi : c.links[i]? with
  | none =>
    rw [drop, hi]
    exact .refl c lost
  | some s =>
    by_cases hp : s.present = true
    · have h : Moves Idle lost c ((c.put i s).drop i) :=
        put_drop_moves hi hp rfl (.refl _) rfl List.suffix_rfl rfl (List.Subset.refl _) hlost
      rwa [put_self hi] at h
    · rw [drop, hi]
      show Moves Idle lost c (if s.present = true then _ else c)
      rw [if_neg hp]
      exact .refl c lost

end Carrier

end SignetApp.Nearby
