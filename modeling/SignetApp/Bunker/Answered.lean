import SignetApp.Collections.OrderedMap
import SignetApp.Concurrency.Reach
import SignetApp.Js.Guards
import SignetApp.Js.SafeUrl

/-!
# Which requests are taken in, and which are answered

`useBunkerServer.ts` from the relay's frame to the dispatch of a request, and from an answer to the
relay again; `bunker-answered-store.ts`. What a handler does between the two is up to the run: it
may answer at any time, wait in the approval queue, or end.
-/

namespace SignetApp.Bunker

open SignetApp.Js

/-- `verifyEvent`: an event's id is the hash of what it says, its time included. -/
class EventVerifier where
  verifyEvent : JsValue → Bool
  /-- The `created_at` of the event with this id. -/
  createdAt : Hex 64 → ℚ
  verified : ∀ event, verifyEvent event = true → ∃ id : Hex 64, event.get "id" = id.toJs
    ∧ event.get "created_at" = .num (.finite (createdAt id))

/-! ## The answered store -/

/-- The ids answered, with the time of the answer (ms), oldest first. -/
abbrev AnsweredStore := List (Hex 64 × ℤ)

def answeredTtlMs : ℤ := 10 * 60000

def answeredCap : ℕ := 1000

def AnsweredStore.read (storage : AnsweredStore) (now : ℤ) : AnsweredStore :=
  storage.filter fun e => decide (now - e.2 < answeredTtlMs)

/-- `entries.slice(-cap)`. -/
def lastOf {α : Type} (cap : ℕ) (xs : List α) : List α := xs.drop (xs.length - cap)

def AnsweredStore.markAnswered (storage : AnsweredStore) (now : ℤ) (id : Hex 64) : AnsweredStore :=
  lastOf answeredCap ((storage.read now).filter (fun e => decide (e.1 ≠ id)) ++ [(id, now)])

def AnsweredStore.wasAnswered (storage : AnsweredStore) (now : ℤ) (id : Hex 64) : Bool :=
  (storage.read now).any fun e => decide (e.1 = id)

/-! ## A page -/

/-- What the intake reads of a route. -/
structure ServedRoute where
  pubkey : JsString
  isBot : Bool
  /-- `handleBotEvent` is there. -/
  handlesBot : Bool
  /-- The client keys this app itself talks to the route's signer with. -/
  transportKeys : List JsString

/-- `${clientPubkey}:${requestId}`; a client's key has no colon. -/
structure RequestKey where
  clientPubkey : JsString
  requestId : JsString
  deriving DecidableEq

/-- A request under way: its handler, and after it its place in the approval queue. -/
structure Handler where
  event : Hex 64
  isBot : Bool
  /-- Who asked, and under which id, once it is decrypted. -/
  key : Option RequestKey
  waiting : Bool
  /-- The generation in which the response being built was begun. -/
  building : Option ℕ
  /-- A response to it has been put in the outbox. -/
  answered : Bool
  ended : Bool

/-- An entry of `responseOutboxRef`, with the event it was built for. -/
structure Reply where
  expiresAt : ℤ
  sentOn : Option ℕ
  inboundEventId : Option (Hex 64)
  builtFor : Hex 64

structure Socket where
  number : ℕ
  isOpen : Bool

structure Page where
  number : ℕ
  routes : List ServedRoute
  /-- `handledEventIdsRef`, oldest first. -/
  handled : List (Hex 64)
  /-- `inboundEventByRequestRef`. -/
  inbound : List (RequestKey × Hex 64)
  /-- `responseOutboxRef`, by the id of the response. -/
  outbox : List (JsString × Reply)
  generation : ℕ
  socket : Option Socket
  /-- Sockets opened so far. -/
  sockets : ℕ
  handlers : List Handler
  /-- Handlers whose client is being told that serving stopped. -/
  notices : List ℕ

/-- What has become of events, oldest first. -/
inductive Entry where
  /-- A page handed the event to a handler. -/
  | dispatched (page : ℕ) (event : Hex 64)
  /-- A page handed a response built for the event to an open socket, and recorded an id. -/
  | sent (page : ℕ) (builtFor : Hex 64) (recorded : Option (Hex 64))
  deriving DecidableEq

def Entry.page : Entry → ℕ
  | dispatched page _ => page
  | sent page _ _ => page

structure World where
  now : ℤ
  storage : AnsweredStore
  page : Page
  history : List Entry

def Page.fresh (number : ℕ) (routes : List ServedRoute) : Page where
  number := number
  routes := routes
  handled := []
  inbound := []
  outbox := []
  generation := 0
  socket := none
  sockets := 0
  handlers := []
  notices := []

def World.start (now : ℤ) (storage : AnsweredStore) (routes : List ServedRoute) : World where
  now := now
  storage := storage
  page := .fresh 0 routes
  history := []

/-! ## Taking a frame in -/

def handledEventIdsCap : ℕ := 1000

/-- The `p` tags of an event. -/
def pTags (tags : List JsValue) : List (List JsValue) :=
  tags.filterMap fun
    | .arr (key :: rest) => if key = .ofLit "p" then some (key :: rest) else none
    | _ => none

/-- `event.created_at` within five minutes back and one ahead. -/
def isFresh (now : ℤ) (createdAt : ℚ) : Prop :=
  (now / 1000 - 300 : ℤ) ≤ createdAt ∧ createdAt ≤ (now / 1000 + 60 : ℤ)

instance (now : ℤ) (createdAt : ℚ) : Decidable (isFresh now createdAt) :=
  inferInstanceAs (Decidable (_ ∧ _))

/-- The checks on a frame before anything is remembered of it. -/
def accepts [EventVerifier] (routes : List ServedRoute) (now : ℤ) (event : JsValue) :
    Option (ServedRoute × Hex 64) :=
  match event.get "pubkey", event.get "tags", event.get "created_at" with
  | .str author, .arr tags, .num (.finite createdAt) =>
    if event.get "kind" = .num (.finite 24133) ∧ isFresh now createdAt then
      match pTags tags with
      | [_ :: .str recipient :: _] =>
        (routes.find? fun r => toLowerCase r.pubkey = toLowerCase recipient).bind fun route =>
          if routes.any fun r => toLowerCase author ∈ r.transportKeys then none
          else if EventVerifier.verifyEvent event then (isHex 64 (event.get "id")).map (route, ·)
          else none
      | _ => none
    else none
  | _, _, _ => none

/-- `handled.add(id)`, and the oldest goes when there are too many. -/
def remember (handled : List (Hex 64)) (id : Hex 64) : List (Hex 64) :=
  lastOf handledEventIdsCap (handled ++ [id])

section

variable (native : Bool)

/-- `handleInboundEvent`, up to the bot handler or the decryption. -/
def World.frame [EventVerifier] (w : World) (event : JsValue) : World :=
  match accepts w.page.routes w.now event with
  | none => w
  | some (route, id) =>
    if w.page.handled.contains id then w
    else
      let page := { w.page with handled := remember w.page.handled id }
      if native && w.storage.wasAnswered w.now id || route.isBot && !route.handlesBot then
        { w with page }
      else
        { w with
          page := { page with handlers := page.handlers ++
            [{ event := id, isBot := route.isBot, key := none, waiting := false, building := none
               answered := false, ended := false }] }
          history := w.history ++ [.dispatched w.page.number id] }

/-- Handler `i`, when `test` holds of it. -/
def World.atHandler (w : World) (i : ℕ) (test : Handler → Bool) (f : Handler → World) : World :=
  match w.page.handlers[i]? with
  | some h => if test h then f h else w
  | none => w

def World.setHandler (w : World) (i : ℕ) (h : Handler) : World :=
  { w with page := { w.page with handlers := w.page.handlers.set i h } }

/-- `inbound.set(key, id)`, and the oldest goes when there are too many. -/
def link (inbound : List (RequestKey × Hex 64)) (key : RequestKey) (id : Hex 64) :
    List (RequestKey × Hex 64) :=
  lastOf handledEventIdsCap (OrderedMap.setEntries key id inbound)

/-- `parseInboundRequest` is back. -/
def World.parsed (w : World) (i : ℕ) (request : Option RequestKey) (h : Handler) : World :=
  match request with
  | none => w.setHandler i { h with ended := true }
  | some key =>
    let w' := w.setHandler i { h with key := some key }
    if native then { w' with page := { w'.page with inbound := link w.page.inbound key h.event } }
    else w'

/-! ## Answers -/

/-- `responseOutboxRef.current.size >= 256` refuses a response. -/
def outboxCap : ℕ := 256

/-- The loop of `flushResponses` on open socket `ws`, of which `sends` calls of `send` succeed: the
outbox after it, what went out, and whether a send raised. -/
def flushEntries (now : ℤ) (ws : ℕ) : ℕ → List (JsString × Reply) →
    List (JsString × Reply) × List Reply × Bool
  | _, [] => ([], [], false)
  | sends, (id, r) :: rest =>
    if r.expiresAt ≤ now then flushEntries now ws sends rest
    else if r.sentOn = some ws then
      let (outbox, sent, raised) := flushEntries now ws sends rest
      ((id, r) :: outbox, sent, raised)
    else
      match sends with
      | 0 => ((id, { r with sentOn := some ws }) :: rest, [], true)
      | sends + 1 =>
        let (outbox, sent, raised) := flushEntries now ws sends rest
        ((id, { r with sentOn := some ws }) :: outbox, r :: sent, raised)

/-- What is recorded of the replies that went out. -/
def AnsweredStore.markAll (storage : AnsweredStore) (now : ℤ) (ids : List (Hex 64)) : AnsweredStore :=
  ids.foldl (fun s id => s.markAnswered now id) storage

/-- `flushResponses`; `stores` says whether the storage can be written. -/
def World.flushResponses (w : World) (sends : ℕ) (stores : Bool) : World :=
  match w.page.socket with
  | some ⟨ws, true⟩ =>
    let (outbox, sent, raised) := flushEntries w.now ws sends w.page.outbox
    { w with
      page := { w.page with outbox, socket := some ⟨ws, !raised⟩ }
      storage := if stores then w.storage.markAll w.now (sent.filterMap (·.inboundEventId))
        else w.storage
      history := w.history ++ sent.map fun r => .sent w.page.number r.builtFor r.inboundEventId }
  | _ => { w with page := { w.page with
      outbox := w.page.outbox.filter fun e => decide (w.now < e.2.expiresAt) } }

/-- `publishResponse`, once the response is built. -/
def World.built (w : World) (i : ℕ) (response : Option JsString) (sends : ℕ) (stores : Bool)
    (h : Handler) : World :=
  match response with
  | none => w.setHandler i { h with building := none }
  | some id =>
    let live := w.page.outbox.filter fun e => decide (w.now < e.2.expiresAt)
    if h.building ≠ some w.page.generation then w.setHandler i { h with building := none }
    else if outboxCap ≤ live.length then
      let w' := w.setHandler i { h with building := none }
      { w' with page := { w'.page with outbox := live } }
    else
      let w' := w.setHandler i { h with building := none, answered := true }
      let reply : Reply :=
        { expiresAt := w.now + 300000, sentOn := none
          inboundEventId := if native then h.key.bind fun key => List.lookup key w.page.inbound
          else none
          builtFor := h.event }
      World.flushResponses { w' with page := { w'.page with
        inbound := if native then w.page.inbound.filter fun e => decide (some e.1 ≠ h.key)
          else w.page.inbound
        outbox := OrderedMap.setEntries id reply live } } sends stores

/-- The `send` of a bot handler. -/
def World.botSends (w : World) (stores : Bool) (h : Handler) : World :=
  match w.page.socket with
  | some ⟨_, true⟩ =>
    { w with
      storage := if native && stores then w.storage.markAnswered w.now h.event else w.storage
      history := w.history ++
        [.sent w.page.number h.event (if native then some h.event else none)] }
  | _ => w

/-- The tear-down of the subscription; a mere reconnect keeps the serving session. -/
def World.tearDown (w : World) (reconnectOnly : Bool) : World :=
  let waiting := (List.range w.page.handlers.length).filter fun i =>
    (w.page.handlers[i]?).any (·.waiting)
  let isOpen := w.page.socket.any (·.isOpen)
  { w with page :=
    if reconnectOnly then { w.page with socket := none }
    else
      { w.page with
        socket := none
        generation := w.page.generation + 1
        outbox := []
        handlers := w.page.handlers.map fun h => { h with waiting := false }
        notices := if isOpen then w.page.notices ++ waiting else w.page.notices } }

/-- "serving stopped", to the client of a request that was waiting. -/
def World.notice (w : World) (i : ℕ) (h : Handler) : World :=
  { w with page := { w.page with notices := w.page.notices.erase i }
           history := w.history ++ [.sent w.page.number h.event none] }

/-! ## Steps -/

inductive Happening where
  | tick (ms : ℕ)
  /-- Another render, with its routes. -/
  | render (routes : List ServedRoute)
  | frame (event : JsValue)
  | parsed (i : ℕ) (request : Option RequestKey)
  /-- The handler calls `publishResponse`. -/
  | publish (i : ℕ)
  | built (i : ℕ) (response : Option JsString) (sends : ℕ) (stores : Bool)
  /-- The handler puts its request in the approval queue, or takes it out again. -/
  | waits (i : ℕ) (waiting : Bool)
  | ends (i : ℕ)
  | botSends (i : ℕ) (stores : Bool)
  | connect
  | opened (sends : ℕ) (stores : Bool)
  | closed
  /-- The relay's `OK` for a response. -/
  | acknowledged (response : JsString)
  | tearDown (reconnectOnly : Bool)
  /-- "serving stopped" goes out on the socket that is being closed. -/
  | notice (i : ℕ)
  | reload (routes : List ServedRoute)

def World.next [EventVerifier] (w : World) : Happening → World
  | .tick ms => { w with now := w.now + ms }
  | .render routes => { w with page := { w.page with routes } }
  | .frame event => w.frame native event
  | .parsed i request =>
    w.atHandler i (fun h => !h.isBot && h.key.isNone && !h.ended) (w.parsed native i request)
  | .publish i =>
    w.atHandler i (fun h => h.key.isSome && h.building.isNone && !h.ended) fun h =>
      w.setHandler i { h with building := some w.page.generation }
  | .built i response sends stores =>
    w.atHandler i (fun h => h.building.isSome && !h.ended)
      (w.built native i response sends stores)
  | .waits i waiting =>
    w.atHandler i (fun h => h.key.isSome && !h.ended) fun h => w.setHandler i { h with waiting }
  | .ends i =>
    w.atHandler i (fun h => h.building.isNone) fun h =>
      w.setHandler i { h with ended := true, waiting := false }
  | .botSends i stores => w.atHandler i (fun h => h.isBot && !h.ended) (w.botSends native stores)
  | .connect => { w with page := { w.page with
      socket := some ⟨w.page.sockets, false⟩, sockets := w.page.sockets + 1 } }
  | .opened sends stores =>
    match w.page.socket with
    | some ⟨ws, _⟩ =>
      World.flushResponses { w with page := { w.page with socket := some ⟨ws, true⟩ } } sends stores
    | none => w
  | .closed => { w with page := { w.page with socket := none } }
  | .acknowledged response => { w with page := { w.page with
      outbox := w.page.outbox.filter fun e => decide (e.1 ≠ response) } }
  | .tearDown reconnectOnly => w.tearDown reconnectOnly
  | .notice i => w.atHandler i (fun _ => decide (i ∈ w.page.notices)) (w.notice i)
  | .reload routes => { w with page := .fresh (w.page.number + 1) routes }

end

/-!
## Bounded memories and the answered list

What a list that forgets its oldest keeps, and which ids the answered list has for good.
-/

attribute [local irreducible] answeredCap

/-! ## Lists that forget their oldest -/

section

variable {α : Type}

variable {xs : List α}

theorem pairwise_append_of {R : α → α → Prop} {ys : List α} (h : xs.Pairwise R)
    (hys : ∀ a, ∀ b ∈ ys, R a b) : (xs ++ ys).Pairwise R :=
  List.pairwise_append.2
    ⟨h, List.pairwise_of_forall_mem_list fun a _ b hb => hys a b hb, fun a _ b hb => hys a b hb⟩

variable {x : α} {cap : ℕ}

theorem mem_of_mem_lastOf (h : x ∈ lastOf cap xs) : x ∈ xs :=
  List.mem_of_mem_drop h

theorem length_lastOf_le (cap : ℕ) (xs : List α) : (lastOf cap xs).length ≤ cap := by
  rw [lastOf, List.length_drop]
  omega

theorem lastOf_of_length_le (h : xs.length ≤ cap + 1) :
    lastOf cap xs = xs ∧ xs.length ≤ cap ∨ ∃ x rest, xs = x :: rest ∧ rest.length = cap
      ∧ lastOf cap xs = rest := by
  by_cases hle : xs.length ≤ cap
  · left
    rw [lastOf, Nat.sub_eq_zero_of_le hle]
    exact ⟨rfl, hle⟩
  · right
    have hlen : xs.length = cap + 1 := by omega
    cases xs with
    | nil => simp at hlen
    | cons x rest =>
      refine ⟨x, rest, rfl, by simpa using hlen, ?_⟩
      rw [lastOf, hlen, Nat.add_sub_cancel_left]
      rfl

theorem mem_lastOf_append_self (hcap : 0 < cap) (xs : List α) (x : α) :
    x ∈ lastOf cap (xs ++ [x]) := by
  rw [lastOf, List.drop_append_of_le_length]
  · exact List.mem_append_right _ (List.mem_singleton_self x)
  · rw [List.length_append, List.length_singleton]
    omega

variable {n : ℕ}

theorem mem_lastOf_succ {y : α} (h : x ∈ lastOf n xs) : x ∈ lastOf (n + 1) (xs ++ [y]) := by
  rw [lastOf, List.length_append, List.length_singleton, Nat.add_sub_add_right,
    List.drop_append_of_le_length (Nat.sub_le _ _)]
  exact List.mem_append_left _ h

theorem mem_lastOf_filter {p : α → Bool} (h : x ∈ lastOf n xs)
    (hp : p x = true) : x ∈ lastOf n (xs.filter p) := by
  induction xs with
  | nil => simp [lastOf] at h
  | cons y ys ih =>
    by_cases hlen : ys.length < n
    · -- everything is within reach
      have hle : ((y :: ys).filter p).length ≤ n :=
        (List.length_filter_le p (y :: ys)).trans hlen
      rw [lastOf, Nat.sub_eq_zero_of_le hle]
      exact List.mem_filter.2 ⟨mem_of_mem_lastOf h, hp⟩
    · have hdrop : lastOf n (y :: ys) = lastOf n ys := by
        rw [lastOf, lastOf, List.length_cons, Nat.succ_sub (by omega)]
        rfl
      rw [hdrop] at h
      have hmem := ih h
      rw [List.filter_cons]
      split
      · rw [lastOf] at hmem ⊢
        rw [List.length_cons]
        by_cases hfl : n ≤ (ys.filter p).length
        · rw [Nat.succ_sub hfl]
          exact hmem
        · rw [Nat.sub_eq_zero_of_le (by omega)]
          exact List.mem_cons_of_mem _ (List.mem_of_mem_drop hmem)
      · exact hmem

theorem lastOf_lastOf {m : ℕ} (h : m ≤ n) (xs : List α) : lastOf m (lastOf n xs) = lastOf m xs := by
  simp only [lastOf, List.drop_drop, List.length_drop]
  congr 1
  omega

end

/-! ## Places of a map -/

section

variable {α κ : Type} [DecidableEq κ]

theorem mem_setEntries {k : κ} {a : α} {l : List (κ × α)}
    {e : κ × α} (h : e ∈ OrderedMap.setEntries k a l) : e = (k, a) ∨ e ∈ l := by
  induction l with
  | nil => exact .inl (List.mem_singleton.1 h)
  | cons x rest ih =>
    obtain ⟨l, b⟩ := x
    rw [OrderedMap.setEntries] at h
    split at h
    · rcases List.mem_cons.1 h with rfl | h
      · exact .inl rfl
      · exact .inr (List.mem_cons_of_mem _ h)
    · rcases List.mem_cons.1 h with rfl | h
      · exact .inr List.mem_cons_self
      · exact (ih h).imp_right (List.mem_cons_of_mem _)

theorem length_setEntries_le (k : κ) (a : α)
    (l : List (κ × α)) : (OrderedMap.setEntries k a l).length ≤ l.length + 1 := by
  induction l with
  | nil => exact le_rfl
  | cons x rest ih =>
    obtain ⟨l, b⟩ := x
    rw [OrderedMap.setEntries]
    split
    · exact Nat.le_succ _
    · exact Nat.succ_le_succ ih

theorem lookup_filter_ne {p : κ × α → Bool} {k : κ}
    (hp : ∀ a, p (k, a) = true) : ∀ l : List (κ × α), (l.filter p).lookup k = l.lookup k
  | [] => rfl
  | (l, b) :: rest => by
    rw [List.filter_cons, List.lookup_cons]
    by_cases hk : k = l
    · subst hk
      rw [hp b, if_pos rfl, List.lookup_cons]
      simp
    · have hb : (k == l) = false := by simpa using hk
      split
      · rw [List.lookup_cons, hb]
        exact lookup_filter_ne hp rest
      · rw [hb]
        exact lookup_filter_ne hp rest

end

/-! ## The answered list -/

theorem mem_markAnswered {storage : AnsweredStore} {now : ℤ} {id : Hex 64} {e : Hex 64 × ℤ}
    (h : e ∈ storage.markAnswered now id) : (e ∈ storage ∧ e.1 ≠ id) ∨ e = (id, now) := by
  unfold AnsweredStore.markAnswered at h
  have hmem := mem_of_mem_lastOf h
  rcases List.mem_append.1 hmem with hmem | hmem
  · obtain ⟨hread, hne⟩ := List.mem_filter.1 hmem
    exact .inl ⟨List.mem_of_mem_filter hread, of_decide_eq_true hne⟩
  · exact .inr (List.mem_singleton.1 hmem)

theorem mem_markAll {now : ℤ} {ids : List (Hex 64)} {e : Hex 64 × ℤ} :
    ∀ {storage : AnsweredStore}, e ∈ storage.markAll now ids →
      (e ∈ storage ∧ e.1 ∉ ids) ∨ (e.1 ∈ ids ∧ e.2 = now) := by
  induction ids with
  | nil => exact fun h => .inl ⟨h, List.not_mem_nil⟩
  | cons id ids ih =>
    intro storage h
    have htail : e ∈ (storage.markAnswered now id).markAll now ids := by
      rwa [AnsweredStore.markAll, List.foldl_cons] at h
    rcases ih htail with ⟨hmem, hnot⟩ | ⟨hmem, htime⟩
    · rcases mem_markAnswered hmem with ⟨hold, hne⟩ | rfl
      · refine .inl ⟨hold, ?_⟩
        rw [List.mem_cons]
        exact fun hor => hor.elim hne hnot
      · exact .inr ⟨List.mem_cons_self, rfl⟩
    · exact .inr ⟨List.mem_cons_of_mem _ hmem, htime⟩

theorem recorded_markAll (storage : AnsweredStore) (now : ℤ) {ids : List (Hex 64)}
    (hlen : ids.length ≤ answeredCap) {id : Hex 64} (h : id ∈ ids) :
    (id, now) ∈ storage.markAll now ids := by
  suffices hlast : (id, now) ∈ lastOf ids.length (storage.markAll now ids) from
    mem_of_mem_lastOf hlast
  induction ids using List.reverseRecOn with
  | nil => cases h
  | append_singleton ids y ih =>
    rw [List.length_append, List.length_singleton] at hlen ⊢
    have hmark : storage.markAll now (ids ++ [y]) = (storage.markAll now ids).markAnswered now y := by
      simp only [AnsweredStore.markAll, List.foldl_append, List.foldl_cons, List.foldl_nil]
    rw [hmark, AnsweredStore.markAnswered, lastOf_lastOf hlen]
    by_cases hy : id = y
    · subst hy
      exact mem_lastOf_append_self (by omega) _ _
    · have hids : id ∈ ids := by
        rcases List.mem_append.1 h with hmem | hmem
        · exact hmem
        · exact absurd (List.mem_singleton.1 hmem) hy
      apply mem_lastOf_succ
      apply mem_lastOf_filter
      · apply mem_lastOf_filter (ih (by omega) hids)
        show decide (now - now < answeredTtlMs) = true
        rw [sub_self]
        rfl
      · exact decide_eq_true hy

section

variable [EventVerifier]

/-- The event with this id is no longer taken in, now or later. -/
def Stale (now : ℤ) (id : Hex 64) : Prop :=
  EventVerifier.createdAt id < (now / 1000 - 300 : ℤ)

/-- An id that is on the list for good, as long as its event is taken in at all. -/
def Recorded (now : ℤ) (storage : AnsweredStore) (id : Hex 64) : Prop :=
  Stale now id ∨ ((∃ e ∈ storage, e.1 = id) ∧ ∀ e ∈ storage, e.1 = id →
    EventVerifier.createdAt id ≤ (e.2 / 1000 + 60 : ℤ) ∧ e.2 ≤ now)

variable {id : Hex 64} {now : ℤ}

theorem not_stale_of_isFresh (h : isFresh now (EventVerifier.createdAt id)) : ¬ Stale now id :=
  fun hstale => absurd h.1 (not_le.2 hstale)

theorem Stale.later {now' : ℤ} (h : Stale now id) (hnow : now ≤ now') : Stale now' id := by
  unfold Stale at h ⊢
  have hdiv : now / 1000 ≤ now' / 1000 := Int.ediv_le_ediv (by decide) hnow
  have hcast : ((now / 1000 - 300 : ℤ) : ℚ) ≤ (now' / 1000 - 300 : ℤ) := by
    exact_mod_cast Int.sub_le_sub_right hdiv 300
  exact h.trans_le hcast

variable {storage : AnsweredStore}

theorem Recorded.later {now' : ℤ}
    (h : Recorded now storage id) (hnow : now ≤ now') : Recorded now' storage id := by
  rcases h with hstale | ⟨hex, hall⟩
  · exact .inl (hstale.later hnow)
  · refine .inr ⟨hex, ?_⟩
    intro e he hid
    exact ⟨(hall e he hid).1, (hall e he hid).2.trans hnow⟩

theorem Recorded.wasAnswered
    (h : Recorded now storage id) (hfresh : isFresh now (EventVerifier.createdAt id)) :
    storage.wasAnswered now id = true := by
  rcases h with hstale | ⟨⟨e, he, hid⟩, hall⟩
  · exact absurd hstale (not_stale_of_isFresh hfresh)
  · obtain ⟨htime, -⟩ := hall e he hid
    have hle : ((now / 1000 - 300 : ℤ) : ℚ) ≤ (e.2 / 1000 + 60 : ℤ) := hfresh.1.trans htime
    have hint : now / 1000 - 300 ≤ e.2 / 1000 + 60 := by exact_mod_cast hle
    have hlive : now - e.2 < answeredTtlMs := by
      unfold answeredTtlMs
      omega
    rw [AnsweredStore.wasAnswered, List.any_eq_true]
    exact ⟨e, List.mem_filter.2 ⟨he, decide_eq_true hlive⟩, decide_eq_true hid⟩

theorem Recorded.markAll (h : Recorded now storage id) {ids : List (Hex 64)}
    (hkeeps : ∀ e ∈ storage, Stale now e.1 ∨ ∃ e' ∈ storage.markAll now ids, e'.1 = e.1) :
    Recorded now (storage.markAll now ids) id := by
  rcases h with hstale | ⟨⟨e, he, hid⟩, hall⟩
  · exact .inl hstale
  · obtain ⟨htime, hpast⟩ := hall e he hid
    rcases hkeeps e he with hstale | ⟨e', he', hid'⟩
    · exact .inl (hid ▸ hstale)
    · refine .inr ⟨⟨e', he', hid'.trans hid⟩, ?_⟩
      intro e'' he'' hid''
      rcases mem_markAll he'' with ⟨hold, -⟩ | ⟨-, hnow⟩
      · exact hall e'' hold hid''
      · rw [hnow]
        refine ⟨htime.trans ?_, le_rfl⟩
        have hdiv : e.2 / 1000 ≤ now / 1000 := Int.ediv_le_ediv (by decide) hpast
        exact_mod_cast Int.add_le_add_right hdiv 60

theorem recorded_of_marked (storage : AnsweredStore) {ids : List (Hex 64)}
    (hlen : ids.length ≤ answeredCap) (h : id ∈ ids)
    (htimely : EventVerifier.createdAt id ≤ (now / 1000 + 60 : ℤ)) :
    Recorded now (storage.markAll now ids) id := by
  refine .inr ⟨⟨_, recorded_markAll storage now hlen h, rfl⟩, ?_⟩
  intro e he hid
  rcases mem_markAll he with ⟨-, hnot⟩ | ⟨-, hnow⟩
  · exact absurd (hid ▸ h) hnot
  · rw [hnow]
    exact ⟨htimely, le_rfl⟩

end

end SignetApp.Bunker
