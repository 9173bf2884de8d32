import SignetApp.Bunker.Answered

/-!
# A request is handled once, and recorded by its own answer

What the two bounded memories of a page and the answered list keep, as long as neither a flood nor a
reused request id takes it from them.
-/

namespace SignetApp.Bunker

open SignetApp.Js

attribute [local irreducible] handledEventIdsCap answeredCap

section

variable [EventVerifier] (native : Bool)

/-- Events are handled once, and answered ones stay answered. -/
structure HandledOnce (w : World) : Prop where
  once : w.history.Pairwise fun a b => ∀ page id,
    a = .dispatched page id → b ≠ .dispatched page id
  settled : native = true → w.history.Pairwise fun a b => ∀ page page' id m,
    a = .sent page id m → b = .dispatched page' id → page = page'
  own : ∀ page id m, .sent page id (some m) ∈ w.history → m = id

/-- No request still to be answered loses its place in `inboundEventByRequestRef`: neither is its
request id used again, nor is it the oldest of too many. -/
structure KeepsLinks (w : World) (i : ℕ) (key : RequestKey) : Prop where
  reused : ∀ j h, w.page.handlers[j]? = some h → j ≠ i → h.key = some key →
    h.ended = true ∨ h.answered = true
  crowded : handledEventIdsCap ≤ w.page.inbound.length → w.page.inbound.lookup key = none →
    ∀ oldest ∈ w.page.inbound.head?, ∀ h ∈ w.page.handlers, h.key = some oldest.1 →
      h.ended = true ∨ h.answered = true

/-- Every record of an answer is written, and pushes no fresh id out of the answered list. -/
def KeepsAnswered (w w' : World) (stores : Bool) : Prop :=
  stores = true ∧ ∀ e ∈ w.storage, Stale w.now e.1 ∨ ∃ e' ∈ w'.storage, e'.1 = e.1

/-- Neither memory forgets what it is still asked for. -/
def Careful (w : World) : Happening → Prop
  | .frame event => ∀ route id, accepts w.page.routes w.now event = some (route, id) →
    id ∉ w.page.handled → handledEventIdsCap ≤ w.page.handled.length →
      ∀ oldest ∈ w.page.handled.head?, Stale w.now oldest
  | .parsed i (some key) => native = true → KeepsLinks w i key
  | .built i (some response) sends stores => native = true →
    (∀ h, w.page.handlers[i]? = some h → h.answered = false)
      ∧ KeepsAnswered w (w.next native (.built i (some response) sends stores)) stores
  | .opened sends stores => native = true →
    KeepsAnswered w (w.next native (.opened sends stores)) stores
  | .botSends i stores => native = true →
    KeepsAnswered w (w.next native (.botSends i stores)) stores
  | .notice _ => native = false
  | _ => True

end

/-! ## Flushing -/

/-- What `flushResponses` makes of the outbox: replies stay what they are, each goes out once. -/
theorem flushEntries_spec (now : ℤ) (ws : ℕ) (outbox : List (JsString × Reply)) (sends : ℕ) :
    (∀ e ∈ (flushEntries now ws sends outbox).1, ∃ e' ∈ outbox,
        e.2.builtFor = e'.2.builtFor ∧ e.2.inboundEventId = e'.2.inboundEventId)
      ∧ (flushEntries now ws sends outbox).1.length ≤ outbox.length
      ∧ (∀ r ∈ (flushEntries now ws sends outbox).2.1, ∃ e ∈ outbox, e.2 = r)
      ∧ (flushEntries now ws sends outbox).2.1.length ≤ outbox.length := by
  induction outbox generalizing sends with
  | nil => simp [flushEntries]
  | cons e rest ih =>
    obtain ⟨id, r⟩ := e
    rw [flushEntries.eq_def]
    simp only
    split
    · obtain ⟨h₁, h₂, h₃, h₄⟩ := ih sends
      refine ⟨?_, h₂.trans (Nat.le_succ _), ?_, h₄.trans (Nat.le_succ _)⟩
      · intro x hx
        obtain ⟨e', he', hsame⟩ := h₁ x hx
        exact ⟨e', List.mem_cons_of_mem _ he', hsame⟩
      · intro x hx
        obtain ⟨e, he, hsame⟩ := h₃ x hx
        exact ⟨e, List.mem_cons_of_mem _ he, hsame⟩
    · split
      · obtain ⟨h₁, h₂, h₃, h₄⟩ := ih sends
        refine ⟨?_, Nat.succ_le_succ h₂, ?_, h₄.trans (Nat.le_succ _)⟩
        · intro x hx
          rcases List.mem_cons.1 hx with rfl | hx
          · exact ⟨_, List.mem_cons_self, rfl, rfl⟩
          · obtain ⟨e', he', hsame⟩ := h₁ x hx
            exact ⟨e', List.mem_cons_of_mem _ he', hsame⟩
        · intro x hx
          obtain ⟨e, he, hsame⟩ := h₃ x hx
          exact ⟨e, List.mem_cons_of_mem _ he, hsame⟩
      · cases sends with
        | zero =>
          refine ⟨?_, le_rfl, ?_, Nat.zero_le _⟩
          · intro x hx
            rcases List.mem_cons.1 hx with rfl | hx
            · exact ⟨_, List.mem_cons_self, rfl, rfl⟩
            · exact ⟨x, List.mem_cons_of_mem _ hx, rfl, rfl⟩
          · intro x hx
            cases hx
        | succ sends =>
          obtain ⟨h₁, h₂, h₃, h₄⟩ := ih sends
          refine ⟨?_, Nat.succ_le_succ h₂, ?_, Nat.succ_le_succ h₄⟩
          · intro x hx
            rcases List.mem_cons.1 hx with rfl | hx
            · exact ⟨_, List.mem_cons_self, rfl, rfl⟩
            · obtain ⟨e', he', hsame⟩ := h₁ x hx
              exact ⟨e', List.mem_cons_of_mem _ he', hsame⟩
          · intro x hx
            rcases List.mem_cons.1 hx with rfl | hx
            · exact ⟨_, List.mem_cons_self, rfl⟩
            · obtain ⟨e, he, hsame⟩ := h₃ x hx
              exact ⟨e, List.mem_cons_of_mem _ he, hsame⟩

/-! ## The invariants -/

section

variable [EventVerifier] {native : Bool} {w w' : World}

/-- What the history says is in the memories. -/
structure Remembers (native : Bool) (w : World) : Prop extends HandledOnce native w where
  pages : ∀ e ∈ w.history, e.page ≤ w.page.number
  remembered : ∀ id, .dispatched w.page.number id ∈ w.history → id ∈ w.page.handled ∨ Stale w.now id
  bounded : w.page.handled.length ≤ handledEventIdsCap
  recorded : native = true → ∀ page id m, .sent page id m ∈ w.history → Recorded w.now w.storage id

/-- A handler that may still answer. -/
def Handler.Open (h : Handler) : Prop := h.ended = false ∧ h.answered = false

/-- Each request still to be answered has its place in the map, and each reply its event's id. -/
structure Linked (native : Bool) (w : World) : Prop where
  timely : ∀ h ∈ w.page.handlers, EventVerifier.createdAt h.event ≤ (w.now / 1000 + 60 : ℤ)
  keyed : ∀ h ∈ w.page.handlers, h.building.isSome = true → h.key.isSome = true
  linked : native = true → ∀ h ∈ w.page.handlers, h.Open → ∀ key, h.key = some key →
    w.page.inbound.lookup key = some h.event
  apart : native = true → ∀ (i j : ℕ) (h h' : Handler), w.page.handlers[i]? = some h →
    w.page.handlers[j]? = some h' → h.Open → h'.Open → h.key.isSome = true → h.key = h'.key → i = j
  narrow : w.page.inbound.length ≤ handledEventIdsCap
  replies : ∀ e ∈ w.page.outbox, EventVerifier.createdAt e.2.builtFor ≤ (w.now / 1000 + 60 : ℤ)
    ∧ e.2.inboundEventId = if native then some e.2.builtFor else none
  room : w.page.outbox.length ≤ outboxCap

structure Sound (native : Bool) (w : World) : Prop where
  remembers : Remembers native w
  linked : Linked native w

omit [EventVerifier] in
theorem timely_later {now now' : ℤ} {q : ℚ} (h : q ≤ (now / 1000 + 60 : ℤ)) (hnow : now ≤ now') :
    q ≤ (now' / 1000 + 60 : ℤ) := by
  have hdiv : now / 1000 ≤ now' / 1000 := Int.ediv_le_ediv (by decide) hnow
  exact h.trans (by exact_mod_cast Int.add_le_add_right hdiv 60)

theorem Remembers.same (h : Remembers native w) (hnow : w.now ≤ w'.now)
    (hstorage : w'.storage = w.storage) (hhistory : w'.history = w.history)
    (hnumber : w'.page.number = w.page.number) (hhandled : w'.page.handled = w.page.handled) :
    Remembers native w' where
  once := hhistory ▸ h.once
  settled := hhistory ▸ h.settled
  own := hhistory ▸ h.own
  pages := by
    rw [hhistory, hnumber]
    exact h.pages
  remembered := by
    intro id hid
    rw [hhistory, hnumber] at hid
    rw [hhandled]
    exact (h.remembered id hid).imp_right fun hstale => hstale.later hnow
  bounded := hhandled ▸ h.bounded
  recorded := by
    intro hnative page id m hmem
    rw [hhistory] at hmem
    rw [hstorage]
    exact (h.recorded hnative page id m hmem).later hnow

/-- Responses go out. -/
theorem Remembers.send (h : Remembers native w) (sent : List Reply) (stores : Bool)
    (hlen : sent.length ≤ answeredCap)
    (hsent : ∀ r ∈ sent, EventVerifier.createdAt r.builtFor ≤ (w.now / 1000 + 60 : ℤ)
      ∧ r.inboundEventId = if native then some r.builtFor else none) (hnow : w'.now = w.now)
    (hstorage : w'.storage = if stores then w.storage.markAll w.now (sent.filterMap (·.inboundEventId))
      else w.storage) (hhistory : w'.history = w.history ++
      sent.map fun r => .sent w.page.number r.builtFor r.inboundEventId)
    (hnumber : w'.page.number = w.page.number) (hhandled : w'.page.handled = w.page.handled)
    (hkeeps : native = true → KeepsAnswered w w' stores) : Remembers native w' := by
  have hnew : ∀ e ∈ sent.map (fun r => Entry.sent w.page.number r.builtFor r.inboundEventId),
      ∃ r ∈ sent, e = .sent w.page.number r.builtFor r.inboundEventId := by
    intro e he
    obtain ⟨r, hr, rfl⟩ := List.mem_map.1 he
    exact ⟨r, hr, rfl⟩
  refine { once := ?_, settled := ?_, own := ?_, pages := ?_, remembered := ?_,
           bounded := hhandled ▸ h.bounded, recorded := ?_ }
  · rw [hhistory]
    apply pairwise_append_of h.once
    intro a b hb page id _ hpage
    obtain ⟨r, -, rfl⟩ := hnew b hb
    cases hpage
  · intro hnative
    rw [hhistory]
    apply pairwise_append_of (h.settled hnative)
    intro a b hb page page' id m _ hpage
    obtain ⟨r, -, rfl⟩ := hnew b hb
    cases hpage
  · intro page id m hmem
    rw [hhistory] at hmem
    rcases List.mem_append.1 hmem with hmem | hmem
    · exact h.own page id m hmem
    · obtain ⟨r, hr, hre⟩ := hnew _ hmem
      obtain ⟨-, hid⟩ := hsent r hr
      injection hre with _ hbuilt hrecorded
      rw [hid] at hrecorded
      cases native with
      | true => rw [hbuilt, Option.some.inj hrecorded]
      | false => cases hrecorded
  · intro e he
    rw [hhistory] at he
    rw [hnumber]
    rcases List.mem_append.1 he with he | he
    · exact h.pages e he
    · obtain ⟨r, -, rfl⟩ := hnew e he
      exact le_rfl
  · intro id hid
    rw [hhistory, hnumber] at hid
    rw [hhandled, hnow]
    rcases List.mem_append.1 hid with hid | hid
    · exact h.remembered id hid
    · obtain ⟨r, -, hr⟩ := hnew _ hid
      cases hr
  · intro hnative page id m hmem
    obtain ⟨hstores, hall⟩ := hkeeps hnative
    rw [hstores, if_pos rfl] at hstorage
    rw [hstorage] at hall ⊢
    rw [hhistory] at hmem
    rw [hnow]
    rcases List.mem_append.1 hmem with hmem | hmem
    · exact (h.recorded hnative page id m hmem).markAll hall
    · obtain ⟨r, hr, hre⟩ := hnew _ hmem
      obtain ⟨htimely, hid⟩ := hsent r hr
      injection hre with _ hbuilt _
      subst hbuilt
      apply recorded_of_marked
      · exact (List.length_filterMap_le _ _).trans hlen
      · rw [hnative, if_pos rfl] at hid
        exact List.mem_filterMap.2 ⟨r, hr, hid⟩
      · exact htimely

/-! ### Places in the map -/

/-- A handler that has gone no further than to answer, wait or end. -/
structure Handler.Same (h h' : Handler) : Prop where
  event : h'.event = h.event
  key : h'.key = h.key
  isOpen : h'.Open → h.Open
  keyed : h'.building.isSome = true → h.building.isSome = true ∨ h.key.isSome = true

omit [EventVerifier] in
theorem Handler.Same.refl (h : Handler) : h.Same h := ⟨rfl, rfl, id, .inl⟩

theorem Linked.same (h : Linked native w) (hnow : w.now ≤ w'.now)
    (hhandlers : ∀ (j : ℕ) (x' : Handler), w'.page.handlers[j]? = some x' →
      ∃ x, w.page.handlers[j]? = some x ∧ x.Same x') (hinbound : w'.page.inbound = w.page.inbound)
    (houtbox : ∀ e ∈ w'.page.outbox, ∃ e' ∈ w.page.outbox,
      e.2.builtFor = e'.2.builtFor ∧ e.2.inboundEventId = e'.2.inboundEventId)
    (hroom : w'.page.outbox.length ≤ w.page.outbox.length) : Linked native w' := by
  have hmem : ∀ x' ∈ w'.page.handlers, ∃ x ∈ w.page.handlers, x.Same x' := by
    intro x' hx'
    obtain ⟨j, hj⟩ := List.mem_iff_getElem?.1 hx'
    obtain ⟨x, hx, hsame⟩ := hhandlers j x' hj
    exact ⟨x, List.mem_of_getElem? hx, hsame⟩
  refine { timely := ?_, keyed := ?_, linked := ?_, apart := ?_, narrow := hinbound ▸ h.narrow,
           replies := ?_, room := hroom.trans h.room }
  · intro x' hx'
    obtain ⟨x, hx, hsame⟩ := hmem x' hx'
    rw [hsame.event]
    exact timely_later (h.timely x hx) hnow
  · intro x' hx' hb
    obtain ⟨x, hx, hsame⟩ := hmem x' hx'
    rw [hsame.key]
    exact (hsame.keyed hb).elim (h.keyed x hx) id
  · intro hnative x' hx' hopen key hkey
    obtain ⟨x, hx, hsame⟩ := hmem x' hx'
    rw [hinbound, hsame.event]
    exact h.linked hnative x hx (hsame.isOpen hopen) key (hsame.key ▸ hkey)
  · intro hnative i j x' y' hi hj hx hy hkey heq
    obtain ⟨x, hx', hsx⟩ := hhandlers i x' hi
    obtain ⟨y, hy', hsy⟩ := hhandlers j y' hj
    exact h.apart hnative i j x y hx' hy' (hsx.isOpen hx) (hsy.isOpen hy) (hsx.key ▸ hkey)
      (by rw [← hsx.key, ← hsy.key, heq])
  · intro e he
    obtain ⟨e', he', hbuilt, hid⟩ := houtbox e he
    obtain ⟨htimely, hown⟩ := h.replies e' he'
    rw [hbuilt, hid]
    exact ⟨timely_later htimely hnow, hown⟩

variable {x : Handler} {i : ℕ}

omit [EventVerifier] in
theorem handlers_set {x' : Handler} (hi : w.page.handlers[i]? = some x) (hs : x.Same x')
    {j : ℕ} {y' : Handler} (hj : (w.page.handlers.set i x')[j]? = some y') :
    ∃ y, w.page.handlers[j]? = some y ∧ y.Same y' := by
  by_cases hij : i = j
  · subst hij
    rw [List.getElem?_set_self (List.getElem?_eq_some_iff.1 hi).1] at hj
    obtain rfl := Option.some.inj hj
    exact ⟨x, hi, hs⟩
  · rw [List.getElem?_set_ne hij] at hj
    exact ⟨y', hj, Handler.Same.refl y'⟩

theorem Linked.setHandler (h : Linked native w) {x' : Handler}
    (hi : w.page.handlers[i]? = some x) (hs : x.Same x') : Linked native (w.setHandler i x') :=
  h.same le_rfl (fun _ _ hj => handlers_set hi hs hj) rfl (fun e he => ⟨e, he, rfl, rfl⟩) le_rfl

theorem Linked.flush (h : Linked native w) (sends : ℕ) (stores : Bool) :
    Linked native (w.flushResponses sends stores) := by
  unfold World.flushResponses
  split
  · rename_i ws _
    obtain ⟨hentries, hlen, -, -⟩ := flushEntries_spec w.now ws w.page.outbox sends
    exact h.same le_rfl (fun j x hj => ⟨x, hj, Handler.Same.refl x⟩) rfl hentries hlen
  · refine h.same le_rfl (fun j x hj => ⟨x, hj, Handler.Same.refl x⟩) rfl ?_ ?_
    · intro e he
      exact ⟨e, List.mem_of_mem_filter he, rfl, rfl⟩
    · exact List.length_filter_le _ _

variable {inbound : List (RequestKey × Hex 64)}

omit [EventVerifier] in
/-- Only the oldest entry of a full map is pushed out, and only by a new key. -/
theorem link_cases (key : RequestKey) (id : Hex 64)
    (hnarrow : inbound.length ≤ handledEventIdsCap) :
    link inbound key id = OrderedMap.setEntries key id inbound ∨
      ∃ oldest rest, inbound = oldest :: rest ∧ handledEventIdsCap ≤ inbound.length
        ∧ key ∉ inbound.map Prod.fst
        ∧ OrderedMap.setEntries key id inbound = oldest :: link inbound key id := by
  unfold link
  by_cases hmem : key ∈ inbound.map Prod.fst
  · have hlen : (OrderedMap.setEntries key id inbound).length = inbound.length := by
      rw [← List.length_map Prod.fst, OrderedMap.map_fst_setEntries, if_pos hmem, List.length_map]
    left
    rw [lastOf, Nat.sub_eq_zero_of_le (hlen ▸ hnarrow)]
    rfl
  · rw [OrderedMap.setEntries_of_not_mem id hmem]
    have hlen : (inbound ++ [(key, id)]).length ≤ handledEventIdsCap + 1 := by
      rw [List.length_append, List.length_singleton]
      omega
    rcases lastOf_of_length_le hlen with ⟨hall, -⟩ | ⟨oldest, rest, hsplit, hrest, hlast⟩
    · exact .inl hall
    · right
      have hfull : handledEventIdsCap ≤ inbound.length := by
        have hlength := congrArg List.length hsplit
        rw [List.length_append, List.length_singleton, List.length_cons] at hlength
        omega
      cases inbound with
      | nil =>
        have hpos : 0 < handledEventIdsCap := by
          unfold handledEventIdsCap
          omega
        rw [List.length_nil] at hfull
        omega
      | cons x xs =>
        obtain rfl : x = oldest := Option.some.inj (congrArg List.head? hsplit)
        exact ⟨x, xs, rfl, hfull, hmem, by rw [hlast, hsplit]⟩

variable {id : Hex 64}

omit [EventVerifier] in
theorem lookup_link {key key' : RequestKey} (hnarrow : inbound.length ≤ handledEventIdsCap)
    (hcrowded : handledEventIdsCap ≤ inbound.length → inbound.lookup key = none →
      ∀ oldest ∈ inbound.head?, key' ≠ oldest.1) :
    (link inbound key id).lookup key' = if key' = key then some id else inbound.lookup key' := by
  rw [← OrderedMap.lookup_setEntries]
  rcases link_cases key id hnarrow with hall | ⟨oldest, rest, hinbound, hfull, hnew, hset⟩
  · rw [hall]
  · have hnone : inbound.lookup key = none := by
      rw [List.lookup_eq_none_iff]
      intro e he
      rw [bne_iff_ne]
      rintro rfl
      exact hnew (List.mem_map_of_mem he)
    have hb : (key' == oldest.1) = false := by
      simpa using hcrowded hfull hnone oldest (by rw [hinbound]; rfl)
    rw [hset, List.lookup_cons, hb]

omit [EventVerifier] in
theorem lookup_link_self (key : RequestKey) (id : Hex 64)
    (hnarrow : inbound.length ≤ handledEventIdsCap) :
    (link inbound key id).lookup key = some id := by
  rw [lookup_link hnarrow, if_pos rfl]
  intro _ hnone oldest holdest
  rintro rfl
  have hmem : oldest ∈ inbound := List.mem_of_mem_head? holdest
  have hne := List.lookup_eq_none_iff.1 hnone oldest hmem
  simp at hne

/-- A request is decrypted. -/
theorem Linked.parsed (h : Linked native w)
    (hi : w.page.handlers[i]? = some x) {request : Option RequestKey}
    (hcareful : Careful native w (.parsed i request)) : Linked native (w.parsed native i request x) := by
  cases request with
  | none =>
    apply h.setHandler hi
    refine ⟨rfl, rfl, ?_, .inl⟩
    intro hopen
    cases hopen.1
  | some key =>
    have hplace : ∀ (j : ℕ) (y : Handler),
        (w.page.handlers.set i { x with key := some key })[j]? = some y →
          (j = i ∧ y = { x with key := some key }) ∨ (j ≠ i ∧ w.page.handlers[j]? = some y) := by
      intro j y hj
      by_cases hij : i = j
      · subst hij
        rw [List.getElem?_set_self (List.getElem?_eq_some_iff.1 hi).1] at hj
        exact .inl ⟨rfl, (Option.some.inj hj).symm⟩
      · rw [List.getElem?_set_ne hij] at hj
        exact .inr ⟨fun hji => hij hji.symm, hj⟩
    have hmem : ∀ y ∈ w.page.handlers.set i { x with key := some key },
        y = { x with key := some key } ∨ y ∈ w.page.handlers := by
      intro y hy
      exact (List.mem_or_eq_of_mem_set hy).symm
    have hxm : x ∈ w.page.handlers := List.mem_of_getElem? hi
    have htimely : ∀ y ∈ w.page.handlers.set i { x with key := some key },
        EventVerifier.createdAt y.event ≤ (w.now / 1000 + 60 : ℤ) := by
      intro y hy
      rcases hmem y hy with rfl | hy
      · exact h.timely x hxm
      · exact h.timely y hy
    have hkeyed : ∀ y ∈ w.page.handlers.set i { x with key := some key },
        y.building.isSome = true → y.key.isSome = true := by
      intro y hy hb
      rcases hmem y hy with rfl | hy
      · rfl
      · exact h.keyed y hy hb
    unfold World.parsed
    cases native with
    | false =>
      show Linked false (w.setHandler i { x with key := some key })
      exact { timely := htimely, keyed := hkeyed, linked := fun hn => Bool.noConfusion hn,
              apart := fun hn => Bool.noConfusion hn, narrow := h.narrow, replies := h.replies,
              room := h.room }
    | true =>
      obtain ⟨hreused, hcrowded⟩ := hcareful rfl
      -- no other open handler has this key
      have hother : ∀ (j : ℕ) (y : Handler), w.page.handlers[j]? = some y → j ≠ i → y.Open →
          y.key ≠ some key := by
        intro j y hj hji hopen hy
        rcases hreused j y hj hji hy with hended | hanswered
        · cases hopen.1.symm.trans hended
        · cases hopen.2.symm.trans hanswered
      refine { timely := htimely, keyed := hkeyed, linked := ?_, apart := ?_,
               narrow := length_lastOf_le _ _, replies := h.replies, room := h.room }
      · intro _ y hy hopen k hk
        obtain ⟨j, hj⟩ := List.mem_iff_getElem?.1 hy
        rcases hplace j y hj with ⟨-, rfl⟩ | ⟨hji, hold⟩
        · obtain rfl : key = k := Option.some.inj hk
          exact lookup_link_self key x.event h.narrow
        · have hne : k ≠ key := by
            rintro rfl
            exact hother j y hold hji hopen hk
          show (link w.page.inbound key x.event).lookup k = some y.event
          rw [lookup_link h.narrow, if_neg hne]
          · exact h.linked rfl y (List.mem_of_getElem? hold) hopen k hk
          · intro hfull hnone oldest holdest
            rintro rfl
            rcases hcrowded hfull hnone oldest holdest y (List.mem_of_getElem? hold) hk with he | ha
            · cases hopen.1.symm.trans he
            · cases hopen.2.symm.trans ha
      · intro _ j k y z hj hk hy hz hkey heq
        rcases hplace j y hj with ⟨rfl, rfl⟩ | ⟨hji, hold⟩
        · rcases hplace k z hk with ⟨rfl, -⟩ | ⟨hki, hold'⟩
          · rfl
          · exact absurd heq.symm (hother k z hold' hki hz)
        · rcases hplace k z hk with ⟨rfl, rfl⟩ | ⟨hki, hold'⟩
          · exact absurd heq (hother j y hold hji hy)
          · exact h.apart rfl j k y z hold hold' hy hz hkey heq

/-! ### Frames -/

theorem accepts_spec {routes : List ServedRoute} {now : ℤ} {event : JsValue} {route : ServedRoute} (h : accepts routes now event = some (route, id)) :
    isFresh now (EventVerifier.createdAt id) := by
  unfold accepts at h
  split at h
  · rename_i author tags createdAt _ _ hcreated
    simp only [Option.ite_none_right_eq_some] at h
    obtain ⟨⟨-, hfresh⟩, h⟩ := h
    split at h
    · obtain ⟨r, -, h⟩ := Option.bind_eq_some_iff.1 h
      simp only [Option.ite_none_left_eq_some, Option.ite_none_right_eq_some,
        Option.map_eq_some_iff] at h
      obtain ⟨-, hverified, id', hid, hpair⟩ := h
      obtain rfl : id' = id := congrArg Prod.snd hpair
      obtain ⟨id'', hid'', hcreated'⟩ := EventVerifier.verified event hverified
      rw [hid'', isHex_toJs] at hid
      obtain rfl := Option.some.inj hid
      rw [hcreated] at hcreated'
      injection hcreated' with hnum
      injection hnum with hq
      rwa [← hq]
    · cases h
  · cases h

omit [EventVerifier] in
theorem mem_remember (handled : List (Hex 64)) (id : Hex 64) : id ∈ remember handled id := by
  apply mem_lastOf_append_self
  unfold handledEventIdsCap
  omega

omit [EventVerifier] in
theorem mem_remember_of_mem {handled : List (Hex 64)} (id : Hex 64) {id' : Hex 64}
    (hbounded : handled.length ≤ handledEventIdsCap) (h : id' ∈ handled) :
    id' ∈ remember handled id ∨ (handledEventIdsCap ≤ handled.length ∧ handled.head? = some id') := by
  have hlen : (handled ++ [id]).length ≤ handledEventIdsCap + 1 := by
    rw [List.length_append, List.length_singleton]
    omega
  rcases lastOf_of_length_le hlen with ⟨hall, -⟩ | ⟨oldest, rest, hsplit, hrest, hlast⟩
  · left
    rw [remember, hall]
    exact List.mem_append_left _ h
  · have hmem : id' ∈ oldest :: rest := hsplit ▸ List.mem_append_left _ h
    rcases List.mem_cons.1 hmem with rfl | hmem
    · right
      have hlength := congrArg List.length hsplit
      rw [List.length_append, List.length_singleton, List.length_cons] at hlength
      refine ⟨by omega, ?_⟩
      cases handled with
      | nil => cases h
      | cons x xs => exact congrArg List.head? hsplit
    · left
      rw [remember, hlast]
      exact hmem

/-- An event goes to its handler. -/
theorem Remembers.dispatch (h : Remembers native w) {page : Page}
    (hfresh : isFresh w.now (EventVerifier.createdAt id)) (hnew : id ∉ w.page.handled)
    (hanswered : native = true → w.storage.wasAnswered w.now id = false)
    (hnumber : page.number = w.page.number) (hhandled : page.handled = remember w.page.handled id)
    (hkeeps : ∀ id', .dispatched w.page.number id' ∈ w.history →
      id' ∈ remember w.page.handled id ∨ Stale w.now id') :
    Remembers native { w with
      page, history := w.history ++ [.dispatched w.page.number id] } := by
  have hfirst : .dispatched w.page.number id ∉ w.history := by
    intro hmem
    rcases h.remembered id hmem with hmem | hstale
    · exact hnew hmem
    · exact not_stale_of_isFresh hfresh hstale
  refine { once := ?_, settled := ?_, own := ?_, pages := ?_, remembered := ?_, bounded := ?_,
           recorded := ?_ }
  · apply List.pairwise_append.2
    refine ⟨h.once, List.pairwise_singleton _ _, ?_⟩
    intro a ha b hb p id' hap hbp
    rw [List.mem_singleton.1 hb] at hbp
    injection hbp with hp hid
    exact hfirst (by rw [hp, hid, ← hap]; exact ha)
  · intro hnative
    apply List.pairwise_append.2
    refine ⟨h.settled hnative, List.pairwise_singleton _ _, ?_⟩
    intro a ha b hb p p' id' m hap hbp
    rw [List.mem_singleton.1 hb] at hbp
    injection hbp with hp hid
    rw [hap, ← hid] at ha
    have hwas := (h.recorded hnative p id m ha).wasAnswered hfresh
    cases hwas.symm.trans (hanswered hnative)
  · intro p id' m hmem
    rcases List.mem_append.1 hmem with hmem | hmem
    · exact h.own p id' m hmem
    · cases List.mem_singleton.1 hmem
  · intro e he
    show e.page ≤ page.number
    rw [hnumber]
    rcases List.mem_append.1 he with he | he
    · exact h.pages e he
    · rw [List.mem_singleton.1 he]
      exact le_rfl
  · intro id' hid'
    show id' ∈ page.handled ∨ Stale w.now id'
    rw [hhandled]
    rcases List.mem_append.1 hid' with hid' | hid'
    · exact hkeeps id' (hnumber ▸ hid')
    · injection List.mem_singleton.1 hid' with _ hid
      rw [hid]
      exact .inl (mem_remember _ _)
  · show page.handled.length ≤ handledEventIdsCap
    rw [hhandled]
    exact length_lastOf_le _ _
  · intro hnative p id' m hmem
    rcases List.mem_append.1 hmem with hmem | hmem
    · exact h.recorded hnative p id' m hmem
    · cases List.mem_singleton.1 hmem

/-- A handler that has just been given an event. -/
theorem Linked.dispatch (h : Linked native w)
    (htimely : EventVerifier.createdAt x.event ≤ (w.now / 1000 + 60 : ℤ)) (hkey : x.key = none)
    (hbuilding : x.building = none) (hnow : w'.now = w.now)
    (hhandlers : w'.page.handlers = w.page.handlers ++ [x])
    (hinbound : w'.page.inbound = w.page.inbound) (houtbox : w'.page.outbox = w.page.outbox) :
    Linked native w' := by
  have hold : ∀ (j : ℕ) (y : Handler), w'.page.handlers[j]? = some y → y.key.isSome = true →
      w.page.handlers[j]? = some y := by
    intro j y hj hy
    rw [hhandlers] at hj
    by_cases hlt : j < w.page.handlers.length
    · rwa [List.getElem?_append_left hlt] at hj
    · rw [List.getElem?_append_right (by omega), List.getElem?_singleton] at hj
      split at hj
      · rw [← Option.some.inj hj, hkey] at hy
        cases hy
      · cases hj
  refine { timely := ?_, keyed := ?_, linked := ?_, apart := ?_, narrow := hinbound ▸ h.narrow,
           replies := ?_, room := houtbox ▸ h.room }
  · intro y hy
    rw [hhandlers] at hy
    rw [hnow]
    rcases List.mem_append.1 hy with hy | hy
    · exact h.timely y hy
    · rw [List.mem_singleton.1 hy]
      exact htimely
  · intro y hy hb
    rw [hhandlers] at hy
    rcases List.mem_append.1 hy with hy | hy
    · exact h.keyed y hy hb
    · rw [List.mem_singleton.1 hy, hbuilding] at hb
      cases hb
  · intro hnative y hy hopen key hk
    obtain ⟨j, hj⟩ := List.mem_iff_getElem?.1 hy
    rw [hinbound]
    exact h.linked hnative y (List.mem_of_getElem? (hold j y hj (by rw [hk]; rfl))) hopen key hk
  · intro hnative i j y z hi hj hy hz hk heq
    exact h.apart hnative i j y z (hold i y hi hk) (hold j z hj (heq ▸ hk)) hy hz hk heq
  · rw [houtbox, hnow]
    exact h.replies

theorem frame_keeps (hr : Remembers native w) (hl : Linked native w) (event : JsValue)
    (hcareful : Careful native w (.frame event)) :
    Sound native (w.frame native event) := by
  unfold World.frame
  cases haccepts : accepts w.page.routes w.now event with
  | none => exact ⟨hr, hl⟩
  | some p =>
    obtain ⟨route, id⟩ := p
    dsimp only
    split
    · exact ⟨hr, hl⟩
    · rename_i hhas
      have hnew : id ∉ w.page.handled := by simpa using hhas
      have hfresh := accepts_spec haccepts
      -- what the memory held, it holds, or is not asked for again
      have hkeeps : ∀ id', .dispatched w.page.number id' ∈ w.history →
          id' ∈ remember w.page.handled id ∨ Stale w.now id' := by
        intro id' hid'
        rcases hr.remembered id' hid' with hmem | hstale
        · rcases mem_remember_of_mem id hr.bounded hmem with hmem | ⟨hfull, hhead⟩
          · exact .inl hmem
          · exact .inr (hcareful route id haccepts hnew hfull id' hhead)
        · exact .inr hstale
      split
      · refine ⟨?_, ?_⟩
        · exact { hr with
            remembered := hkeeps
            bounded := length_lastOf_le _ _ }
        · exact hl.same le_rfl (fun j x hj => ⟨x, hj, Handler.Same.refl x⟩) rfl
            (fun e he => ⟨e, he, rfl, rfl⟩) le_rfl
      · rename_i hanswered
        refine ⟨hr.dispatch hfresh hnew ?_ rfl rfl hkeeps,
          hl.dispatch hfresh.2 rfl rfl rfl rfl rfl rfl⟩
        intro hnative
        simp only [hnative, Bool.true_and, Bool.or_eq_true, not_or, Bool.not_eq_true] at hanswered
        exact hanswered.1

/-! ### Answers -/

omit [EventVerifier] in
theorem flush_spec (w : World) (sends : ℕ) (stores : Bool) : ∃ sent : List Reply,
    sent.length ≤ w.page.outbox.length ∧ (∀ r ∈ sent, ∃ e ∈ w.page.outbox, e.2 = r)
      ∧ (w.flushResponses sends stores).storage
        = (if stores then w.storage.markAll w.now (sent.filterMap (·.inboundEventId)) else w.storage)
      ∧ (w.flushResponses sends stores).history
        = w.history ++ sent.map fun r => .sent w.page.number r.builtFor r.inboundEventId := by
  unfold World.flushResponses
  split
  · rename_i ws _
    obtain ⟨-, -, hsent, hlen⟩ := flushEntries_spec w.now ws w.page.outbox sends
    exact ⟨_, hlen, hsent, rfl, rfl⟩
  · refine ⟨[], Nat.zero_le _, fun _ hr => absurd hr List.not_mem_nil, ?_, ?_⟩
    · cases stores <;> rfl
    · exact (List.append_nil _).symm

omit [EventVerifier] in
theorem flush_frame (w : World) (sends : ℕ) (stores : Bool) :
    (w.flushResponses sends stores).now = w.now
      ∧ (w.flushResponses sends stores).page.number = w.page.number
      ∧ (w.flushResponses sends stores).page.handled = w.page.handled := by
  unfold World.flushResponses
  split <;> exact ⟨rfl, rfl, rfl⟩

theorem Remembers.flush (hr : Remembers native w) (hl : Linked native w) (sends : ℕ) (stores : Bool)
    (hkeeps : native = true → KeepsAnswered w (w.flushResponses sends stores) stores) :
    Remembers native (w.flushResponses sends stores) := by
  obtain ⟨sent, hlen, hsent, hstorage, hhistory⟩ := flush_spec w sends stores
  obtain ⟨hnow, hnumber, hhandled⟩ := flush_frame w sends stores
  refine hr.send sent stores ?_ ?_ hnow hstorage hhistory hnumber hhandled hkeeps
  · have hroom := hl.room
    unfold outboxCap at hroom
    unfold answeredCap
    omega
  · intro r hrs
    obtain ⟨e, he, rfl⟩ := hsent r hrs
    exact hl.replies e he

/-- A response has its place in the outbox, under its own event's id. -/
theorem Linked.reply (h : Linked native w)
    (hi : w.page.handlers[i]? = some x) (hopen : native = true → x.Open)
    (hkey : x.key.isSome = true) {outbox live : List (JsString × Reply)}
    (id : JsString) (r : Reply) (hbuilt : r.builtFor = x.event) (hid : r.inboundEventId
      = if native then x.key.bind fun key => w.page.inbound.lookup key else none)
    (hlive : ∀ e ∈ live, e ∈ w.page.outbox) (hroom : live.length < outboxCap)
    (houtbox : outbox = OrderedMap.setEntries id r live)
    (hinbound : inbound = if native then w.page.inbound.filter fun e => decide (some e.1 ≠ x.key)
      else w.page.inbound) :
    Linked native { w with page := { w.page with
      handlers := w.page.handlers.set i { x with building := none, answered := true }
      inbound := inbound, outbox := outbox } } := by
  have hsame : x.Same { x with building := none, answered := true } := by
    refine ⟨rfl, rfl, ?_, ?_⟩
    · intro hopen'
      cases hopen'.2
    · intro hb
      cases hb
  have hset := h.setHandler hi hsame
  have hxm : x ∈ w.page.handlers := List.mem_of_getElem? hi
  -- handlers still open are others
  have hother : ∀ (j : ℕ) (y : Handler),
      (w.page.handlers.set i { x with building := none, answered := true })[j]? = some y → y.Open →
        j ≠ i := by
    intro j y hj hy
    rintro rfl
    rw [List.getElem?_set_self (List.getElem?_eq_some_iff.1 hi).1] at hj
    rw [← Option.some.inj hj] at hy
    cases hy.2
  refine { timely := hset.timely, keyed := hset.keyed, linked := ?_, apart := hset.apart,
           narrow := ?_, replies := ?_, room := ?_ }
  · intro hnative y hy hyo key hk
    have hlook := hset.linked hnative y hy hyo key hk
    obtain ⟨j, hj⟩ := List.mem_iff_getElem?.1 hy
    have hji := hother j y hj hyo
    have hold : w.page.handlers[j]? = some y := by
      rwa [List.getElem?_set_ne (Ne.symm hji)] at hj
    have hne : x.key ≠ some key := by
      intro hxk
      exact hji (h.apart hnative j i y x hold hi hyo (hopen hnative) (by rw [hk]; rfl)
        (by rw [hk, hxk]))
    show inbound.lookup key = some y.event
    rw [hinbound, hnative, if_pos rfl, lookup_filter_ne]
    · exact hlook
    · intro a
      exact decide_eq_true (fun heq => hne heq.symm)
  · show inbound.length ≤ handledEventIdsCap
    rw [hinbound]
    split
    · exact (List.length_filter_le _ _).trans h.narrow
    · exact h.narrow
  · intro e he
    have he' : e ∈ OrderedMap.setEntries id r live := houtbox ▸ he
    rcases mem_setEntries he' with rfl | he'
    · rw [hbuilt, hid]
      refine ⟨h.timely x hxm, ?_⟩
      cases hn : native with
      | false => rfl
      | true =>
        obtain ⟨key, hk⟩ := Option.isSome_iff_exists.1 hkey
        rw [if_pos rfl, if_pos rfl, hk]
        exact h.linked hn x hxm (hopen hn) key hk
    · exact h.replies e (hlive e he')
  · show outbox.length ≤ outboxCap
    rw [houtbox]
    exact (length_setEntries_le id r live).trans hroom

theorem built_keeps (hr : Remembers native w) (hl : Linked native w)
    (hi : w.page.handlers[i]? = some x) (hended : x.ended = false)
    (hbuilding : x.building.isSome = true) {response : Option JsString} {sends : ℕ} {stores : Bool}
    (hanswered : response.isSome = true → native = true → x.answered = false)
    (hkeeps : response.isSome = true → native = true →
      KeepsAnswered w (w.built native i response sends stores x) stores) :
    Sound native (w.built native i response sends stores x) := by
  have hsame : x.Same { x with building := none } := by
    refine ⟨rfl, rfl, ?_, ?_⟩
    · exact id
    · intro hb
      cases hb
  cases response with
  | none => exact ⟨hr.same le_rfl rfl rfl rfl rfl, hl.setHandler hi hsame⟩
  | some id =>
    have hkeeps' := hkeeps rfl
    unfold World.built at hkeeps' ⊢
    dsimp only at hkeeps' ⊢
    split
    · exact ⟨hr.same le_rfl rfl rfl rfl rfl, hl.setHandler hi hsame⟩
    · rename_i hgeneration
      rw [if_neg hgeneration] at hkeeps'
      split
      · refine ⟨hr.same le_rfl rfl rfl rfl rfl, ?_⟩
        exact hl.same le_rfl (fun _ _ hj => handlers_set hi hsame hj) rfl
          (fun e he => ⟨e, List.mem_of_mem_filter he, rfl, rfl⟩) (List.length_filter_le _ _)
      · rename_i hroom
        rw [if_neg hroom] at hkeeps'
        have hreply := hl.reply hi (fun hn => ⟨hended, hanswered rfl hn⟩)
          (hl.keyed x (List.mem_of_getElem? hi) hbuilding) id
          { expiresAt := w.now + 300000, sentOn := none
            inboundEventId := if native then x.key.bind fun key => List.lookup key w.page.inbound
              else none
            builtFor := x.event }
          rfl rfl (fun e he => List.mem_of_mem_filter he) (not_le.1 hroom) rfl rfl
        refine ⟨Remembers.flush ?_ hreply sends stores hkeeps', hreply.flush sends stores⟩
        exact hr.same le_rfl rfl rfl rfl rfl

theorem botSends_keeps (hr : Remembers native w) (hl : Linked native w)
    (hi : w.page.handlers[i]? = some x) (stores : Bool)
    (hkeeps : native = true → KeepsAnswered w (w.botSends native stores x) stores) :
    Sound native (w.botSends native stores x) := by
  unfold World.botSends at hkeeps ⊢
  split
  · rename_i ws hsocket
    rw [hsocket] at hkeeps
    refine ⟨?_, ?_⟩
    · refine hr.send [{ expiresAt := 0, sentOn := none
                        inboundEventId := if native then some x.event else none
                        builtFor := x.event }] stores ?_ ?_ rfl ?_ rfl rfl rfl hkeeps
      · show 1 ≤ answeredCap
        unfold answeredCap
        omega
      · intro r hrs
        rw [List.mem_singleton.1 hrs]
        exact ⟨hl.timely x (List.mem_of_getElem? hi), rfl⟩
      · cases native <;> cases stores <;> rfl
    · exact hl.same le_rfl (fun j y hj => ⟨y, hj, Handler.Same.refl y⟩) rfl
        (fun e he => ⟨e, he, rfl, rfl⟩) le_rfl
  · exact ⟨hr, hl⟩

theorem notice_keeps (hr : Remembers native w) (hl : Linked native w) (hn : native = false) (hi : w.page.handlers[i]? = some x) : Sound native (w.notice i x) := by
  refine ⟨?_, ?_⟩
  · refine hr.send [{ expiresAt := 0, sentOn := none, inboundEventId := none, builtFor := x.event }]
      false ?_ ?_ rfl rfl rfl rfl rfl ?_
    · show 1 ≤ answeredCap
      unfold answeredCap
      omega
    · intro r hrs
      rw [List.mem_singleton.1 hrs, hn]
      exact ⟨hl.timely x (List.mem_of_getElem? hi), rfl⟩
    · intro hnative
      cases hn.symm.trans hnative
  · exact hl.same le_rfl (fun j y hj => ⟨y, hj, Handler.Same.refl y⟩) rfl
      (fun e he => ⟨e, he, rfl, rfl⟩) le_rfl

/-! ### Steps -/

omit [EventVerifier] in
theorem atHandler_of {P : World → Prop} {test : Handler → Bool} {f : Handler → World}
    (h : P w) (hf : ∀ x, w.page.handlers[i]? = some x → test x = true → P (f x)) :
    P (w.atHandler i test f) := by
  unfold World.atHandler
  cases hi : w.page.handlers[i]? with
  | none => exact h
  | some x =>
    show P (if test x = true then f x else w)
    split
    · exact hf x hi (by assumption)
    · exact h

omit [EventVerifier] in
theorem atHandler_eq {test : Handler → Bool} {f : Handler → World}
    (hi : w.page.handlers[i]? = some x) (ht : test x = true) : w.atHandler i test f = f x := by
  unfold World.atHandler
  rw [hi]
  exact if_pos ht

theorem tearDown_keeps (hr : Remembers native w) (hl : Linked native w) (reconnectOnly : Bool) :
    Sound native (w.tearDown reconnectOnly) := by
  unfold World.tearDown
  cases reconnectOnly with
  | true =>
    refine ⟨hr.same le_rfl rfl rfl rfl rfl, ?_⟩
    exact hl.same le_rfl (fun j y hj => ⟨y, hj, Handler.Same.refl y⟩) rfl
      (fun e he => ⟨e, he, rfl, rfl⟩) le_rfl
  | false =>
    refine ⟨hr.same le_rfl rfl rfl rfl rfl, ?_⟩
    refine hl.same le_rfl ?_ rfl (fun e he => absurd he List.not_mem_nil) (Nat.zero_le _)
    intro j y' hj
    have hmap : (w.page.handlers.map fun h => { h with waiting := false })[j]? = some y' := hj
    rw [List.getElem?_map] at hmap
    obtain ⟨y, hy, rfl⟩ := Option.map_eq_some_iff.1 hmap
    exact ⟨y, hy, rfl, rfl, id, .inl⟩

theorem reload_keeps (hr : Remembers native w) (routes : List ServedRoute) :
    Sound native { w with page := .fresh (w.page.number + 1) routes } := by
  refine ⟨{ once := hr.once, settled := hr.settled, own := hr.own, pages := ?_, remembered := ?_,
            bounded := Nat.zero_le _, recorded := hr.recorded },
    { timely := ?_, keyed := ?_, linked := ?_, apart := ?_, narrow := Nat.zero_le _, replies := ?_,
      room := Nat.zero_le _ }⟩
  · intro e he
    exact (hr.pages e he).trans (Nat.le_succ _)
  · intro id hid
    have hpage : w.page.number + 1 ≤ w.page.number := hr.pages _ hid
    omega
  · intro x hx
    cases hx
  · intro x hx
    cases hx
  · intro _ x hx
    cases hx
  · intro _ i _ x _ hi
    simp [Page.fresh] at hi
  · intro e he
    cases he

theorem Sound.next (h : Sound native w) (a : Happening) (hcareful : Careful native w a) :
    Sound native (w.next native a) := by
  obtain ⟨hr, hl⟩ := h
  have hstay : ∀ (i : ℕ) (x : Handler), w.page.handlers[i]? = some x →
      ∃ y, w.page.handlers[i]? = some y ∧ y.Same x := fun i x hi => ⟨x, hi, Handler.Same.refl x⟩
  have hkept : ∀ e ∈ w.page.outbox, ∃ e' ∈ w.page.outbox,
      e.2.builtFor = e'.2.builtFor ∧ e.2.inboundEventId = e'.2.inboundEventId :=
    fun e he => ⟨e, he, rfl, rfl⟩
  have hone : ∀ {i : ℕ} {x x' : Handler}, w.page.handlers[i]? = some x → x.Same x' →
      Sound native (w.setHandler i x') :=
    fun hi hs => ⟨hr.same le_rfl rfl rfl rfl rfl, hl.setHandler hi hs⟩
  cases a with
  | tick ms =>
    have hnow : w.now ≤ w.now + ms := by omega
    exact ⟨hr.same hnow rfl rfl rfl rfl, hl.same hnow hstay rfl hkept le_rfl⟩
  | render routes =>
    exact ⟨hr.same le_rfl rfl rfl rfl rfl, hl.same le_rfl hstay rfl hkept le_rfl⟩
  | frame event => exact frame_keeps hr hl event hcareful
  | parsed i request =>
    apply atHandler_of (P := Sound native) ⟨hr, hl⟩
    intro x hi _
    refine ⟨?_, hl.parsed hi hcareful⟩
    unfold World.parsed
    cases request with
    | none => exact hr.same le_rfl rfl rfl rfl rfl
    | some key => cases native <;> exact hr.same le_rfl rfl rfl rfl rfl
  | publish i =>
    apply atHandler_of (P := Sound native) ⟨hr, hl⟩
    intro x hi ht
    simp only [Bool.and_eq_true] at ht
    exact hone hi ⟨rfl, rfl, id, fun _ => .inr ht.1.1⟩
  | built i response sends stores =>
    show Sound native (w.atHandler i _ _)
    by_cases hx : ∃ x, w.page.handlers[i]? = some x ∧ (x.building.isSome && !x.ended) = true
    · obtain ⟨x, hi, ht⟩ := hx
      have heq : w.next native (.built i response sends stores)
          = w.built native i response sends stores x := atHandler_eq hi ht
      rw [atHandler_eq hi ht]
      simp only [Bool.and_eq_true, Bool.not_eq_true'] at ht
      refine built_keeps hr hl hi ht.2 ht.1 ?_ ?_
      · intro hsome hn
        obtain ⟨id, rfl⟩ := Option.isSome_iff_exists.1 hsome
        exact (hcareful hn).1 x hi
      · intro hsome hn
        obtain ⟨id, rfl⟩ := Option.isSome_iff_exists.1 hsome
        rw [← heq]
        exact (hcareful hn).2
    · apply atHandler_of (P := Sound native) ⟨hr, hl⟩
      intro x hi ht
      exact absurd ⟨x, hi, ht⟩ hx
  | waits i waiting =>
    apply atHandler_of (P := Sound native) ⟨hr, hl⟩
    intro x hi _
    exact hone hi ⟨rfl, rfl, id, .inl⟩
  | ends i =>
    apply atHandler_of (P := Sound native) ⟨hr, hl⟩
    intro x hi _
    refine hone hi ⟨rfl, rfl, ?_, .inl⟩
    intro hopen
    cases hopen.1
  | botSends i stores =>
    show Sound native (w.atHandler i _ _)
    by_cases hx : ∃ x, w.page.handlers[i]? = some x ∧ (x.isBot && !x.ended) = true
    · obtain ⟨x, hi, ht⟩ := hx
      have heq : w.next native (.botSends i stores) = w.botSends native stores x :=
        atHandler_eq hi ht
      rw [atHandler_eq hi ht]
      refine botSends_keeps hr hl hi stores ?_
      intro hn
      rw [← heq]
      exact hcareful hn
    · apply atHandler_of (P := Sound native) ⟨hr, hl⟩
      intro x hi ht
      exact absurd ⟨x, hi, ht⟩ hx
  | connect => exact ⟨hr.same le_rfl rfl rfl rfl rfl, hl.same le_rfl hstay rfl hkept le_rfl⟩
  | opened sends stores =>
    cases hsocket : w.page.socket with
    | none =>
      have heq : w.next native (.opened sends stores) = w := by
        simp only [World.next, hsocket]
      rw [heq]
      exact ⟨hr, hl⟩
    | some socket =>
      have heq : w.next native (.opened sends stores)
          = World.flushResponses { w with page := { w.page with
            socket := some ⟨socket.number, true⟩ } } sends stores := by
        simp only [World.next, hsocket]
      have hl' : Linked native { w with page := { w.page with
          socket := some ⟨socket.number, true⟩ } } :=
        hl.same le_rfl hstay rfl hkept le_rfl
      rw [heq]
      refine ⟨Remembers.flush ?_ hl' sends stores ?_, hl'.flush sends stores⟩
      · exact hr.same le_rfl rfl rfl rfl rfl
      intro hn
      have hk := hcareful hn
      rw [heq] at hk
      exact hk
  | closed => exact ⟨hr.same le_rfl rfl rfl rfl rfl, hl.same le_rfl hstay rfl hkept le_rfl⟩
  | acknowledged response =>
    refine ⟨hr.same le_rfl rfl rfl rfl rfl, hl.same le_rfl hstay rfl ?_ (List.length_filter_le _ _)⟩
    intro e he
    exact ⟨e, List.mem_of_mem_filter he, rfl, rfl⟩
  | tearDown reconnectOnly => exact tearDown_keeps hr hl reconnectOnly
  | notice i =>
    have hn : native = false := hcareful
    apply atHandler_of (P := Sound native) ⟨hr, hl⟩
    intro x hi _
    exact notice_keeps hr hl hn hi
  | reload routes => exact reload_keeps hr routes

theorem sound_start (native : Bool) (now : ℤ) (storage : AnsweredStore)
    (routes : List ServedRoute) : Sound native (World.start now storage routes) where
  remembers :=
    { once := List.Pairwise.nil
      settled := fun _ => List.Pairwise.nil
      own := fun _ _ _ h => absurd h List.not_mem_nil
      pages := fun _ h => absurd h List.not_mem_nil
      remembered := fun _ h => absurd h List.not_mem_nil
      bounded := Nat.zero_le _
      recorded := fun _ _ _ _ h => absurd h List.not_mem_nil }
  linked :=
    { timely := fun _ h => absurd h List.not_mem_nil
      keyed := fun _ h => absurd h List.not_mem_nil
      linked := fun _ _ h => absurd h List.not_mem_nil
      apart := fun _ i _ x _ h => by simp [World.start, Page.fresh] at h
      narrow := Nat.zero_le _
      replies := fun _ h => absurd h List.not_mem_nil
      room := Nat.zero_le _ }

/-- A request is handled once and recorded by its own answer, as long as neither memory forgets what
it is still asked for. -/
theorem handled_once {now : ℤ} {storage : AnsweredStore} {routes : List ServedRoute}
    (h : Reaches (fun w a => w.next native a) (Careful native) (World.start now storage routes) w) :
    HandledOnce native w := by
  have hsound : Sound native w :=
    h.invariant (sound_start native now storage routes) fun t a ht ha => ht.next a ha
  exact hsound.remembers.toHandledOnce

end

/-! ## Runs -/

section

/-- Takes every event with an id, all of one time. -/
@[reducible] def sampleVerifier : EventVerifier where
  verifyEvent event := (isHex 64 (event.get "id")).isSome
    && decide (event.get "created_at" = .num (.finite 1000))
  createdAt _ := 1000
  verified event h := by
    simp only [Bool.and_eq_true, decide_eq_true_eq] at h
    obtain ⟨id, hid⟩ := Option.isSome_iff_exists.1 h.1
    refine ⟨id, ?_, h.2⟩
    unfold isHex at hid
    split at hid
    · rename_i s hs
      obtain ⟨hhex, hsome⟩ := Option.dite_none_right_eq_some.1 hid
      obtain rfl := Option.some.inj hsome
      exact hs
    · cases hid

attribute [local instance] sampleVerifier

def sampleRoute : ServedRoute where
  pubkey := (Hex.repeated 64 1).val
  isBot := false
  handlesBot := false
  transportKeys := []

/-- A request to the sample route, by its id. -/
def sampleRequest (id : Hex 64) : JsValue :=
  .obj [("kind", .num (.finite 24133)), ("pubkey", (Hex.repeated 64 3).toJs),
    ("created_at", .num (.finite 1000)), ("tags", .arr [.arr [.ofLit "p", (Hex.repeated 64 1).toJs]]),
    ("id", id.toJs)]

def sampleKey : RequestKey := ⟨(Hex.repeated 64 3).val, lit "1"⟩

def sampleStart : World := .start 1000000 [] [sampleRoute]

def sampleAfter (run : List Happening) : World := run.foldl (fun w a => w.next true a) sampleStart

/-- A request is answered, and arrives again at the next page. -/
def sampleServed : List Happening :=
  [.frame (sampleRequest (Hex.repeated 64 4)), .connect, .opened 0 true, .parsed 0 (some sampleKey),
    .publish 0, .built 0 (some (lit "reply")) 1 true, .reload [sampleRoute],
    .frame (sampleRequest (Hex.repeated 64 4))]

theorem handled_once_served :
    Reaches (fun w a => w.next true a) (Careful true) sampleStart (sampleAfter sampleServed)
      ∧ (sampleAfter sampleServed).history = [.dispatched 0 (Hex.repeated 64 4),
        .sent 0 (Hex.repeated 64 4) (some (Hex.repeated 64 4))]
      ∧ HandledOnce true (sampleAfter sampleServed) := by
  have h : Reaches (fun w a => w.next true a) (Careful true) sampleStart
      (sampleAfter sampleServed) := by
    have hempty : ∀ n ≤ 5, (sampleAfter (sampleServed.take n)).storage = [] := by decide +kernel
    have hhandled : ∀ n ≤ 7, (sampleAfter (sampleServed.take n)).page.handled.length ≤ 1 := by
      decide +kernel
    have hlone : (sampleAfter (sampleServed.take 3)).page.handlers.length = 1
        ∧ (sampleAfter (sampleServed.take 3)).page.inbound.length = 0 := by decide +kernel
    have hunanswered : ((sampleAfter (sampleServed.take 5)).page.handlers[0]?.all fun x =>
        !x.answered) = true := by decide +kernel
    have hframe : ∀ n ≤ 7, ∀ event, Careful true (sampleAfter (sampleServed.take n)) (.frame event) := by
      intro n hn event route id _ _ hfull
      have hlen := hhandled n hn
      unfold handledEventIdsCap at hfull
      omega
    apply Reaches.run
    intro n a ha
    have hn : n < 8 := (List.getElem?_eq_some_iff.1 ha).1
    show Careful true (sampleAfter (sampleServed.take n)) a
    interval_cases n
    · obtain rfl := Option.some.inj ha
      exact hframe 0 (by omega) _
    · obtain rfl := Option.some.inj ha
      trivial
    · obtain rfl := Option.some.inj ha
      intro _
      refine ⟨rfl, ?_⟩
      rw [hempty 2 (by omega)]
      exact fun e he => absurd he List.not_mem_nil
    · obtain rfl := Option.some.inj ha
      refine fun _ => ⟨?_, ?_⟩
      · intro j x hj hne
        have hlt := (List.getElem?_eq_some_iff.1 hj).1
        omega
      · intro hfull
        unfold handledEventIdsCap at hfull
        omega
    · obtain rfl := Option.some.inj ha
      trivial
    · obtain rfl := Option.some.inj ha
      refine fun _ => ⟨?_, rfl, ?_⟩
      · intro x hx
        simpa [hx] using hunanswered
      · rw [hempty 5 (by omega)]
        exact fun e he => absurd he List.not_mem_nil
    · obtain rfl := Option.some.inj ha
      trivial
    · obtain rfl := Option.some.inj ha
      exact hframe 7 (by omega) _
  exact ⟨h, by decide +kernel, handled_once h⟩

/-- A client uses one request id for two events, and the first is answered. -/
def sampleReused : List Happening :=
  [.frame (sampleRequest (Hex.repeated 64 4)), .frame (sampleRequest (Hex.repeated 64 5)), .connect,
    .opened 0 true, .parsed 0 (some sampleKey), .parsed 1 (some sampleKey), .publish 0,
    .built 0 (some (lit "reply")) 1 true]

theorem records_another :
    ∃ w, Reaches (fun w a => w.next true a) (fun _ _ => True) sampleStart w ∧ ¬ HandledOnce true w := by
  have h : Reaches (fun w a => w.next true a) (fun _ _ => True) sampleStart
      (sampleAfter sampleReused) := Reaches.run fun _ _ _ => trivial
  refine ⟨_, h, ?_⟩
  intro hone
  have hsent : .sent 0 (Hex.repeated 64 4) (some (Hex.repeated 64 5))
      ∈ (sampleAfter sampleReused).history := by decide +kernel
  exact absurd (hone.own 0 _ _ hsent) (by decide)

end

end SignetApp.Bunker
