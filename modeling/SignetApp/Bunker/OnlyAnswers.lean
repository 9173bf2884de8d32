import SignetApp.Bunker.HandledOnce

/-!
# Nothing is answered that was not asked

Every frame that leaves a page, from the outbox, from a bot's handler or at a tear-down, is built for an event that
this page had handed to a handler before. None of the bounded memories has to last for it.
-/

namespace SignetApp.Bunker

open SignetApp.Js

attribute [local irreducible] handledEventIdsCap

/-- The events that something on the page may still answer. -/
def Page.answerable (page : Page) : List (Hex 64) :=
  page.handlers.map Handler.event ++ page.outbox.map fun e => e.2.builtFor

/-- What may still be answered, and what was, had been asked of that page. -/
structure Grounded (w : World) : Prop where
  page : ∀ id ∈ w.page.answerable, .dispatched w.page.number id ∈ w.history
  order : ∀ before page id recorded after, w.history = before ++ .sent page id recorded :: after →
    .dispatched page id ∈ before

section

variable {w w' : World} {page : Page} {x x' : Handler} {i : ℕ}

theorem answerable_of_mem (hi : w.page.handlers[i]? = some x) : x.event ∈ w.page.answerable :=
  List.mem_append_left _ (List.mem_map_of_mem (List.mem_of_getElem? hi))

theorem answerable_subset (hhandlers : ∀ x' ∈ page.handlers, ∃ x ∈ w.page.handlers, x.event = x'.event)
    (houtbox : ∀ e' ∈ page.outbox, ∃ e ∈ w.page.outbox, e.2.builtFor = e'.2.builtFor) :
    ∀ id ∈ page.answerable, id ∈ w.page.answerable := by
  intro id hid
  obtain hid | hid := List.mem_append.1 hid
  · obtain ⟨x', hx', rfl⟩ := List.mem_map.1 hid
    exact List.mem_append_left _ (List.mem_map.2 (hhandlers x' hx'))
  · obtain ⟨e', he', rfl⟩ := List.mem_map.1 hid
    exact List.mem_append_right _ (List.mem_map.2 (houtbox e' he'))

theorem events_set (hi : w.page.handlers[i]? = some x) (hevent : x'.event = x.event) :
    ∀ y ∈ w.page.handlers.set i x', ∃ z ∈ w.page.handlers, z.event = y.event := by
  intro y hy
  obtain hold | rfl := List.mem_or_eq_of_mem_set hy
  · exact ⟨y, hold, rfl⟩
  · exact ⟨x, List.mem_of_getElem? hi, hevent.symm⟩

namespace Grounded

/-- **A step**: it appends to the history, and what it sends was answerable. -/
theorem step (h : Grounded w) (new : List Entry) (hhistory : w'.history = w.history ++ new)
    (hnumber : w'.page.number = w.page.number)
    (hpage : ∀ id ∈ w'.page.answerable, id ∈ w.page.answerable ∨ .dispatched w.page.number id ∈ new)
    (hnew : ∀ page id recorded, .sent page id recorded ∈ new → page = w.page.number ∧ id ∈ w.page.answerable) :
    Grounded w' where
  page id hid := by
    rw [hhistory, hnumber, List.mem_append]
    exact (hpage id hid).imp_left (h.page id)
  order before page id recorded after heq := by
    have hsent : .sent page id recorded ∈ new → .dispatched page id ∈ w.history := by
      intro hmem
      obtain ⟨rfl, hid⟩ := hnew page id recorded hmem
      exact h.page id hid
    rw [hhistory, List.append_eq_append_iff] at heq
    obtain ⟨middle, rfl, rfl⟩ | ⟨rest, hold, hrest⟩ := heq
    · exact List.mem_append_left _ (hsent (List.mem_append_right _ List.mem_cons_self))
    · cases rest with
      | nil =>
        rw [List.append_nil] at hold
        rw [List.nil_append] at hrest
        rw [← hold]
        exact hsent (hrest ▸ List.mem_cons_self)
      | cons e rest =>
        cases hrest
        exact h.order _ _ _ _ _ hold

theorem quiet (h : Grounded w) (hhistory : w'.history = w.history) (hnumber : w'.page.number = w.page.number)
    (hpage : ∀ id ∈ w'.page.answerable, id ∈ w.page.answerable) : Grounded w' :=
  h.step [] (hhistory.trans (List.append_nil _).symm) hnumber (fun id hid => .inl (hpage id hid))
    fun _ _ _ hmem => absurd hmem List.not_mem_nil

theorem setHandler (h : Grounded w) (hi : w.page.handlers[i]? = some x) (hevent : x'.event = x.event) :
    Grounded (w.setHandler i x') :=
  h.quiet rfl rfl (answerable_subset (events_set hi hevent) fun e he => ⟨e, he, rfl⟩)

/-- What a handler sends by itself. -/
theorem send (h : Grounded w) (hi : w.page.handlers[i]? = some x) (recorded : Option (Hex 64))
    (hhistory : w'.history = w.history ++ [.sent w.page.number x.event recorded])
    (hnumber : w'.page.number = w.page.number) (hpage : w'.page.answerable = w.page.answerable) : Grounded w' := by
  refine h.step _ hhistory hnumber (fun id hid => .inl (hpage ▸ hid)) ?_
  intro page id recorded' hmem
  cases List.mem_singleton.1 hmem
  exact ⟨rfl, answerable_of_mem hi⟩

theorem flush (h : Grounded w) (sends : ℕ) (stores : Bool) : Grounded (w.flushResponses sends stores) := by
  unfold World.flushResponses
  split
  · next ws _ =>
    obtain ⟨hkept, -, hsent, -⟩ := flushEntries_spec w.now ws w.page.outbox sends
    refine h.step _ rfl rfl (fun id hid => .inl (answerable_subset ?_ ?_ id hid)) ?_
    · exact fun x hx => ⟨x, hx, rfl⟩
    · intro e he
      obtain ⟨e', he', heq, -⟩ := hkept e he
      exact ⟨e', he', heq.symm⟩
    · intro page id recorded hmem
      obtain ⟨r, hr, hentry⟩ := List.mem_map.1 hmem
      cases hentry
      obtain ⟨e, he, rfl⟩ := hsent r hr
      exact ⟨rfl, List.mem_append_right _ (List.mem_map.2 ⟨e, he, rfl⟩)⟩
  · exact h.quiet rfl rfl (answerable_subset (fun x hx => ⟨x, hx, rfl⟩) fun e he => ⟨e, List.mem_of_mem_filter he, rfl⟩)

theorem built {native : Bool} (h : Grounded w) (hi : w.page.handlers[i]? = some x) (response : Option JsString)
    (sends : ℕ) (stores : Bool) : Grounded (w.built native i response sends stores x) := by
  unfold World.built
  split
  · exact h.setHandler hi rfl
  · dsimp only
    split
    · exact h.setHandler hi rfl
    · split
      · exact h.quiet rfl rfl (answerable_subset (events_set hi rfl) fun e he => ⟨e, List.mem_of_mem_filter he, rfl⟩)
      · refine flush ?_ sends stores
        refine h.quiet rfl rfl fun id hid => ?_
        obtain hid | hid := List.mem_append.1 hid
        · obtain ⟨y, hy, rfl⟩ := List.mem_map.1 hid
          exact List.mem_append_left _ (List.mem_map.2 (events_set hi (by rfl) y hy))
        · obtain ⟨e, he, rfl⟩ := List.mem_map.1 hid
          obtain rfl | he := mem_setEntries he
          · exact answerable_of_mem hi
          · exact List.mem_append_right _ (List.mem_map.2 ⟨e, List.mem_of_mem_filter he, rfl⟩)

variable [EventVerifier] {native : Bool}

theorem frame (h : Grounded w) (event : JsValue) : Grounded (w.frame native event) := by
  unfold World.frame
  split
  · exact h
  · next id _ =>
    split
    · exact h
    · dsimp only
      split
      · exact h.quiet rfl rfl fun _ hid => hid
      · refine h.step [.dispatched w.page.number id] rfl rfl (fun other hother => ?_) ?_
        · simp only [Page.answerable, List.map_append, List.mem_append, List.map_cons, List.map_nil,
            List.mem_singleton] at hother ⊢
          obtain (hother | rfl) | hother := hother
          · exact .inl (.inl hother)
          · exact .inr rfl
          · exact .inl (.inr hother)
        · intro page other recorded hmem
          cases List.mem_singleton.1 hmem

theorem next (h : Grounded w) (a : Happening) : Grounded (w.next native a) := by
  cases a with
  | tick | render | connect | closed => exact h.quiet rfl rfl fun _ hid => hid
  | frame event => exact h.frame event
  | parsed i request =>
    refine atHandler_of h fun x hi _ => ?_
    unfold World.parsed
    split
    · exact h.setHandler hi rfl
    · dsimp only
      split
      · exact h.quiet rfl rfl (answerable_subset (events_set hi rfl) fun e he => ⟨e, he, rfl⟩)
      · exact h.setHandler hi rfl
  | publish | waits | ends => exact atHandler_of h fun x hi _ => h.setHandler hi rfl
  | built i response sends stores => exact atHandler_of h fun x hi _ => h.built hi response sends stores
  | botSends i stores =>
    refine atHandler_of h fun x hi _ => ?_
    unfold World.botSends
    split
    · exact h.send hi _ rfl rfl rfl
    · exact h
  | opened sends stores =>
    simp only [World.next]
    split
    · refine flush ?_ sends stores
      exact h.quiet rfl rfl fun _ hid => hid
    · exact h
  | acknowledged response =>
    exact h.quiet rfl rfl (answerable_subset (fun x hx => ⟨x, hx, rfl⟩) fun e he => ⟨e, List.mem_of_mem_filter he, rfl⟩)
  | tearDown reconnectOnly =>
    cases reconnectOnly with
    | true => exact h.quiet rfl rfl fun _ hid => hid
    | false =>
      refine h.quiet rfl rfl (answerable_subset (fun y hy => ?_) fun _ he => absurd he List.not_mem_nil)
      obtain ⟨x, hx, rfl⟩ := List.mem_map.1 hy
      exact ⟨x, hx, rfl⟩
  | notice i => exact atHandler_of h fun x hi _ => h.send hi none rfl rfl rfl
  | reload routes => exact ⟨fun _ hid => absurd hid List.not_mem_nil, h.order⟩

end Grounded

end

end SignetApp.Bunker
