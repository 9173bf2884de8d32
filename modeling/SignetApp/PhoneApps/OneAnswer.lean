import SignetApp.PhoneApps.Server
import SignetApp.Sync.Wire

/-!
# One answer, by the right key

Every id is in one place: waiting, being executed or answered; and it is used for once. A step that goes by what is up
to date takes an id from its place before it puts it into the next one. A button goes by the queue of the last render,
and neither an approval nor the gate's answer asks whether the key is still to be used.
-/

namespace SignetApp.PhoneApps

open SignetApp.Js
open SignetApp.Migration (Npubs)

/-! ## Lists without repetition -/

section

variable {α : Type} {a : α} {hand xs ys zs : List α}

theorem nodup_put_last (h : (a :: hand ++ (xs ++ ys)).Nodup) : (hand ++ ((xs ++ [a]) ++ ys)).Nodup := by
  have heq : hand ++ ((xs ++ [a]) ++ ys) = (hand ++ xs) ++ a :: ys := by simp
  rw [heq, List.nodup_middle, List.append_assoc]
  exact h

theorem nodup_put_second (h : (a :: hand ++ (xs ++ (ys ++ zs))).Nodup) :
    (hand ++ (xs ++ (a :: ys ++ zs))).Nodup := by
  have heq : hand ++ (xs ++ (a :: ys ++ zs)) = (hand ++ xs) ++ a :: (ys ++ zs) := by simp
  rw [heq, List.nodup_middle, List.append_assoc]
  exact h

theorem nodup_put_third (h : (a :: hand ++ (xs ++ (ys ++ zs))).Nodup) : (hand ++ (xs ++ (ys ++ a :: zs))).Nodup := by
  have heq : hand ++ (xs ++ (ys ++ a :: zs)) = (hand ++ (xs ++ ys)) ++ a :: zs := by simp
  rw [heq, List.nodup_middle, List.append_assoc, List.append_assoc]
  exact h

theorem nodup_put_all (h : (xs ++ (ys ++ zs)).Nodup) : (ys ++ (xs ++ zs)).Nodup := by
  have hperm : (ys ++ (xs ++ zs)).Perm (xs ++ (ys ++ zs)) := by
    rw [← List.append_assoc, ← List.append_assoc]
    exact List.perm_append_comm.append_right zs
  exact hperm.nodup_iff.2 h

theorem nodup_take_second {rest : List α} (h : (xs ++ (ys ++ zs)).Nodup) (hperm : (a :: rest).Perm ys) :
    (a :: (xs ++ (rest ++ zs))).Nodup := by
  have hmiddle : (xs ++ (a :: rest ++ zs)).Perm (xs ++ (ys ++ zs)) := (hperm.append_right zs).append_left xs
  rw [← List.nodup_middle]
  exact hmiddle.nodup_iff.2 h

theorem nodup_of_subperm (h : (ys ++ zs).Nodup) (hsub : (hand ++ xs).Subperm ys) : (hand ++ (xs ++ zs)).Nodup := by
  obtain ⟨l, hperm, hl⟩ := hsub
  rw [← List.append_assoc, ← (hperm.append_right zs).nodup_iff]
  exact h.sublist (hl.append_right zs)

end

/-! ## Where an id is -/

def World.waitingIds (w : World) : List JsString := w.queue.map fun item => item.raw.id

def World.taskIds (w : World) : List JsString := w.tasks.map fun task => task.raw.id

/-- The ids that the gate has been asked about. -/
def World.gatingIds (w : World) : List JsString :=
  (w.tasks.filter fun task => task.stage = .gating).map fun task => task.raw.id

def World.servedIds (w : World) : List JsString := w.served.map Served.id

def Waiting.tag (item : Waiting) : ℕ × JsString := (item.handle, item.raw.id)

/-- The handle and the id of everything that waits or was rendered. -/
def World.tags (w : World) : List (ℕ × JsString) :=
  w.shown.map Waiting.tag ++ (w.held.map Waiting.tag ++ w.queue.map Waiting.tag)

/-- The ids in hand are taken from their places, and no other id is in two. -/
structure Holds (hand : List JsString) (w : World) : Prop where
  placed : (hand ++ (w.waitingIds ++ (w.taskIds ++ w.answers))).Nodup
  servable : (hand ++ (w.waitingIds ++ (w.gatingIds ++ w.servedIds))).Nodup
  placedSeen : ∀ id ∈ hand ++ (w.waitingIds ++ (w.taskIds ++ w.answers)), id ∈ w.seen
  servedSeen : ∀ id ∈ w.servedIds, id ∈ w.seen
  tagged : ∀ tag ∈ w.tags, tag.1 < w.nextHandle ∧ tag.2 ∈ w.seen
  paired : ∀ tag ∈ w.tags, ∀ other ∈ w.tags, tag.1 = other.1 ↔ tag.2 = other.2
  heldOnce : (w.held.map fun item => item.raw.id).Nodup
  withdrawn : ∀ id ∈ w.withdrawn, id ∈ w.seen ∧ id ∉ w.waitingIds
  gating : ∀ task ∈ w.tasks, task.stage = .gating →
    task.withdrawn = false ∧ ∀ named ∈ task.parsed.currentUser, task.key = named
  right : ∀ s ∈ w.served, s.IsRight

section

variable {hand : List JsString} {w : World} {raw : NativeNip55Request} {parsed : ParsedNip55} {key : JsString}
  {approved : Bool}

/-! ## Answers -/

variable {id : JsString}

theorem Holds.answer (h : Holds (id :: hand) w) : Holds hand (w.answer id) where
  placed := nodup_put_third h.placed
  servable := h.servable.of_cons
  placedSeen other hother := h.placedSeen other (by
    simp only [World.answer, World.waitingIds, World.taskIds, List.mem_append, List.mem_cons] at hother ⊢
    tauto)
  servedSeen := h.servedSeen
  tagged := h.tagged
  paired := h.paired
  heldOnce := h.heldOnce
  withdrawn := h.withdrawn
  gating := h.gating
  right := h.right

/-- A use that is right, of an id in hand. -/
theorem Holds.serve {withdrawn gateAllowed : Bool} (h : Holds (raw.id :: hand) w)
    (hnamed : ∀ named ∈ parsed.currentUser, key = named)
    (hconsent : approved = true ∨ AllowedAlways parsed (grantOf w.grants raw) key ∨ gateAllowed = true)
    (howned : w.owns key = true) (hunlocked : w.locked = false) (hunexpired : w.expired = false)
    (hstanding : withdrawn = false) : Holds hand (w.serve raw parsed key withdrawn approved gateAllowed) := by
  have hright : Served.IsRight
      { id := raw.id, parsed, key, owned := w.owns key, locked := w.locked, expired := w.expired, withdrawn, approved
        gateAllowed, stored := grantOf w.grants raw } :=
    ⟨howned, hnamed, hconsent, hunlocked, hunexpired, hstanding⟩
  have hseen : raw.id ∈ w.seen := h.placedSeen _ List.mem_cons_self
  have hserved : ∀ id ∈ raw.id :: w.servedIds, id ∈ w.seen := by
    intro id hid
    rcases List.mem_cons.1 hid with rfl | hold
    · exact hseen
    · exact h.servedSeen id hold
  have hrights : ∀ s ∈ _ :: w.served, Served.IsRight s := List.forall_mem_cons.2 ⟨hright, h.right⟩
  unfold World.serve
  dsimp only
  split
  · exact ⟨nodup_put_third h.placed, nodup_put_third h.servable,
      fun id hid => h.placedSeen id (by
        simp only [World.waitingIds, World.taskIds, List.mem_append, List.mem_cons] at hid ⊢
        tauto),
      hserved, h.tagged, h.paired, h.heldOnce, h.withdrawn, h.gating, hrights⟩
  · refine ⟨nodup_put_second h.placed, ?_, fun id hid => h.placedSeen id (by
        simp only [World.waitingIds, World.taskIds, List.map_cons, List.mem_append, List.mem_cons] at hid ⊢
        tauto),
      hserved, h.tagged, h.paired, h.heldOnce, h.withdrawn, ?_, hrights⟩
    · exact nodup_put_third h.servable
    · intro task htask hgating
      rcases List.mem_cons.1 htask with rfl | hold
      · cases hgating
      · exact h.gating task hold hgating

/-- **An execution is right** where its key was named, nothing is locked or past, and there is consent or a gate. -/
theorem Holds.execute (h : Holds (raw.id :: hand) w) (hstanding : raw.id ∉ w.withdrawn)
    (hnamed : ∀ named ∈ parsed.currentUser, key = named) (hunlocked : w.locked = false) (hunexpired : w.expired = false)
    (hconsent : approved = true ∨ AllowedAlways parsed (grantOf w.grants raw) key ∨
      w.gated = true ∧ parsed.method ≠ .getPublicKey) : Holds hand (w.execute raw parsed key approved) := by
  have hstanding : w.withdrawn.contains raw.id = false := by
    rw [← Bool.not_eq_true, List.contains_iff_mem]
    exact hstanding
  unfold World.execute
  dsimp only
  split
  · exact h.answer
  rename_i howned
  have howned : w.owns key = true := by simpa using howned
  split
  · split
    · exact h.answer
    · refine ⟨nodup_put_second h.placed, nodup_put_second h.servable, fun id hid => h.placedSeen id (by
          simp only [World.waitingIds, World.taskIds, List.map_cons, List.mem_append, List.mem_cons] at hid ⊢
          tauto),
        h.servedSeen, h.tagged, h.paired, h.heldOnce, h.withdrawn, fun task htask hgating => ?_, h.right⟩
      rcases List.mem_cons.1 htask with rfl | hold
      · exact ⟨hstanding, hnamed⟩
      · exact h.gating task hold hgating
  · rename_i hungated
    refine h.serve hnamed ?_ howned hunlocked hunexpired hstanding
    rcases hconsent with happroved | hallowed | ⟨hgated, hmethod⟩
    · exact .inl happroved
    · exact .inr (.inl hallowed)
    · exact absurd (by simp [hgated, hmethod]) hungated

/-- What an execution leaves as it is. -/
structure Frame (w u : World) : Prop where
  locked : u.locked = w.locked
  expired : u.expired = w.expired
  gated : u.gated = w.gated
  grants : u.grants = w.grants
  withdrawn : u.withdrawn = w.withdrawn

theorem execute_frame : Frame w (w.execute raw parsed key approved) := by
  unfold World.execute World.serve World.answer
  dsimp only
  split
  · exact ⟨rfl, rfl, rfl, rfl, rfl⟩
  split
  · split <;> exact ⟨rfl, rfl, rfl, rfl, rfl⟩
  · split <;> exact ⟨rfl, rfl, rfl, rfl, rfl⟩

/-! ## Requests -/

theorem mem_tags {tag : ℕ × JsString} :
    tag ∈ w.tags ↔ tag ∈ w.shown.map Waiting.tag ∨ tag ∈ w.held.map Waiting.tag ∨ tag ∈ w.queue.map Waiting.tag := by
  unfold World.tags
  simp only [List.mem_append]

variable {pubkey : Option JsString}

/-- A new request takes its turn. -/
theorem Holds.push (h : Holds (raw.id :: hand) w) (hstanding : raw.id ∉ w.withdrawn)
    (hfresh : ∀ tag ∈ w.tags, tag.2 ≠ raw.id) : Holds hand (w.push raw parsed pubkey) := by
  have hwaiting : (w.push raw parsed pubkey).waitingIds = w.waitingIds ++ [raw.id] := by
    unfold World.push World.waitingIds
    rw [List.map_append]
    rfl
  have htags : ∀ tag ∈ (w.push raw parsed pubkey).tags, tag ∈ w.tags ∨ tag = (w.nextHandle, raw.id) := by
    intro tag htag
    rw [mem_tags] at htag ⊢
    unfold World.push at htag
    simp only [List.map_append, List.mem_append, List.map_cons, List.map_nil, List.mem_singleton] at htag
    rcases htag with hshown | hheld | hqueue | rfl
    · exact .inl (.inl hshown)
    · exact .inl (.inr (.inl hheld))
    · exact .inl (.inr (.inr hqueue))
    · exact .inr rfl
  refine ⟨?_, ?_, fun id hid => h.placedSeen id ?_, h.servedSeen, fun tag htag => ?_, fun tag htag other hother => ?_,
    h.heldOnce, fun id hid => ?_, h.gating, h.right⟩
  · rw [hwaiting]
    exact nodup_put_last h.placed
  · rw [hwaiting]
    exact nodup_put_last h.servable
  · rw [hwaiting] at hid
    simp only [World.push, World.taskIds, List.mem_append, List.mem_cons, List.not_mem_nil, or_false] at hid ⊢
    tauto
  · rcases htags tag htag with hold | rfl
    · exact ⟨Nat.lt_succ_of_lt (h.tagged tag hold).1, (h.tagged tag hold).2⟩
    · exact ⟨Nat.lt_succ_self _, h.placedSeen _ List.mem_cons_self⟩
  · rcases htags tag htag with hold | rfl <;> rcases htags other hother with hold' | rfl
    · exact h.paired tag hold other hold'
    · -- a handle and an id that are new
      exact ⟨fun heq => absurd heq (Nat.ne_of_lt (h.tagged tag hold).1), fun heq => absurd heq (hfresh tag hold)⟩
    · exact ⟨fun heq => absurd heq.symm (Nat.ne_of_lt (h.tagged other hold').1),
        fun heq => absurd heq.symm (hfresh other hold')⟩
    · exact ⟨fun _ => rfl, fun _ => rfl⟩
  · obtain ⟨hseen, hqueue⟩ := h.withdrawn id hid
    refine ⟨hseen, ?_⟩
    rw [hwaiting, List.mem_append, List.mem_singleton, not_or]
    exact ⟨hqueue, fun heq => hstanding (heq ▸ hid)⟩

theorem Holds.seen_of_waiting (h : Holds hand w) (hid : id ∈ w.waitingIds) : id ∈ w.seen :=
  h.placedSeen id (List.mem_append_right _ (List.mem_append_left _ hid))

theorem Holds.waiting_nodup (h : Holds hand w) : w.waitingIds.Nodup := h.placed.of_append_right.of_append_left

theorem Holds.seen_of_task (h : Holds hand w) (hid : id ∈ w.taskIds) : id ∈ w.seen :=
  h.placedSeen id (List.mem_append_right _ (List.mem_append_right _ (List.mem_append_left _ hid)))

theorem Holds.see {locked : Bool} (h : Holds [] w) (hnew : raw.id ∉ w.seen) :
    Holds [raw.id] { w with seen := raw.id :: w.seen, locked } := by
  have hgating : ∀ id ∈ w.gatingIds, id ∈ w.taskIds := by
    intro id hid
    obtain ⟨task, htask, rfl⟩ := List.mem_map.1 hid
    exact List.mem_map_of_mem (List.mem_of_mem_filter htask)
  refine ⟨List.nodup_cons.2 ⟨fun hmem => hnew (h.placedSeen _ hmem), h.placed⟩,
    List.nodup_cons.2 ⟨fun hmem => ?_, h.servable⟩, fun id hid => ?_,
    fun id hid => List.mem_cons_of_mem _ (h.servedSeen id hid),
    fun tag htag => ⟨(h.tagged tag htag).1, List.mem_cons_of_mem _ (h.tagged tag htag).2⟩, h.paired, h.heldOnce,
    fun id hid => ⟨List.mem_cons_of_mem _ (h.withdrawn id hid).1, (h.withdrawn id hid).2⟩, h.gating, h.right⟩
  · have hmem : raw.id ∈ w.waitingIds ++ (w.gatingIds ++ w.servedIds) := hmem
    simp only [List.mem_append] at hmem
    rcases hmem with hqueue | htask | hserved
    · exact hnew (h.seen_of_waiting hqueue)
    · exact hnew (h.seen_of_task (hgating _ htask))
    · exact hnew (h.servedSeen _ hserved)
  · rcases List.mem_cons.1 hid with rfl | hold
    · exact List.mem_cons_self
    · exact List.mem_cons_of_mem _ (h.placedSeen id hold)

theorem Holds.handleRequest [Numerals] [Npubs] (h : Holds [] w)
    (hgrants : ∀ g ∈ grantOf w.shownGrants raw, g.allowAlways = true → grantOf w.grants raw = some g) : Holds [] (w.handleRequest raw) := by
  unfold World.handleRequest
  split
  · exact h
  rename_i hnew
  have hnew : raw.id ∉ w.seen := fun hmem => hnew (List.contains_iff_mem.2 hmem)
  have hstanding : raw.id ∉ w.withdrawn := fun hmem => hnew (h.withdrawn _ hmem).1
  have hsee : Holds [raw.id] { w with seen := raw.id :: w.seen, locked := w.locked || w.expired } := h.see hnew
  have hfresh : ∀ tag ∈ World.tags { w with seen := raw.id :: w.seen, locked := w.locked || w.expired },
      tag.2 ≠ raw.id := fun tag htag heq => hnew (heq ▸ (h.tagged tag htag).2)
  dsimp only
  split
  · exact hsee.answer
  · rename_i parsed hparsed
    split
    · split
      · exact hsee.push hstanding hfresh
      · exact hsee.answer
    · exact hsee.answer
    · rename_i key hforward
      obtain ⟨howned, hnamed, hconsent⟩ := planFor_forward hforward
      have hopen : (w.locked || w.expired) = false := by
        rw [← Bool.not_eq_true]
        intro hlocked
        rw [if_pos hlocked] at howned
        cases howned
      obtain ⟨-, hunexpired⟩ := Bool.or_eq_false_iff.1 hopen
      refine hsee.execute hstanding hnamed hopen hunexpired (.inr (hconsent.imp_left fun hallowed => ?_))
      obtain ⟨⟨g, hg, halways, hdenied, hkey⟩, hpermission⟩ := hallowed
      exact ⟨⟨g, hgrants g hg halways, halways, hdenied, hkey⟩, hpermission⟩
    · exact hsee.push hstanding hfresh

/-! ## The queue -/

/-- Nothing but the queue and what is rendered of it. -/
structure SameElsewhere (w u : World) : Prop where
  tasks : u.tasks = w.tasks
  served : u.served = w.served
  answers : u.answers = w.answers
  seen : u.seen = w.seen
  withdrawn : u.withdrawn = w.withdrawn
  nextHandle : u.nextHandle = w.nextHandle

variable {u : World}

/-- Ids leave the queue, for the hand or for good. -/
theorem Holds.requeue (h : Holds [] w) (helse : SameElsewhere w u)
    (hids : (hand ++ u.waitingIds).Subperm w.waitingIds) (htags : u.tags ⊆ w.tags)
    (hheld : (u.held.map fun item => item.raw.id).Nodup) : Holds hand u := by
  obtain ⟨htasks, hserved, hanswers, hseen, hwithdrawn, hnext⟩ := helse
  have htaskIds : u.taskIds = w.taskIds := by unfold World.taskIds; rw [htasks]
  have hgatingIds : u.gatingIds = w.gatingIds := by unfold World.gatingIds; rw [htasks]
  have hservedIds : u.servedIds = w.servedIds := by unfold World.servedIds; rw [hserved]
  have hwaiting : ∀ id ∈ hand ++ u.waitingIds, id ∈ w.waitingIds := hids.subset
  constructor
  · rw [htaskIds, hanswers]
    exact nodup_of_subperm h.placed hids
  · rw [hgatingIds, hservedIds]
    exact nodup_of_subperm h.servable hids
  · intro id hid
    rw [htaskIds, hanswers, ← List.append_assoc] at hid
    rw [hseen]
    rcases List.mem_append.1 hid with hmoved | hrest
    · exact h.seen_of_waiting (hwaiting id hmoved)
    · exact h.placedSeen id (List.mem_append_right [] (List.mem_append_right _ hrest))
  · rw [hservedIds, hseen]
    exact h.servedSeen
  · rw [hnext, hseen]
    exact fun tag htag => h.tagged tag (htags htag)
  · exact fun tag htag other hother => h.paired tag (htags htag) other (htags hother)
  · exact hheld
  · intro id hid
    rw [hwithdrawn] at hid
    rw [hseen]
    obtain ⟨hin, hqueue⟩ := h.withdrawn id hid
    exact ⟨hin, fun hmem => hqueue (hwaiting id (List.mem_append_right _ hmem))⟩
  · rw [htasks]
    exact h.gating
  · rw [hserved]
    exact h.right

theorem tags_filter (p : Waiting → Bool) : World.tags { w with queue := w.queue.filter p } ⊆ w.tags := by
  intro tag htag
  rw [mem_tags] at htag ⊢
  rcases htag with hshown | hheld | hqueue
  · exact .inl hshown
  · exact .inr (.inl hheld)
  · exact .inr (.inr ((List.filter_sublist.map _).subset hqueue))

theorem Holds.withdraw (h : Holds [] w) (id : JsString) : Holds [] (w.withdraw id) := by
  have hsub : (w.withdraw id).waitingIds.Sublist w.waitingIds := List.filter_sublist.map _
  have hdropped : Holds [] { w with queue := w.queue.filter fun item => item.raw.id ≠ id } :=
    h.requeue ⟨rfl, rfl, rfl, rfl, rfl, rfl⟩ hsub.subperm (tags_filter _) h.heldOnce
  have hout : id ∉ (w.withdraw id).waitingIds := by
    intro hmem
    obtain ⟨item, hitem, heq⟩ := List.mem_map.1 hmem
    exact of_decide_eq_true (List.mem_filter.1 hitem).2 heq
  refine ⟨hdropped.placed, hdropped.servable, fun other hother => List.mem_cons_of_mem _ (hdropped.placedSeen other hother),
    fun other hother => List.mem_cons_of_mem _ (hdropped.servedSeen other hother),
    fun tag htag => ⟨(hdropped.tagged tag htag).1, List.mem_cons_of_mem _ (hdropped.tagged tag htag).2⟩,
    hdropped.paired, hdropped.heldOnce, fun other hother => ?_, hdropped.gating, hdropped.right⟩
  rcases List.mem_cons.1 hother with rfl | hold
  · exact ⟨List.mem_cons_self, hout⟩
  · obtain ⟨hseen, hqueue⟩ := hdropped.withdrawn other hold
    exact ⟨List.mem_cons_of_mem _ hseen, hqueue⟩

/-! ## Renders -/

theorem Holds.rendered {props : Props} (h : Holds [] w) : Holds [] (w.render props false) := by
  refine h.requeue ⟨rfl, rfl, rfl, rfl, rfl, rfl⟩ (List.Subperm.refl _) (fun tag htag => ?_) ?_
  · rw [mem_tags] at htag ⊢
    exact .inr (.inr (or_self_iff.1 (htag.imp_right or_self_iff.1)))
  · exact h.waiting_nodup

variable {item : Waiting} {plan : Nip55Plan}

theorem keyItem_tag : (w.keyItem item).tag = item.tag := by
  unfold World.keyItem
  split <;> rfl

theorem settleItem_frame : Frame w (w.settleItem plan item) := by
  unfold World.settleItem
  split
  · exact execute_frame
  · exact ⟨rfl, rfl, rfl, rfl, rfl⟩

theorem Holds.settleItem (h : Holds (item.raw.id :: hand) u) (hstanding : item.raw.id ∉ u.withdrawn)
    (hunlocked : u.locked = false) (hunexpired : u.expired = false) (hgated : u.gated = w.gated)
    (hgrants : u.grants = w.shownGrants) : Holds hand (u.settleItem (w.planOf item) item) := by
  unfold World.settleItem
  split
  · rename_i key hplan
    obtain ⟨-, hnamed, hconsent⟩ := planFor_forward hplan
    refine h.execute hstanding hnamed hunlocked hunexpired (.inr ?_)
    rw [hgrants, hgated]
    exact hconsent
  · exact h.answer

theorem Holds.settle {items : List Waiting} (h : Holds (items.map fun item => item.raw.id) u)
    (hstanding : ∀ item ∈ items, item.raw.id ∉ u.withdrawn) (hunlocked : u.locked = false)
    (hunexpired : u.expired = false) (hgated : u.gated = w.gated) (hgrants : u.grants = w.shownGrants) :
    Holds [] (items.foldl (fun u item => u.settleItem (w.planOf item) item) u) := by
  induction items generalizing u with
  | nil => exact h
  | cons item items ih =>
    have hframe : Frame u (u.settleItem (w.planOf item) item) := settleItem_frame
    obtain ⟨hnot, hrest⟩ := List.forall_mem_cons.1 hstanding
    refine ih (h.settleItem hnot hunlocked hunexpired hgated hgrants) ?_ ?_ ?_ ?_ ?_
    · rw [hframe.withdrawn]
      exact hrest
    · rw [hframe.locked, hunlocked]
    · rw [hframe.expired, hunexpired]
    · rw [hframe.gated, hgated]
    · rw [hframe.grants, hgrants]

theorem settled_perm : ((w.queue.filter w.isSettled).map fun item => item.raw.id) ++
    (((w.queue.filter fun item => !w.isSettled item).map w.keyItem).map fun item => item.raw.id) |>.Perm w.waitingIds := by
  have hkept : ((w.queue.filter fun item => !w.isSettled item).map w.keyItem).map (fun item => item.raw.id) =
      (w.queue.filter fun item => !w.isSettled item).map fun item => item.raw.id := by
    rw [List.map_map]
    exact List.map_congr_left fun item _ => congrArg Prod.snd keyItem_tag
  rw [hkept, ← List.map_append]
  exact (List.filter_append_perm _ _).map _

theorem Holds.settleHeld (h : Holds [] w) (hunexpired : w.locked = false → w.expired = false)
    (hgrants : w.grants = w.shownGrants) : Holds [] w.settleHeld := by
  unfold World.settleHeld
  split
  · exact h
  rename_i hopen
  have hunlocked : w.locked = false := by
    rw [← Bool.not_eq_true]
    exact fun hlocked => hopen (by rw [hlocked]; rfl)
  refine Holds.settle (h.requeue ⟨rfl, rfl, rfl, rfl, rfl, rfl⟩ settled_perm.subperm (fun tag htag => ?_) h.heldOnce)
    (fun item hitem hmem => ?_) hunlocked (hunexpired hunlocked) rfl hgrants
  · rw [mem_tags] at htag ⊢
    refine htag.imp_right (Or.imp_right fun hqueue => ?_)
    obtain ⟨kept, hkept, rfl⟩ := List.mem_map.1 hqueue
    obtain ⟨item, hitem, rfl⟩ := List.mem_map.1 hkept
    rw [keyItem_tag]
    exact List.mem_map_of_mem (List.mem_of_mem_filter hitem)
  · exact (h.withdrawn _ hmem).2 (List.mem_map_of_mem (List.mem_of_mem_filter hitem))

theorem Holds.render {props : Props} {changed : Bool} (h : Holds [] w)
    (hup : w.expired = true → props.locked = true) : Holds [] (w.render props changed) := by
  have hrendered : Holds [] (w.render props false) := h.rendered
  unfold World.render
  dsimp only
  split
  · refine Holds.settleHeld hrendered (fun hunlocked => ?_) rfl
    rw [← Bool.not_eq_true]
    intro hexpired
    have hunlocked : props.locked = false := hunlocked
    rw [hup hexpired] at hunlocked
    cases hunlocked
  · exact hrendered

/-! ## The person -/

theorem Holds.rememberFor {grant : Nip55Grant} (h : Holds hand w) : Holds hand (w.rememberFor raw grant) := by
  unfold World.rememberFor
  split
  · exact h
  · exact ⟨h.placed, h.servable, h.placedSeen, h.servedSeen, h.tagged, h.paired, h.heldOnce, h.withdrawn, h.gating,
      h.right⟩

theorem rememberFor_frame {grant : Nip55Grant} : (w.rememberFor raw grant).locked = w.locked ∧
    (w.rememberFor raw grant).expired = w.expired ∧ (w.rememberFor raw grant).withdrawn = w.withdrawn := by
  unfold World.rememberFor
  split <;> exact ⟨rfl, rfl, rfl⟩

variable {handle : ℕ}

theorem take_eq (h : w.take handle = some (item, u)) :
    item ∈ w.shown ∧ item.handle = handle ∧ u = { w with queue := w.queue.filter fun item => item.handle ≠ handle } := by
  unfold World.take at h
  obtain ⟨found, hfound, heq⟩ := Option.map_eq_some_iff.1 h
  obtain ⟨rfl, rfl⟩ := Prod.mk.inj heq
  exact ⟨List.mem_of_find?_eq_some hfound, by simpa using List.find?_some hfound, rfl⟩

theorem Holds.take (h : Holds [] w) (hitem : item ∈ w.shown) (hhandle : item.handle = handle)
    (hwaits : ∃ waiting ∈ w.queue, waiting.raw.id = item.raw.id) :
    Holds [item.raw.id] { w with queue := w.queue.filter fun item => item.handle ≠ handle } ∧
      item.raw.id ∉ w.withdrawn := by
  obtain ⟨waiting, hwaiting, hid⟩ := hwaits
  have hmem : item.raw.id ∈ w.waitingIds := List.mem_map.2 ⟨waiting, hwaiting, hid⟩
  have hshown : item.tag ∈ w.tags := mem_tags.2 (.inl (List.mem_map_of_mem hitem))
  have hsub : ((w.queue.filter fun item => item.handle ≠ handle).map fun item => item.raw.id).Sublist w.waitingIds :=
    List.filter_sublist.map _
  have hout : item.raw.id ∉ (w.queue.filter fun item => item.handle ≠ handle).map fun item => item.raw.id := by
    intro hin
    obtain ⟨other, hother, heq⟩ := List.mem_map.1 hin
    obtain ⟨hqueue, hne⟩ := List.mem_filter.1 hother
    -- one id has one handle
    have hsame : other.handle = item.handle :=
      (h.paired other.tag (mem_tags.2 (.inr (.inr (List.mem_map_of_mem hqueue)))) item.tag hshown).2 heq
    exact of_decide_eq_true hne (hsame.trans hhandle)
  have hnodup : w.waitingIds.Nodup := h.waiting_nodup
  refine ⟨h.requeue ⟨rfl, rfl, rfl, rfl, rfl, rfl⟩ ?_ (tags_filter _) h.heldOnce, fun hwithdrawn => ?_⟩
  · refine List.subperm_of_subset (List.nodup_cons.2 ⟨hout, hnodup.sublist hsub⟩) fun id hid => ?_
    rcases List.mem_cons.1 hid with rfl | hkept
    · exact hmem
    · exact hsub.subset hkept
  · exact (h.withdrawn _ hwithdrawn).2 hmem

theorem approvedKey_named (h : w.approvedKey item pubkey = some key) :
    ∀ named ∈ item.parsed.currentUser, key = named := by
  intro named hnamed
  unfold World.approvedKey at h
  obtain ⟨-, hkey⟩ := Option.filter_eq_some_iff.1 h
  rw [hnamed] at hkey
  simp only [Option.any_some, Bool.and_eq_true, Bool.not_eq_true', decide_eq_false_iff_not, not_not] at hkey
  exact hkey.1.2.symm

theorem Holds.approve {always : Bool} (h : Holds [] w)
    (hup : ∀ item ∈ w.shown, item.handle = handle → (∃ waiting ∈ w.queue, waiting.raw.id = item.raw.id) ∧
      ((w.approvedKey item pubkey).isSome = true → w.locked = false ∧ w.expired = false)) :
    Holds [] (w.approve always handle pubkey) := by
  unfold World.approve
  split
  · exact h
  rename_i item u htake
  obtain ⟨hshown, hhandle, rfl⟩ := take_eq htake
  obtain ⟨hwaits, hopen⟩ := hup item hshown hhandle
  obtain ⟨htaken, hstanding⟩ := h.take hshown hhandle hwaits
  split
  · exact htaken.answer
  · rename_i key hkey
    obtain ⟨hunlocked, hunexpired⟩ := hopen (Option.isSome_of_eq_some hkey)
    obtain ⟨hlocked, hexpired, hwithdrawn⟩ := rememberFor_frame
    dsimp only
    refine htaken.rememberFor.execute ?_ (approvedKey_named hkey) (hlocked.trans hunlocked) (hexpired.trans hunexpired)
      (.inl rfl)
    rw [hwithdrawn]
    exact hstanding

theorem Holds.refuse {always : Bool} (h : Holds [] w)
    (hwaits : ∀ item ∈ w.shown, item.handle = handle → ∃ waiting ∈ w.queue, waiting.raw.id = item.raw.id) :
    Holds [] (w.refuse always handle) := by
  unfold World.refuse
  split
  · exact h
  rename_i item u htake
  obtain ⟨hshown, hhandle, rfl⟩ := take_eq htake
  obtain ⟨htaken, -⟩ := h.take hshown hhandle (hwaits item hshown hhandle)
  dsimp only
  split
  · exact htaken.rememberFor.answer
  · exact htaken.answer

theorem Holds.refuseHeld (h : Holds [] w) (hwaits : ∀ item ∈ w.held, ∃ waiting ∈ w.queue, waiting.raw.id = item.raw.id) :
    Holds [] w.refuseHeld := by
  unfold World.refuseHeld
  split
  swap
  · exact h
  have hsub : ∀ id ∈ w.held.map (fun item => item.raw.id), id ∈ w.waitingIds := by
    intro id hid
    obtain ⟨item, hitem, rfl⟩ := List.mem_map.1 hid
    obtain ⟨waiting, hwaiting, heq⟩ := hwaits item hitem
    exact List.mem_map.2 ⟨waiting, hwaiting, heq⟩
  have htaken : Holds (w.held.map fun (item : Waiting) => item.raw.id) { w with held := [], queue := [] } := by
    refine h.requeue ⟨rfl, rfl, rfl, rfl, rfl, rfl⟩ ?_ (fun tag htag => ?_) List.nodup_nil
    · show ((w.held.map fun (item : Waiting) => item.raw.id) ++ []).Subperm w.waitingIds
      rw [List.append_nil]
      exact List.subperm_of_subset h.heldOnce hsub
    · rw [mem_tags] at htag ⊢
      exact htag.imp_right fun hnone => (hnone.elim (fun hin => by cases hin) (fun hin => by cases hin))
  refine ⟨?_, htaken.servable.of_append_right, fun id hid => ?_, htaken.servedSeen, htaken.tagged, htaken.paired,
    htaken.heldOnce, htaken.withdrawn, htaken.gating, htaken.right⟩
  · have hplaced : ((w.held.map fun item => item.raw.id) ++ (w.taskIds ++ w.answers)).Nodup := htaken.placed
    have hput : (w.taskIds ++ ((w.held.map fun item => item.raw.id) ++ w.answers)).Nodup := nodup_put_all hplaced
    exact hput
  · refine htaken.placedSeen id ?_
    simp only [World.waitingIds, World.taskIds, List.mem_append, List.nil_append, List.map_nil] at hid ⊢
    tauto

/-! ## The gate and the signer -/

variable {task : Task} {i : ℕ}

theorem erased_perm (htask : w.tasks[i]? = some task) (p : Task → Bool) :
    (((task :: w.tasks.eraseIdx i).filter p).map fun task => task.raw.id).Perm
      ((w.tasks.filter p).map fun task => task.raw.id) := by
  obtain ⟨hlt, rfl⟩ := List.getElem?_eq_some_iff.1 htask
  exact ((List.getElem_cons_eraseIdx_perm hlt).filter p).map _

theorem Holds.placed_without (h : Holds [] w) (htask : w.tasks[i]? = some task) :
    (task.raw.id :: (w.waitingIds ++ (((w.tasks.eraseIdx i).map fun task => task.raw.id) ++ w.answers))).Nodup := by
  have hplaced : (w.waitingIds ++ (w.taskIds ++ w.answers)).Nodup := h.placed
  refine nodup_take_second hplaced ?_
  obtain ⟨hlt, rfl⟩ := List.getElem?_eq_some_iff.1 htask
  exact (List.getElem_cons_eraseIdx_perm hlt).map fun task => task.raw.id

theorem Holds.seen_without (h : Holds [] w) (htask : w.tasks[i]? = some task)
    (hid : id ∈ task.raw.id :: (w.waitingIds ++ (((w.tasks.eraseIdx i).map fun task => task.raw.id) ++ w.answers))) :
    id ∈ w.seen := by
  have hmem : task.raw.id ∈ w.taskIds := List.mem_map_of_mem (List.mem_of_getElem? htask)
  have hsub : ((w.tasks.eraseIdx i).map fun task => task.raw.id).Sublist w.taskIds := (List.eraseIdx_sublist ..).map _
  simp only [List.mem_cons, List.mem_append] at hid
  rcases hid with rfl | hwaiting | htasks | hanswers
  · exact h.seen_of_task hmem
  · exact h.seen_of_waiting hwaiting
  · exact h.seen_of_task (hsub.subset htasks)
  · exact h.placedSeen id (List.mem_append_right [] (List.mem_append_right _ (List.mem_append_right _ hanswers)))

theorem Holds.release (h : Holds [] w) (htask : w.tasks[i]? = some task)
    (hstage : task.stage = .gating) : Holds [task.raw.id] { w with tasks := w.tasks.eraseIdx i } := by
  have hgating := erased_perm htask fun task => task.stage = .gating
  rw [List.filter_cons_of_pos (by simpa using hstage)] at hgating
  have hservable : (w.waitingIds ++ (w.gatingIds ++ w.servedIds)).Nodup := h.servable
  have htaken := nodup_take_second hservable hgating
  exact ⟨h.placed_without htask, htaken, fun id hid => h.seen_without htask hid,
    h.servedSeen, h.tagged, h.paired, h.heldOnce, h.withdrawn,
    fun task htask => h.gating task (List.mem_of_mem_eraseIdx htask), h.right⟩

theorem Holds.finish (h : Holds [] w) (htask : w.tasks[i]? = some task)
    (hstage : task.stage = .working) : Holds [] ({ w with tasks := w.tasks.eraseIdx i }.answer task.raw.id) := by
  have hgating := erased_perm htask fun task => task.stage = .gating
  rw [List.filter_cons_of_neg (by simp [hstage])] at hgating
  have hservable : (w.waitingIds ++ (w.gatingIds ++ w.servedIds)).Nodup := h.servable
  have hput : (w.waitingIds ++ (((w.tasks.eraseIdx i).map fun task => task.raw.id) ++ task.raw.id :: w.answers)).Nodup :=
    @nodup_put_third _ task.raw.id [] _ _ _ (h.placed_without htask)
  refine ⟨hput, ((hgating.append_right _).append_left _).nodup_iff.2 hservable, fun id hid => h.seen_without htask ?_,
    h.servedSeen, h.tagged, h.paired, h.heldOnce, h.withdrawn,
    fun task htask => h.gating task (List.mem_of_mem_eraseIdx htask), h.right⟩
  simp only [World.answer, World.waitingIds, World.taskIds, List.mem_append, List.mem_cons, List.nil_append] at hid ⊢
  tauto

end

/-! ## Runs -/

/-- A run begins with nothing asked. -/
structure Started (w : World) : Prop where
  shown : w.shown = []
  held : w.held = []
  queue : w.queue = []
  seen : w.seen = []
  tasks : w.tasks = []
  served : w.served = []
  answers : w.answers = []
  withdrawn : w.withdrawn = []

theorem Started.holds {w : World} (h : Started w) : Holds [] w := by
  obtain ⟨hshown, hheld, hqueue, hseen, htasks, hserved, hanswers, hwithdrawn⟩ := h
  constructor <;> simp [World.waitingIds, World.taskIds, World.gatingIds, World.servedIds, World.tags, *]

section

variable [Numerals] [Npubs] {w : World}

/-- **A step that goes by what is up to date** keeps every id in one place. -/
theorem Holds.step {a : Happening} (h : Holds [] w) (hup : UpToDate w a) : Holds [] (next w a) := by
  cases a with
  | request raw => exact h.handleRequest hup
  | withdraw id => exact h.withdraw id
  | render props changed => exact h.render hup
  | window expired =>
    exact ⟨h.placed, h.servable, h.placedSeen, h.servedSeen, h.tagged, h.paired, h.heldOnce, h.withdrawn, h.gating,
      h.right⟩
  | approve always handle pubkey => exact h.approve hup
  | refuse always handle => exact h.refuse hup
  | refuseHeld => exact h.refuseHeld hup
  | forget pkg =>
    exact ⟨h.placed, h.servable, h.placedSeen, h.servedSeen, h.tagged, h.paired, h.heldOnce, h.withdrawn, h.gating,
      h.right⟩
  | gate i allowed =>
    unfold PhoneApps.next
    dsimp only
    split
    swap
    · exact h
    rename_i task htask
    split
    swap
    · exact h
    rename_i hstage
    have hreleased := h.release htask hstage
    obtain ⟨hstanding, hnamed⟩ := h.gating task (List.mem_of_getElem? htask) hstage
    split
    · rename_i hallowed
      obtain ⟨hunlocked, hunexpired, howned⟩ := hup hallowed task htask hstage
      exact hreleased.serve hnamed (.inr (.inr rfl)) howned hunlocked hunexpired hstanding
    · exact hreleased.answer
  | finish i =>
    unfold PhoneApps.next
    dsimp only
    split
    swap
    · exact h
    rename_i task htask
    split
    · rename_i hstage
      exact h.finish htask hstage
    · exact h

/-- **A phone app gets one answer, by the right key, with consent**: in every run whose steps go by what is up to date, no
request is served twice and none answered twice, and every use of a key was right. -/
theorem answered_once {start t : World} (hstart : Started start) (h : Reaches next UpToDate start t) :
    (t.served.map Served.id).Nodup ∧ t.answers.Nodup ∧ ∀ s ∈ t.served, s.IsRight := by
  have hholds : Holds [] t := h.invariant hstart.holds fun w a hw hup => hw.step hup
  exact ⟨hholds.servable.of_append_right.of_append_right.of_append_right,
    hholds.placed.of_append_right.of_append_right.of_append_right, hholds.right⟩

end

/-! ## An app that encrypts -/

attribute [local instance] Sync.decimalNumerals

/-- `decodeNpub`, where nothing is an npub. -/
@[reducible] def onlyHex : Npubs where
  decodeNpub _ := none

attribute [local instance] onlyHex

def sampleKey : JsString := List.replicate 64 (unit 'a')

/-- An app asks for an encryption, by intent. -/
def sampleRequest : NativeNip55Request where
  id := lit "r1"
  callerPackage := some (lit "com.example.notes")
  type := lit "nip44_encrypt"
  payload := some (lit "hi")
  peerPubkey := some (List.replicate 64 (unit 'b'))
  currentUser := some sampleKey
  viaProvider := false

def sampleProps : Props := { routes := [{ pubkey := sampleKey }], locked := false, active := none, gated := false }

def sampleStart : World where
  routes := []
  locked := true
  active := none
  gated := false
  shownGrants _ := none
  shown := []
  held := []
  queue := []
  grants _ := none
  nextHandle := 1
  seen := []
  expired := false
  tasks := []
  served := []
  answers := []
  withdrawn := []

theorem sampleStart_started : Started sampleStart := ⟨rfl, rfl, rfl, rfl, rfl, rfl, rfl, rfl⟩

/-- The app asks, and the person is shown what it asks for. -/
def sampleAsked : World :=
  [.render sampleProps true, .request sampleRequest, .render sampleProps true].foldl next sampleStart

theorem sampleAsked_upToDate : UpToDate sampleAsked (.approve false 1 none) := by
  have hshown : sampleAsked.shown.map (fun item => item.raw.id) = [lit "r1"] := by decide
  have hwaiting : sampleAsked.waitingIds = [lit "r1"] := by decide
  have hopen : sampleAsked.locked = false ∧ sampleAsked.expired = false := by decide
  intro item hitem hhandle
  refine ⟨?_, fun _ => hopen⟩
  have hid : item.raw.id ∈ sampleAsked.waitingIds := by
    rw [hwaiting, ← hshown]
    exact List.mem_map_of_mem hitem
  obtain ⟨waiting, hqueue, heq⟩ := List.mem_map.1 hid
  exact ⟨waiting, hqueue, heq⟩

theorem sampleAsked_reached : Reaches next UpToDate sampleStart sampleAsked := by
  refine Reaches.run fun n a ha => ?_
  rcases n with _ | _ | _ | n <;> cases ha
  · exact fun h => by cases h
  · exact fun g hg => by cases hg
  · exact fun h => by cases h

theorem answered_once_sample : Reaches next UpToDate sampleStart (next (next sampleAsked (.approve false 1 none)) (.finish 0)) ∧
    ((next (next sampleAsked (.approve false 1 none)) (.finish 0)).served.map Served.id).Nodup ∧
    (next (next sampleAsked (.approve false 1 none)) (.finish 0)).answers.Nodup ∧
    (∀ s ∈ (next (next sampleAsked (.approve false 1 none)) (.finish 0)).served, s.IsRight) ∧
    (next (next sampleAsked (.approve false 1 none)) (.finish 0)).answers = [lit "r1"] := by
  have hrun : Reaches next UpToDate sampleStart (next (next sampleAsked (.approve false 1 none)) (.finish 0)) :=
    (sampleAsked_reached.tail sampleAsked_upToDate).tail trivial
  obtain ⟨hserved, hanswers, hright⟩ := answered_once sampleStart_started hrun
  exact ⟨hrun, hserved, hanswers, hright, by decide +kernel⟩

/-- The button is pressed twice before the next render. -/
def samplePressedTwice : World := [.approve false 1 none, .approve false 1 none].foldl next sampleAsked

/-- The button is pressed when the key's window has ended. -/
def samplePressedLate : World := [.window true, .approve false 1 none].foldl next sampleAsked

/-- A press before the next render serves a request again, and a press after the window serves it with a key that should
be gone. -/
theorem pressed_between_renders : Started sampleStart ∧
    (∃ t, Reaches next (fun _ _ => True) sampleStart t ∧ ¬ (t.served.map Served.id).Nodup) ∧
      ∃ t, Reaches next (fun _ _ => True) sampleStart t ∧ ∃ s ∈ t.served, s.expired = true := by
  have hasked : Reaches next (fun _ _ => True) sampleStart sampleAsked := sampleAsked_reached.mono fun _ _ _ => trivial
  refine ⟨sampleStart_started, ⟨samplePressedTwice, hasked.trans (Reaches.run fun _ _ _ => trivial), ?_⟩,
    ⟨samplePressedLate, hasked.trans (Reaches.run fun _ _ _ => trivial), ?_⟩⟩
  · have hserved : samplePressedTwice.served.map Served.id = [lit "r1", lit "r1"] := by decide +kernel
    rw [hserved]
    decide
  · have hexpired : samplePressedLate.served.map Served.expired = [true] := by decide +kernel
    exact List.mem_map.1 (hexpired ▸ List.mem_singleton_self true)

end SignetApp.PhoneApps
