import SignetApp.Follows.Unfollow

/-!
# Which unlink removes a contact

An unlink removes a contact whose last list it takes. A device asks whether another list holds the contact, but of the
log that it has; in the merged log, another device's unlink may stand before its own.
-/

namespace SignetApp.Follows

open SignetApp.Js SignetApp.Contacts

/-! ## One unlink -/

section

variable {r : ContactRecord} {owner : Hex64}

theorem heldElsewhere_iff :
    heldElsewhere r owner = true ↔ ∃ other ∈ activeOwners r.memberships, other ≠ owner := by
  unfold heldElsewhere
  rw [List.any_eq_true]
  constructor
  · rintro ⟨m, hm, hactive⟩
    rw [Bool.and_eq_true, decide_eq_true_eq, Option.isNone_iff_eq_none] at hactive
    exact ⟨m.ownerIdentityPubkey, mem_activeOwners.2 ⟨m, hm, hactive.1, rfl⟩, hactive.2⟩
  · rintro ⟨other, hother, hne⟩
    obtain ⟨m, hm, hactive, rfl⟩ := mem_activeOwners.1 hother
    refine ⟨m, hm, ?_⟩
    rw [Bool.and_eq_true, decide_eq_true_eq, Option.isNone_iff_eq_none]
    exact ⟨hactive, hne⟩

/-- **An unlink removes a contact from its last list only.** -/
theorem removed_unlinkContactList_iff (h : Standing r) (hlive : r.lifecycle ≠ .removed) (at_ : Timestamp) :
    (unlinkContactList r owner at_).lifecycle = .removed ↔
      contactBelongsToList r owner = true ∧ heldElsewhere r owner = false := by
  unfold unlinkContactList
  by_cases hbelongs : contactBelongsToList r owner = true
  · rw [if_pos hbelongs, ← Bool.not_eq_true, heldElsewhere_iff]
    dsimp only
    have hactive := contactBelongsToList_iff.1 hbelongs
    have hothers : ∀ other, other ∈ activeOwners (r.memberships.map fun m =>
        if m.ownerIdentityPubkey = owner then m.removed at_ else m) ↔
          other ∈ activeOwners r.memberships ∧ other ≠ owner := by
      intro other
      have hmem := @mem_activeOwners_removed at_ (fun m => m.ownerIdentityPubkey = owner) r.memberships other
      simp only [decide_eq_true_eq] at hmem
      rw [hmem, mem_activeOwners]
      constructor
      · rintro ⟨m, hm, hne, hnone, rfl⟩
        exact ⟨⟨m, hm, hnone, rfl⟩, of_decide_eq_false hne⟩
      · rintro ⟨⟨m, hm, hnone, rfl⟩, hne⟩
        exact ⟨m, hm, decide_eq_false hne, hnone, rfl⟩
    obtain ⟨primary, hprimary⟩ := Option.isSome_iff_exists.1
      (h.lists.primary_of_active (List.ne_nil_of_mem hactive))
    have hin := h.lists.primary_active primary hprimary
    rw [hprimary]
    by_cases hsame : primary = owner
    · subst hsame
      rw [if_pos rfl]
      have holdest := oldest_spec (r.memberships.map fun m =>
        if m.ownerIdentityPubkey = primary then m.removed at_ else m)
      by_cases hnone : oldest (r.memberships.map fun m =>
          if m.ownerIdentityPubkey = primary then m.removed at_ else m) = none
      · rw [if_pos hnone]
        refine iff_of_true rfl ⟨hbelongs, ?_⟩
        rintro ⟨other, hother, hne⟩
        have hsome := holdest.2 (List.ne_nil_of_mem ((hothers other).2 ⟨hother, hne⟩))
        rw [hnone] at hsome
        cases hsome
      · rw [if_neg hnone]
        obtain ⟨other, hother⟩ := Option.ne_none_iff_exists'.1 hnone
        exact iff_of_false hlive fun hno => hno.2 ⟨other, (hothers other).1 (holdest.1 other hother)⟩
    · have hne : ¬ (some primary = some owner) := fun heq => hsame (Option.some.inj heq)
      rw [if_neg hne, if_neg (by simp)]
      exact iff_of_false hlive fun hno => hno.2 ⟨primary, hin, hsame⟩
  · rw [if_neg hbelongs]
    exact iff_of_false hlive fun hno => hbelongs hno.1

end

/-! ## The unlinks of a log -/

section

variable {log : List ContactOperation} {contact : RecordKey} {row : LogRow} {pre post : List LogRow}
  {owner : Hex64} {unlinks : List Unlink}

theorem standing_recordAfter {rows : List LogRow} {r : ContactRecord} (h : recordAfter log rows = some r) :
    Standing r :=
  runAt_forall (fun _ hs _ _ _ hstep => standing_groupStep hstep hs) (fun _ h => by cases h) r h

/-- **An unlink removes the contact** exactly where no other list holds it. -/
theorem removes_iff (haction : row.op.action = .unlinkList owner) (hlive : ¬ Removed (recordAfter log pre)) :
    Removed (recordAfter log (pre ++ [row])) ↔ ∃ r, recordAfter log pre = some r ∧
      contactBelongsToList r owner = true ∧ heldElsewhere r owner = false := by
  have hremap : ((contextOf log).remap row.op).action = .unlinkList owner := by
    unfold MergeContext.remap
    rw [haction]
    rfl
  have hnot : ((contextOf log).remap row.op).action.isAdd = false := by rw [hremap]; rfl
  have hfirst : row.firstAdd = none := by
    rw [LogRow.firstAdd_eq_none_iff, haction]
    exact fun hadd => by cases hadd
  have hrow : recordAfter log (pre ++ [row]) =
      advance (groupStep (contextOf log)) (recordAfter log pre) row := by
    rw [recordAfter, runAt_append]
    rfl
  cases hrecord : recordAfter log pre with
  | none =>
    have hstep : groupStep (contextOf log) none row = none := by
      rw [groupStep_of_not_first hfirst, applyOne_none hnot]
    rw [hrow, hrecord, advance_of_none hstep]
    exact iff_of_false (fun h => by obtain ⟨r, hr, -⟩ := h; cases hr) fun h => by obtain ⟨r, hr, -⟩ := h; cases hr
  | some r =>
    rw [hrecord, removed_some] at hlive
    have hstep : groupStep (contextOf log) (some r) row =
        some (unlinkContactList r owner ((contextOf log).remap row.op).createdAt) := by
      rw [groupStep_of_not_first hfirst, applyOne_some r hnot, if_neg fun h => hlive h.1]
      unfold mutate
      rw [hremap]
    rw [hrow, hrecord, advance_of_some hstep, removed_some,
      removed_unlinkContactList_iff (standing_recordAfter hrecord) hlive]
    constructor
    · exact fun h => ⟨r, rfl, h⟩
    · rintro ⟨_, hr, h⟩
      cases hr
      exact h

theorem removed_later {mid : List LogRow} (h : Removed (recordAfter log pre))
    (hmid : ∀ later ∈ mid, ¬ (contextOf log).Restores later) : Removed (recordAfter log (pre ++ mid)) := by
  rw [recordAfter, runAt_append]
  exact runAt_kept h fun _ later hlater hrem => removed_advance hrem (hmid later hlater)

/-- Only one row removes a contact for good. -/
theorem RemovedAt.unique {row' : LogRow} (h : RemovedAt log contact row) (h' : RemovedAt log contact row') :
    row = row' := by
  -- of two, the earlier leaves the contact removed up to the later
  have hearlier : ∀ {row row' : LogRow} {pre pre' post post' : List LogRow},
      pre ++ row :: post = pre' ++ row' :: post' → Removed (recordAfter log (pre ++ [row])) →
      (∀ later ∈ post, ¬ (contextOf log).Restores later) → ¬ Removed (recordAfter log pre') →
      pre.length < pre'.length → False := by
    intro row row' pre pre' post post' heq hremoved hpost hlive hlt
    have hsplit : (pre ++ [row]) ++ post = pre' ++ (row' :: post') := by rw [← heq]; simp
    obtain ⟨mid, hmid⟩ : ∃ mid, pre' = (pre ++ [row]) ++ mid := by
      rcases List.append_eq_append_iff.1 hsplit with ⟨mid, hmid, -⟩ | ⟨mid, hmid, -⟩
      · exact ⟨mid, hmid⟩
      · have hlength := congrArg List.length hmid
        simp only [List.length_append, List.length_cons, List.length_nil] at hlength
        have hnil : mid = [] := List.length_eq_zero_iff.1 (by omega)
        rw [hnil, List.append_nil] at hmid
        exact ⟨[], by rw [hmid, List.append_nil]⟩
    rw [hmid] at hsplit hlive
    rw [List.append_assoc (pre ++ [row]) mid, List.append_right_inj] at hsplit
    refine hlive (removed_later hremoved fun later hlater => hpost later ?_)
    rw [hsplit]
    exact List.mem_append_left _ hlater
  obtain ⟨pre, post, heq, hlive, hremoved, hpost⟩ := h
  obtain ⟨pre', post', heq', hlive', hremoved', hpost'⟩ := h'
  have hrows := heq.symm.trans heq'
  rcases Nat.lt_trichotomy pre.length pre'.length with hlt | hsame | hgt
  · exact (hearlier hrows hremoved hpost hlive' hlt).elim
  · exact (List.cons.inj (List.append_inj hrows hsame).2).1
  · exact (hearlier hrows.symm hremoved' hpost' hlive hgt).elim

theorem RemovedAt.removed (h : RemovedAt log contact row) :
    Removed (recordAfter log (groupRows log (idIn log contact))) := by
  obtain ⟨pre, post, heq, -, hremoved, hpost⟩ := h
  rw [heq, List.append_cons]
  exact removed_later hremoved hpost

theorem live_iff (hknown : contact ∈ contactKeys log) :
    Live log contact ↔ ¬ Removed (recordAfter log (groupRows log (idIn log contact))) := by
  unfold Live
  rw [get_materialise]
  obtain ⟨op, hop, hadd, hkey⟩ := mem_contactKeys_iff.1 hknown
  rw [← mem_sortOperations, ← map_op_logRows] at hop
  obtain ⟨added, hadded, rfl⟩ := List.mem_map.1 hop
  have hgroup : added ∈ groupRows log (idIn log contact) := by
    rw [mem_groupRows]
    exact ⟨hadded, by rw [show added.sourceKey = contact from hkey]; rfl⟩
  obtain ⟨r, hr⟩ := Option.isSome_iff_exists.1 (isSome_recordAfter_iff.2 ⟨added, hgroup, hadd⟩)
  rw [hr, Option.map_some, removed_some]
  constructor
  · rintro ⟨record, hrecord, hlive⟩
    cases hrecord
    rwa [withMergedIds_eq] at hlive
  · intro hlive
    refine ⟨_, rfl, ?_⟩
    rwa [withMergedIds_eq]

theorem exists_removedAt (h : Removed (recordAfter log (groupRows log (idIn log contact)))) :
    ∃ row, RemovedAt log contact row := by
  obtain ⟨pre, row, post, heq, hpre, hrow, hpost⟩ := exists_set_of_runAt not_removed_none
    (fun _ _ _ hrow => not_removed_advance_of_restores hrow) h
  refine ⟨row, pre, post, heq, hpre, ?_, hpost⟩
  rw [recordAfter, runAt_append]
  exact hrow

/-- **No unlink removes the contact exactly where another list holds it at each.** -/
theorem liveOrRemovedOtherwise_iff (hknown : contact ∈ contactKeys log)
    (hactions : ∀ unlink ∈ unlinks, ∃ owner, unlink.operation.action = .unlinkList owner) :
    LiveOrRemovedOtherwise unlinks log contact ↔ HeldAtUnlinks unlinks log contact := by
  constructor
  · intro hproperty pre post row owner record heq hmem haction hpost hrecord hlive hbelongs
    by_contra hheld
    have hheld : heldElsewhere record owner = false := by simpa using hheld
    have hbefore : ¬ Removed (recordAfter log pre) := by rw [hrecord, removed_some]; exact hlive
    have hat : RemovedAt log contact row :=
      ⟨pre, post, heq, hbefore, (removes_iff haction hbefore).2 ⟨record, hrecord, hbelongs, hheld⟩, hpost⟩
    obtain hlive | ⟨row', hat', hnot⟩ := hproperty
    · exact (live_iff hknown).1 hlive hat.removed
    · rw [hat'.unique hat] at hnot
      exact hnot hmem
  · intro hheld
    by_cases hremoved : Removed (recordAfter log (groupRows log (idIn log contact)))
    · obtain ⟨row, hat⟩ := exists_removedAt hremoved
      refine .inr ⟨row, hat, fun hmem => ?_⟩
      obtain ⟨pre, post, heq, hbefore, hafter, hpost⟩ := hat
      obtain ⟨unlink, hunlink, hop⟩ := List.mem_map.1 hmem
      obtain ⟨owner, haction⟩ := hactions unlink hunlink
      rw [hop] at haction
      obtain ⟨record, hrecord, hbelongs, hnot⟩ := (removes_iff haction hbefore).1 hafter
      rw [hrecord, removed_some] at hbefore
      have hholds := hheld pre post row owner record heq hmem haction hpost hrecord hbefore hbelongs
      rw [hnot] at hholds
      cases hholds
    · exact .inl ((live_iff hknown).2 hremoved)

end

/-! ## What a device knew -/

/-- What a call has seen of a contact that it takes off a list. -/
def Checked (unlink : Unlink) : Prop :=
  ∃ owner record, unlink.operation.action = .unlinkList owner ∧
    (materialise unlink.against).get (recordKey unlink.operation) = some record ∧
    heldElsewhere record owner = true

theorem checked_of_unlink {directoryId : DirectoryId} {log ops : List ContactOperation} {call : UnlinkCall}
    (h : unlinkContactsFromList directoryId log call = some ops) {op : ContactOperation} (hop : op ∈ ops) :
    Checked ⟨op, log⟩ := by
  unfold unlinkContactsFromList at h
  dsimp only at h
  split at h
  · cases h
    obtain ⟨entry, hentry, rfl⟩ := List.mem_map.1 hop
    obtain ⟨id, i⟩ := entry
    have hchosen := List.mem_filter.1 (List.fst_mem_of_mem_zipIdx hentry)
    have hunlinkable := hchosen.2
    unfold unlinkable at hunlinkable
    split at hunlinkable
    · cases hunlinkable
    · rename_i record hrecord
      exact ⟨call.ownerIdentityPubkey, record, rfl, hrecord, (Bool.and_eq_true _ _ ▸ hunlinkable).2⟩
  · cases h

section

variable {log : List ContactOperation} {contact : RecordKey} {unlinks : List Unlink}

theorem canonical_eq_iff_of_unmerged (h : Unmerged log contact) {key : RecordKey} :
    (contextOf log).canonical key = contact ↔ key = contact := by
  constructor
  · intro hc
    by_cases hkey : key ∈ contactKeys log
    · exact h.2 key hkey ((canonical_eq_iff hkey h.1).1 (hc.trans h.canonical_eq.symm))
    · rwa [canonical_contextOf, leaderOf_of_not_mem hkey] at hc
  · rintro rfl
    exact h.canonical_eq

theorem listView_rows (h : Unmerged log contact) (rows : List LogRow) :
    (recordAfter log (rows.filter fun row => (contextOf log).canonical row.sourceKey = contact)).map
        ContactRecord.listView =
      (runAt applyOne none (listOperations contact (rows.map LogRow.op))).map ContactRecord.listView := by
  have hfilter : (rows.filter fun row => (contextOf log).canonical row.sourceKey = contact) =
      rows.filter fun row => row.sourceKey = contact := by
    refine List.filter_congr fun row _ => ?_
    rw [decide_eq_decide]
    exact canonical_eq_iff_of_unmerged h
  rw [hfilter, listView_recordAfter h fun row hrow => of_decide_eq_true (List.mem_filter.1 hrow).2]
  refine congrArg (fun ops => (runAt applyOne none ops).map ContactRecord.listView) ?_
  rw [listOperations, List.filter_map, List.filter_map, List.filter_filter]
  refine congrArg _ (List.filter_congr fun row _ => ?_)
  exact Bool.and_comm _ _

theorem heldElsewhere_congr {r s : ContactRecord} (h : r.listView = s.listView) (owner : Hex64) :
    heldElsewhere r owner = heldElsewhere s owner := by
  unfold heldElsewhere
  rw [memberships_congr (listView_eq_iff.1 h).2.2.1]

/-- **Where nothing came between, the check of the device is right.** -/
theorem NothingBetween.held (h : NothingBetween unlinks log contact) (hchecked : ∀ unlink ∈ unlinks, Checked unlink) :
    HeldAtUnlinks unlinks log contact := by
  intro pre post row owner record heq hmem haction hpost hrecord hlive hbelongs
  have hid : idIn log contact = contact := h.unmerged.canonical_eq
  rw [hid] at heq
  have hrows : groupRows log contact = (logRows log).filter fun row => (contextOf log).canonical row.sourceKey = contact :=
    rfl
  obtain ⟨before, after, hsplit, hbefore, hafter⟩ := List.filter_eq_append_iff.1 (hrows.symm.trans heq)
  obtain ⟨between, rest, rfl, hbetween, hrow, -⟩ := List.filter_eq_cons_iff.1 hafter
  have hnone : (between.filter fun row => (contextOf log).canonical row.sourceKey = contact) = [] :=
    List.filter_eq_nil_iff.2 hbetween
  have hpre : ((before ++ between).filter fun row => (contextOf log).canonical row.sourceKey = contact) = pre := by
    rw [List.filter_append, hbefore, hnone, List.append_nil]
  obtain ⟨unlink, hunlink, hop⟩ := List.mem_map.1 hmem
  have hkey : recordKey unlink.operation = contact := by
    rw [hop]
    exact (canonical_eq_iff_of_unmerged h.unmerged).1 (of_decide_eq_true hrow)
  have hsorted : sortOperations log = (before ++ between).map LogRow.op ++ unlink.operation :: rest.map LogRow.op := by
    rw [← map_op_logRows, hsplit, hop]
    simp
  obtain ⟨hagainst, hsame⟩ := h.knew unlink hunlink hkey _ _ hsorted
  obtain ⟨owner', seen, haction', hseen, hheld⟩ := hchecked unlink hunlink
  rw [hop, haction] at haction'
  cases haction'
  rw [hkey] at hseen
  obtain ⟨r, hr, rfl⟩ := exists_recordAfter hseen
  -- the record at the unlink and the record that was checked have the same lists
  have hhere := listView_rows h.unmerged (before ++ between)
  rw [hpre, hrecord, hsame] at hhere
  have hthere := listView_rows hagainst (logRows unlink.against)
  rw [map_op_logRows] at hthere
  have hview : record.listView = r.listView := by
    refine Option.some.inj (hhere.trans (hthere.symm.trans ?_))
    show (recordAfter unlink.against (groupRows unlink.against contact)).map ContactRecord.listView = _
    rw [hr]
    rfl
  rw [heldElsewhere_congr hview]
  rw [withMergedIds_eq] at hheld
  exact hheld

end

/-! ## Runs -/

/-- No call has been made yet. -/
structure Started (w : World) : Prop where
  unlinks : w.unlinks = []
  checked : ∀ d, (w.devices d).checked = []

/-- Every unlink was checked. -/
structure AllChecked (w : World) : Prop where
  saved : ∀ unlink ∈ w.unlinks, Checked unlink
  pending : ∀ d, ∀ unlink ∈ (w.devices d).checked, Checked unlink

section

variable {w : World} {d : ℕ}

theorem AllChecked.setDevice (h : AllChecked w) {device : Device} (hdevice : ∀ unlink ∈ device.checked, Checked unlink) :
    AllChecked (w.setDevice d device) where
  saved := h.saved
  pending e := by
    show ∀ unlink ∈ (if e = d then device else w.devices e).checked, Checked unlink
    split
    · exact hdevice
    · exact h.pending e

theorem AllChecked.next (h : AllChecked w) (a : Happening) : AllChecked (next w a) := by
  cases a with
  | check d call records current =>
    unfold Follows.next
    dsimp only
    split
    · split
      · exact h
      · rename_i ops hops
        refine h.setDevice fun unlink hunlink => ?_
        obtain ⟨op, hop, rfl⟩ := List.mem_map.1 hunlink
        exact checked_of_unlink hops hop
    · exact h
  | save d =>
    have hsaved : AllChecked { w with unlinks := w.unlinks ++ (w.devices d).checked } := by
      refine ⟨fun unlink hunlink => ?_, h.pending⟩
      rcases List.mem_append.1 hunlink with hold | hnew
      · exact h.saved unlink hold
      · exact h.pending d unlink hnew
    exact hsaved.setDevice fun unlink hunlink => by cases hunlink
  | write d op => exact h.setDevice (h.pending d)
  | merge d other => exact h.setDevice (h.pending d)

theorem log_subset_next (w : World) (a : Happening) (e : ℕ) : (w.devices e).log ⊆ ((next w a).devices e).log := by
  have hset : ∀ {w' : World} {device : Device}, w'.devices = w.devices → ∀ d, (w.devices d).log ⊆ device.log →
      (w.devices e).log ⊆ ((w'.setDevice d device).devices e).log := by
    intro w' device hsame d hsub
    show _ ⊆ (if e = d then device else w'.devices e).log
    split
    · rename_i hed
      rw [hed]
      exact hsub
    · rw [hsame]
      exact List.Subset.refl _
  cases a with
  | check d call records current =>
    unfold Follows.next
    dsimp only
    split
    · split
      · exact List.Subset.refl _
      · exact hset rfl d (List.Subset.refl _)
    · exact List.Subset.refl _
  | save d => exact hset rfl d (List.subset_append_left _ _)
  | write d op => exact hset rfl d (List.subset_append_left _ _)
  | merge d other => exact hset rfl d (List.subset_append_left _ _)

end

theorem mem_contactKeys_of_live {log : List ContactOperation} {contact : RecordKey} (h : Live log contact) :
    contact ∈ contactKeys log := by
  by_contra hnot
  obtain ⟨record, hget, -⟩ := h
  have hid : idIn log contact = contact := by rw [idIn, canonical_contextOf, leaderOf_of_not_mem hnot]
  rw [hid] at hget
  exact hnot (isSome_get_materialise_iff.1 (Option.isSome_iff_exists.2 ⟨record, hget⟩)).1

variable {start t : World} {d : ℕ} {contact : RecordKey}

/-- **A contact is left live, or removed otherwise, exactly where each unlink of it finds it on another list**; where
its device knew what comes before, it does. -/
theorem unlinks_spare_iff (hstart : Started start) (hrun : Reaches next Reported start t)
    (hlive : Live (start.devices d).log contact) :
    (LiveOrRemovedOtherwise t.unlinks (t.devices d).log contact ↔
        HeldAtUnlinks t.unlinks (t.devices d).log contact) ∧
      (NothingBetween t.unlinks (t.devices d).log contact →
        LiveOrRemovedOtherwise t.unlinks (t.devices d).log contact) := by
  have hchecked : AllChecked t := by
    refine hrun.invariant ⟨fun unlink h => ?_, fun e unlink h => ?_⟩ fun _ a hw _ => hw.next a
    · rw [hstart.unlinks] at h
      cases h
    · rw [hstart.checked e] at h
      cases h
  have hgrown : ∀ e, (start.devices e).log ⊆ (t.devices e).log :=
    hrun.evolves (R := fun w w' => ∀ e, (w.devices e).log ⊆ (w'.devices e).log)
      (fun _ _ => List.Subset.refl _) (fun h h' e => List.Subset.trans (h e) (h' e)) fun w a e => log_subset_next w a e
  have hknown : contact ∈ contactKeys (t.devices d).log := by
    obtain ⟨op, hop, hadd⟩ := mem_contactKeys_iff.1 (mem_contactKeys_of_live hlive)
    exact mem_contactKeys_iff.2 ⟨op, hgrown d hop, hadd⟩
  have hiff := liveOrRemovedOtherwise_iff hknown fun unlink hunlink => by
    obtain ⟨owner, -, haction, -⟩ := hchecked.saved unlink hunlink
    exact ⟨owner, haction⟩
  exact ⟨hiff, fun hbetween => hiff.2 (hbetween.held hchecked.saved)⟩

/-! ## One contact, two lists -/

/-- An origin of a contact, as an import for a persona records it. -/
def importedFor (id persona : Fin 16) : ContactOrigin where
  id := Hex.repeated 32 id
  ownerIdentityPubkey := Hex.repeated 64 persona
  method := .import
  addedAt := ⟨0, by decide⟩
  inviteId := none
  inviteName := none
  caption := some ⟨followsOriginCaption, by decide⟩
  appName := none

theorem dave_fits : 0 < (lit "Dave").length ∧ (lit "Dave").length ≤ capName := by decide

/-- A contact that two personas follow. -/
def sharedLog : List ContactOperation :=
  let owner := actorOf .owner 1
  [sampleOp 1 10 0 owner (.add {
      type := .person, displayName := ⟨lit "Dave", dave_fits⟩, tier := .ken
      ownerIdentityPubkey := some (Hex.repeated 64 1) }),
    sampleOp 2 10 1 owner (.linkList (Hex.repeated 64 2)),
    sampleOp 3 10 2 owner (sampleIdentity 1 9),
    { sampleOp 4 10 3 owner (.recordOrigin (importedFor 4 1)) with ownerIdentityPubkey := some (Hex.repeated 64 1) },
    { sampleOp 5 10 4 owner (.recordOrigin (importedFor 5 2)) with ownerIdentityPubkey := some (Hex.repeated 64 2) }]

def sharedWorld : World := ⟨.owner, fun _ => ⟨sharedLog, []⟩, []⟩

/-- The call for one persona, on a device by digit. -/
def unlinkSharedFor (persona device : Fin 16) : UnlinkCall where
  contactIds := [Hex.repeated 32 10]
  ownerIdentityPubkey := Hex.repeated 64 persona
  actor := actorOf .owner device
  now := ⟨9, Rat.natCast_nonneg⟩
  clock := 5
  operationIds _ := Hex.repeated 32 device

/-- The records of the log, on which nobody is followed now. -/
def checkShared (d : ℕ) (persona device : Fin 16) : Happening :=
  .check d (unlinkSharedFor persona device) ((materialise sharedLog).entries.map Prod.snd) []

set_option maxRecDepth 8000 in
theorem reported_checkShared (w : World) (d : ℕ) :
    Reported w (checkShared d 1 6) ∧ Reported w (checkShared d 2 7) := by
  have hreported : ∀ persona : Fin 16, persona = 1 ∨ persona = 2 → ∀ id ∈ [Hex.repeated 32 (10 : Fin 16)],
      ∃ record ∈ (computeUnfollows ((materialise sharedLog).entries.map Prod.snd) (Hex.repeated 64 persona)
        []).removable, record.contactId = id := by
    decide
  exact ⟨hreported 1 (.inl rfl), hreported 2 (.inr rfl)⟩

theorem sharedWorld_started : Started sharedWorld := ⟨rfl, fun _ => rfl⟩

set_option maxRecDepth 8000 in
theorem live_sharedLog : Live sharedLog (sampleKey 10) := by
  have hlive : ((materialise sharedLog).get (idIn sharedLog (sampleKey 10))).map ContactRecord.lifecycle =
      some .active := by
    decide
  obtain ⟨record, hget, hlifecycle⟩ := Option.map_eq_some_iff.1 hlive
  exact ⟨record, hget, by rw [hlifecycle]; decide⟩

/-- One device alone tidies up. -/
def aloneRun : List Happening := [checkShared 0 1 6, .save 0]

theorem unlinks_spare_alone :
    (LiveOrRemovedOtherwise (aloneRun.foldl next sharedWorld).unlinks
          ((aloneRun.foldl next sharedWorld).devices 0).log (sampleKey 10) ↔
        HeldAtUnlinks (aloneRun.foldl next sharedWorld).unlinks
          ((aloneRun.foldl next sharedWorld).devices 0).log (sampleKey 10)) ∧
      (NothingBetween (aloneRun.foldl next sharedWorld).unlinks
          ((aloneRun.foldl next sharedWorld).devices 0).log (sampleKey 10) →
        LiveOrRemovedOtherwise (aloneRun.foldl next sharedWorld).unlinks
          ((aloneRun.foldl next sharedWorld).devices 0).log (sampleKey 10)) := by
  refine unlinks_spare_iff sharedWorld_started (Reaches.run fun n a ha => ?_) live_sharedLog
  rcases n with _ | _ | n <;> cases ha
  · exact (reported_checkShared _ 0).1
  · trivial

/-- Two devices tidy up, each for another persona, and then one merges the other's log. -/
def bothRun : List Happening := [checkShared 0 1 6, .save 0, checkShared 1 2 7, .save 1, .merge 0 1]

/-- **Each leaves the contact the list that the other takes.** It was live on every device, and an unlink removed it. -/
theorem both_lists_taken : ∃ start t : World, Started start ∧ Reaches next Reported start t ∧
    (∀ d, Live (start.devices d).log (sampleKey 10)) ∧
    ¬ LiveOrRemovedOtherwise t.unlinks (t.devices 0).log (sampleKey 10) := by
  refine ⟨sharedWorld, bothRun.foldl next sharedWorld, sharedWorld_started, Reaches.run fun n a ha => ?_,
    fun _ => live_sharedLog, ?_⟩
  · rcases n with _ | _ | _ | _ | _ | n <;> cases ha
    · exact (reported_checkShared _ 0).1
    · trivial
    · exact (reported_checkShared _ 1).2
    · trivial
    · trivial
  · set log := ((bothRun.foldl next sharedWorld).devices 0).log with hlog
    have hknown : sampleKey 10 ∈ contactKeys log := by decide +kernel
    have hremoved : ((recordAfter log (groupRows log (idIn log (sampleKey 10)))).map ContactRecord.lifecycle) =
        some .removed := by decide +kernel
    -- every removal of the log is one of the unlinks
    have hremovals : ∀ row ∈ groupRows log (idIn log (sampleKey 10)), row.op.action.isRemoval = true →
        row.op ∈ (bothRun.foldl next sharedWorld).unlinks.map Unlink.operation := by decide +kernel
    rintro (hlive | ⟨row, ⟨pre, post, heq, hbefore, hafter, -⟩, hnot⟩)
    · obtain ⟨r, hr, hlifecycle⟩ := Option.map_eq_some_iff.1 hremoved
      exact (live_iff hknown).1 hlive ⟨r, hr, hlifecycle⟩
    · refine hnot (hremovals row ?_ ?_)
      · rw [heq]
        exact List.mem_append_right _ List.mem_cons_self
      · rw [recordAfter, runAt_append] at hafter
        exact isRemoval_of_removed_advance hbefore hafter

end SignetApp.Follows
