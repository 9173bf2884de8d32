import SignetApp.Contacts.GroupRecord

/-!
# Parts of a log

The first pass over the operations of one directory sees what the first pass over the whole log
sees of that directory (`agree_firstPass`). A record depends only on the rows of its group, on the
group and on the items its operations refer to (`get_materialise_filter`).
-/

namespace SignetApp.Contacts

open SignetApp.Js

namespace FirstPass

/-! ## One directory -/

/-- Two passes agree on a directory. -/
structure Agree (d : DirectoryId) (pass pass' : FirstPass) : Prop where
  raw : ∀ key : RecordKey, key.directoryId = d → pass.raw.get key = pass'.raw.get key
  same : ∀ x y : RecordKey, x.directoryId = d → y.directoryId = d →
    (pass.parent.Same x y ↔ pass'.parent.Same x y)
  holders : ∀ slot : DirectoryId × Hex64, slot.1 = d →
    ∀ key, key ∈ pass.holdersOf slot ↔ key ∈ pass'.holdersOf slot
  items : ∀ item : DirectoryId × Hex32, item.1 = d → pass.items.get item = pass'.items.get item

variable {d : DirectoryId} {pass pass' : FirstPass}

theorem agree_start (d : DirectoryId) : Agree d start start where
  raw _ _ := rfl
  same _ _ _ _ := Iff.rfl
  holders _ _ _ := Iff.rfl
  items _ _ := rfl

theorem Coherent.directory_of_same (h : pass.Coherent) {x y : RecordKey} (hxy : pass.parent.Same x y) :
    x.directoryId = y.directoryId := by
  rw [← h.find_directory x, ← h.find_directory y]
  exact congrArg RecordKey.directoryId hxy

variable {key : RecordKey} {slot : DirectoryId × Hex64}

theorem Coherent.same_gain_other (h : pass.Coherent)
    (hdir : key.directoryId = slot.1) {x y : RecordKey} (hx : x.directoryId ≠ slot.1) :
    (pass.gain slot key).parent.Same x y ↔ pass.parent.Same x y := by
  rw [parent_gain, Forest.same_links]
  refine or_iff_left ?_
  rintro ⟨hjoins, -⟩
  rcases hjoins with hkey | ⟨b, hb, hxb⟩
  · exact hx ((h.directory_of_same hkey).trans hdir)
  · exact hx ((h.directory_of_same hxb).trans (h.holders_directory slot b hb))

theorem Agree.gain (h : Agree d pass pass') (hc : pass.Coherent) (hslot : slot.1 = d) (hkey : key.directoryId = d) :
    Agree d (pass.gain slot key) (pass'.gain slot key) where
  raw := h.raw
  same x y hx hy := by
    have hnil : pass.holdersOf slot ≠ [] ↔ pass'.holdersOf slot ≠ [] := by
      simp only [ne_eq, List.eq_nil_iff_forall_not_mem, h.holders slot hslot]
    have hjoins : ∀ x : RecordKey, x.directoryId = d →
        ((pass.parent.Same x key ∨ ∃ b ∈ pass.holdersOf slot, pass.parent.Same x b) ↔
          (pass'.parent.Same x key ∨ ∃ b ∈ pass'.holdersOf slot, pass'.parent.Same x b)) := by
      intro x hx
      refine or_congr (h.same x key hx hkey) (exists_congr fun b => ?_)
      rw [h.holders slot hslot]
      refine and_congr_right fun hb => h.same x b hx ?_
      rw [hc.holders_directory slot b ((h.holders slot hslot b).mpr hb), hslot]
    rw [parent_gain, parent_gain, Forest.same_links, Forest.same_links, h.same x y hx hy,
      hjoins x hx, hjoins y hy, hnil]
  holders slot' hslot' k := by
    rw [holdersOf_gain, holdersOf_gain]
    split
    · rw [mem_insertNew, mem_insertNew, h.holders slot hslot]
    · exact h.holders slot' hslot' k
  items := h.items

theorem Agree.release (h : Agree d pass pass') (hc : pass.Coherent) (hslot : slot.1 = d) (hkey : key.directoryId = d) :
    Agree d (pass.release slot key) (pass'.release slot key) where
  raw k hk := by rw [raw_release, raw_release]; exact h.raw k hk
  same x y hx hy := by rw [parent_release, parent_release]; exact h.same x y hx hy
  holders slot' hslot' k := by
    rw [holdersOf_release, holdersOf_release]
    split
    · simp only [List.mem_filter, decide_eq_true_eq, h.holders slot hslot]
      refine and_congr_right fun hk => not_congr (h.same k key ?_ hkey)
      rw [hc.holders_directory slot k ((h.holders slot hslot k).mpr hk), hslot]
    · exact h.holders slot' hslot' k
  items item hitem := by rw [items_release, items_release]; exact h.items item hitem

theorem Agree.setItem (h : Agree d pass pass') (slot : DirectoryId × Hex32) (item : Hex64 × RecordKey) :
    Agree d { pass with items := pass.items.set slot item }
      { pass' with items := pass'.items.set slot item } :=
  { h with
    items := fun slot' hslot' => by
      rw [OrderedMap.get_set, OrderedMap.get_set, h.items slot' hslot'] }

theorem Agree.setRecord (h : Agree d pass pass') (key : RecordKey) (next : ContactRecord) :
    Agree d { pass with raw := pass.raw.set key next } { pass' with raw := pass'.raw.set key next } :=
  { h with
    raw := fun k hk => by rw [OrderedMap.get_set, OrderedMap.get_set, h.raw k hk] }

variable {op : ContactOperation}

theorem Agree.follow (h : Agree d pass pass') (hc : pass.Coherent)
    (hop : op.directoryId = d) (next : ContactRecord) :
    Agree d (pass.follow op next) (pass'.follow op next) := by
  have hkey : (recordKey op).directoryId = d := hop
  cases hi : op.action.introduces with
  | some item =>
    have hfiled := h.setItem (op.directoryId, item.1) (item.2, recordKey op)
    have hcoherent := hc.setItem (op.directoryId, item.1) (item.2, recordKey op) rfl
    unfold FirstPass.follow
    simp only [hi]
    split
    · exact hfiled.gain hcoherent hop hkey
    · exact hfiled
  | none =>
    rw [follow_of_not_introduces hi, follow_of_not_introduces hi]
    cases op.action with
    | removeItem itemId =>
      simp only [h.items (op.directoryId, itemId) hop]
      cases hitem : pass'.items.get (op.directoryId, itemId) with
      | none => exact h
      | some item =>
        obtain ⟨pubkey, introducedBy⟩ := item
        have hby : introducedBy.directoryId = d := by
          rw [← h.items (op.directoryId, itemId) hop] at hitem
          exact (hc.items_directory _ _ hitem).trans hop
        have hsame : pass.parent.find introducedBy = pass.parent.find (recordKey op) ↔
            pass'.parent.find introducedBy = pass'.parent.find (recordKey op) :=
          h.same introducedBy (recordKey op) hby hkey
        by_cases hs : pass.parent.find introducedBy = pass.parent.find (recordKey op)
        · simp only [if_pos hs, if_pos (hsame.mp hs)]
          exact h.release hc hop hkey
        · simp only [if_neg hs, if_neg (hsame.not.mp hs)]
          exact h
    | _ => exact h

theorem Agree.step (h : Agree d pass pass') (hc : pass.Coherent)
    (hop : op.directoryId = d) : Agree d (pass.step op) (pass'.step op) := by
  unfold FirstPass.step
  rw [h.raw (recordKey op) hop]
  cases applyOne (pass'.raw.get (recordKey op)) op with
  | none => exact h
  | some next =>
    exact (h.setRecord (recordKey op) next).follow (hc.setRecord (recordKey op) next) hop next

/-- An operation of another directory is not seen from this one. -/
theorem Agree.skip (h : Agree d pass pass') (hc : pass.Coherent)
    (hop : op.directoryId ≠ d) : Agree d (pass.step op) pass' := by
  have hkey : (recordKey op).directoryId ≠ d := hop
  unfold FirstPass.step
  cases applyOne (pass.raw.get (recordKey op)) op with
  | none => exact h
  | some next =>
    have hrecord : Agree d { pass with raw := pass.raw.set (recordKey op) next } pass' :=
      { h with
        raw := fun k hk => by
          change (pass.raw.set _ _).get k = _
          rw [OrderedMap.get_set_of_ne]
          · exact h.raw k hk
          · rintro rfl
            exact hkey hk }
    have hcoherent := hc.setRecord (recordKey op) next
    change Agree d (FirstPass.follow { pass with raw := pass.raw.set (recordKey op) next } op next)
      pass'
    generalize ({ pass with raw := pass.raw.set (recordKey op) next } : FirstPass) = p at *
    have hne : ∀ {x : RecordKey}, x.directoryId = d → x.directoryId ≠ op.directoryId :=
      fun hx heq => hop (heq.symm.trans hx)
    rcases follow_cases p op next with ⟨itemId, pubkey, -, heq⟩ |
      ⟨-, itemId, pubkey, by_, -, -, -, heq⟩ | ⟨-, heq, -⟩
    · have hfiled : Agree d
          { p with items := p.items.set (op.directoryId, itemId) (pubkey, recordKey op) } pass' :=
        { hrecord with
          items := fun item hitem => by
            change (p.items.set _ _).get item = _
            rw [OrderedMap.get_set_of_ne]
            · exact hrecord.items item hitem
            · rintro rfl
              exact hop hitem }
      have hfiledCoherent := hcoherent.setItem (op.directoryId, itemId) (pubkey, recordKey op) rfl
      rw [heq]
      split
      · exact { hfiled with
          same := fun x y hx hy => by
            rw [hfiledCoherent.same_gain_other rfl (hne hx)]
            exact hfiled.same x y hx hy
          holders := fun slot hslot k => by
            rw [holdersOf_gain, if_neg]
            · exact hfiled.holders slot hslot k
            · rintro rfl
              exact hop hslot }
      · exact hfiled
    · rw [heq]
      exact
        { raw := fun k hk => by rw [raw_release]; exact hrecord.raw k hk
          same := fun x y hx hy => by rw [parent_release]; exact hrecord.same x y hx hy
          holders := fun slot hslot k => by
            rw [holdersOf_release, if_neg]
            · exact hrecord.holders slot hslot k
            · rintro rfl
              exact hop hslot
          items := fun item hitem => by rw [items_release]; exact hrecord.items item hitem }
    · rw [heq]
      exact hrecord

end FirstPass

theorem agree_firstPass (d : DirectoryId) (ops : List ContactOperation) :
    FirstPass.Agree d (firstPass ops) (firstPass (ops.filter fun op => op.directoryId = d)) := by
  induction ops using List.reverseRecOn with
  | nil => exact FirstPass.agree_start d
  | append_singleton ops op ih =>
    have hrun : ∀ ops : List ContactOperation, firstPass (ops ++ [op]) = (firstPass ops).step op :=
      fun _ => List.foldl_append
    rw [hrun, List.filter_append]
    by_cases hop : op.directoryId = d
    · rw [List.filter_cons_of_pos (by simpa using hop), List.filter_nil, hrun]
      exact ih.step (coherent_firstPass ops) hop
    · rw [List.filter_cons_of_neg (by simpa using hop), List.filter_nil, List.append_nil]
      exact ih.skip (coherent_firstPass ops) hop

/-! ## Sorting a part -/

variable {ops : List ContactOperation}

theorem sortOperations_filter (hids : OperationIdsAgree ops) (q : ContactOperation → Bool) :
    sortOperations (ops.filter q) = (sortOperations ops).filter q :=
  (filter_insertionSort q fun a ha b hb hab hba => hids a ha b hb (operationLE_antisymm hab hba)).symm

theorem logRows_filter (hids : OperationIdsAgree ops) (q : RecordKey → Bool) :
    logRows (ops.filter fun op => q (recordKey op))
      = (logRows ops).filter fun row => q row.sourceKey := by
  unfold logRows
  rw [sortOperations_filter hids, filter_markFirstAdds q (sortOperations ops) fun _ _ => Iff.rfl]

theorem contactKeys_filter (hids : OperationIdsAgree ops) (q : RecordKey → Bool) :
    contactKeys (ops.filter fun op => q (recordKey op)) = (contactKeys ops).filter q := by
  rw [contactKeys_eq, contactKeys_eq, filter_distinct, sortOperations_filter hids]
  congr 1
  rw [List.filter_filter, List.filter_map, List.filter_filter]
  congr 1
  exact List.filter_congr fun op _ => Bool.and_comm _ _

/-! ## Classes -/

/-- The class of a contact id. -/
def classOf (ops : List ContactOperation) (key : RecordKey) : List RecordKey :=
  classAt (rootOf ops) (contactKeys ops) (rootOf ops key)

variable {key : RecordKey}

theorem mem_classOf {other : RecordKey} :
    other ∈ classOf ops key ↔ other ∈ contactKeys ops ∧ rootOf ops other = rootOf ops key :=
  mem_classAt

theorem canonical_eq_headD (hkey : key ∈ contactKeys ops) :
    (contextOf ops).canonical key = (classOf ops key).headD key := by
  rw [canonical_contextOf, leaderOf, if_pos hkey]
  rfl

theorem canonical_eq_self_iff {other : RecordKey} (hkey : key ∈ contactKeys ops)
    (hc : (contextOf ops).canonical key = key) :
    (contextOf ops).canonical other = key ↔ other ∈ classOf ops key := by
  rw [mem_classOf]
  constructor
  · intro h
    have hother : other ∈ contactKeys ops := by
      by_contra hnot
      have hself : (contextOf ops).canonical other = other := by
        rw [canonical_contextOf]
        exact leaderOf_of_not_mem hnot
      rw [hself] at h
      exact hnot (h ▸ hkey)
    exact ⟨hother, (canonical_eq_iff hother hkey).mp (h.trans hc.symm)⟩
  · rintro ⟨hother, hroot⟩
    rw [(canonical_eq_iff hother hkey).mpr hroot, hc]

theorem merges_iff : merges ops = true ↔
    ∃ a ∈ contactKeys ops, ∃ b ∈ contactKeys ops, a ≠ b ∧ rootOf ops a = rootOf ops b := by
  have hnodup : (contactKeys ops).Nodup := OrderedMap.nodup_keys _
  constructor
  · intro h
    unfold merges at h
    obtain ⟨group, hgroup, hlen⟩ := List.any_eq_true.mp h
    obtain ⟨key, hkey, rfl⟩ := mem_classes_iff.mp hgroup
    have hlen : 1 < (classAt (rootOf ops) (contactKeys ops) (rootOf ops key)).length :=
      of_decide_eq_true hlen
    have hclass := hnodup.filter fun k => decide (rootOf ops k = rootOf ops key)
    change (classAt _ _ _).Nodup at hclass
    cases hc : classAt (rootOf ops) (contactKeys ops) (rootOf ops key) with
    | nil => rw [hc] at hlen; simp at hlen
    | cons a rest =>
      cases rest with
      | nil => rw [hc] at hlen; simp at hlen
      | cons b rest =>
        rw [hc] at hclass
        have ha := mem_classAt.mp (hc ▸ List.mem_cons_self)
        have hb := mem_classAt.mp (hc ▸ List.mem_cons_of_mem a List.mem_cons_self)
        refine ⟨a, ha.1, b, hb.1, ?_, ha.2.trans hb.2.symm⟩
        rintro rfl
        simp at hclass
  · rintro ⟨a, ha, b, hb, hne, hroot⟩
    by_contra hnot
    have hclass := classAt_of_not_merges (by simpa using hnot) hb
    have hmem : a ∈ classAt (rootOf ops) (contactKeys ops) (rootOf ops b) :=
      mem_classAt.mpr ⟨ha, hroot⟩
    rw [hclass] at hmem
    exact hne (List.mem_singleton.mp hmem)

/-! ## The record of a group -/

/-- A row does the same under two contexts that redirect it alike and know the same of its
group. -/
theorem groupStep_congr {ctx ctx' : MergeContext} {row : LogRow}
    (hc : ctx.canonical row.sourceKey = ctx'.canonical row.sourceKey)
    (hr : ctx.remap row.op = ctx'.remap row.op)
    (hh : ctx.heldElsewhere row.sourceKey = ctx'.heldElsewhere row.sourceKey)
    (record : Option ContactRecord) : groupStep ctx record row = groupStep ctx' record row := by
  have hreview : ctx.awaitReview row.sourceKey = ctx'.awaitReview row.sourceKey := by
    funext v next
    unfold MergeContext.awaitReview
    rw [hh]
  unfold groupStep
  rw [hr, hc, hreview]

theorem firstAdds_contextOf (ops : List ContactOperation) :
    (contextOf ops).firstAdds = firstAddOf (logRows ops) := by
  unfold contextOf
  split <;> rfl

theorem firstAddOf_filter {q : RecordKey → Bool} {rows : List LogRow} (hq : q key = true) :
    firstAddOf (rows.filter fun row => q row.sourceKey) key = firstAddOf rows key := by
  unfold firstAddOf
  rw [List.find?_filter]
  congr 1
  refine List.find?_congr fun row _ => ?_
  by_cases hkey : row.sourceKey = key
  · simp [hkey, hq]
  · simp [hkey]

/-- **A record depends only on its group**: what lies outside `q`, a part of the log that takes in
the whole class of a contact id and redirects its items alike, does not matter. -/
theorem get_materialise_filter (hids : OperationIdsAgree ops) {q : RecordKey → Bool} (hkey : key ∈ contactKeys ops) (hq : ∀ k ∈ classOf ops key, q k = true)
    (hclass : classOf (ops.filter fun op => q (recordKey op)) key = classOf ops key)
    (hremap : ∀ op ∈ ops, recordKey op ∈ classOf ops key →
      (contextOf ops).canonical key = key →
      (contextOf ops).remapItem (recordKey op)
        = (contextOf (ops.filter fun op => q (recordKey op))).remapItem (recordKey op)) :
    (materialise ops).get key
      = (materialise (ops.filter fun op => q (recordKey op))).get key := by
  set part := ops.filter fun op => q (recordKey op) with hpart
  have hself : key ∈ classOf ops key := mem_classOf.mpr ⟨hkey, rfl⟩
  have hkeyPart : key ∈ contactKeys part := by
    rw [hpart, contactKeys_filter hids]
    exact List.mem_filter.mpr ⟨hkey, hq key hself⟩
  have hcanonical : (contextOf part).canonical key = (contextOf ops).canonical key := by
    rw [canonical_eq_headD hkey, canonical_eq_headD hkeyPart, hclass]
  by_cases hc : (contextOf ops).canonical key = key
  · have hcPart : (contextOf part).canonical key = key := hcanonical.trans hc
    have hredirect : ∀ other, (contextOf ops).canonical other = key ↔
        (contextOf part).canonical other = key := by
      intro other
      rw [canonical_eq_self_iff hkey hc, canonical_eq_self_iff hkeyPart hcPart, hclass]
    have hgroup : (contextOf ops).group key = (contextOf part).group key := by
      have h := group_contextOf hkey
      have h' := group_contextOf hkeyPart
      rw [hc] at h
      rw [hcPart] at h'
      rw [h, h']
      exact hclass.symm
    have hrows : groupRows part key = groupRows ops key := by
      unfold groupRows
      rw [hpart, logRows_filter hids, List.filter_filter]
      refine List.filter_congr fun row _ => ?_
      by_cases hrow : (contextOf ops).canonical row.sourceKey = key
      · have hmem := (canonical_eq_self_iff hkey hc).mp hrow
        simp [hrow, (hredirect _).mp hrow, hq _ hmem, ← hpart]
      · have hrow' := (hredirect row.sourceKey).not.mp hrow
        rw [hpart] at hrow'
        simp [hrow, hrow']
    have hstep : ∀ record, ∀ row ∈ groupRows ops key,
        groupStep (contextOf ops) record row = groupStep (contextOf part) record row := by
      intro record row hrow
      obtain ⟨hlog, hrowc⟩ := mem_groupRows.mp hrow
      have hrowc' := (hredirect _).mp hrowc
      have hmem := (canonical_eq_self_iff hkey hc).mp hrowc
      refine groupStep_congr (hrowc.trans hrowc'.symm) ?_ ?_ record
      · unfold MergeContext.remap
        have hitems := hremap row.op (mem_of_mem_logRows hlog) hmem hc
        have hrowc₂ : (contextOf ops).canonical (recordKey row.op)
            = (contextOf part).canonical (recordKey row.op) := hrowc.trans hrowc'.symm
        rw [hitems, hrowc₂]
      · funext intro
        unfold MergeContext.heldElsewhere
        rw [hrowc, hrowc', hgroup, firstAdds_contextOf, firstAdds_contextOf, hpart,
          logRows_filter hids]
        rw [Bool.eq_iff_iff, List.any_eq_true, List.any_eq_true]
        refine exists_congr fun other => and_congr_right fun hother => ?_
        have hgroupKey := group_contextOf hkeyPart
        rw [hcPart] at hgroupKey
        rw [hgroupKey] at hother
        have hclassMem : other ∈ classOf ops key := hclass ▸ hother
        rw [firstAddOf_filter (hq other hclassMem)]
    rw [get_materialise, get_materialise, recordAfter, recordAfter, hrows,
      runAt_congr (fun s row hrow => hstep s row hrow)]
    congr 1
    funext record
    unfold MergeContext.withMergedIds
    rw [hgroup]
  · have hnone : ∀ ops' : List ContactOperation, (contextOf ops').canonical key ≠ key →
        (materialise ops').get key = none := by
      intro ops' hne
      rw [← Option.not_isSome_iff_eq_none, isSome_get_materialise_iff]
      exact fun h => hne h.2
    rw [hnone ops hc, hnone part (by rw [hcanonical]; exact hc)]

end SignetApp.Contacts
