import SignetApp.Contacts.Groups

/-!
# Invariants of the first pass

Classes, holders and introduced items stay within one directory, and only ids that have a record
hold keys or share classes.
-/

namespace SignetApp.Contacts

open SignetApp.Js

namespace FirstPass

/-! ## Operations on the bookkeeping -/

@[simp] theorem raw_gain (pass : FirstPass) (slot : DirectoryId × Hex64) (key : RecordKey) :
    (pass.gain slot key).raw = pass.raw := rfl

@[simp] theorem parent_gain (pass : FirstPass) (slot : DirectoryId × Hex64) (key : RecordKey) :
    (pass.gain slot key).parent = pass.parent.links key (pass.holdersOf slot) := rfl

theorem holdersOf_gain (pass : FirstPass) (slot slot' : DirectoryId × Hex64) (key : RecordKey) :
    (pass.gain slot key).holdersOf slot'
      = if slot' = slot then insertNew (pass.holdersOf slot) key else pass.holdersOf slot' := by
  change ((pass.holders.set slot _).get slot').getD [] = _
  rw [OrderedMap.get_set]
  split <;> rfl

@[simp] theorem raw_release (pass : FirstPass) (slot : DirectoryId × Hex64) (key : RecordKey) :
    (pass.release slot key).raw = pass.raw := by
  unfold release
  split <;> rfl

@[simp] theorem items_release (pass : FirstPass) (slot : DirectoryId × Hex64) (key : RecordKey) :
    (pass.release slot key).items = pass.items := by
  unfold release
  split <;> rfl

@[simp] theorem parent_release (pass : FirstPass) (slot : DirectoryId × Hex64) (key : RecordKey) :
    (pass.release slot key).parent = pass.parent := by
  unfold release
  split <;> rfl

theorem holdersOf_release (pass : FirstPass) (slot slot' : DirectoryId × Hex64) (key : RecordKey) :
    (pass.release slot key).holdersOf slot'
      = if slot' = slot then (pass.holdersOf slot).filter fun h => ¬ pass.parent.Same h key
        else pass.holdersOf slot' := by
  unfold release holdersOf
  cases hslot : pass.holders.get slot with
  | none =>
    by_cases hs : slot' = slot
    · simp [hs, hslot]
    · simp [hs]
  | some current =>
    simp only [OrderedMap.get_set]
    by_cases hs : slot' = slot
    · rw [if_pos hs, if_pos hs]
      rfl
    · rw [if_neg hs, if_neg hs]

theorem follow_of_not_introduces {op : ContactOperation} (h : op.action.introduces = none)
    (pass : FirstPass) (next : ContactRecord) :
    pass.follow op next =
      match op.action with
      | .removeItem itemId =>
        match pass.items.get (op.directoryId, itemId) with
        | some (pubkey, introducedBy) =>
          if pass.parent.find introducedBy = pass.parent.find (recordKey op) then
            pass.release (op.directoryId, pubkey) (recordKey op)
          else pass
        | none => pass
      | _ => pass := by
  simp only [follow, h] <;> rfl

/-- **What following an operation does.** It files an introduced item, and the record gains the
item's key if it holds it; or it releases the key of a removed item; or it does nothing. -/
theorem follow_cases (pass : FirstPass) (op : ContactOperation) (next : ContactRecord) :
    (∃ itemId pubkey, op.action.introduces = some (itemId, pubkey) ∧
      let filed := { pass with
        items := pass.items.set (op.directoryId, itemId) (pubkey, recordKey op) }
      pass.follow op next
        = if next.identities.any (fun i => i.pubkey = pubkey) then
            filed.gain (op.directoryId, pubkey) (recordKey op)
          else filed) ∨
    (op.action.introduces = none ∧ ∃ itemId pubkey introducedBy, op.action = .removeItem itemId ∧
      pass.items.get (op.directoryId, itemId) = some (pubkey, introducedBy) ∧
      pass.parent.Same introducedBy (recordKey op) ∧
      pass.follow op next = pass.release (op.directoryId, pubkey) (recordKey op)) ∨
    (op.action.introduces = none ∧ pass.follow op next = pass ∧
      ∀ itemId, op.action = .removeItem itemId → ∀ pubkey introducedBy,
        pass.items.get (op.directoryId, itemId) = some (pubkey, introducedBy) →
        ¬ pass.parent.Same introducedBy (recordKey op)) := by
  cases hi : op.action.introduces with
  | some item =>
    refine .inl ⟨item.1, item.2, rfl, ?_⟩
    simp only [follow, hi]
  | none =>
    have hfollow := follow_of_not_introduces hi pass next
    cases ha : op.action with
    | removeItem itemId =>
      simp only [ha] at hfollow
      cases hitem : pass.items.get (op.directoryId, itemId) with
      | none =>
        refine .inr (.inr ⟨rfl, by rw [hfollow, hitem], fun id hid => ?_⟩)
        cases hid
        simp [hitem]
      | some item =>
        by_cases hsame : pass.parent.Same item.2 (recordKey op)
        · refine .inr (.inl ⟨rfl, itemId, item.1, item.2, rfl, hitem, hsame, ?_⟩)
          rw [hfollow, hitem]
          exact if_pos hsame
        · refine .inr (.inr ⟨rfl, ?_, fun id hid pubkey introducedBy hget => ?_⟩)
          · rw [hfollow, hitem]
            exact if_neg hsame
          · cases hid
            rw [hitem] at hget
            cases hget
            exact hsame
    | _ =>
      simp only [ha] at hfollow
      exact .inr (.inr ⟨rfl, hfollow, fun id hid => by cases hid⟩)

/-! ## Coherence -/

/-- The bookkeeping names only ids that have a record, within one directory. -/
structure Coherent (pass : FirstPass) : Prop where
  holders_mem : ∀ slot, ∀ h ∈ pass.holdersOf slot, h ∈ pass.raw.keys
  holders_directory : ∀ slot, ∀ h ∈ pass.holdersOf slot, h.directoryId = slot.1
  items_directory : ∀ slot item, pass.items.get slot = some item → item.2.directoryId = slot.1
  find_mem : ∀ k ∈ pass.raw.keys, pass.parent.find k ∈ pass.raw.keys
  find_fresh : ∀ k ∉ pass.raw.keys, pass.parent.find k = k
  find_directory : ∀ k, (pass.parent.find k).directoryId = k.directoryId

theorem coherent_start : start.Coherent where
  holders_mem _ h hh := by cases hh
  holders_directory _ h hh := by cases hh
  items_directory slot item h := by cases h
  find_mem _ h := h
  find_fresh _ _ := rfl
  find_directory _ := rfl

variable {pass : FirstPass}

/-- An id that has no record, kept apart from all that have one. -/
def freshness (pass : FirstPass) (k : RecordKey) : Option RecordKey :=
  if k ∈ pass.raw.keys then none else some k

theorem Coherent.freshness_gain (h : pass.Coherent) (slot : DirectoryId × Hex64) {key : RecordKey}
    (hmem : key ∈ pass.raw.keys) (k : RecordKey) :
    pass.freshness ((pass.parent.links key (pass.holdersOf slot)).find k) = pass.freshness k := by
  refine Forest.find_links_of_respects (g := pass.freshness) (fun k => ?_) (fun b hb => ?_) k
  · by_cases hk : k ∈ pass.raw.keys
    · rw [freshness, freshness, if_pos hk, if_pos (h.find_mem k hk)]
    · rw [h.find_fresh k hk]
  · rw [freshness, freshness, if_pos hmem, if_pos (h.holders_mem slot b hb)]

theorem Coherent.gain (h : pass.Coherent) {slot : DirectoryId × Hex64} {key : RecordKey}
    (hmem : key ∈ pass.raw.keys) (hdir : key.directoryId = slot.1) :
    (pass.gain slot key).Coherent where
  holders_mem slot' k hk := by
    rw [holdersOf_gain] at hk
    split at hk
    · rcases mem_insertNew.mp hk with hk | rfl
      · exact h.holders_mem slot k hk
      · exact hmem
    · exact h.holders_mem slot' k hk
  holders_directory slot' k hk := by
    rw [holdersOf_gain] at hk
    split at hk
    · next hs =>
      rcases mem_insertNew.mp hk with hk | rfl
      · rw [hs]; exact h.holders_directory slot k hk
      · rw [hs]; exact hdir
    · exact h.holders_directory slot' k hk
  items_directory := h.items_directory
  find_mem k hk := by
    have hfresh := h.freshness_gain slot hmem k
    rw [raw_gain] at hk
    rw [parent_gain, raw_gain]
    by_contra hfind
    rw [freshness, freshness, if_pos hk, if_neg hfind] at hfresh
    cases hfresh
  find_fresh k hk := by
    have hfresh := h.freshness_gain slot hmem k
    rw [raw_gain] at hk
    rw [parent_gain]
    rw [freshness, freshness, if_neg hk] at hfresh
    split at hfresh
    · cases hfresh
    · exact Option.some.inj hfresh
  find_directory k := by
    refine Forest.find_links_of_respects (g := RecordKey.directoryId) h.find_directory
      (fun b hb => ?_) k
    rw [h.holders_directory slot b hb, hdir]

theorem Coherent.release (h : pass.Coherent) (slot : DirectoryId × Hex64) (key : RecordKey) :
    (pass.release slot key).Coherent where
  holders_mem slot' k hk := by
    rw [holdersOf_release] at hk
    rw [raw_release]
    split at hk
    · exact h.holders_mem slot k (List.mem_of_mem_filter hk)
    · exact h.holders_mem slot' k hk
  holders_directory slot' k hk := by
    rw [holdersOf_release] at hk
    split at hk
    · next hs => rw [hs]; exact h.holders_directory slot k (List.mem_of_mem_filter hk)
    · exact h.holders_directory slot' k hk
  items_directory slot' item hitem := by
    rw [items_release] at hitem
    exact h.items_directory slot' item hitem
  find_mem k hk := by
    rw [raw_release] at hk
    rw [parent_release, raw_release]
    exact h.find_mem k hk
  find_fresh k hk := by
    rw [raw_release] at hk
    rw [parent_release]
    exact h.find_fresh k hk
  find_directory k := by rw [parent_release]; exact h.find_directory k

theorem Coherent.setItem (h : pass.Coherent) (slot : DirectoryId × Hex32) (item : Hex64 × RecordKey)
    (hdir : item.2.directoryId = slot.1) :
    ({ pass with items := pass.items.set slot item } : FirstPass).Coherent :=
  { h with
    items_directory := fun slot' item' hitem => by
      rw [OrderedMap.get_set] at hitem
      split at hitem
      · next hs => cases hitem; rw [hs]; exact hdir
      · exact h.items_directory slot' item' hitem }

theorem Coherent.setRecord (h : pass.Coherent) (key : RecordKey) (next : ContactRecord) :
    ({ pass with raw := pass.raw.set key next } : FirstPass).Coherent :=
  have hsub : ∀ k ∈ pass.raw.keys, k ∈ (pass.raw.set key next).keys := by
    intro k hk
    rw [OrderedMap.keys_set]
    split
    · exact hk
    · exact List.mem_append_left _ hk
  { h with
    holders_mem := fun slot k hk => hsub k (h.holders_mem slot k hk)
    find_mem := fun k hk => by
      by_cases hold : k ∈ pass.raw.keys
      · exact hsub _ (h.find_mem k hold)
      · change pass.parent.find k ∈ _
        rw [h.find_fresh k hold]
        exact hk
    find_fresh := fun k hk => h.find_fresh k fun hold => hk (hsub k hold) }

theorem mem_keys_setRecord (m : OrderedMap RecordKey ContactRecord) (key : RecordKey)
    (next : ContactRecord) : key ∈ (m.set key next).keys := by
  rw [OrderedMap.mem_keys_iff, OrderedMap.get_set_self]
  rfl

theorem Coherent.follow (h : pass.Coherent) {op : ContactOperation} (next : ContactRecord)
    (hmem : recordKey op ∈ pass.raw.keys) : (pass.follow op next).Coherent := by
  rcases follow_cases pass op next with ⟨itemId, pubkey, -, heq⟩ | ⟨-, _, _, _, -, -, -, heq⟩ |
    ⟨-, heq, -⟩
  · have hfiled := h.setItem (op.directoryId, itemId) (pubkey, recordKey op) rfl
    rw [heq]
    split
    · exact hfiled.gain hmem rfl
    · exact hfiled
  · rw [heq]
    exact h.release _ _
  · rw [heq]
    exact h

theorem Coherent.step (h : pass.Coherent) (op : ContactOperation) : (pass.step op).Coherent := by
  unfold FirstPass.step
  cases applyOne (pass.raw.get (recordKey op)) op with
  | none => exact h
  | some next =>
    exact (h.setRecord (recordKey op) next).follow next (mem_keys_setRecord _ _ _)

theorem Coherent.run (h : pass.Coherent) (ops : List ContactOperation) :
    (ops.foldl FirstPass.step pass).Coherent := by
  induction ops generalizing pass with
  | nil => exact h
  | cons op ops ih => exact ih (h.step op)

end FirstPass

variable (ops : List ContactOperation)

theorem coherent_firstPass : (firstPass ops).Coherent :=
  FirstPass.coherent_start.run ops

/-! ## Groups stay within a directory -/

theorem directoryId_rootOf (key : RecordKey) : (rootOf ops key).directoryId = key.directoryId :=
  (coherent_firstPass _).find_directory key

theorem directoryId_canonical (key : RecordKey) :
    ((contextOf ops).canonical key).directoryId = key.directoryId := by
  rw [canonical_contextOf, ← directoryId_rootOf ops, root_leaderOf (rootOf ops),
    directoryId_rootOf]

theorem recordKey_remap (op : ContactOperation) :
    recordKey ((contextOf ops).remap op) = (contextOf ops).canonical (recordKey op) := by
  have h : ((contextOf ops).canonical (recordKey op)).directoryId = op.directoryId :=
    directoryId_canonical ops (recordKey op)
  change RecordKey.mk op.directoryId ((contextOf ops).canonical (recordKey op)).contactId = _
  rw [← h]

end SignetApp.Contacts
