import SignetApp.Collections.Holding
import SignetApp.Contacts.FirstPass

/-!
# What the first pass computes

The ledger of a replay says which contact ids gained a key while another group held it, and which
ids hold which key, with relations and without a union-find, holder sets or an item map. The first
pass implements it as long as every item id is introduced once (`simulates_firstPass`).
-/

namespace SignetApp.Contacts

open SignetApp.Js

/-- A key in a directory. -/
abbrev KeySlot := DirectoryId × Hex64

/-- An item id in a directory. -/
abbrev ItemSlot := DirectoryId × Hex32

/-- What has happened so far in a replay. -/
structure Ledger where
  /-- Each contact id's own record. -/
  records : RecordKey → Option ContactRecord
  holding : Holding RecordKey KeySlot
  /-- `introduced item pubkey key`: an operation on `key` introduced the item with the key. -/
  introduced : ItemSlot → Hex64 → RecordKey → Prop

namespace Ledger

def start : Ledger := ⟨fun _ => none, .empty, fun _ _ _ => False⟩

/-- The record an operation leaves, `none` when it does not apply. -/
def applied (l : Ledger) (op : ContactOperation) : Option ContactRecord :=
  applyOne (l.records (recordKey op)) op

/-- A `remove-item` of a key: it names an item introduced with it in its own contact's group. -/
def Removes (l : Ledger) (op : ContactOperation) (slot : KeySlot) : Prop :=
  ∃ itemId key, op.action = .removeItem itemId ∧ slot.1 = op.directoryId ∧
    l.introduced (op.directoryId, itemId) slot.2 key ∧ l.holding.Same key (recordKey op)

/-- The ledger after an operation that left a record. -/
def follow (l : Ledger) (op : ContactOperation) (next : ContactRecord) : Ledger :=
  let records := Function.update l.records (recordKey op) (some next)
  match op.action.introduces with
  | some (itemId, pubkey) =>
    { records
      holding := l.holding.gain (op.directoryId, pubkey) (recordKey op)
      introduced := fun item pk key => l.introduced item pk key ∨
        (item = (op.directoryId, itemId) ∧ pk = pubkey ∧ key = recordKey op) }
  | none => { l with records, holding := l.holding.release (l.Removes op) (recordKey op) }

def step (l : Ledger) (op : ContactOperation) : Ledger :=
  match l.applied op with
  | none => l
  | some next => l.follow op next

end Ledger

/-- The ledger after a list of operations. -/
def ledgerOf (ops : List ContactOperation) : Ledger := ops.foldl Ledger.step .start

theorem ledgerOf_append (xs ys : List ContactOperation) :
    ledgerOf (xs ++ ys) = ys.foldl Ledger.step (ledgerOf xs) := List.foldl_append

def introducedItem (op : ContactOperation) : Option ItemSlot :=
  op.action.introduces.map fun item => (op.directoryId, item.1)

/-- Each item id is introduced by one operation. -/
def FreshItems (ops : List ContactOperation) : Prop := (ops.filterMap introducedItem).Nodup

/-! ## Items of a record -/

@[simp] theorem identities_linkContactList (record : ContactRecord) (owner : Hex64) (at_ : Timestamp) :
    (linkContactList record owner at_).identities = record.identities := by
  unfold linkContactList
  split <;> rfl

@[simp] theorem identities_unlinkContactList (record : ContactRecord) (owner : Hex64)
    (at_ : Timestamp) : (unlinkContactList record owner at_).identities = record.identities := by
  unfold unlinkContactList
  grind

@[simp] theorem identities_removeContactLists (record : ContactRecord) (at_ : Timestamp) :
    (removeContactLists record at_).identities = record.identities := by
  unfold removeContactLists
  split <;> rfl

/-- An item of a record was there before, or is what the operation introduces. -/
theorem itemIds_mutate {record next : ContactRecord} {op : ContactOperation}
    (h : mutate record op = some next) :
    ∀ i ∈ next.identities, (∃ j ∈ record.identities, j.itemId = i.itemId) ∨
      ∃ pubkey, op.action.introduces = some (i.itemId, pubkey) := by
  have hkept : ∀ i ∈ record.identities, ∃ j ∈ record.identities, j.itemId = i.itemId :=
    fun i hi => ⟨i, hi, rfl⟩
  intro i hi
  unfold mutate at h
  cases ha : op.action with
  | addIdentity v =>
    simp only [ha] at h
    split at h
    · split at h
      · cases h; exact .inl (hkept i hi)
      · cases h
        have hmem := List.mem_map_of_mem (f := ContactIdentity.itemId) hi
        dsimp only at hmem
        rw [map_modifyFirst] at hmem
        · exact .inl (List.mem_map.mp hmem)
        · exact fun _ => rfl
    · cases h
      rcases List.mem_append.mp hi with hi | hi
      · exact .inl (hkept i hi)
      · cases List.mem_singleton.mp hi
        exact .inr ⟨v.pubkey, rfl⟩
  | keyLink v =>
    simp only [ha] at h
    split at h
    · cases h; exact .inl (hkept i hi)
    · cases h
      rcases List.mem_append.mp hi with hi | hi
      · exact .inl (hkept i hi)
      · cases List.mem_singleton.mp hi
        exact .inr ⟨v.pubkey, rfl⟩
  | updateIdentity v | evidence v =>
    simp only [ha] at h
    split at h
    · cases h
    · cases h
      obtain ⟨j, hj, rfl⟩ := List.mem_map.mp hi
      refine .inl ⟨j, hj, ?_⟩
      split <;> rfl
  | removeItem itemId =>
    simp only [ha] at h
    split at h
    · cases h; exact .inl (hkept i hi)
    · cases h; exact .inl (hkept i (List.mem_of_mem_filter hi))
  | _ =>
    have hlink := identities_linkContactList
    have hunlink := identities_unlinkContactList
    have hremove := identities_removeContactLists
    simp only [ha] at h
    have heq : next.identities = record.identities := by grind [ContactRecord.touch]
    rw [heq] at hi
    exact .inl (hkept i hi)

theorem identities_addContact (record : Option ContactRecord) (op : ContactOperation)
    (v : AddContactValue) :
    (addContact record op v).identities = (record.map ContactRecord.identities).getD [] := by
  have hlink := identities_linkContactList
  have happly : (applyAdd record op v).identities = (record.map ContactRecord.identities).getD [] := by
    unfold applyAdd
    cases record with
    | none => rfl
    | some r => simp only; split <;> rfl
  unfold addContact chooseList proposeContact
  grind

theorem itemIds_applyOne {record : Option ContactRecord} {next : ContactRecord}
    {op : ContactOperation} (h : applyOne record op = some next) :
    ∀ i ∈ next.identities, (∃ r, record = some r ∧ ∃ j ∈ r.identities, j.itemId = i.itemId) ∨
      ∃ pubkey, op.action.introduces = some (i.itemId, pubkey) := by
  intro i hi
  by_cases hadd : op.action.isAdd = true
  · obtain ⟨v, hv⟩ := ContactAction.isAdd_iff.mp hadd
    rw [applyOne_add _ hv] at h
    cases h
    rw [identities_addContact] at hi
    cases record with
    | none => cases hi
    | some r => exact .inl ⟨r, rfl, i, hi, rfl⟩
  · have hadd : op.action.isAdd = false := by simpa using hadd
    cases record with
    | none => rw [applyOne_none hadd] at h; cases h
    | some r =>
      rw [applyOne_some r hadd] at h
      split at h
      · cases h
      · rcases itemIds_mutate h i hi with hold | hnew
        · exact .inl ⟨r, rfl, hold⟩
        · exact .inr hnew

variable {pubkey : Hex64} {itemId : Hex32}

/-- An operation that introduces a new item puts its key on the record. -/
theorem holds_key_of_introduces {record : Option ContactRecord} {next : ContactRecord}
    {op : ContactOperation}
    (h : applyOne record op = some next) (hi : op.action.introduces = some (itemId, pubkey))
    (hnew : ∀ r ∈ record, ∀ i ∈ r.identities, i.itemId ≠ itemId) :
    next.identities.any (fun i => i.pubkey = pubkey) = true := by
  have hadd : op.action.isAdd = false := by
    cases ha : op.action <;> rw [ha] at hi <;> first | rfl | cases hi
  cases record with
  | none => rw [applyOne_none hadd] at h; cases h
  | some r =>
    have hnew : ∀ i ∈ r.identities, i.itemId ≠ itemId := hnew r rfl
    rw [applyOne_some r hadd] at h
    split at h
    · cases h
    · unfold mutate at h
      cases ha : op.action with
      | addIdentity v =>
        rw [ha] at hi
        cases hi
        simp only [ha] at h
        split at h
        · next existing hfind =>
          -- The identity that was found has the key, for it cannot have the item.
          have hmem := List.mem_of_find?_eq_some hfind
          have hmatch := List.find?_some hfind
          have hkey : existing.pubkey = v.pubkey := by
            rcases of_decide_eq_true hmatch with hitem | hkey
            · exact absurd hitem (hnew existing hmem)
            · exact hkey
          have hpubkey := List.mem_map_of_mem (f := ContactIdentity.pubkey) hmem
          rw [hkey] at hpubkey
          have hany : ∀ is : List ContactIdentity, v.pubkey ∈ is.map ContactIdentity.pubkey →
              is.any (fun i => i.pubkey = v.pubkey) = true := fun is h => by
            obtain ⟨i, hi, hik⟩ := List.mem_map.mp h
            exact List.any_eq_true.mpr ⟨i, hi, by simpa using hik⟩
          split at h
          · cases h
            exact hany _ hpubkey
          · cases h
            refine hany _ ?_
            change _ ∈ List.map _ (modifyFirst _ _ _)
            rw [map_modifyFirst]
            · exact hpubkey
            · exact fun _ => rfl
        · cases h
          exact List.any_eq_true.mpr ⟨_, List.mem_append_right _ List.mem_cons_self, by simp⟩
      | keyLink v =>
        rw [ha] at hi
        cases hi
        simp only [ha] at h
        split at h
        · next hany =>
          obtain ⟨i, hmem, hitem⟩ := List.any_eq_true.mp hany
          exact absurd (of_decide_eq_true hitem) (hnew i hmem)
        · cases h
          exact List.any_eq_true.mpr ⟨_, List.mem_append_right _ List.mem_cons_self, by simp⟩
      | _ => rw [ha] at hi; cases hi

/-! ## Simulation -/

/-- The first pass agrees with the ledger, whose records hold introduced items only. -/
structure Simulates (pass : FirstPass) (l : Ledger) : Prop where
  records : ∀ key, pass.raw.get key = l.records key
  holding : Holding.Implements pass.parent pass.holdersOf l.holding
  items : ∀ item pubkey key, pass.items.get item = some (pubkey, key) ↔ l.introduced item pubkey key
  known : ∀ key, ∀ r ∈ l.records key, ∀ i ∈ r.identities,
    ∃ pubkey key', l.introduced (key.directoryId, i.itemId) pubkey key'

theorem simulates_start : Simulates .start .start where
  records _ := rfl
  holding := Holding.Implements.empty
  items _ _ _ := ⟨fun h => (by cases h), False.elim⟩
  known _ _ h := by cases h

variable {pass : FirstPass} {l : Ledger} {op : ContactOperation} {next : ContactRecord}

theorem get_setRecord (h : Simulates pass l) (op : ContactOperation) (next : ContactRecord)
    (key : RecordKey) :
    (pass.raw.set (recordKey op) next).get key
      = Function.update l.records (recordKey op) (some next) key := by
  rw [OrderedMap.get_set, Function.update_apply, h.records]

theorem known_update (h : Simulates pass l) (happly : l.applied op = some next) (key : RecordKey) :
    ∀ r ∈ Function.update l.records (recordKey op) (some next) key, ∀ i ∈ r.identities,
      (∃ pubkey key', l.introduced (key.directoryId, i.itemId) pubkey key') ∨
        (key = recordKey op ∧ ∃ pubkey, op.action.introduces = some (i.itemId, pubkey)) := by
  intro r hr i hi
  rw [Function.update_apply] at hr
  by_cases hkey : key = recordKey op
  · rw [if_pos hkey] at hr
    cases hr
    rcases itemIds_applyOne happly i hi with ⟨r, hr, j, hj, hij⟩ | hnew
    · obtain ⟨pubkey, key', hknown⟩ := h.known (recordKey op) r hr j hj
      exact .inl ⟨pubkey, key', by rw [hkey, ← hij]; exact hknown⟩
    · exact .inr ⟨hkey, hnew⟩
  · rw [if_neg hkey] at hr
    exact .inl (h.known key r hr i hi)

/-- What a record gains in the first pass, its ledger says it gains. -/
theorem Simulates.follow_introduces (h : Simulates pass l) (happly : l.applied op = some next) (hi : op.action.introduces = some (itemId, pubkey))
    (hfresh : ∀ pk key, ¬ l.introduced (op.directoryId, itemId) pk key) :
    Simulates ({ pass with raw := pass.raw.set (recordKey op) next }.follow op next)
      (l.follow op next) := by
  have hany : next.identities.any (fun i => i.pubkey = pubkey) = true := by
    refine holds_key_of_introduces happly hi fun r hr i hmem heq => ?_
    obtain ⟨pk, key, hknown⟩ := h.known _ r hr i hmem
    rw [heq] at hknown
    exact hfresh pk key hknown
  have hledger : l.follow op next =
      { records := Function.update l.records (recordKey op) (some next)
        holding := l.holding.gain (op.directoryId, pubkey) (recordKey op)
        introduced := fun item pk key => l.introduced item pk key ∨
          (item = (op.directoryId, itemId) ∧ pk = pubkey ∧ key = recordKey op) } := by
    simp only [Ledger.follow, hi]
  have hpass := FirstPass.follow_cases { pass with raw := pass.raw.set (recordKey op) next } op next
  rw [hi] at hpass
  rcases hpass with ⟨_, _, heq, hfollow⟩ | ⟨hnone, -⟩ | ⟨hnone, -⟩
  · cases heq
    rw [hfollow, if_pos hany, hledger]
    refine ⟨get_setRecord h op next, ?_, fun item pk key => ?_, fun key r hr i hmem => ?_⟩
    · exact h.holding.gain _ _ fun t => FirstPass.holdersOf_gain _ _ t _
    · change (pass.items.set _ _).get item = _ ↔ _
      rw [OrderedMap.get_set]
      by_cases hitem : item = (op.directoryId, itemId)
      · rw [if_pos hitem, hitem]
        simp [hfresh, eq_comm]
      · rw [if_neg hitem, h.items]
        simp [hitem]
    · rcases known_update h happly key r hr i hmem with ⟨pk, key', hold⟩ | ⟨rfl, pk, hnew⟩
      · exact ⟨pk, key', .inl hold⟩
      · rw [hi] at hnew
        cases hnew
        exact ⟨_, _, .inr ⟨rfl, rfl, rfl⟩⟩
  · cases hnone
  · cases hnone

/-- What a group lets go of in the first pass, its ledger says it lets go of. -/
theorem Simulates.follow_not_introduces (h : Simulates pass l) (happly : l.applied op = some next)
    (hi : op.action.introduces = none) :
    Simulates ({ pass with raw := pass.raw.set (recordKey op) next }.follow op next)
      (l.follow op next) := by
  have hledger : l.follow op next =
      { l with
        records := Function.update l.records (recordKey op) (some next)
        holding := l.holding.release (l.Removes op) (recordKey op) } := by
    simp only [Ledger.follow, hi]
  have hknown : ∀ key, ∀ r ∈ Function.update l.records (recordKey op) (some next) key,
      ∀ i ∈ r.identities, ∃ pubkey key', l.introduced (key.directoryId, i.itemId) pubkey key' := by
    intro key r hr i hmem
    rcases known_update h happly key r hr i hmem with hold | ⟨-, pubkey, hnew⟩
    · exact hold
    · rw [hi] at hnew
      cases hnew
  rw [hledger]
  rcases FirstPass.follow_cases { pass with raw := pass.raw.set (recordKey op) next } op next with
    ⟨_, _, hsome, -⟩ | ⟨-, itemId, pubkey, introducedBy, haction, hitem, hsame, hfollow⟩ |
    ⟨-, hfollow, hnot⟩
  · rw [hi] at hsome
    cases hsome
  · -- The item has one key and one introducer, so this is the one key removed.
    have hremoves : ∀ t, l.Removes op t ↔ t = (op.directoryId, pubkey) := by
      rintro ⟨d, pk⟩
      constructor
      · rintro ⟨itemId', key, haction', rfl, hintro, -⟩
        rw [haction] at haction'
        cases haction'
        have hget : pass.items.get (op.directoryId, itemId) = some (pk, key) :=
          (h.items _ _ _).mpr hintro
        rw [hitem] at hget
        cases hget
        rfl
      · rintro heq
        cases heq
        exact ⟨itemId, introducedBy, haction, rfl, (h.items _ _ _).mp hitem,
          h.holding.same.mp hsame⟩
    rw [hfollow]
    refine ⟨fun key => ?_, ?_, fun item pk key => ?_, hknown⟩
    · rw [FirstPass.raw_release]
      exact get_setRecord h op next key
    · rw [FirstPass.parent_release]
      refine h.holding.release fun t x => ?_
      rw [FirstPass.holdersOf_release, hremoves]
      by_cases ht : t = (op.directoryId, pubkey)
      · rw [if_pos ht, List.mem_filter, ht]
        simp only [decide_eq_true_eq, true_and]
        rfl
      · rw [if_neg ht]
        simp only [ht, false_and, not_false_eq_true, and_true]
        rfl
    · rw [FirstPass.items_release]
      exact h.items item pk key
  · have hremoves : ∀ t, ¬ l.Removes op t := by
      rintro t ⟨itemId, key, haction, -, hintro, hsame⟩
      exact hnot itemId haction _ key ((h.items _ _ _).mpr hintro) (h.holding.same.mpr hsame)
    rw [hfollow]
    refine ⟨get_setRecord h op next, ?_, h.items, hknown⟩
    refine h.holding.release fun t x => ?_
    simp [hremoves t]
    rfl

theorem Simulates.step (h : Simulates pass l)
    (hfresh : ∀ item ∈ introducedItem op, ∀ pubkey key, ¬ l.introduced item pubkey key) :
    Simulates (pass.step op) (l.step op) := by
  have happlied : applyOne (pass.raw.get (recordKey op)) op = l.applied op := by
    rw [h.records]
    rfl
  unfold FirstPass.step Ledger.step
  rw [happlied]
  cases happly : l.applied op with
  | none => exact h
  | some next =>
    cases hi : op.action.introduces with
    | some item =>
      exact h.follow_introduces happly hi (hfresh _ (by rw [introducedItem, hi]; rfl))
    | none => exact h.follow_not_introduces happly hi

/-! ## The ledger of a whole log -/

variable {ops : List ContactOperation}

theorem mem_of_introduced {item : ItemSlot}
    {key : RecordKey} (h : (ledgerOf ops).introduced item pubkey key) :
    item ∈ ops.filterMap introducedItem := by
  induction ops using List.reverseRecOn with
  | nil => cases h
  | append_singleton ops op ih =>
    have hmono : (ledgerOf ops).introduced item pubkey key →
        item ∈ (ops ++ [op]).filterMap introducedItem := fun hold => by
      rw [List.filterMap_append]
      exact List.mem_append_left _ (ih hold)
    rw [ledgerOf_append] at h
    change ((ledgerOf ops).step op).introduced item pubkey key at h
    unfold Ledger.step at h
    split at h
    · exact hmono h
    · unfold Ledger.follow at h
      cases hi : op.action.introduces with
      | none =>
        simp only [hi] at h
        exact hmono h
      | some introduced =>
        simp only [hi] at h
        rcases h with h | ⟨rfl, -, -⟩
        · exact hmono h
        · exact List.mem_filterMap.mpr ⟨op, by simp, by rw [introducedItem, hi]; rfl⟩

theorem FreshItems.of_append {xs ys : List ContactOperation} (h : FreshItems (xs ++ ys)) :
    FreshItems xs := by
  unfold FreshItems at h ⊢
  rw [List.filterMap_append] at h
  exact (List.nodup_append.mp h).1

theorem simulates_firstPass (hfresh : FreshItems ops) :
    Simulates (firstPass ops) (ledgerOf ops) := by
  induction ops using List.reverseRecOn with
  | nil => exact simulates_start
  | append_singleton ops op ih =>
    have hrun : firstPass (ops ++ [op]) = (firstPass ops).step op := List.foldl_append
    rw [hrun, ledgerOf_append]
    refine (ih hfresh.of_append).step fun item hitem pubkey key hintro => ?_
    -- An item introduced before and again would stand in the list twice.
    have hold := mem_of_introduced hintro
    unfold FreshItems at hfresh
    rw [List.filterMap_append, List.nodup_append] at hfresh
    have hnew : item ∈ [op].filterMap introducedItem := List.mem_filterMap.mpr ⟨op, by simp, hitem⟩
    exact hfresh.2.2 item hold item hnew rfl

end SignetApp.Contacts
