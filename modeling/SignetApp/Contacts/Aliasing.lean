import SignetApp.Contacts.Blocks
import SignetApp.Contacts.GroupRecord
import SignetApp.Contacts.Ledger
import SignetApp.Contacts.Mutations

/-!
# Key aliasing is the gain-while-held relation

Two contact ids end in one record exactly when a chain of links connects them, a link being made
when an operation puts a key on a contact while another contact's group holds it
(`keyAliasing`). A key that was taken off a group makes no link to it until the group holds the key
again, so a block on a contact filed with that key later does not reach the group.
-/

namespace SignetApp.Contacts

open SignetApp.Js

namespace Ledger

/-- An `add-identity` or a `key-link` that applies: it puts a key on its contact. -/
def Puts (l : Ledger) (op : ContactOperation) (slot : KeySlot) : Prop :=
  (l.applied op).isSome = true ∧ slot.1 = op.directoryId ∧
    ∃ itemId, op.action.introduces = some (itemId, slot.2)

/-- A `remove-item` that applies and takes a key off its contact's group. -/
def TakesOff (l : Ledger) (op : ContactOperation) (slot : KeySlot) : Prop :=
  (l.applied op).isSome = true ∧ l.Removes op slot

/-- An operation gives a key back to a contact's group: it makes the group part of a larger one,
either by putting that key on a contact, or together with a group that holds the key. -/
def GivesBack (l : Ledger) (op : ContactOperation) (slot : KeySlot) (x : RecordKey) : Prop :=
  ∃ other, l.Puts op other ∧ l.holding.Joins other (recordKey op) x ∧
    (other = slot ∨ ∃ z, l.holding.Joins other (recordKey op) z ∧ l.holding.GroupHolds slot z)

variable {l : Ledger} {op : ContactOperation} {slot : KeySlot} {x y : RecordKey}

theorem holding_step (l : Ledger) (op : ContactOperation) :
    (∃ other, l.Puts op other ∧ (l.step op).holding = l.holding.gain other (recordKey op)) ∨
      ((∀ other, ¬ l.Puts op other) ∧ (l.applied op).isSome = true ∧
        (l.step op).holding = l.holding.release (l.Removes op) (recordKey op)) ∨
      (l.applied op = none ∧ (l.step op).holding = l.holding) := by
  unfold step
  cases happly : l.applied op with
  | none => exact .inr (.inr ⟨rfl, rfl⟩)
  | some next =>
    unfold follow
    cases hi : op.action.introduces with
    | some item =>
      refine .inl ⟨(op.directoryId, item.2), ⟨by rw [happly]; rfl, rfl, item.1, hi⟩, ?_⟩
      rfl
    | none =>
      refine .inr (.inl ⟨?_, rfl, rfl⟩)
      rintro other ⟨-, -, itemId, hsome⟩
      rw [hi] at hsome
      cases hsome

theorem Puts.unique {other : KeySlot} (h : l.Puts op slot) (h' : l.Puts op other) : other = slot := by
  obtain ⟨-, hdir, itemId, hi⟩ := h
  obtain ⟨-, hdir', itemId', hi'⟩ := h'
  rw [hi] at hi'
  simp only [Option.some.injEq, Prod.mk.injEq] at hi'
  exact Prod.ext (hdir'.trans hdir.symm) hi'.2.symm

theorem Puts.holding_step (h : l.Puts op slot) :
    (l.step op).holding = l.holding.gain slot (recordKey op) := by
  rcases l.holding_step op with ⟨other, hputs, heq⟩ | ⟨hnot, -, -⟩ | ⟨hnone, -⟩
  · rw [heq, h.unique hputs]
  · exact absurd h (hnot slot)
  · have hsome := h.1
    rw [hnone] at hsome
    cases hsome

/-! ## Links -/

theorem linked_step :
    (l.step op).holding.linked x y ↔
      l.holding.linked x y ∨
        (x = recordKey op ∧ ∃ slot, l.Puts op slot ∧ l.holding.GroupHolds slot y) := by
  rcases l.holding_step op with ⟨other, hputs, heq⟩ | ⟨hnot, -, heq⟩ | ⟨hnone, heq⟩
  · rw [heq]
    change _ ∨ (x = _ ∧ _) ↔ _
    refine or_congr_right (and_congr_right fun _ => ⟨fun h => ⟨other, hputs, h⟩, ?_⟩)
    rintro ⟨slot, hputs', h⟩
    rwa [hputs.unique hputs'] at h
  · rw [heq]
    refine (or_iff_left ?_).symm
    rintro ⟨-, slot, hputs, -⟩
    exact hnot slot hputs
  · rw [heq]
    refine (or_iff_left ?_).symm
    rintro ⟨-, slot, ⟨hsome, -⟩, -⟩
    rw [hnone] at hsome
    cases hsome

end Ledger

/-- At some point of the replay, an operation put a key on `x` while the group of `y` held it. -/
def GainedWhileHeld (replay : List ContactOperation) (x y : RecordKey) : Prop :=
  ∃ pre op post slot, replay = pre ++ op :: post ∧ recordKey op = x ∧
    (ledgerOf pre).Puts op slot ∧ (ledgerOf pre).holding.GroupHolds slot y

theorem ledgerOf_concat (ops : List ContactOperation) (op : ContactOperation) :
    ledgerOf (ops ++ [op]) = (ledgerOf ops).step op := ledgerOf_append ops [op]

variable {ops : List ContactOperation}

theorem linked_ledgerOf {x y : RecordKey} :
    (ledgerOf ops).holding.linked x y ↔ GainedWhileHeld ops x y := by
  induction ops using List.reverseRecOn with
  | nil =>
    refine ⟨False.elim, ?_⟩
    rintro ⟨pre, op, post, _, heq, -⟩
    simp at heq
  | append_singleton ops op ih =>
    rw [ledgerOf_concat, Ledger.linked_step, ih]
    constructor
    · rintro (⟨pre, o, post, slot, rfl, hkey, hputs, hholds⟩ | ⟨rfl, slot, hputs, hholds⟩)
      · exact ⟨pre, o, post ++ [op], slot, by simp, hkey, hputs, hholds⟩
      · exact ⟨ops, op, [], slot, rfl, rfl, hputs, hholds⟩
    · rintro ⟨pre, o, post, slot, heq, hkey, hputs, hholds⟩
      rcases List.eq_nil_or_concat post with rfl | ⟨post, last, rfl⟩
      · obtain ⟨rfl, hlast⟩ := List.append_inj' heq rfl
        cases hlast
        exact .inr ⟨hkey.symm, slot, hputs, hholds⟩
      · have heq' : ops ++ [op] = (pre ++ o :: post) ++ [last] := by simpa using heq
        obtain ⟨rfl, -⟩ := List.append_inj' heq' rfl
        exact .inl ⟨pre, o, post, slot, rfl, hkey, hputs, hholds⟩

/-! ## Keys taken off -/

namespace Ledger

variable {l : Ledger} {op : ContactOperation} {slot : KeySlot} {x : RecordKey}

theorem TakesOff.not_groupHolds (h : l.TakesOff op slot) (hx : l.holding.Same x (recordKey op)) :
    ¬ (l.step op).holding.GroupHolds slot x := by
  obtain ⟨happlied, hremoves⟩ := h
  rcases l.holding_step op with ⟨other, ⟨-, -, itemId, hi⟩, -⟩ | ⟨-, -, heq⟩ | ⟨hnone, -⟩
  · obtain ⟨_, _, haction, -⟩ := hremoves
    rw [haction] at hi
    cases hi
  · rw [heq]
    exact Holding.not_groupHolds_release hremoves hx
  · rw [hnone] at happlied
    cases happlied

theorem not_groupHolds_step (h : ¬ l.holding.GroupHolds slot x) (hback : ¬ l.GivesBack op slot x) :
    ¬ (l.step op).holding.GroupHolds slot x := by
  intro hholds
  rcases l.holding_step op with ⟨other, hputs, heq⟩ | ⟨-, -, heq⟩ | ⟨-, heq⟩
  · rw [heq] at hholds
    rcases Holding.groupHolds_gain hholds with hold | ⟨hjoins, hgives⟩
    · exact h hold
    · exact hback ⟨other, hputs, hjoins, hgives⟩
  · rw [heq] at hholds
    exact h (Holding.groupHolds_of_release hholds)
  · rw [heq] at hholds
    exact h hholds

theorem not_groupHolds_run {pre mid : List ContactOperation}
    (h : ¬ (ledgerOf pre).holding.GroupHolds slot x)
    (hback : ∀ a op b, mid = a ++ op :: b → ¬ (ledgerOf (pre ++ a)).GivesBack op slot x) :
    ¬ (ledgerOf (pre ++ mid)).holding.GroupHolds slot x := by
  induction mid using List.reverseRecOn with
  | nil => rwa [List.append_nil]
  | append_singleton mid op ih =>
    rw [← List.append_assoc, ledgerOf_concat]
    refine not_groupHolds_step (ih fun a o b heq => ?_) (hback mid op [] rfl)
    exact hback a o (b ++ [op]) (by rw [heq]; simp)

theorem Puts.same_step (h : l.Puts op slot) (hholds : ¬ l.holding.GroupHolds slot x)
    (hother : ¬ l.holding.Same x (recordKey op)) {y : RecordKey} :
    (l.step op).holding.Same x y ↔ l.holding.Same x y := by
  rw [h.holding_step]
  refine Holding.same_gain_of_not_joins ?_
  rintro (hsame | hhold)
  · exact hother hsame
  · exact hholds hhold

end Ledger

/-! ## Groups -/

theorem freshItems_sortOperations : FreshItems (sortOperations ops) ↔ FreshItems ops :=
  ((perm_sortOperations ops).filterMap introducedItem).nodup_iff

variable {a b : RecordKey}

theorem rootOf_eq_iff (hfresh : FreshItems ops) :
    rootOf ops a = rootOf ops b ↔ Relation.EqvGen (GainedWhileHeld (sortOperations ops)) a b := by
  have hsim := simulates_firstPass (freshItems_sortOperations.mpr hfresh)
  have hlinked : (ledgerOf (sortOperations ops)).holding.linked
      = GainedWhileHeld (sortOperations ops) :=
    funext fun x => funext fun y => propext linked_ledgerOf
  rw [← hlinked]
  exact hsim.holding.same

theorem exists_holds_iff :
    (∃ key record, (materialise ops).get key = some record ∧ record.holds a ∧ record.holds b) ↔
      a ∈ contactKeys ops ∧ b ∈ contactKeys ops ∧ rootOf ops a = rootOf ops b := by
  constructor
  · rintro ⟨key, record, hget, ha, hb⟩
    obtain ⟨hamem, hac⟩ := (holds_iff hget).mp ha
    obtain ⟨hbmem, hbc⟩ := (holds_iff hget).mp hb
    exact ⟨hamem, hbmem, (canonical_eq_iff hamem hbmem).mp (hac.trans hbc.symm)⟩
  · rintro ⟨ha, hb, hroot⟩
    have hmem : (contextOf ops).canonical a ∈ contactKeys ops := by
      rw [canonical_contextOf]
      exact leaderOf_mem ha
    have hsome := isSome_get_materialise_iff.mpr ⟨hmem, canonical_canonical ops a⟩
    obtain ⟨record, hget⟩ := Option.isSome_iff_exists.mp hsome
    refine ⟨_, record, hget, (holds_iff hget).mpr ⟨ha, rfl⟩, (holds_iff hget).mpr ⟨hb, ?_⟩⟩
    exact ((canonical_eq_iff ha hb).mpr hroot).symm

/-! ## The canonical id -/

variable {record : ContactRecord} {key : RecordKey}

/-- **The canonical id is the earliest added.** -/
theorem earliest_added (hget : (materialise ops).get key = some record) :
    ∃ pre op post, sortOperations ops = pre ++ op :: post ∧ op.action.isAdd = true ∧
      recordKey op = key ∧
      ∀ earlier ∈ pre, earlier.action.isAdd = true → ¬ record.holds (recordKey earlier) := by
  have hsome : ((materialise ops).get key).isSome := by rw [hget]; rfl
  obtain ⟨hmem, hc⟩ := isSome_get_materialise_iff.mp hsome
  set inClass : RecordKey → Bool := fun k => rootOf ops k = rootOf ops key
  -- The key leads its class, so it is the first of it among the keys in order of `add`.
  have hfirst : (contactKeys ops).find? inClass = some key := by
    obtain ⟨rest, hrest⟩ := classAt_eq_leaderOf_cons (rootOf ops) hmem
    rw [← canonical_contextOf, hc] at hrest
    rw [← List.head?_filter]
    change (classAt (rootOf ops) (contactKeys ops) (rootOf ops key)).head? = _
    rw [hrest]
    rfl
  rw [contactKeys_eq, find?_distinct, List.find?_map, Option.map_eq_some_iff] at hfirst
  obtain ⟨op, hop, hkey⟩ := hfirst
  rw [List.find?_filter, List.find?_eq_some_iff_append] at hop
  obtain ⟨hp, pre, post, hsplit, hpre⟩ := hop
  have hp : op.action.isAdd = true ∧ inClass (recordKey op) = true := by simpa using hp
  refine ⟨pre, op, post, hsplit, hp.1, hkey, fun earlier he hadd hholds => ?_⟩
  have hnot := hpre earlier he
  obtain ⟨hkmem, hkc⟩ := (holds_iff hget).mp hholds
  have hroot : rootOf ops (recordKey earlier) = rootOf ops key :=
    (canonical_eq_iff hkmem hmem).mp (hkc.trans hc.symm)
  simp [hadd, inClass, hroot] at hnot

/-! ## Blocks of a group -/

theorem block_of_mapItems {f : Hex32 → Hex32} {action : ContactAction} {scope : BlockScope}
    {reason : Option (Str capReason)} (h : action.mapItems f = .block scope reason) :
    ∃ scope reason, action = .block scope reason := by
  cases action <;> simp [ContactAction.mapItems] at h ⊢

/-- The block facts of a record come from blocks on the contact ids it holds. -/
theorem exists_block_of_fact (hget : (materialise ops).get key = some record) {fact : BlockFact}
    (hfact : fact ∈ record.blocks) :
    ∃ op ∈ ops, (∃ scope reason, op.action = .block scope reason) ∧
      op.operationId = fact.operationId ∧ record.holds (recordKey op) := by
  obtain ⟨r, hr, hrecord⟩ := exists_recordAfter hget
  set Known : ContactRecord → Prop := fun r => ∀ f ∈ r.blocks, ∃ row ∈ groupRows ops key,
    (∃ scope reason, row.op.action = .block scope reason) ∧ row.op.operationId = f.operationId
  have hknown : Known r := by
    refine runAt_forall (P := Known) (fun s hs row hrow next hstep => ?_) (fun _ h => by cases h) r hr
    cases s with
    | none =>
      intro f hf
      rw [blocks_groupStep_none hstep] at hf
      cases hf
    | some old =>
      have hold : Known old := hs old rfl
      intro f hf
      have hchange := blockChange_groupStep hstep
      generalize next.blocks = blocks at hchange hf
      cases hchange with
      | keep => exact hold f hf
      | block scope reason haction =>
        rcases List.mem_append.mp hf with hf | hf
        · exact hold f hf
        · cases List.mem_singleton.mp hf
          exact ⟨row, hrow, block_of_mapItems haction, rfl⟩
      | unblock found haction =>
        obtain ⟨f', hf', rfl⟩ := List.mem_map.mp hf
        obtain ⟨row', hrow', hblock, hid⟩ := hold f' hf'
        exact ⟨row', hrow', hblock, by rw [hid]; split <;> rfl⟩
  have hblocks : record.blocks = r.blocks := by rw [hrecord, withMergedIds_eq]
  rw [hblocks] at hfact
  obtain ⟨row, hrow, hblock, hid⟩ := hknown fact hfact
  obtain ⟨hlog, hc⟩ := mem_groupRows.mp hrow
  refine ⟨row.op, mem_of_mem_logRows hlog, hblock, hid, (holds_iff hget).mpr ⟨?_, hc⟩⟩
  -- A contact id without an `add` is redirected nowhere.
  by_contra hnot
  have hsome : ((materialise ops).get key).isSome := by rw [hget]; rfl
  have hself : (contextOf ops).canonical row.sourceKey = row.sourceKey := by
    rw [canonical_contextOf]
    exact leaderOf_of_not_mem hnot
  have hkey : row.sourceKey = key := hself.symm.trans hc
  have hmem : key ∈ contactKeys ops := (isSome_get_materialise_iff.mp hsome).1
  rw [← hkey] at hmem
  exact hnot hmem

/-! ## The claim -/

/-- **What key aliasing computes.** -/
structure KeyAliasing (ops : List ContactOperation) : Prop where
  /-- Two ids end in one record exactly when both were added and a chain of links connects them. -/
  same_group : ∀ a b,
    (∃ key record, (materialise ops).get key = some record ∧ record.holds a ∧ record.holds b) ↔
      (∃ op ∈ ops, op.action.isAdd = true ∧ recordKey op = a) ∧
      (∃ op ∈ ops, op.action.isAdd = true ∧ recordKey op = b) ∧
      Relation.EqvGen (GainedWhileHeld (sortOperations ops)) a b
  /-- The first `add` of a group is one of its canonical id. -/
  canonical : ∀ key record, (materialise ops).get key = some record →
    ∃ pre op post, sortOperations ops = pre ++ op :: post ∧ op.action.isAdd = true ∧
      recordKey op = key ∧
      ∀ earlier ∈ pre, earlier.action.isAdd = true → ¬ record.holds (recordKey earlier)
  /-- A key taken off a group and not given back: putting it on a contact outside the group
  leaves the group as it was. -/
  taken_off : ∀ pre removal mid gain post slot x,
    sortOperations ops = pre ++ removal :: (mid ++ gain :: post) →
    (ledgerOf pre).TakesOff removal slot → (ledgerOf pre).holding.Same x (recordKey removal) →
    (∀ a op b, mid = a ++ op :: b →
      ¬ (ledgerOf (pre ++ removal :: a)).GivesBack op slot x) →
    (ledgerOf (pre ++ removal :: mid)).Puts gain slot →
    ¬ (ledgerOf (pre ++ removal :: mid)).holding.Same x (recordKey gain) →
    ∀ y, (ledgerOf (pre ++ removal :: mid ++ [gain])).holding.Same x y ↔
      (ledgerOf (pre ++ removal :: mid)).holding.Same x y
  /-- A block reaches the record that holds the blocked contact, and no other. -/
  blocks : ∀ key record, (materialise ops).get key = some record → ∀ fact ∈ record.blocks,
    ∃ op ∈ ops, (∃ scope reason, op.action = .block scope reason) ∧
      op.operationId = fact.operationId ∧ record.holds (recordKey op)

/-- A stranger's key is taken off one contact and filed as another, which is then blocked. -/
def impostorLog : List ContactOperation :=
  let owner := actorOf .owner 1
  [sampleOp 1 1 0 owner (sampleAdd .kin), sampleOp 2 1 1 owner (sampleIdentity 7 9),
    sampleOp 3 1 2 owner (.removeItem (Hex.repeated 32 7)), sampleOp 4 2 3 owner (sampleAdd .ken),
    sampleOp 5 2 4 owner (sampleIdentity 8 9), sampleOp 6 2 5 owner (.block .contact none)]

end SignetApp.Contacts
