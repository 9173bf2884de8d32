import SignetApp.Contacts.Encoding
import SignetApp.Contacts.FirstPass
import SignetApp.Contacts.Mutations
import SignetApp.Contacts.Restriction
import SignetApp.Contacts.Validation

/-!
# The item that stands for an item

Where two contacts are merged, the second pass rewrites the item ids of every operation of the log:
an item id stands for the first item its last key was introduced with (`remapItem_contextOf`).
-/

namespace SignetApp.Contacts

open SignetApp.Js

/-- The item a key was first introduced with on the contacts `p`. -/
def firstItem (p : RecordKey → Bool) (pubkey : Hex64) (log : List ContactOperation) :
    Option Hex32 :=
  log.findSome? fun op =>
    match op.action.introduces with
    | some (itemId, pk) => if p (recordKey op) = true ∧ pk = pubkey then some itemId else none
    | none => none

/-- The key an item was last introduced with on a contact. -/
def lastKey (contact : RecordKey) (itemId : Hex32) (log : List ContactOperation) : Option Hex64 :=
  log.reverse.findSome? fun op =>
    match op.action.introduces with
    | some (item, pubkey) => if recordKey op = contact ∧ item = itemId then some pubkey else none
    | none => none

/-- The first item of the key that an item was last introduced with, both on one contact. -/
def standIn (p : RecordKey → Bool) (contact : RecordKey) (itemId : Hex32)
    (log : List ContactOperation) : Option Hex32 :=
  (lastKey contact itemId log).bind fun pubkey => firstItem p pubkey log

section

variable {log : List ContactOperation} {op : ContactOperation} {p q : RecordKey → Bool}
  {contact : RecordKey} {itemId : Hex32} {pubkey : Hex64}

theorem firstItem_concat :
    firstItem p pubkey (log ++ [op]) = (firstItem p pubkey log).or
      (match op.action.introduces with
        | some (itemId, pk) => if p (recordKey op) = true ∧ pk = pubkey then some itemId else none
        | none => none) := by
  unfold firstItem
  rw [List.findSome?_append]
  simp

theorem lastKey_concat :
    lastKey contact itemId (log ++ [op]) =
      (match op.action.introduces with
        | some (item, pubkey) => if recordKey op = contact ∧ item = itemId then some pubkey else none
        | none => none).or (lastKey contact itemId log) := by
  unfold lastKey
  rw [List.reverse_append, List.findSome?_append]
  simp

theorem firstItem_congr (h : ∀ op ∈ log, p (recordKey op) = q (recordKey op)) :
    firstItem p pubkey log = firstItem q pubkey log := by
  induction log using List.reverseRecOn with
  | nil => rfl
  | append_singleton log op ih =>
    rw [firstItem_concat, firstItem_concat, ih fun o ho => h o (List.mem_append_left _ ho),
      h op (by simp)]

theorem firstItem_filter (h : ∀ key, p key = true → q key = true) :
    firstItem p pubkey (log.filter fun op => q (recordKey op)) = firstItem p pubkey log := by
  induction log using List.reverseRecOn with
  | nil => rfl
  | append_singleton log op ih =>
    rw [List.filter_append, firstItem_concat]
    by_cases hq : q (recordKey op) = true
    · rw [List.filter_cons_of_pos (by exact hq), List.filter_nil, firstItem_concat, ih]
    · have hp : ¬ p (recordKey op) = true := fun hp => hq (h _ hp)
      rw [List.filter_cons_of_neg (by exact hq), List.filter_nil, List.append_nil, ih]
      cases op.action.introduces <;> simp [hp]

theorem lastKey_filter (h : q contact = true) :
    lastKey contact itemId (log.filter fun op => q (recordKey op)) = lastKey contact itemId log := by
  induction log using List.reverseRecOn with
  | nil => rfl
  | append_singleton log op ih =>
    rw [List.filter_append, lastKey_concat]
    by_cases hq : q (recordKey op) = true
    · rw [List.filter_cons_of_pos (by exact hq), List.filter_nil, lastKey_concat, ih]
    · have hne : recordKey op ≠ contact := by
        rintro rfl
        exact hq h
      rw [List.filter_cons_of_neg (by exact hq), List.filter_nil, List.append_nil, ih]
      cases op.action.introduces <;> simp [hne]

theorem isSome_firstItem (hp : p contact = true) (h : lastKey contact itemId log = some pubkey) :
    (firstItem p pubkey log).isSome = true := by
  induction log using List.reverseRecOn with
  | nil => cases h
  | append_singleton log op ih =>
    rw [lastKey_concat] at h
    rw [firstItem_concat, Option.isSome_or]
    cases hi : op.action.introduces with
    | none =>
      rw [hi] at h
      rw [ih h]
      rfl
    | some item =>
      rw [hi] at h
      by_cases hop : recordKey op = contact ∧ item.1 = itemId
      · simp only [if_pos hop, Option.some_or, Option.some.injEq] at h
        rw [hop.1, hp]
        simp [h]
      · simp only [if_neg hop, Option.none_or] at h
        rw [ih h]
        rfl

end

/-! ## The maps -/

section

variable {aliases : OrderedMap RecordKey RecordKey}

/-- The contacts that share a canonical id. -/
def sharesLeader (aliases : OrderedMap RecordKey RecordKey) (key other : RecordKey) : Bool :=
  (aliases.get other).getD other = key

/-- **What the item maps hold** after a log. -/
theorem itemMaps_spec (log : List ContactOperation) :
    (∀ key pubkey, (itemMaps aliases log).itemForPubkey.get (key, pubkey)
        = firstItem (sharesLeader aliases key) pubkey log) ∧
      ∀ source itemId, (itemMaps aliases log).itemAliases.get (source, itemId)
        = standIn (sharesLeader aliases ((aliases.get source).getD source)) source itemId log := by
  induction log using List.reverseRecOn with
  | nil => exact ⟨fun _ _ => rfl, fun _ _ => rfl⟩
  | append_singleton log op ih =>
    obtain ⟨ihFirst, ihAlias⟩ := ih
    have hrun : itemMaps aliases (log ++ [op]) = ItemMaps.step aliases (itemMaps aliases log) op :=
      List.foldl_append
    rw [hrun]
    unfold ItemMaps.step
    cases hi : op.action.introduces with
    | none =>
      refine ⟨fun key pubkey => ?_, fun source itemId => ?_⟩
      · rw [firstItem_concat, hi, ← ihFirst]
        simp
      · rw [standIn, lastKey_concat, hi]
        simp only [Option.none_or, firstItem_concat, hi, Option.or_none]
        exact ihAlias source itemId
    | some item =>
      obtain ⟨item, pk⟩ := item
      refine ⟨fun key pubkey => ?_, fun source itemId => ?_⟩
      · rw [firstItem_concat, hi, ← ihFirst]
        simp only [OrderedMap.get_set, Prod.mk.injEq, sharesLeader, decide_eq_true_eq]
        by_cases hkey : (aliases.get (recordKey op)).getD (recordKey op) = key ∧ pk = pubkey
        · rw [if_pos ⟨hkey.1.symm, hkey.2.symm⟩, if_pos hkey, hkey.1, hkey.2]
          cases (itemMaps aliases log).itemForPubkey.get (key, pubkey) <;> rfl
        · rw [if_neg fun h => hkey ⟨h.1.symm, h.2.symm⟩, if_neg hkey, Option.or_none]
      · rw [standIn, lastKey_concat, hi]
        simp only [OrderedMap.get_set, Prod.mk.injEq]
        by_cases hkey : recordKey op = source ∧ item = itemId
        · rw [if_pos ⟨hkey.1.symm, hkey.2.symm⟩, if_pos hkey]
          obtain ⟨rfl, rfl⟩ := hkey
          simp only [Option.some_or, Option.bind_some]
          rw [firstItem_concat, hi, ← ihFirst]
          simp only [sharesLeader, decide_eq_true_eq, and_self, if_true]
          cases (itemMaps aliases log).itemForPubkey.get
            ((aliases.get (recordKey op)).getD (recordKey op), pk) <;> rfl
        · rw [if_neg fun h => hkey ⟨h.1.symm, h.2.symm⟩, if_neg hkey, ihAlias, standIn,
            Option.none_or]
          -- A key that was introduced before keeps its first item.
          cases hlast : lastKey source itemId log with
          | none => rfl
          | some last =>
            simp only [Option.bind_some]
            have hsome := isSome_firstItem
              (p := sharesLeader aliases ((aliases.get source).getD source))
              (by simp [sharesLeader]) hlast
            rw [firstItem_concat, Option.or_of_isSome hsome]

end

theorem remapItem_contextOf (ops : List ContactOperation) (source : RecordKey) (itemId : Hex32) :
    (contextOf ops).remapItem source itemId =
      if merges ops then
        (standIn (fun key => (contextOf ops).canonical key = (contextOf ops).canonical source) source
          itemId (sortOperations ops)).getD itemId
      else itemId := by
  by_cases h : merges ops = true
  · rw [if_pos h, MergeContext.remapItem]
    unfold contextOf
    rw [if_pos h]
    simp only [mergeContext, map_op_logRows]
    rw [(itemMaps_spec (sortOperations ops)).2]
    rfl
  · rw [if_neg h]
    unfold contextOf
    rw [if_neg h, remapItem_plainContext]
    rfl

/-!
## Locality

The records of a directory and of an unmerged contact are those of their own operations alone,
unless a merge elsewhere rewrites the items of an unmerged contact (`local_iff`). It does so for a
contact that was given one key under two item ids: from then on the second id stands for the first,
also when the first was removed in between (`rewritten_by_a_merge_elsewhere`).
-/

/-- A contact that has a record and is merged with no other. -/
def Unmerged (ops : List ContactOperation) (contact : RecordKey) : Prop :=
  contact ∈ contactKeys ops ∧
    ∀ other ∈ contactKeys ops, rootOf ops other = rootOf ops contact → other = contact

/-- **Locality.** -/
structure Local (ops : List ContactOperation) : Prop where
  /-- A directory is what its own operations make it. -/
  directory : ∀ d, (materialise ops).entries.filter (fun entry => entry.1.directoryId = d)
    = (materialise (ops.filter fun op => op.directoryId = d)).entries
  /-- An unmerged contact is what its own operations make it. -/
  contact : ∀ contact, Unmerged ops contact → (materialise ops).get contact
    = (materialise (ops.filter fun op => recordKey op = contact)).get contact
  /-- The operations of an unmerged contact refer to the items they name. -/
  items : ∀ op ∈ ops, Unmerged ops (recordKey op) → (contextOf ops).remap op = op

/-- Where two contacts are merged, an unmerged contact keeps each item id with the key it last came
with: it is the first one that key came with. -/
def KeepsItems (ops : List ContactOperation) : Prop :=
  (∃ a ∈ contactKeys ops, ∃ b ∈ contactKeys ops, a ≠ b ∧ rootOf ops a = rootOf ops b) →
    ∀ contact, Unmerged ops contact → ∀ itemId pubkey,
      lastKey contact itemId (sortOperations ops) = some pubkey →
      firstItem (fun key => key = contact) pubkey (sortOperations ops) = some itemId

variable {ops : List ContactOperation}

/-! ## Items of an unmerged contact -/

theorem Unmerged.classOf_eq {contact : RecordKey} (h : Unmerged ops contact) :
    classOf ops contact = [contact] := by
  have hnodup : (classOf ops contact).Nodup := (OrderedMap.nodup_keys _).filter _
  have hall : ∀ k ∈ classOf ops contact, k = contact := fun k hk => by
    obtain ⟨hmem, hroot⟩ := mem_classOf.mp hk
    exact h.2 k hmem hroot
  have hself : contact ∈ classOf ops contact := mem_classOf.mpr ⟨h.1, rfl⟩
  exact List.perm_singleton.mp ((List.perm_ext_iff_of_nodup hnodup (List.nodup_singleton _)).mpr
    fun k => ⟨fun hk => List.mem_singleton.mpr (hall k hk),
      fun hk => (List.mem_singleton.mp hk) ▸ hself⟩)

theorem Unmerged.canonical_eq {contact : RecordKey} (h : Unmerged ops contact) :
    (contextOf ops).canonical contact = contact := by
  rw [canonical_eq_headD h.1, h.classOf_eq]
  rfl

theorem Unmerged.remapItem_eq_iff {contact : RecordKey} (h : Unmerged ops contact)
    (hmerges : merges ops = true) (itemId : Hex32) :
    (contextOf ops).remapItem contact itemId = itemId ↔
      ∀ pubkey, lastKey contact itemId (sortOperations ops) = some pubkey →
        firstItem (fun key => key = contact) pubkey (sortOperations ops) = some itemId := by
  have hfirst : ∀ pubkey, firstItem
      (fun key => (contextOf ops).canonical key = (contextOf ops).canonical contact) pubkey
        (sortOperations ops) = firstItem (fun key => key = contact) pubkey (sortOperations ops) := by
    intro pubkey
    refine firstItem_congr fun op _ => ?_
    have hiff : (contextOf ops).canonical (recordKey op) = contact ↔
        recordKey op ∈ classOf ops contact := canonical_eq_self_iff h.1 h.canonical_eq
    rw [h.classOf_eq, List.mem_singleton] at hiff
    rw [h.canonical_eq]
    exact decide_eq_decide.mpr hiff
  rw [remapItem_contextOf, if_pos hmerges, standIn]
  cases hlast : lastKey contact itemId (sortOperations ops) with
  | none => simp
  | some last =>
    have hsome := isSome_firstItem (p := fun key => key = contact) (by simp) hlast
    obtain ⟨first, hfirstItem⟩ := Option.isSome_iff_exists.mp hsome
    simp [hfirst, hfirstItem]

theorem remapItem_eq_id_of_keepsItems (hkeeps : KeepsItems ops) {contact : RecordKey}
    (h : Unmerged ops contact) : (contextOf ops).remapItem contact = id := by
  funext itemId
  by_cases hmerges : merges ops = true
  · exact (h.remapItem_eq_iff hmerges itemId).mpr (hkeeps (merges_iff.mp hmerges) contact h itemId)
  · rw [remapItem_contextOf, if_neg hmerges]
    rfl

@[simp] theorem introduces_mapItems (f : Hex32 → Hex32) (action : ContactAction) :
    (action.mapItems f).introduces = action.introduces.map fun item => (f item.1, item.2) := by
  cases action <;> rfl

theorem remap_eq_self {op : ContactOperation}
    (hc : (contextOf ops).canonical (recordKey op) = recordKey op)
    (hitems : (contextOf ops).remapItem (recordKey op) = id) : (contextOf ops).remap op = op := by
  unfold MergeContext.remap
  rw [hc, hitems, Option.map_id, ContactAction.mapItems_id]
  rfl

/-! ## One contact -/

theorem not_merges_contact (hids : OperationIdsAgree ops) (contact : RecordKey) :
    merges (ops.filter fun op => recordKey op = contact) = false := by
  by_contra h
  obtain ⟨a, ha, b, hb, hne, -⟩ := merges_iff.mp (by simpa using h)
  have hkeys := contactKeys_filter hids fun key => key = contact
  rw [hkeys] at ha hb
  have ha := (List.mem_filter.mp ha).2
  have hb := (List.mem_filter.mp hb).2
  simp only [decide_eq_true_eq] at ha hb
  exact hne (ha.trans hb.symm)

theorem get_eq_of_unmerged (hids : OperationIdsAgree ops) {contact : RecordKey}
    (h : Unmerged ops contact) (hitems : (contextOf ops).remapItem contact = id) :
    (materialise ops).get contact
      = (materialise (ops.filter fun op => recordKey op = contact)).get contact := by
  have hpartMem : contact ∈ contactKeys (ops.filter fun op => recordKey op = contact) := by
    rw [contactKeys_filter hids fun key => key = contact]
    exact List.mem_filter.mpr ⟨h.1, by simp⟩
  have hpart : Unmerged (ops.filter fun op => recordKey op = contact) contact := by
    refine ⟨hpartMem, fun other hother _ => ?_⟩
    rw [contactKeys_filter hids fun key => key = contact] at hother
    simpa using (List.mem_filter.mp hother).2
  refine get_materialise_filter hids (q := fun key => key = contact) h.1 (fun k hk => ?_) ?_ ?_
  · rw [h.classOf_eq] at hk
    simpa using hk
  · rw [hpart.classOf_eq, h.classOf_eq]
  · intro op _ hop _
    rw [h.classOf_eq, List.mem_singleton] at hop
    rw [hop, hitems]
    funext itemId
    rw [remapItem_contextOf, if_neg (by rw [not_merges_contact hids contact]; simp)]
    rfl

/-! ## One directory -/

section Directory

variable (d : DirectoryId)

/-- Is an id one of the directory? -/
def inDirectory (key : RecordKey) : Bool := key.directoryId = d

theorem rootOf_directory (hids : OperationIdsAgree ops) {x y : RecordKey}
    (hx : x.directoryId = d) (hy : y.directoryId = d) :
    rootOf ops x = rootOf ops y ↔
      rootOf (ops.filter fun op => inDirectory d (recordKey op)) x
        = rootOf (ops.filter fun op => inDirectory d (recordKey op)) y := by
  have hagree := agree_firstPass d (sortOperations ops)
  have hsorted := sortOperations_filter hids fun op => inDirectory d (recordKey op)
  have hpass : firstPass ((sortOperations ops).filter fun op => op.directoryId = d)
      = passOf (ops.filter fun op => inDirectory d (recordKey op)) := by
    rw [passOf, hsorted]
    rfl
  rw [hpass] at hagree
  exact hagree.same x y hx hy

theorem classOf_directory (hids : OperationIdsAgree ops) {key : RecordKey}
    (hkey : key.directoryId = d) :
    classOf (ops.filter fun op => inDirectory d (recordKey op)) key = classOf ops key := by
  unfold classOf classAt
  rw [contactKeys_filter hids, List.filter_filter]
  refine List.filter_congr fun other _ => ?_
  by_cases hother : other.directoryId = d
  · have hroot := rootOf_directory d hids hother hkey
    have hin : inDirectory d other = true := by simpa [inDirectory] using hother
    rw [hin, Bool.and_true]
    exact decide_eq_decide.mpr hroot.symm
  · have hne : rootOf ops other ≠ rootOf ops key := by
      intro heq
      have hdir := congrArg RecordKey.directoryId heq
      rw [directoryId_rootOf, directoryId_rootOf, hkey] at hdir
      exact hother hdir
    simp [inDirectory, hother, hne]

theorem directory_of_mem_classOf {key other : RecordKey} (hkey : key.directoryId = d)
    (h : other ∈ classOf ops key) : other.directoryId = d := by
  have hdir := congrArg RecordKey.directoryId (mem_classOf.mp h).2
  rwa [directoryId_rootOf, directoryId_rootOf, hkey] at hdir

/-- A directory that merges two contacts rewrites its items as the whole log does. -/
theorem remapItem_directory (hids : OperationIdsAgree ops)
    (hmerges : merges (ops.filter fun op => inDirectory d (recordKey op)) = true)
    {key source : RecordKey} (hkey : key ∈ contactKeys ops) (hdir : key.directoryId = d)
    (hc : (contextOf ops).canonical key = key) (hsource : source ∈ classOf ops key) :
    (contextOf ops).remapItem source
      = (contextOf (ops.filter fun op => inDirectory d (recordKey op))).remapItem source := by
  set part := ops.filter fun op => inDirectory d (recordKey op) with hpart
  have hclass := classOf_directory d hids hdir
  have hkeyPart : key ∈ contactKeys part := by
    rw [hpart, contactKeys_filter hids]
    exact List.mem_filter.mpr ⟨hkey, by simpa [inDirectory] using hdir⟩
  have hcPart : (contextOf part).canonical key = key := by
    rw [canonical_eq_headD hkeyPart, hclass, ← canonical_eq_headD hkey, hc]
  have hwhole : merges ops = true := by
    obtain ⟨a, ha, b, hb, hne, hroot⟩ := merges_iff.mp hmerges
    rw [hpart, contactKeys_filter hids] at ha hb
    obtain ⟨ha, hda⟩ := List.mem_filter.mp ha
    obtain ⟨hb, hdb⟩ := List.mem_filter.mp hb
    refine merges_iff.mpr ⟨a, ha, b, hb, hne, ?_⟩
    exact (rootOf_directory d hids (by simpa [inDirectory] using hda)
      (by simpa [inDirectory] using hdb)).mpr hroot
  have hsourceDir : source.directoryId = d := directory_of_mem_classOf d hdir hsource
  have hsourceC : (contextOf ops).canonical source = key :=
    (canonical_eq_self_iff hkey hc).mpr hsource
  have hsourceC' : (contextOf part).canonical source = key :=
    (canonical_eq_self_iff hkeyPart hcPart).mpr (hclass ▸ hsource)
  funext itemId
  rw [remapItem_contextOf, remapItem_contextOf, if_pos hwhole, if_pos hmerges, hsourceC, hsourceC',
    hpart, sortOperations_filter hids]
  unfold standIn
  rw [lastKey_filter (by simpa [inDirectory] using hsourceDir)]
  congr 2
  funext pubkey
  have hredirect : ∀ other, (contextOf part).canonical other = key ↔
      (contextOf ops).canonical other = key := by
    intro other
    rw [canonical_eq_self_iff hkeyPart hcPart, canonical_eq_self_iff hkey hc, hclass]
  rw [firstItem_congr (p := fun other => (contextOf part).canonical other = key)
    (q := fun other => (contextOf ops).canonical other = key)
    fun op _ => decide_eq_decide.mpr (hredirect (recordKey op))]
  refine (firstItem_filter fun other hother => ?_).symm
  have hmem := (canonical_eq_self_iff hkey hc).mp (of_decide_eq_true hother)
  simpa [inDirectory] using directory_of_mem_classOf d hdir hmem

/-- A contact's record is what the operations of its directory make it. -/
theorem get_directory (hids : OperationIdsAgree ops) (hkeeps : KeepsItems ops) {key : RecordKey}
    (hkey : key ∈ contactKeys ops) (hdir : key.directoryId = d) :
    (materialise ops).get key
      = (materialise (ops.filter fun op => inDirectory d (recordKey op))).get key := by
  have hclass := classOf_directory d hids hdir
  refine get_materialise_filter hids hkey (fun k hk => ?_) hclass fun op _ hop hc => ?_
  · simpa [inDirectory] using directory_of_mem_classOf d hdir hk
  · by_cases hmerges : merges (ops.filter fun op => inDirectory d (recordKey op)) = true
    · exact remapItem_directory d hids hmerges hkey hdir hc hop
    · -- The directory merges nothing, so none of its contacts is merged in the whole log.
      have hunmerged : Unmerged ops (recordKey op) := by
        obtain ⟨hmem, -⟩ := mem_classOf.mp hop
        have hopDir := directory_of_mem_classOf d hdir hop
        refine ⟨hmem, fun other hother hroot => ?_⟩
        by_contra hne
        have hotherDir : other.directoryId = d := by
          have := congrArg RecordKey.directoryId hroot
          rwa [directoryId_rootOf, directoryId_rootOf, hopDir] at this
        refine hmerges (merges_iff.mpr ⟨other, ?_, recordKey op, ?_, hne, ?_⟩)
        · rw [contactKeys_filter hids]
          exact List.mem_filter.mpr ⟨hother, by simpa [inDirectory] using hotherDir⟩
        · rw [contactKeys_filter hids]
          exact List.mem_filter.mpr ⟨hmem, by simpa [inDirectory] using hopDir⟩
        · exact (rootOf_directory d hids hotherDir hopDir).mp hroot
      rw [remapItem_eq_id_of_keepsItems hkeeps hunmerged]
      funext itemId
      rw [remapItem_contextOf, if_neg hmerges]
      rfl

end Directory

/-! ## The claim -/

theorem keys_materialise (ops : List ContactOperation) :
    (materialise ops).keys = distinct (((logRows ops).filter fun row => row.op.action.isAdd).map
      fun row => (contextOf ops).canonical row.sourceKey) := by
  rw [materialise_eq_secondPass, secondPass, OrderedMap.keys_mapEntries]
  refine keys_replay (fun row : LogRow => row.op.action.isAdd)
    (fun row h => isSome_groupStep_none h) (fun row h => ?_) _
  cases hstep : groupStep (contextOf ops) none row with
  | none => rfl
  | some next =>
    have hadd := (recordName_groupStep_none hstep).1
    rw [h] at hadd
    cases hadd

theorem filter_keys_materialise (hids : OperationIdsAgree ops) (d : DirectoryId) :
    (materialise ops).keys.filter (inDirectory d)
      = (materialise (ops.filter fun op => inDirectory d (recordKey op))).keys := by
  rw [keys_materialise, keys_materialise, filter_distinct, logRows_filter hids, List.filter_map,
    List.filter_filter, List.filter_filter]
  congr 1
  have hrows : (logRows ops).filter (fun row => (inDirectory d ∘ fun row : LogRow =>
        (contextOf ops).canonical row.sourceKey) row && row.op.action.isAdd)
      = (logRows ops).filter fun row => row.op.action.isAdd && inDirectory d row.sourceKey := by
    refine List.filter_congr fun row _ => ?_
    rw [Bool.and_comm]
    simp [inDirectory, directoryId_canonical]
  rw [hrows]
  refine List.map_congr_left fun row hrow => ?_
  obtain ⟨hlog, hrow⟩ := List.mem_filter.mp hrow
  simp only [Bool.and_eq_true] at hrow
  have hmem : row.sourceKey ∈ contactKeys ops :=
    mem_contactKeys_iff.mpr ⟨row.op, mem_of_mem_logRows hlog, hrow.1, rfl⟩
  have hmemPart : row.sourceKey ∈ contactKeys (ops.filter fun op => inDirectory d (recordKey op)) := by
    rw [contactKeys_filter hids]
    exact List.mem_filter.mpr ⟨hmem, hrow.2⟩
  rw [canonical_eq_headD hmem, canonical_eq_headD hmemPart,
    classOf_directory d hids (by simpa [inDirectory] using hrow.2)]

/-- **Locality holds exactly when unmerged contacts keep their items.** -/
theorem local_iff (hids : OperationIdsAgree ops) : Local ops ↔ KeepsItems ops := by
  constructor
  · intro hlocal hmerged contact h itemId pubkey hlast
    have hmerges : merges ops = true := merges_iff.mpr hmerged
    refine (h.remapItem_eq_iff hmerges itemId).mp ?_ pubkey hlast
    -- Some operation introduces the item, and it refers to the item it names.
    unfold lastKey at hlast
    obtain ⟨op, hop, hsome⟩ := List.exists_of_findSome?_eq_some hlast
    have hmem : op ∈ ops := mem_sortOperations.mp (List.mem_reverse.mp hop)
    cases hi : op.action.introduces with
    | none => rw [hi] at hsome; cases hsome
    | some item =>
      rw [hi] at hsome
      by_cases hop : recordKey op = contact ∧ item.1 = itemId
      · obtain ⟨rfl, rfl⟩ := hop
        have hremap := congrArg ContactOperation.action (hlocal.items op hmem h)
        have hmap : op.action.mapItems ((contextOf ops).remapItem (recordKey op)) = op.action := hremap
        have hintroduces := congrArg ContactAction.introduces hmap
        rw [introduces_mapItems, hi] at hintroduces
        simpa using congrArg (Option.map Prod.fst) hintroduces
      · simp only [if_neg hop] at hsome
        cases hsome
  · intro hkeeps
    refine ⟨fun d => ?_, fun contact h => ?_, fun op hop h => ?_⟩
    · refine OrderedMap.filter_entries_eq (filter_keys_materialise hids d) fun key hkey => ?_
      rw [← filter_keys_materialise hids d] at hkey
      obtain ⟨hkey, hdir⟩ := List.mem_filter.mp hkey
      have hsome := OrderedMap.mem_keys_iff.mp hkey
      exact get_directory d hids hkeeps (isSome_get_materialise_iff.mp hsome).1
        (by simpa [inDirectory] using hdir)
    · exact get_eq_of_unmerged hids h (remapItem_eq_id_of_keepsItems hkeeps h)
    · exact remap_eq_self h.canonical_eq (remapItem_eq_id_of_keepsItems hkeeps h)

/-- A bot is given a key, loses it and gets it back under another item id; two of the owner's own
contacts share a key. -/
def rewritingLog : List ContactOperation :=
  let owner := actorOf .owner 1
  [(sampleOp 1 3 0 owner (sampleAdd .ken)).inDirectory .bots,
    (sampleOp 2 3 1 owner (sampleIdentity 7 9)).inDirectory .bots,
    (sampleOp 3 3 2 owner (.removeItem (Hex.repeated 32 7))).inDirectory .bots,
    (sampleOp 4 3 3 owner (sampleIdentity 8 9)).inDirectory .bots,
    sampleOp 5 1 4 owner (sampleAdd .kin), sampleOp 6 1 5 owner (sampleIdentity 5 6),
    sampleOp 7 2 6 owner (sampleAdd .kin), sampleOp 8 2 7 owner (sampleIdentity 4 6)]

/-- The bot's identity has the removed item id in the whole log, its own in the log of its
directory. -/
theorem rewritten_by_a_merge_elsewhere :
    (rewritingLog.map ContactOperation.operationId).Nodup ∧
      (∀ op ∈ rewritingLog, @accepted samplePlatform (.obj op.toJs) = some op) ∧
      ((materialise rewritingLog).get ⟨.bots, Hex.repeated 32 3⟩).map
          (fun r => (r.mergedContactIds, r.identities.map ContactIdentity.itemId))
        = some (none, [Hex.repeated 32 7]) ∧
      ((materialise (rewritingLog.filter fun op => op.directoryId = .bots)).get
          ⟨.bots, Hex.repeated 32 3⟩).map
          (fun r => (r.mergedContactIds, r.identities.map ContactIdentity.itemId))
        = some (none, [Hex.repeated 32 8]) ∧
      ¬ Local rewritingLog := by
  refine ⟨by decide +kernel, by decide +kernel, by decide +kernel, by decide +kernel, fun h => ?_⟩
  have hne : (materialise rewritingLog).entries.filter (fun entry => entry.1.directoryId = .bots)
      ≠ (materialise (rewritingLog.filter fun op => op.directoryId = .bots)).entries := by
    decide +kernel
  exact hne (h.directory .bots)

theorem local_iff_rewritingLog : Local rewritingLog ↔ KeepsItems rewritingLog :=
  local_iff (by unfold OperationIdsAgree; decide +kernel)

end SignetApp.Contacts
