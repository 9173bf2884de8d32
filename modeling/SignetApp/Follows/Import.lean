import SignetApp.Follows.Suffix
import SignetApp.Sync.Decimal

/-!
# What an import writes

Every follow is accounted for, and no operation touches what the user decided of a contact.
-/

namespace SignetApp.Follows

open SignetApp.Js SignetApp.Sync
open SignetApp.Contacts (ContactRecord Hex32 Hex64 contactBelongsToList)

/-! ## The records by key -/

/-- What is under a key is one of the records. -/
theorem mem_of_recordsByKey {records : List ContactRecord} {key : Hex64} {record : ContactRecord}
    (h : (recordsByKey records).get key = some record) : record ∈ records := by
  have hkey : ∀ (byKey : OrderedMap Hex64 ContactRecord) (r : ContactRecord) (k key : Hex64) {held : ContactRecord},
      (indexKey byKey r k).get key = some held → held = r ∨ byKey.get key = some held := by
    intro byKey r k key held hget
    have hset : (byKey.set k r).get key = some held → held = r ∨ byKey.get key = some held := by
      intro hset
      rw [OrderedMap.get_set] at hset
      split at hset
      · cases hset
        exact .inl rfl
      · exact .inr hset
    unfold indexKey at hget
    split at hget
    · exact hset hget
    · split at hget
      · exact hset hget
      · exact .inr hget
  have hrecord : ∀ (byKey : OrderedMap Hex64 ContactRecord) (r : ContactRecord) (key : Hex64) {held : ContactRecord},
      (indexRecord byKey r).get key = some held → held = r ∨ byKey.get key = some held := by
    intro byKey r key held
    unfold indexRecord
    induction r.identities generalizing byKey with
    | nil => exact .inr
    | cons identity identities ih =>
      intro hget
      rcases ih _ hget with heq | hget
      · exact .inl heq
      · exact hkey byKey r identity.pubkey key hget
  have hall : ∀ (records : List ContactRecord) (byKey : OrderedMap Hex64 ContactRecord),
      (records.foldl indexRecord byKey).get key = some record → record ∈ records ∨ byKey.get key = some record := by
    intro records
    induction records with
    | nil => exact fun _ => .inr
    | cons r records ih =>
      intro byKey hget
      rcases ih _ hget with hmem | hget
      · exact .inl (List.mem_cons_of_mem _ hmem)
      · rcases hrecord byKey r key hget with rfl | hget
        · exact .inl List.mem_cons_self
        · exact .inr hget
  rcases hall records .empty h with hmem | hempty
  · exact hmem
  · cases hempty

/-! ## Entries, each once -/

def resolved (byKey : OrderedMap Hex64 ContactRecord) (entry : KeyedEntry) : Option Hex32 :=
  (byKey.get entry.pubkey).map ContactRecord.contactId

/-- The entries so far resolve to the contacts that were seen, each once. -/
structure Deduped (byKey : OrderedMap Hex64 ContactRecord) (d : Deduping) : Prop where
  contacts : d.entries.filterMap (resolved byKey) = d.seenContacts
  once : d.seenContacts.Nodup

theorem Deduped.step {byKey : OrderedMap Hex64 ContactRecord} {d : Deduping} (h : Deduped byKey d)
    (entry : FollowImportEntry) : Deduped byKey (dedupeStep byKey d entry) := by
  unfold dedupeStep
  split
  · exact h
  · rename_i key hkey
    split
    · exact h
    · dsimp only
      split
      · rename_i hnone
        refine ⟨?_, h.once⟩
        rw [List.filterMap_append, h.contacts]
        simp [resolved, hnone]
      · rename_i existing hsome
        split
        · exact ⟨h.contacts, h.once⟩
        · rename_i hnew
          refine ⟨?_, ?_⟩
          · rw [List.filterMap_append, h.contacts]
            simp [resolved, hsome]
          · show (d.seenContacts ++ [existing.contactId]).Nodup
            rw [List.nodup_append]
            refine ⟨h.once, List.nodup_singleton _, ?_⟩
            rintro id hid _ hmem rfl
            rw [List.mem_singleton.1 hmem] at hid
            exact hnew (List.contains_iff_mem.2 hid)

theorem nodup_resolved (byKey : OrderedMap Hex64 ContactRecord) (entries : List FollowImportEntry) :
    ((dedupe byKey entries).filterMap (resolved byKey)).Nodup := by
  have hfold : ∀ (entries : List FollowImportEntry) (d : Deduping), Deduped byKey d →
      Deduped byKey (entries.foldl (dedupeStep byKey) d) := by
    intro entries
    induction entries with
    | nil => exact fun _ h => h
    | cons entry entries ih => exact fun d h => ih _ (h.step entry)
  have h := hfold entries ⟨[], [], []⟩ ⟨rfl, List.nodup_nil⟩
  rw [dedupe, h.contacts]
  exact h.once

theorem length_dedupe_le (byKey : OrderedMap Hex64 ContactRecord) (entries : List FollowImportEntry) :
    (dedupe byKey entries).length ≤ entries.length := by
  have hstep : ∀ (d : Deduping) (entry : FollowImportEntry),
      (dedupeStep byKey d entry).entries.length ≤ d.entries.length + 1 := by
    intro d entry
    unfold dedupeStep
    split
    · exact Nat.le_succ _
    · split
      · exact Nat.le_succ _
      · dsimp only
        split
        · simp
        · split <;> simp
  have hfold : ∀ (entries : List FollowImportEntry) (d : Deduping),
      (entries.foldl (dedupeStep byKey) d).entries.length ≤ d.entries.length + entries.length := by
    intro entries
    induction entries with
    | nil => exact fun _ => le_rfl
    | cons entry entries ih =>
      intro d
      have hle := ih (dedupeStep byKey d entry)
      have hone := hstep d entry
      rw [List.foldl_cons, List.length_cons]
      omega
  simpa [dedupe] using hfold entries ⟨[], [], []⟩

/-! ## Groups -/

section

variable {args : ImportArgs}

/-- The contact that a group of the entry is about. -/
def ImportArgs.contactOf (args : ImportArgs) (entry : KeyedEntry) (entryIndex : ℕ) : Hex32 :=
  (resolved args.byKey entry).getD (args.ids entryIndex).contactId

/-- What keeps a contact's tier, name and note. -/
def ImportAction.keepsDetails : ImportAction → Bool
  | .linkList _ => true
  | .recordOrigin _ _ _ _ _ => true
  | _ => false

variable {g : Group} {i : ℕ} {entry : KeyedEntry}

/-- What an entry that comes to work writes. -/
theorem work_cases (h : args.outcomeOf args.byKey entry i = .work g) :
    g.entryIndex = i ∧ (∀ op ∈ g.ops, op.contactId = args.contactOf entry i) ∧
      ((∃ record, args.byKey.get entry.pubkey = some record ∧ record.lifecycle ≠ .removed ∧
        ∀ op ∈ g.ops, op.action.keepsDetails = true) ∨
      resolved args.byKey entry = none) := by
  unfold ImportArgs.outcomeOf at h
  dsimp only at h
  split at h
  · rename_i existing hexisting
    have hcontact : args.contactOf entry i = existing.contactId := by
      simp [ImportArgs.contactOf, resolved, hexisting]
    split at h
    · cases h
    · rename_i hlive
      split at h
      · cases h
      · cases h
        refine ⟨rfl, ?_, .inl ⟨existing, hexisting, hlive, ?_⟩⟩
        · intro op hop
          rw [hcontact]
          dsimp only at hop
          split at hop
          · rcases List.mem_cons.1 hop with rfl | hop
            · rfl
            · rw [List.mem_singleton.1 hop]
              rfl
          · rw [List.mem_singleton.1 hop]
            rfl
        · intro op hop
          dsimp only at hop
          split at hop
          · rcases List.mem_cons.1 hop with rfl | hop
            · rfl
            · rw [List.mem_singleton.1 hop]
              rfl
          · rw [List.mem_singleton.1 hop]
            rfl
  · rename_i hnone
    have hresolved : resolved args.byKey entry = none := by rw [resolved, hnone]; rfl
    cases h
    refine ⟨rfl, fun op hop => ?_, .inr hresolved⟩
    rw [ImportArgs.contactOf, hresolved]
    simp only [List.mem_cons, List.not_mem_nil, or_false] at hop
    rcases hop with rfl | rfl | rfl <;> rfl

theorem zipIdx_outcomes :
    args.outcomes.zipIdx =
      args.dedupedEntries.zipIdx.map fun p => (args.outcomeOf args.byKey p.1 p.2, p.2) := by
  apply List.ext_getElem?
  intro i
  simp only [ImportArgs.outcomes, List.getElem?_zipIdx, List.getElem?_map, Option.map_map]
  cases args.dedupedEntries[i]? <;> simp

theorem groups_eq :
    args.groups = args.dedupedEntries.zipIdx.filterMap fun p => (args.outcomeOf args.byKey p.1 p.2).group? := by
  rw [ImportArgs.groups, ImportArgs.outcomes, List.filterMap_map]
  rfl

def Outcome.isWork (outcome : Outcome) : Bool := outcome.group?.isSome

theorem groups_index :
    args.groups.map Group.entryIndex = (args.outcomes.zipIdx.filter fun p => p.1.isWork).map Prod.snd := by
  rw [groups_eq, zipIdx_outcomes, List.map_filterMap, List.filter_map, List.map_map]
  induction args.dedupedEntries.zipIdx with
  | nil => rfl
  | cons p ps ih =>
    rw [List.filterMap_cons, List.filter_cons]
    cases hout : args.outcomeOf args.byKey p.1 p.2 with
    | work g =>
      have hindex := (work_cases hout).1
      simp only [Function.comp_apply, hout, Outcome.group?, Outcome.isWork, Option.isSome_some, Option.map_some,
        if_true, List.map_cons, hindex]
      exact congrArg _ ih
    | unchanged =>
      simp only [Function.comp_apply, hout, Outcome.group?, Outcome.isWork, Option.isSome_none, Option.map_none,
        Bool.false_eq_true, if_false]
      exact ih
    | skipped =>
      simp only [Function.comp_apply, hout, Outcome.group?, Outcome.isWork, Option.isSome_none, Option.map_none,
        Bool.false_eq_true, if_false]
      exact ih

theorem groups_pairwise : args.groups.Pairwise fun g g' => g.entryIndex < g'.entryIndex := by
  have hindexes : (args.groups.map Group.entryIndex).Pairwise (· < ·) := by
    rw [groups_index]
    have hrange : (args.outcomes.zipIdx.map Prod.snd).Pairwise (· < ·) := by
      rw [List.zipIdx_map_snd, ← List.range_eq_range']
      exact List.pairwise_lt_range
    exact hrange.sublist (List.filter_sublist.map _)
  exact List.pairwise_map.1 hindexes

theorem exists_entry (hg : g ∈ args.groups) :
    ∃ entry, args.dedupedEntries[g.entryIndex]? = some entry ∧
      args.outcomeOf args.byKey entry g.entryIndex = .work g := by
  rw [groups_eq, List.mem_filterMap] at hg
  obtain ⟨⟨entry, i⟩, hmem, hwork⟩ := hg
  have hout : args.outcomeOf args.byKey entry i = .work g := by
    revert hwork
    cases args.outcomeOf args.byKey entry i with
    | work g' =>
      intro hwork
      cases hwork
      rfl
    | _ => exact fun hwork => (by cases hwork)
  obtain rfl := (work_cases hout).1
  have hget := List.mem_zipIdx_iff_getElem?.1 hmem
  exact ⟨entry, hget, hout⟩

/-! ## Every follow is accounted for -/

/-- What of the outcomes is from an entry on. -/
def ImportArgs.outcomesFrom (args : ImportArgs) (first : ℕ) : List (Outcome × ℕ) :=
  args.outcomes.zipIdx.filter fun p => first ≤ p.2

theorem length_range_from (first n : ℕ) : ((List.range n).filter fun i => first ≤ i).length = n - first := by
  induction n with
  | zero => simp
  | succ n ih =>
    rw [List.range_succ, List.filter_append, List.length_append, ih]
    by_cases hle : first ≤ n
    · simp [hle]
      omega
    · simp [hle]
      omega

theorem length_outcomesFrom (first : ℕ) : (args.outcomesFrom first).length = args.dedupedEntries.length - first := by
  have hlength : args.outcomes.length = args.dedupedEntries.length := by simp [ImportArgs.outcomes]
  have hmap : (args.outcomesFrom first).map Prod.snd = (List.range args.outcomes.length).filter fun i => first ≤ i := by
    rw [List.range_eq_range', ← List.zipIdx_map_snd, List.filter_map]
    rfl
  have := congrArg List.length hmap
  rw [List.length_map, length_range_from, hlength] at this
  exact this

theorem length_outcomes (outcomes : List (Outcome × ℕ)) :
    (outcomes.filter fun p => p.1.isWork).length + (outcomes.filter fun p => p.1.isUnchanged).length +
      (outcomes.filter fun p => p.1.isSkipped).length = outcomes.length := by
  induction outcomes with
  | nil => rfl
  | cons p outcomes ih =>
    obtain ⟨outcome, i⟩ := p
    cases outcome with
    | work g =>
      rw [List.filter_cons_of_pos rfl, List.filter_cons_of_neg Bool.false_ne_true,
        List.filter_cons_of_neg Bool.false_ne_true, List.length_cons, List.length_cons]
      omega
    | unchanged =>
      rw [List.filter_cons_of_neg Bool.false_ne_true, List.filter_cons_of_pos rfl,
        List.filter_cons_of_neg Bool.false_ne_true, List.length_cons, List.length_cons]
      omega
    | skipped =>
      rw [List.filter_cons_of_neg Bool.false_ne_true, List.filter_cons_of_neg Bool.false_ne_true,
        List.filter_cons_of_pos rfl, List.length_cons, List.length_cons]
      omega

theorem length_groups_from (first : ℕ) :
    (args.groups.filter fun g => first ≤ g.entryIndex).length =
      ((args.outcomesFrom first).filter fun p => p.1.isWork).length := by
  have hmap : (args.groups.filter fun g => first ≤ g.entryIndex).map Group.entryIndex =
      ((args.outcomesFrom first).filter fun p => p.1.isWork).map Prod.snd := by
    have hfilter : (args.groups.filter fun g => first ≤ g.entryIndex).map Group.entryIndex =
        (args.groups.map Group.entryIndex).filter fun i => first ≤ i := by
      rw [List.filter_map]
      rfl
    rw [hfilter, groups_index, List.filter_map, List.filter_filter, ImportArgs.outcomesFrom, List.filter_filter]
    refine congrArg _ (List.filter_congr fun p _ => ?_)
    exact Bool.and_comm _ _
  have := congrArg List.length hmap
  rwa [List.length_map, List.length_map] at this

theorem length_skipped_from (first : ℕ) :
    (args.skippedIdx.filter fun i => first ≤ i).length =
      ((args.outcomesFrom first).filter fun p => p.1.isSkipped).length := by
  rw [ImportArgs.skippedIdx, List.filter_map, List.length_map, List.filter_filter, ImportArgs.outcomesFrom,
    List.filter_filter]
  refine congrArg _ (List.filter_congr fun p _ => ?_)
  exact Bool.and_comm _ _

theorem countUnchangedFrom_eq (first : ℕ) :
    countUnchangedFrom args.dedupedEntries args.groups args.skippedIdx first =
      ((args.outcomesFrom first).filter fun p => p.1.isUnchanged).length := by
  have hlength : args.dedupedEntries.length = args.outcomes.length := by simp [ImportArgs.outcomes]
  -- an index stands for one outcome
  have hwhich : ∀ (q : Outcome → Bool) {p : Outcome × ℕ}, p ∈ args.outcomes.zipIdx →
      ((args.outcomes.zipIdx.filter fun p => q p.1).map Prod.snd).contains p.2 = q p.1 := by
    intro q p hp
    rw [Bool.eq_iff_iff, List.contains_iff_mem, List.mem_map]
    constructor
    · rintro ⟨p', hp', heq⟩
      obtain ⟨hmem, hq⟩ := List.mem_filter.1 hp'
      have hget := List.mem_zipIdx_iff_getElem?.1 hp
      have hget' := List.mem_zipIdx_iff_getElem?.1 hmem
      rw [heq, hget] at hget'
      rwa [Option.some.inj hget']
    · exact fun hq => ⟨p, List.mem_filter.2 ⟨hp, hq⟩, rfl⟩
  unfold countUnchangedFrom
  rw [hlength, List.range_eq_range', ← List.zipIdx_map_snd, List.filter_map, List.length_map, ImportArgs.outcomesFrom,
    List.filter_filter]
  refine congrArg _ (List.filter_congr fun p hp => ?_)
  simp only [Function.comp_apply, groups_index, ImportArgs.skippedIdx, hwhich Outcome.isWork hp,
    hwhich Outcome.isSkipped hp]
  rw [Bool.and_comm]
  cases p.1 <;> simp [Outcome.isWork, Outcome.group?, Outcome.isUnchanged, Outcome.isSkipped]

theorem drop_eq_filter {α : Type} {key : α → ℕ} {bound : ℕ} {as : List α} (k : ℕ)
    (hpairwise : as.Pairwise fun a b => key a < key b) (hbound : ∀ a ∈ as, key a < bound) :
    as.drop k = as.filter fun a => (as.drop k).head?.elim bound key ≤ key a := by
  induction as generalizing k with
  | nil => simp
  | cons a as ih =>
    obtain ⟨hfirst, hrest⟩ := List.pairwise_cons.1 hpairwise
    cases k with
    | zero =>
      refine (List.filter_eq_self.2 fun b hb => ?_).symm
      rcases List.mem_cons.1 hb with rfl | hb
      · exact decide_eq_true le_rfl
      · exact decide_eq_true (hfirst b hb).le
    | succ k =>
      have hbelow : key a < (as.drop k).head?.elim bound key := by
        cases hhead : (as.drop k).head? with
        | none => exact hbound a List.mem_cons_self
        | some b => exact hfirst b (List.mem_of_mem_drop (List.mem_of_mem_head? hhead))
      rw [List.drop_succ_cons, List.filter_cons_of_neg (by simpa using hbelow)]
      exact ih k hrest fun b hb => hbound b (List.mem_cons_of_mem _ hb)

/-- The first entry that a plan covers, when it is trimmed. -/
def ImportArgs.firstKept (args : ImportArgs) (start : ℕ) : ℕ :=
  (args.groups.drop start).head?.elim args.dedupedEntries.length Group.entryIndex

theorem drop_groups (start : ℕ) :
    args.groups.drop start = args.groups.filter fun g => args.firstKept start ≤ g.entryIndex := by
  refine drop_eq_filter start groups_pairwise fun g hg => ?_
  obtain ⟨entry, hget, -⟩ := exists_entry hg
  exact (List.getElem?_eq_some_iff.1 hget).1

theorem length_kinds (groups : List Group) :
    (groups.filter fun g => g.kind = .added).length + (groups.filter fun g => g.kind = .linked).length =
      groups.length := by
  induction groups with
  | nil => rfl
  | cons g groups ih =>
    cases hkind : g.kind <;> simp only [List.filter_cons, hkind, decide_true, decide_false, reduceCtorEq, if_true,
      Bool.false_eq_true, if_false, List.length_cons] <;> omega

theorem accounted (first : ℕ) :
    (args.groups.filter fun g => first ≤ g.entryIndex).length +
      countUnchangedFrom args.dedupedEntries args.groups args.skippedIdx first +
      (args.skippedIdx.filter fun i => first ≤ i).length = args.dedupedEntries.length - first := by
  rw [length_groups_from, countUnchangedFrom_eq, length_skipped_from, ← length_outcomesFrom]
  exact length_outcomes _

theorem outcomesFrom_zero : args.outcomesFrom 0 = args.outcomes.zipIdx :=
  List.filter_eq_self.2 fun _ _ => decide_eq_true (Nat.zero_le _)

theorem unchanged_eq : args.unchanged = countUnchangedFrom args.dedupedEntries args.groups args.skippedIdx 0 := by
  rw [countUnchangedFrom_eq, outcomesFrom_zero, ImportArgs.unchanged]
  conv_lhs => rw [← List.zipIdx_map_fst 0 args.outcomes, List.filter_map, List.length_map]
  rfl

variable [Platform]

theorem counts_add_up (args : ImportArgs) :
    (planFollowsImport args).added + (planFollowsImport args).linked + (planFollowsImport args).unchanged +
      (planFollowsImport args).skippedRemoved = (planFollowsImport args).covered := by
  have hkinds := length_kinds (args.groups.drop args.keptFrom)
  by_cases htrimmed : 0 < args.keptFrom
  · have haccounted := @accounted args (args.firstKept args.keptFrom)
    rw [← drop_groups] at haccounted
    simp only [planFollowsImport, decide_eq_true htrimmed, if_true]
    show _ + _ + countUnchangedFrom _ _ _ (args.firstKept args.keptFrom) +
      (args.skippedIdx.filter fun i => args.firstKept args.keptFrom ≤ i).length =
        args.dedupedEntries.length - args.firstKept args.keptFrom
    omega
  · have hzero : args.keptFrom = 0 := by omega
    have haccounted := @accounted args 0
    have hall : (args.groups.filter fun g => 0 ≤ g.entryIndex) = args.groups :=
      List.filter_eq_self.2 fun _ _ => decide_eq_true (Nat.zero_le _)
    have hskipped : (args.skippedIdx.filter fun i => 0 ≤ i) = args.skippedIdx :=
      List.filter_eq_self.2 fun _ _ => decide_eq_true (Nat.zero_le _)
    rw [hall, hskipped, ← unchanged_eq, Nat.sub_zero] at haccounted
    rw [hzero, List.drop_zero] at hkinds
    simp only [planFollowsImport, hzero, lt_irrefl, decide_false, Bool.false_eq_true, if_false, List.drop_zero]
    omega

/-! ## What is touched -/

/-- The ids that are drawn are new. -/
structure FreshIds (args : ImportArgs) : Prop where
  apart : ∀ i < args.entries.length, ∀ j < args.entries.length,
    (args.ids i).contactId = (args.ids j).contactId → i = j
  unused : ∀ i < args.entries.length, ∀ record ∈ args.records, (args.ids i).contactId ≠ record.contactId

omit [Platform] in
theorem lt_entries (h : args.dedupedEntries[i]? = some entry) : i < args.entries.length :=
  (List.getElem?_eq_some_iff.1 h).1.trans_le (length_dedupe_le args.byKey args.entries)

omit [Platform] in
/-- Different entries are about different contacts. -/
theorem contactOf_ne (hfresh : FreshIds args) {j : ℕ} {entry' : KeyedEntry} (hij : i < j)
    (hentry : args.dedupedEntries[i]? = some entry) (hentry' : args.dedupedEntries[j]? = some entry') :
    args.contactOf entry i ≠ args.contactOf entry' j := by
  have hrecord : ∀ {entry : KeyedEntry} {id : Hex32}, resolved args.byKey entry = some id →
      ∃ record ∈ args.records, record.contactId = id := by
    intro entry id h
    obtain ⟨record, hget, rfl⟩ := Option.map_eq_some_iff.1 h
    exact ⟨record, mem_of_recordsByKey hget, rfl⟩
  unfold ImportArgs.contactOf
  cases h : resolved args.byKey entry with
  | none =>
    cases h' : resolved args.byKey entry' with
    | none =>
      intro heq
      exact hij.ne (hfresh.apart i (lt_entries hentry) j (lt_entries hentry') heq)
    | some id' =>
      obtain ⟨record, hmem, rfl⟩ := hrecord h'
      exact hfresh.unused i (lt_entries hentry) record hmem
  | some id =>
    obtain ⟨record, hmem, rfl⟩ := hrecord h
    cases h' : resolved args.byKey entry' with
    | none => exact fun heq => hfresh.unused j (lt_entries hentry') record hmem heq.symm
    | some id' =>
      -- both are resolved, and no two entries resolve to one contact
      have honce := nodup_resolved args.byKey args.entries
      have hpairwise := List.pairwise_filterMap.1 honce
      obtain ⟨hi, hgeti⟩ := List.getElem?_eq_some_iff.1 hentry
      obtain ⟨hj, hgetj⟩ := List.getElem?_eq_some_iff.1 hentry'
      have hne := List.pairwise_iff_getElem.1 hpairwise i j hi hj hij
      have hid : resolved args.byKey args.dedupedEntries[i] = some record.contactId := by rw [hgeti, h]
      have hid' : resolved args.byKey args.dedupedEntries[j] = some id' := by rw [hgetj, h']
      show record.contactId ≠ id'
      exact hne _ hid _ hid'

omit [Platform] in
theorem groups_apart (hfresh : FreshIds args) :
    args.groups.Pairwise fun g g' => ∀ op ∈ g.ops, ∀ op' ∈ g'.ops, op.contactId ≠ op'.contactId := by
  have hmem : args.groups.Pairwise fun g g' => g ∈ args.groups ∧ g' ∈ args.groups ∧ g.entryIndex < g'.entryIndex :=
    List.Pairwise.and_mem.1 groups_pairwise
  refine hmem.imp fun ⟨hg, hg', hlt⟩ op hop op' hop' => ?_
  obtain ⟨entry, hget, hout⟩ := exists_entry hg
  obtain ⟨entry', hget', hout'⟩ := exists_entry hg'
  rw [(work_cases hout).2.1 op hop, (work_cases hout').2.1 op' hop']
  exact contactOf_ne hfresh hlt hget hget'

omit [Platform] in
theorem keeps_of_mem_groups (hfresh : FreshIds args)
    (hrecords : (args.records.map ContactRecord.contactId).Nodup) (hg : g ∈ args.groups)
    {op : ImportOperation} (hop : op ∈ g.ops) {record : ContactRecord} (hrecord : record ∈ args.records)
    (heq : op.contactId = record.contactId) : record.lifecycle ≠ .removed ∧ op.action.keepsDetails = true := by
  obtain ⟨entry, hget, hout⟩ := exists_entry hg
  obtain ⟨-, hcontact, hcases⟩ := work_cases hout
  rw [hcontact op hop, ImportArgs.contactOf] at heq
  rcases hcases with ⟨held, hheld, hlive, hkeeps⟩ | hnone
  · have hresolved : resolved args.byKey entry = some held.contactId := by rw [resolved, hheld]; rfl
    rw [hresolved, Option.getD_some] at heq
    obtain rfl := List.inj_on_of_nodup_map hrecords (mem_of_recordsByKey hheld) hrecord heq
    exact ⟨hlive, hkeeps op hop⟩
  · rw [hnone, Option.getD_none] at heq
    exact absurd heq (hfresh.unused _ (lt_entries hget) record hrecord)

/-! ## The plan -/

/-- **An import keeps the longest suffix that fits, and accounts for every follow.** -/
theorem import_keeps_longest (hdecimal : IntegersInDecimal) (args : ImportArgs) (hclocks : ExactClocks args)
    (hfresh : FreshIds args) (hrecords : (args.records.map ContactRecord.contactId).Nodup) :
    let plan := planFollowsImport args
    (∃ start ≤ args.groups.length, plan.ops = args.stamp start ∧
      (∀ longer < start, args.fitsFrom longer = false) ∧
      (args.fitsFrom start = true ∨ start = args.groups.length ∧ plan.ops = []) ∧
      (args.fitsFrom 0 = true → start = 0)) ∧
    plan.ops.map ImportOperation.logicalClock = (List.range plan.ops.length).map (fun i => args.baseClock + 1 + i) ∧
    (∀ op ∈ plan.ops, ∀ record ∈ args.records, op.contactId = record.contactId →
      record.lifecycle ≠ .removed ∧ op.action.keepsDetails = true) ∧
    args.groups.Pairwise (fun g g' => ∀ op ∈ g.ops, ∀ op' ∈ g'.ops, op.contactId ≠ op'.contactId) ∧
    plan.added + plan.linked + plan.unchanged + plan.skippedRemoved = plan.covered := by
  intro plan
  obtain ⟨hle, hbefore, hfits⟩ := keptFrom_spec hdecimal hclocks
  refine ⟨⟨args.keptFrom, hle, rfl, hbefore, ?_, ?_⟩, ?_, ?_, groups_apart hfresh, counts_add_up args⟩
  · refine hfits.imp id fun hend => ⟨hend, ?_⟩
    show args.stamp args.keptFrom = []
    rw [ImportArgs.stamp, hend, List.drop_length]
    rfl
  · intro hall
    by_contra hpos
    have := hbefore 0 (Nat.pos_of_ne_zero hpos)
    rw [hall] at this
    cases this
  · show (args.stamp args.keptFrom).map _ = (List.range (args.stamp args.keptFrom).length).map _
    rw [ImportArgs.stamp, clocks_stampFrom (hclocks.drop _), length_stampFrom]
  · intro op hop record hrecord heq
    obtain ⟨draft, hdraft, hop'⟩ := mem_stampFrom hop
    obtain ⟨g, hg, hmem⟩ := List.mem_flatMap.1 hdraft
    rw [hop'] at heq ⊢
    exact keeps_of_mem_groups hfresh hrecords (List.mem_of_mem_drop hg) hmem hrecord heq

end

/-! ## One follow -/

section

attribute [local instance] decimalNumerals

theorem sampleTime_nonneg : (0 : ℚ) ≤ 0 := le_refl 0

/-- One new follow, of a log that is as long as the line allows. -/
def sampleArgs (baseClock lineOps : ℕ) : ImportArgs where
  entries := [⟨(Hex.repeated 64 3).val, lit "Ann"⟩]
  ownerIdentityPubkey := Hex.repeated 64 1
  originMethod := .import
  caption := []
  directoryId := .owner
  records := []
  actor := Contacts.actorOf .owner 2
  baseClock
  now := ⟨0, sampleTime_nonneg⟩
  wholeLog := [[("logicalClock", .ofNat 1)]]
  ids _ := ⟨Hex.repeated 32 4, Hex.repeated 32 5, Hex.repeated 32 6, Hex.repeated 32 7, Hex.repeated 32 8,
    Hex.repeated 32 9⟩
  lineOps := some lineOps

theorem sampleArgs_freshIds (baseClock lineOps : ℕ) : FreshIds (sampleArgs baseClock lineOps) where
  apart i hi j hj _ := by
    have hone : (sampleArgs baseClock lineOps).entries.length = 1 := rfl
    omega
  unused _ _ _ hrecord := absurd hrecord List.not_mem_nil

theorem import_keeps_sample :
    (planFollowsImport (sampleArgs 1 100)).ops.map ImportOperation.logicalClock = [2, 3, 4] := by
  have hkept := import_keeps_longest integersInDecimal_decimal (sampleArgs 1 100)
    (by unfold ExactClocks; decide +kernel) (sampleArgs_freshIds 1 100) List.nodup_nil
  refine hkept.2.1.trans ?_
  decide +kernel

/-- Nothing fits beside a log that is too long by itself, and clocks past the exact integers stand still. -/
theorem import_beyond_limits :
    (∀ start ≤ (sampleArgs 1 0).groups.length, (sampleArgs 1 0).fitsFrom start = false) ∧
    (planFollowsImport (sampleArgs (2 ^ 53) 100)).ops.map ImportOperation.logicalClock ≠
      (List.range 3).map fun i => 2 ^ 53 + 1 + i := by
  refine ⟨?_, ?_⟩ <;> decide +kernel

end

end SignetApp.Follows
