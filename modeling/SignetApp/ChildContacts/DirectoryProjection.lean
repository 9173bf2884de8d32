import SignetApp.ChildContacts.PolicyMerge
import SignetApp.Contacts.Sanitize
import SignetApp.Contacts.Validation

/-!
# Merged directories

Directories of one pairing disagree as views do: of the newest that are not one, the merge keeps no names. What
is left is always read again.
-/

namespace SignetApp.ChildContacts

open SignetApp.Js SignetApp.Sync
open SignetApp.Contacts (Hex64)
open SignetApp.Family.ChildContact (pairwise_lt_eq_of_toFinset)

/-- The earlier times, and the personas that are on all. -/
abbrev DirectoryCommon := ℕᵒᵈ × ℕᵒᵈ × (Finset Hex64)ᵒᵈ

/-- How the directories of one pairing disagree. -/
def directories (guardian recipient : Hex64) : Disagreement ChildContactDirectory DirectoryCommon where
  age d := d.revision
  common d := (OrderDual.toDual d.issuedAt, OrderDual.toDual d.expiresAt, OrderDual.toDual d.personas.toFinset)
  settle n l := {
    guardian
    recipient
    revision := n
    issuedAt := OrderDual.ofDual l.1
    expiresAt := OrderDual.ofDual l.2.1
    conflicted := true
    personas := inSortOrder (OrderDual.ofDual l.2.2)
    entries := [] }
  age_settle _ _ := rfl
  common_settle n l := by
    obtain ⟨issuedAt, expiresAt, personas⟩ := l
    dsimp only
    rw [toFinset_inSortOrder]
    rfl

section

variable [Numerals]

/-- A directory of the pairing that is read as it was written. -/
structure Accepted (guardian recipient : Hex64) (d : ChildContactDirectory) : Prop where
  guardian : d.guardian = guardian
  recipient : d.recipient = recipient
  read : parseChildContactDirectory (jsonText d.toJs) = some d

variable {d : ChildContactDirectory}

theorem utf8Length_directory_le (hdecimal : IntegersInDecimal) (h : Valid d)
    (hentries : d.entries = []) : utf8Length (jsonText d.toJs) ≤ maxBytes := by
  have hnumber : ∀ {n : ℕ}, n ≤ maxTime → utf8Length (jsonText (.ofNat n)) ≤ 12 := fun hn =>
    utf8Length_jsonText_ofNat hdecimal (by decide) (by decide) (hn.trans_lt (by decide))
  have hconflicted : utf8Length (jsonText (.bool d.conflicted)) ≤ 5 := by
    cases d.conflicted <;> rw [jsonText, stringify] <;> decide
  have hone : utf8Length (jsonText (.ofNat 1)) ≤ 12 := hnumber (by decide)
  have hnames : ["v", "guardian", "recipient", "revision", "issuedAt", "expiresAt", "conflicted", "personas",
      "entries"].map (fun name => utf8Length (quote (lit name))) = [3, 10, 11, 10, 10, 11, 12, 10, 9] := by
    decide
  simp only [List.map_cons, List.map_nil, List.cons.injEq] at hnames
  have hrevision := hnumber h.times.1
  have hissued := hnumber h.times.2.1
  have hexpires := hnumber h.times.2.2
  have hpersonas := h.personas.1
  have hempty : utf8Length (jsonText (.arr [])) = 2 :=
    utf8Length_jsonText_arr fun v hv => absurd hv List.not_mem_nil
  rw [ChildContactDirectory.toJs, utf8Length_jsonText_obj]
  · simp only [memberBytes_cons, memberBytes_nil, hnames, utf8Length_jsonText_hex, utf8Length_keysToJs, hentries,
      List.map_nil, hempty]
    show _ ≤ 48000
    omega
  · simp [JsValue.ofNat, Hex.toJs, keysToJs]
  · simp

theorem parse_directory (hint : IntegersSurvive) {d' : ChildContactDirectory} :
    parseChildContactDirectory (jsonText d.toJs) = some d' ↔
      utf8Length (jsonText d.toJs) ≤ maxBytes ∧ Valid d ∧ d' = d.tidied := by
  unfold parseChildContactDirectory
  split
  · rename_i hlarge
    constructor
    · intro h
      cases h
    · rintro ⟨hle, -⟩
      exact absurd hle (Nat.not_le_of_lt hlarge)
  · rename_i hsmall
    rw [parse_jsonText (d.isJson_toJs hint), Option.bind_some, directoryOf_toJs]
    exact (and_iff_right (Nat.le_of_not_lt hsmall)).symm

variable {guardian recipient : Hex64} {ds : List ChildContactDirectory}

theorem Accepted.valid (hint : IntegersSurvive) (h : Accepted guardian recipient d) :
    Valid d := ((parse_directory hint).1 h.read).2.1

theorem Accepted.tidy (h : Accepted guardian recipient d) : Tidy d := tidy_of_parse h.read

theorem Accepted.personas (hint : IntegersSurvive) (h : Accepted guardian recipient d) :
    d.personas.Pairwise (· < ·) := by
  have hnodup : d.personas.Nodup := (h.valid hint).personas.2
  exact (h.tidy.personas.and hnodup).imp fun hab => lt_of_le_of_ne hab.1 hab.2

/-- **What is left of directories is read again.** -/
theorem accepted_of_left (hint : IntegersSurvive) (hdecimal : IntegersInDecimal) {result : ChildContactDirectory}
    (h : (directories guardian recipient).Left ds result) (haccepted : ∀ d ∈ ds, Accepted guardian recipient d) :
    Accepted guardian recipient result := by
  cases h with
  | one ha hle hone => exact haccepted _ ha
  | @settled a b l ha hb hage hne hle hlub =>
    obtain ⟨issuedAt, expiresAt, personas⟩ := l
    have hupper : ∀ d ∈ ds, d.revision = a.revision →
        (directories guardian recipient).common d ≤ (issuedAt, expiresAt, personas) :=
      fun d hd hrevision => hlub.1 ⟨d, hd, hrevision, rfl⟩
    have hleast : ∀ u : DirectoryCommon, (∀ d ∈ ds, d.revision = a.revision →
        (directories guardian recipient).common d ≤ u) → (issuedAt, expiresAt, personas) ≤ u := by
      intro u hu
      refine hlub.2 ?_
      rintro _ ⟨d, hd, hrevision, rfl⟩
      exact hu d hd hrevision
    have havalid := (haccepted a ha).valid hint
    obtain ⟨hissued, hexpires, hpersonas⟩ := hupper a ha rfl
    have hissued' : OrderDual.ofDual issuedAt ≤ a.issuedAt := hissued
    have hexpires' : OrderDual.ofDual expiresAt ≤ a.expiresAt := hexpires
    have hpersonas' : OrderDual.ofDual personas ⊆ a.personas.toFinset := hpersonas
    -- it ends after it was issued, as each does
    have hafter : OrderDual.ofDual issuedAt + 1 ≤ OrderDual.ofDual expiresAt := by
      have hle := hleast (issuedAt, OrderDual.toDual (OrderDual.ofDual issuedAt + 1), personas)
        fun d hd hrevision => by
          obtain ⟨hi, -, hp⟩ := hupper d hd hrevision
          have hi' : OrderDual.ofDual issuedAt ≤ d.issuedAt := hi
          have hlife := ((haccepted d hd).valid hint).lifetime.1
          exact ⟨hi, by
            show OrderDual.ofDual issuedAt + 1 ≤ d.expiresAt
            omega, hp⟩
      exact hle.2.1
    -- and no later than each does
    have hwithin : OrderDual.ofDual expiresAt - ttl ≤ OrderDual.ofDual issuedAt := by
      obtain ⟨floor, hfloor⟩ : ∃ floor, floor = OrderDual.ofDual expiresAt - ttl := ⟨_, rfl⟩
      have hle := hleast (OrderDual.toDual floor, expiresAt, personas) fun d hd hrevision => by
        obtain ⟨-, he, hp⟩ := hupper d hd hrevision
        have he' : OrderDual.ofDual expiresAt ≤ d.expiresAt := he
        have hlife := ((haccepted d hd).valid hint).lifetime.2
        have hissuedFloor : floor ≤ d.issuedAt := by omega
        exact ⟨hissuedFloor, he, hp⟩
      rw [← hfloor]
      exact hle.1
    have htimes := havalid.times
    have hcard : (inSortOrder (OrderDual.ofDual personas)).length ≤ 32 := by
      rw [inSortOrder, Finset.length_sort]
      exact (Finset.card_le_card hpersonas').trans ((List.toFinset_card_le _).trans havalid.personas.1)
    have hvalid : Valid ((directories guardian recipient).settle a.revision (issuedAt, expiresAt, personas)) :=
      ⟨⟨htimes.1, hissued'.trans htimes.2.1, hexpires'.trans htimes.2.2⟩,
        ⟨hafter, by
          show OrderDual.ofDual expiresAt - OrderDual.ofDual issuedAt ≤ ttl
          omega⟩,
        ⟨hcard, Finset.sort_nodup _ _⟩, ⟨Nat.zero_le _, List.nodup_nil⟩, fun _ => rfl,
        fun e he => absurd he List.not_mem_nil⟩
    have htidy : Tidy ((directories guardian recipient).settle a.revision (issuedAt, expiresAt, personas)) :=
      ⟨(pairwise_inSortOrder _).imp fun hab => hab.le, List.Pairwise.nil, fun e he => absurd he List.not_mem_nil,
        fun e he => absurd he List.not_mem_nil⟩
    refine ⟨rfl, rfl, ?_⟩
    exact (parse_directory hint).2 ⟨utf8Length_directory_le hdecimal hvalid rfl, hvalid, (tidied_of_tidy htidy).symm⟩

/-- The source's merge of two that are read. -/
theorem mergeDirectory_eq (hint : IntegersSurvive) {a b : ChildContactDirectory}
    (ha : Accepted guardian recipient a) (hb : Accepted guardian recipient b) :
    mergeChildContactDirectory (some a) b = some ((directories guardian recipient).merge a b) := by
  have hpair : a.guardian = b.guardian ∧ a.recipient = b.recipient :=
    ⟨ha.guardian.trans hb.guardian.symm, ha.recipient.trans hb.recipient.symm⟩
  have hsame : jsonText a.toJs = jsonText b.toJs ↔ a = b := by
    constructor
    · intro h
      have hread := ha.read
      rw [h, hb.read] at hread
      exact (Option.some.inj hread).symm
    · intro h
      rw [h]
  unfold mergeChildContactDirectory Disagreement.merge
  simp only [hb.read, ha.read, Option.bind_eq_bind, Option.bind_some, hpair, and_self, guard_true, hsame,
    Option.pure_def]
  show (if b.revision < a.revision then some a else if a.revision < b.revision then some b else _) =
    some (if b.revision < a.revision then a else if a.revision < b.revision then b else _)
  split
  · rfl
  · split
    · rfl
    · split
      · rfl
      · rw [Option.some.injEq]
        have hpersonas : a.personas.filter b.personas.contains =
            inSortOrder (a.personas.toFinset ∩ b.personas.toFinset) := by
          refine pairwise_lt_eq_of_toFinset ((ha.personas hint).sublist List.filter_sublist)
            (pairwise_inSortOrder _) ?_
          rw [toFinset_inSortOrder]
          ext k
          simp
        rw [hpersonas, ← ha.guardian, ← ha.recipient]
        simp only [hpair]
        rfl

theorem merges_directories (hint : IntegersSurvive) (hdecimal : IntegersInDecimal) :
    (directories guardian recipient).Merges (Accepted guardian recipient) mergeChildContactDirectory where
  first hb := by
    unfold mergeChildContactDirectory
    rw [hb.read]
    rfl
  next ha hb := mergeDirectory_eq hint ha hb
  keeps {a b} ha hb := by
    refine accepted_of_left hint hdecimal ((Disagreement.Left.singleton a).concat b) fun d hd => ?_
    rcases List.mem_cons.1 hd with rfl | hd
    · exact ha
    · rwa [List.mem_singleton.1 hd]

end

end SignetApp.ChildContacts

/-!
## What a directory shows

A directory that fits is projected, is read again, and shows of each person what the guardian's data show.
-/

namespace SignetApp.ChildContacts

open SignetApp.Js SignetApp.Sync
open SignetApp.Contacts (isHex_eq_some_iff ContactTier ContactCeilingTier ContactRecord EffectiveContact Hex64 rankOf resolveEffective
  contactBelongsToList sanitizeDisplayName sanitizeDisplayName_idem)
open SignetApp.Family.ChildContact (ChildSettings)

/-! ## Entries -/

/-- The tier that an entry shows. -/
def shownTier : ContactCeilingTier → ContactTier
  | .kin => .kin
  | .kith => .kith
  | _ => .ken

theorem toJs_shownTier {tier : ContactCeilingTier} (h : tier ≠ .none) :
    StringUnion.toJs (shownTier tier) = StringUnion.toJs tier := by
  cases tier with
  | none => exact absurd rfl h
  | _ => rfl

def entryWith (record : EffectiveContact) (identities lists : List Hex64) : ChildDirectoryEntry where
  id := record.contactId
  name := sanitizeDisplayName record.displayName.val 200
  tier := shownTier record.effectiveTier
  identities
  lists

/-- The personas on whose lists the record is. -/
def listsOf (availablePersonas : List Hex64) (record : EffectiveContact) : List Hex64 :=
  availablePersonas.filter fun p => contactBelongsToList record.toContactRecord p

/-- The keys of a record that nobody blocks. -/
def identitiesOf (blockedPeers : List Hex64) (record : EffectiveContact) : List Hex64 :=
  (distinct (recordKeys record)).filter fun p => !blockedPeers.contains p

/-- Does the record have an entry? -/
def isListed (availablePersonas blockedPeers : List Hex64) (record : EffectiveContact) : Bool :=
  shown record && decide (listsOf availablePersonas record ≠ [] ∧ identitiesOf blockedPeers record ≠ [])

theorem effectiveTier_of_shown {record : EffectiveContact} (h : shown record = true) :
    record.effectiveTier ≠ .none := by
  simp only [shown, Bool.and_eq_true, decide_eq_true_eq] at h
  exact h.1.1.1.2

theorem entryFor_eq (availablePersonas blockedPeers : List Hex64) (record : EffectiveContact) :
    entryFor availablePersonas blockedPeers record =
      if isListed availablePersonas blockedPeers record then
        some (entryWith record (identitiesOf blockedPeers record) (listsOf availablePersonas record)).toJs
      else none := by
  unfold entryFor
  by_cases hshown : shown record = true
  · have htier := toJs_shownTier (effectiveTier_of_shown hshown)
    rw [if_neg (by rw [hshown]; decide)]
    show (if listsOf availablePersonas record = [] ∨ identitiesOf blockedPeers record = [] then none
      else some (projectedEntry record (identitiesOf blockedPeers record) (listsOf availablePersonas record))) = _
    by_cases hnil : listsOf availablePersonas record = [] ∨ identitiesOf blockedPeers record = []
    · have hnot : isListed availablePersonas blockedPeers record = false := by
        rw [isListed, hshown, Bool.true_and, decide_eq_false_iff_not, not_and_or, not_not, not_not]
        exact hnil
      rw [if_pos hnil, hnot]
      rfl
    · have hlisted : isListed availablePersonas blockedPeers record = true := by
        rw [isListed, hshown, Bool.true_and, decide_eq_true_eq]
        exact not_or.1 hnil
      rw [if_neg hnil, hlisted, projectedEntry, ← htier]
      rfl
  · have hnot : isListed availablePersonas blockedPeers record = false := by
      rw [isListed, Bool.eq_false_iff.2 hshown, Bool.false_and]
    rw [if_pos (by rw [Bool.eq_false_iff.2 hshown]; rfl), hnot]
    rfl

theorem filterMap_entryFor (availablePersonas blockedPeers : List Hex64) (records : List EffectiveContact) :
    records.filterMap (entryFor availablePersonas blockedPeers) =
      ((records.filter (isListed availablePersonas blockedPeers)).map fun record =>
        entryWith record (identitiesOf blockedPeers record) (listsOf availablePersonas record)).map
          ChildDirectoryEntry.toJs := by
  induction records with
  | nil => rfl
  | cons record records ih =>
    rw [List.filterMap_cons, List.filter_cons, entryFor_eq]
    cases isListed availablePersonas blockedPeers record with
    | true =>
      show _ :: records.filterMap _ = _ :: _
      rw [ih]
    | false =>
      show records.filterMap _ = _
      rw [ih]
      rfl

/-! ## The directory -/

/-- The entries of a child's directory. -/
def entriesOf (availablePersonas : List Hex64) (effective : List EffectiveContact) : List ChildDirectoryEntry :=
  (effective.filter (isListed availablePersonas (blockedPeers effective))).map fun record =>
    entryWith record (identitiesOf (blockedPeers effective) record) (listsOf availablePersonas record)

/-- The directory whose text is read. -/
def projected (guardian recipient : Hex64) (personas : List Hex64) (settings : Option ChildSettings)
    (records : List ContactRecord) (revision now : ℕ) : ChildContactDirectory where
  guardian
  recipient
  revision
  issuedAt := now
  expiresAt := now + ttl
  conflicted := settings.any fun settings => settings.contactPolicyConflicted
  personas
  entries :=
    if settings.any fun settings => settings.contactPolicyConflicted then []
    else entriesOf personas (effectiveRecords guardian settings records)

/-- What a guardian may project: scopes are checked before anything is. -/
structure InScope (s : ProjectionScope) (child guardian recipient : Hex64) (personas : List Hex64) : Prop where
  ofChild : s.child = child.val
  ofGuardian : s.guardian = guardian.val
  ofRecipient : s.recipient = recipient.val
  ofPersonas : s.availablePersonas = personas.map fun p => p.val
  few : personas.length ≤ 32
  once : personas.Nodup
  settings : ∀ settings ∈ s.settings, settings.childPubkey = child ∧ settings.guardianPubkey = guardian
  records : ∀ record ∈ s.records, record.directoryId = .dependant child

section

variable [Numerals] {s : ProjectionScope} {child guardian recipient : Hex64} {personas : List Hex64}

variable {now revision : ℕ}

theorem project_eq (h : InScope s child guardian recipient personas) (hnow : now ≤ maxTime)
    (hrevision : revision ≤ maxTime) :
    projectChildContactDirectory s revision now =
      parseChildContactDirectory
        (jsonText (projected guardian recipient personas s.settings s.records revision now).toJs) := by
  have hkeys : keys (.arr (s.availablePersonas.map .str)) 32 = some personas := by
    have hsame : JsValue.arr (s.availablePersonas.map .str) = keysToJs personas := by
      rw [h.ofPersonas, List.map_map]
      rfl
    rw [hsame, keys_keysToJs, if_pos ⟨h.few, h.once⟩]
  have hhex : ∀ {text : JsString} {key : Hex64}, text = key.val → isHex 64 (.str text) = some key := by
    intro text key hkey
    rw [hkey]
    exact isHex_toJs key
  unfold projectChildContactDirectory
  rw [hhex h.ofChild, hhex h.ofGuardian, hhex h.ofRecipient, hkeys]
  simp only [Option.bind_eq_bind, Option.bind_some, hnow, hrevision, and_self, guard_true]
  have hsettings : (guard (∀ settings ∈ s.settings, settings.childPubkey = child ∧
      settings.guardianPubkey = guardian) : Option Unit) = some () := if_pos h.settings
  have hrecords : (guard (∀ record ∈ s.records, record.directoryId = .dependant child) : Option Unit) = some () :=
    if_pos h.records
  rw [hsettings, hrecords]
  have htext : projectedDirectory guardian recipient revision now
      (s.settings.any fun settings => settings.contactPolicyConflicted) personas
      (if (s.settings.any fun settings => settings.contactPolicyConflicted) = true then []
        else (effectiveRecords guardian s.settings s.records).filterMap
          (entryFor personas (blockedPeers (effectiveRecords guardian s.settings s.records)))) =
      (projected guardian recipient personas s.settings s.records revision now).toJs := by
    rw [filterMap_entryFor]
    unfold projected ChildContactDirectory.toJs projectedDirectory entriesOf
    cases s.settings.any fun settings => settings.contactPolicyConflicted <;> rfl
  exact congrArg (fun v => parseChildContactDirectory (jsonText v)) htext

/-! ## A directory that fits -/

/-- What the parser leaves room for. -/
structure Fits (d : ChildContactDirectory) : Prop where
  entries : d.entries.length ≤ 256
  identities : ∀ e ∈ d.entries, e.identities.length ≤ 32
  bytes : utf8Length (jsonText d.toJs) ≤ maxBytes

omit [Numerals] in
theorem cleaned_name (record : EffectiveContact) :
    sanitizeDisplayName record.displayName.val 200 =
      sanitizeDisplayName (sanitizeDisplayName record.displayName.val 200) 200 :=
  (sanitizeDisplayName_idem (record.displayName.property.trans (by decide))).symm

/-- A projection that fits is a valid directory. -/
theorem valid_projected (h : InScope s child guardian recipient personas)
    (hnow : now + ttl ≤ maxTime) (hrevision : revision ≤ maxTime)
    (hids : (s.records.map fun record => record.contactId).Nodup)
    (hfits : Fits (projected guardian recipient personas s.settings s.records revision now)) :
    Valid (projected guardian recipient personas s.settings s.records revision now) := by
  have hlistsSub : ∀ record, (listsOf personas record).Sublist personas := fun record => List.filter_sublist
  refine ⟨⟨hrevision, (Nat.le_add_right _ _).trans hnow, hnow⟩, ⟨?_, ?_⟩, ⟨h.few, h.once⟩,
    ⟨hfits.entries, ?_⟩, ?_, ?_⟩
  · show now < now + ttl
    unfold ttl
    omega
  · show now + ttl - now ≤ ttl
    omega
  · show ((if _ then [] else entriesOf personas _).map ChildDirectoryEntry.id).Nodup
    split
    · exact List.nodup_nil
    · -- an entry has its record's id
      rw [entriesOf, List.map_map]
      refine List.Nodup.sublist (List.Sublist.map _ List.filter_sublist) ?_
      rw [effectiveRecords, List.map_map]
      exact hids
  · intro hconflicted
    exact if_pos hconflicted
  · intro e he
    have hidentities := hfits.identities e he
    have hentry : e ∈ entriesOf personas (effectiveRecords guardian s.settings s.records) := by
      have he' : e ∈ (if _ then [] else entriesOf personas (effectiveRecords guardian s.settings s.records)) := he
      split at he'
      · cases he'
      · exact he'
    obtain ⟨record, hrecord, rfl⟩ := List.mem_map.1 hentry
    have hlisted := (List.mem_filter.1 hrecord).2
    simp only [isListed, Bool.and_eq_true, decide_eq_true_eq] at hlisted
    obtain ⟨-, hlists, hkeys⟩ := hlisted
    refine ⟨cleaned_name record, ⟨hidentities, (nodup_distinct _).filter _, hkeys⟩,
      ⟨(hlistsSub record).length_le.trans h.few, h.once.sublist (hlistsSub record), hlists, ?_⟩⟩
    rw [List.all_eq_true]
    intro p hp
    exact List.contains_iff_mem.2 ((hlistsSub record).subset hp)

/-! ## In order -/

theorem utf8Length_tidiedEntry (e : ChildDirectoryEntry) :
    utf8Length (jsonText e.tidied.toJs) = utf8Length (jsonText e.toJs) := by
  have hkeys : ∀ ks : List Hex64, utf8Length (jsonText (keysToJs (sorted ks))) = utf8Length (jsonText (keysToJs ks)) := by
    intro ks
    rw [utf8Length_keysToJs, utf8Length_keysToJs, sorted, List.length_insertionSort]
  rw [ChildDirectoryEntry.toJs, ChildDirectoryEntry.toJs, utf8Length_jsonText_obj, utf8Length_jsonText_obj]
  · simp only [memberBytes_cons, memberBytes_nil, ChildDirectoryEntry.tidied, hkeys]
  all_goals simp [StringUnion.toJs, JsValue.ofLit, Hex.toJs, keysToJs]

theorem utf8Length_tidied (d : ChildContactDirectory) :
    utf8Length (jsonText d.tidied.toJs) = utf8Length (jsonText d.toJs) := by
  have hwritten : ∀ es : List ChildDirectoryEntry, ∀ v ∈ es.map ChildDirectoryEntry.toJs, Written v := by
    intro es v hv
    obtain ⟨e, -, rfl⟩ := List.mem_map.1 hv
    exact written_obj _
  have hpersonas : utf8Length (jsonText (keysToJs d.tidied.personas)) = utf8Length (jsonText (keysToJs d.personas)) := by
    rw [utf8Length_keysToJs, utf8Length_keysToJs, ChildContactDirectory.tidied, sorted, List.length_insertionSort]
  have hentries : utf8Length (jsonText (.arr (d.tidied.entries.map ChildDirectoryEntry.toJs))) =
      utf8Length (jsonText (.arr (d.entries.map ChildDirectoryEntry.toJs))) := by
    rw [utf8Length_jsonText_arr (hwritten _), utf8Length_jsonText_arr (hwritten _)]
    -- the same entries in another order, each as long as it was
    have hperm : (d.tidied.entries.map ChildDirectoryEntry.toJs).Perm
        ((d.entries.map ChildDirectoryEntry.tidied).map ChildDirectoryEntry.toJs) :=
      (List.perm_insertionSort _ _).map _
    rw [bytes_perm (hperm.map jsonText), bytes, bytes]
    congr 3
    rw [List.map_map, List.map_map, List.map_map, List.map_map, List.map_map]
    exact List.map_congr_left fun e _ => congrArg (· + 1) (utf8Length_tidiedEntry e)
  rw [ChildContactDirectory.toJs, ChildContactDirectory.toJs, utf8Length_jsonText_obj, utf8Length_jsonText_obj]
  · simp only [memberBytes_cons, memberBytes_nil, hentries, hpersonas]
    rfl
  all_goals simp [JsValue.ofNat, Hex.toJs, keysToJs]

variable {d : ChildContactDirectory}

omit [Numerals] in
theorem Valid.tidied (h : Valid d) : Valid d.tidied := by
  have hperm : d.tidied.entries.Perm (d.entries.map ChildDirectoryEntry.tidied) := List.perm_insertionSort _ _
  have hsorted : ∀ ks : List Hex64, (sorted ks).Perm ks := fun ks => List.perm_insertionSort _ ks
  refine ⟨h.times, h.lifetime, ⟨?_, ?_⟩, ⟨?_, ?_⟩, ?_, ?_⟩
  · exact ((hsorted d.personas).length_eq).trans_le h.personas.1
  · exact (hsorted d.personas).nodup_iff.2 h.personas.2
  · rw [hperm.length_eq, List.length_map]
    exact h.entries.1
  · rw [(hperm.map _).nodup_iff, ids_tidied]
    exact h.entries.2
  · intro hconflicted
    have hnil : d.tidied.entries.length = 0 := by rw [hperm.length_eq, h.conflicted hconflicted]; rfl
    exact List.length_eq_zero_iff.1 hnil
  · intro e he
    obtain ⟨e', he', rfl⟩ := List.mem_map.1 (hperm.mem_iff.1 he)
    obtain ⟨hname, ⟨hidentities, honce, hsome⟩, hlists, honce', hsome', hin⟩ := h.entry e' he'
    refine ⟨hname, ⟨?_, (hsorted _).nodup_iff.2 honce, ?_⟩, ?_, (hsorted _).nodup_iff.2 honce', ?_, ?_⟩
    · exact ((hsorted _).length_eq).trans_le hidentities
    · exact fun hnil => hsome (List.nil_perm.1 (hnil ▸ hsorted e'.identities))
    · exact ((hsorted _).length_eq).trans_le hlists
    · exact fun hnil => hsome' (List.nil_perm.1 (hnil ▸ hsorted e'.lists))
    · rw [List.all_eq_true] at hin ⊢
      intro p hp
      exact List.contains_iff_mem.2 ((hsorted _).mem_iff.2 (List.contains_iff_mem.1 (hin p ((hsorted _).mem_iff.1 hp))))

theorem project_of_fits (hint : IntegersSurvive) (h : InScope s child guardian recipient personas)
    (hnow : now + ttl ≤ maxTime) (hrevision : revision ≤ maxTime)
    (hids : (s.records.map fun record => record.contactId).Nodup)
    (hfits : Fits (projected guardian recipient personas s.settings s.records revision now)) :
    projectChildContactDirectory s revision now =
      some (projected guardian recipient personas s.settings s.records revision now).tidied := by
  rw [project_eq h ((Nat.le_add_right _ _).trans hnow) hrevision]
  exact (parse_directory hint).2 ⟨hfits.bytes, valid_projected h hnow hrevision hids hfits, rfl⟩

omit [Numerals] in
theorem eq_of_keys {texts : List JsString} {ks : List Hex64} {max : ℕ} (h : keys (.arr (texts.map .str)) max = some ks) :
    texts = ks.map (fun p => p.val) ∧ ks.length ≤ max ∧ ks.Nodup := by
  have hread : ∀ {texts : List JsString} {ks : List Hex64}, (texts.map JsValue.str).mapM (isHex 64) = some ks →
      texts = ks.map fun p => p.val := by
    intro texts
    induction texts with
    | nil =>
      intro ks hks
      cases hks
      rfl
    | cons text texts ih =>
      intro ks hks
      simp only [List.map_cons, List.mapM_cons, Option.bind_eq_bind, Option.bind_eq_some_iff, isHex_eq_some_iff,
        Option.pure_def, Option.some.injEq] at hks
      obtain ⟨key, hkey, rest, hrest, rfl⟩ := hks
      rw [List.map_cons, ih hrest]
      cases hkey
      rfl
  simp only [keys, isArrayOf, Option.filter_eq_some_iff, decide_eq_true_eq] at h
  exact ⟨hread h.1, h.2⟩

theorem inScope_of_project (h : projectChildContactDirectory s revision now = some d)
    (hguardian : isHex 64 (.str s.guardian) = some guardian) :
    ∃ child recipient personas, InScope s child guardian recipient personas ∧ now ≤ maxTime ∧ revision ≤ maxTime := by
  unfold projectChildContactDirectory at h
  simp only [Option.bind_eq_bind, Option.bind_eq_some_iff, Option.guard_eq_some'] at h
  obtain ⟨child, hchild, guardian', hguardian', recipient, hrecipient, personas, hpersonas, _, ⟨hnow, hrevision⟩, _,
    hsettings, _, hrecords, -⟩ := h
  cases hguardian.symm.trans hguardian'
  have hval : ∀ {text : JsString} {key : Hex64}, isHex 64 (.str text) = some key → text = key.val := by
    intro text key hread
    cases isHex_eq_some_iff.1 hread
    rfl
  obtain ⟨hsame, hfew, honce⟩ := eq_of_keys hpersonas
  exact ⟨child, recipient, personas,
    ⟨hval hchild, hval hguardian, hval hrecipient, hsame, hfew, honce, hsettings, hrecords⟩, hnow, hrevision⟩

theorem parse_of_project (hint : IntegersSurvive)
    (h : projectChildContactDirectory s revision now = some d)
    (hguardian : isHex 64 (.str s.guardian) = some guardian) :
    parseChildContactDirectory (jsonText d.toJs) = some d := by
  obtain ⟨child, recipient, personas, hscope, hnow, hrevision⟩ := inScope_of_project h hguardian
  rw [project_eq hscope hnow hrevision] at h
  obtain ⟨hbytes, hvalid, rfl⟩ := (parse_directory hint).1 h
  refine (parse_directory hint).2 ⟨?_, hvalid.tidied, (tidied_of_tidy (tidy_tidied _)).symm⟩
  rw [utf8Length_tidied]
  exact hbytes

structure Shows (blocked : List Hex64) (record : EffectiveContact) (e : ChildDirectoryEntry) : Prop where
  id : e.id = record.contactId
  tier : StringUnion.toJs e.tier = StringUnion.toJs record.effectiveTier
  current : record.blocked = false ∧ record.lifecycle = .active ∧ record.archived ≠ some true ∧ record.removedAt = none
  keys : ∀ key ∈ e.identities, key ∈ recordKeys record ∧ key ∉ blocked

/-- **An entry shows a record that is there**, at the tier it has in effect. -/
theorem shows_of_project (hint : IntegersSurvive)
    (h : projectChildContactDirectory s revision now = some d)
    (hguardian : isHex 64 (.str s.guardian) = some guardian) :
    ∀ e ∈ d.entries, ∃ record ∈ effectiveRecords guardian s.settings s.records,
      Shows (blockedPeers (effectiveRecords guardian s.settings s.records)) record e := by
  obtain ⟨personas, hentry⟩ := exists_record_of_project hint h hguardian
  intro e he
  obtain ⟨record, hrecord, v, hfor, hread⟩ := hentry e he
  refine ⟨record, hrecord, ?_⟩
  rw [entryFor_eq] at hfor
  split at hfor
  · rename_i hlisted
    cases hfor
    obtain ⟨-, rfl⟩ := entryOf_toJs.1 hread
    simp only [isListed, Bool.and_eq_true] at hlisted
    have hcurrent := hlisted.1
    have htier := effectiveTier_of_shown hcurrent
    simp only [shown, Bool.and_eq_true, Bool.not_eq_true', decide_eq_true_eq, Option.isNone_iff_eq_none] at hcurrent
    obtain ⟨⟨⟨⟨hblocked, -⟩, hactive⟩, harchived⟩, hremoved⟩ := hcurrent
    refine ⟨rfl, toJs_shownTier htier, ⟨hblocked, hactive, ?_, hremoved⟩, fun key hkey => ?_⟩
    · intro hsome
      rw [hsome] at harchived
      cases harchived
    · have hmem := (List.perm_insertionSort _ _).mem_iff.1 hkey
      obtain ⟨hown, hnot⟩ := List.mem_filter.1 hmem
      refine ⟨mem_distinct.1 hown, ?_⟩
      simpa using hnot
  · cases hfor

end

end SignetApp.ChildContacts
