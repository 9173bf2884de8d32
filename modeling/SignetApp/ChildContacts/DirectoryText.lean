import SignetApp.ChildContacts.Directory
import SignetApp.Sync.Wire

/-!
# A directory and its text

What is read is in order, and what is in order is read as it was written.
-/

namespace SignetApp.ChildContacts

open SignetApp.Js SignetApp.Sync
open SignetApp.Contacts (EffectiveContact Hex32 Hex64 contactBelongsToList sanitizeDisplayName)

/-! ## Order -/

/-- Keys and entries in order. -/
structure Tidy (d : ChildContactDirectory) : Prop where
  personas : d.personas.Pairwise (· ≤ ·)
  entries : d.entries.Pairwise fun a b => a.id ≤ b.id
  identities : ∀ e ∈ d.entries, e.identities.Pairwise (· ≤ ·)
  lists : ∀ e ∈ d.entries, e.lists.Pairwise (· ≤ ·)

def ChildDirectoryEntry.tidied (e : ChildDirectoryEntry) : ChildDirectoryEntry :=
  { e with identities := sorted e.identities, lists := sorted e.lists }

def ChildContactDirectory.tidied (d : ChildContactDirectory) : ChildContactDirectory :=
  { d with
    personas := sorted d.personas
    entries := (d.entries.map ChildDirectoryEntry.tidied).insertionSort fun a b => a.id ≤ b.id }

variable {d : ChildContactDirectory}

theorem tidied_of_tidy (h : Tidy d) : d.tidied = d := by
  have hentry : ∀ e ∈ d.entries, e.tidied = e := by
    intro e he
    unfold ChildDirectoryEntry.tidied sorted
    rw [(h.identities e he).insertionSort_eq, (h.lists e he).insertionSort_eq]
  have hentries : d.entries.map ChildDirectoryEntry.tidied = d.entries := by
    rw [List.map_congr_left hentry]
    exact List.map_id _
  unfold ChildContactDirectory.tidied sorted
  rw [hentries, h.personas.insertionSort_eq, h.entries.insertionSort_eq]

theorem tidy_tidied (d : ChildContactDirectory) : Tidy d.tidied := by
  have hentry : ∀ e ∈ d.tidied.entries, ∃ e', e = ChildDirectoryEntry.tidied e' := by
    intro e he
    obtain ⟨e', -, rfl⟩ := List.mem_map.1 ((List.perm_insertionSort _ _).mem_iff.1 he)
    exact ⟨e', rfl⟩
  refine ⟨List.pairwise_insertionSort _ _, ?_, ?_, ?_⟩
  · exact List.pairwise_insertionSort (fun a b : ChildDirectoryEntry => a.id ≤ b.id) _
  · intro e he
    obtain ⟨e', rfl⟩ := hentry e he
    exact List.pairwise_insertionSort _ _
  · intro e he
    obtain ⟨e', rfl⟩ := hentry e he
    exact List.pairwise_insertionSort _ _

/-! ## Values that are read -/

/-- What the parser asks of an entry. -/
structure ChildDirectoryEntry.Valid (personas : List Hex64) (e : ChildDirectoryEntry) : Prop where
  name : e.name = sanitizeDisplayName e.name 200
  identities : e.identities.length ≤ 32 ∧ e.identities.Nodup ∧ e.identities ≠ []
  lists : e.lists.length ≤ 32 ∧ e.lists.Nodup ∧ e.lists ≠ [] ∧ e.lists.all personas.contains = true

/-- What it asks of a directory. -/
structure Valid (d : ChildContactDirectory) : Prop where
  times : d.revision ≤ maxTime ∧ d.issuedAt ≤ maxTime ∧ d.expiresAt ≤ maxTime
  lifetime : d.issuedAt < d.expiresAt ∧ d.expiresAt - d.issuedAt ≤ ttl
  personas : d.personas.length ≤ 32 ∧ d.personas.Nodup
  entries : d.entries.length ≤ 256 ∧ (d.entries.map ChildDirectoryEntry.id).Nodup
  conflicted : d.conflicted = true → d.entries = []
  entry : ∀ e ∈ d.entries, e.Valid d.personas

@[simp]
theorem isTime_ofNat (n : ℕ) : isTime (.ofNat n) = if n ≤ maxTime then some n else none := by
  unfold isTime isBoundedNat
  rw [isNonNegativeInt_ofNat, Option.bind_some]
  split <;> rfl

@[simp]
theorem keys_keysToJs (ks : List Hex64) (max : ℕ) :
    keys (keysToJs ks) max = if ks.length ≤ max ∧ ks.Nodup then some ks else none := by
  unfold keys keysToJs
  rw [isArrayOf_toJs isHex_toJs, Option.filter]
  simp

variable {personas : List Hex64}

variable {e : ChildDirectoryEntry}

theorem entryOf_toJs {e' : ChildDirectoryEntry} :
    entryOf personas e.toJs = some e' ↔ e.Valid personas ∧ e' = e.tidied := by
  have hid : e.toJs.get "id" = e.id.toJs := by simp [ChildDirectoryEntry.toJs, JsValue.get_obj_cons]
  have hname : e.toJs.get "name" = .str e.name := by simp [ChildDirectoryEntry.toJs, JsValue.get_obj_cons]
  have htier : e.toJs.get "tier" = StringUnion.toJs e.tier := by
    simp [ChildDirectoryEntry.toJs, JsValue.get_obj_cons]
  have hidentities : e.toJs.get "identities" = keysToJs e.identities := by
    simp [ChildDirectoryEntry.toJs, JsValue.get_obj_cons]
  have hlists : e.toJs.get "lists" = keysToJs e.lists := by
    simp [ChildDirectoryEntry.toJs, JsValue.get_obj_cons]
  unfold entryOf
  rw [hid, hname, htier, hidentities, hlists]
  simp only [isHex_toJs, cleanName, parse_toJs, keys_keysToJs, Option.bind_eq_bind, Option.bind_some,
    Option.bind_eq_some_iff, Option.guard_eq_some', Option.ite_none_right_eq_some, Option.some.injEq, Option.pure_def]
  constructor
  · rintro ⟨_, ⟨hvalid, rfl⟩, _, ⟨⟨hlen, hnodup⟩, rfl⟩, _, hne, _, ⟨⟨hlen', hnodup'⟩, rfl⟩, _, ⟨hne', hin⟩, rfl⟩
    exact ⟨⟨hvalid, ⟨hlen, hnodup, hne⟩, ⟨hlen', hnodup', hne', hin⟩⟩, rfl⟩
  · rintro ⟨⟨hvalid, ⟨hlen, hnodup, hne⟩, ⟨hlen', hnodup', hne', hin⟩⟩, rfl⟩
    exact ⟨_, ⟨hvalid, rfl⟩, _, ⟨⟨hlen, hnodup⟩, rfl⟩, (), hne, _, ⟨⟨hlen', hnodup'⟩, rfl⟩, (), ⟨hne', hin⟩, rfl⟩

theorem mapM_entryOf_toJs (entries : List ChildDirectoryEntry) (es : List ChildDirectoryEntry) :
    (entries.map ChildDirectoryEntry.toJs).mapM (entryOf personas) = some es ↔
      (∀ e ∈ entries, e.Valid personas) ∧ es = entries.map ChildDirectoryEntry.tidied := by
  induction entries generalizing es with
  | nil => simp [eq_comm]
  | cons e entries ih =>
    simp only [List.map_cons, List.mapM_cons, Option.bind_eq_bind, Option.bind_eq_some_iff, entryOf_toJs, ih,
      Option.pure_def, Option.some.injEq, List.forall_mem_cons]
    constructor
    · rintro ⟨_, ⟨he, rfl⟩, _, ⟨hes, rfl⟩, rfl⟩
      exact ⟨⟨he, hes⟩, rfl⟩
    · rintro ⟨⟨he, hes⟩, rfl⟩
      exact ⟨_, ⟨he, rfl⟩, _, ⟨hes, rfl⟩, rfl⟩

theorem ids_tidied (entries : List ChildDirectoryEntry) :
    (entries.map ChildDirectoryEntry.tidied).map ChildDirectoryEntry.id =
      entries.map ChildDirectoryEntry.id := by
  rw [List.map_map]
  rfl

/-- What is written is read, in order, if it is valid. -/
theorem directoryOf_toJs {d' : ChildContactDirectory} :
    directoryOf d.toJs = some d' ↔ Valid d ∧ d' = d.tidied := by
  have hv : d.toJs.get "v" = .ofNat 1 := by simp [ChildContactDirectory.toJs, JsValue.get_obj_cons]
  have hguardian : d.toJs.get "guardian" = d.guardian.toJs := by
    simp [ChildContactDirectory.toJs, JsValue.get_obj_cons]
  have hrecipient : d.toJs.get "recipient" = d.recipient.toJs := by
    simp [ChildContactDirectory.toJs, JsValue.get_obj_cons]
  have hrevision : d.toJs.get "revision" = .ofNat d.revision := by
    simp [ChildContactDirectory.toJs, JsValue.get_obj_cons]
  have hissued : d.toJs.get "issuedAt" = .ofNat d.issuedAt := by
    simp [ChildContactDirectory.toJs, JsValue.get_obj_cons]
  have hexpires : d.toJs.get "expiresAt" = .ofNat d.expiresAt := by
    simp [ChildContactDirectory.toJs, JsValue.get_obj_cons]
  have hconflicted : d.toJs.get "conflicted" = .bool d.conflicted := by
    simp [ChildContactDirectory.toJs, JsValue.get_obj_cons]
  have hpersonas : d.toJs.get "personas" = keysToJs d.personas := by
    simp [ChildContactDirectory.toJs, JsValue.get_obj_cons]
  have hentries : d.toJs.get "entries" = .arr (d.entries.map ChildDirectoryEntry.toJs) := by
    simp [ChildContactDirectory.toJs, JsValue.get_obj_cons]
  unfold directoryOf
  rw [hv, hguardian, hrecipient, hrevision, hissued, hexpires, hconflicted, hpersonas, hentries]
  simp only [isHex_toJs, isTime_ofNat, keys_keysToJs, isBool, isArrayOf, mapM_entryOf_toJs,
    Option.bind_eq_bind, Option.bind_some, Option.bind_eq_some_iff, Option.guard_eq_some',
    Option.ite_none_right_eq_some, Option.some.injEq, Option.pure_def]
  constructor
  · rintro ⟨_, -, _, ⟨hr, rfl⟩, _, ⟨hi, rfl⟩, _, ⟨hx, rfl⟩, _, hlife, _, ⟨hp, rfl⟩, es, ⟨hes, rfl⟩, _,
      ⟨hlen, hnodup⟩, _, hconf, rfl⟩
    refine ⟨⟨⟨hr, hi, hx⟩, hlife, hp, ⟨?_, ?_⟩, ?_, hes⟩, rfl⟩
    · rwa [List.length_map] at hlen
    · rwa [ids_tidied] at hnodup
    · exact fun h => List.map_eq_nil_iff.1 (hconf h)
  · rintro ⟨⟨⟨hr, hi, hx⟩, hlife, hp, ⟨hlen, hnodup⟩, hconf, hes⟩, rfl⟩
    refine ⟨(), trivial, _, ⟨hr, rfl⟩, _, ⟨hi, rfl⟩, _, ⟨hx, rfl⟩, (), hlife, _, ⟨hp, rfl⟩, _, ⟨hes, rfl⟩, (),
      ⟨?_, ?_⟩, (), ?_, rfl⟩
    · rwa [List.length_map]
    · rwa [ids_tidied]
    · exact fun h => List.map_eq_nil_iff.2 (hconf h)

/-! ## What is read is in order -/

variable {v : JsValue}

theorem entryOf_tidied (h : entryOf personas v = some e) :
    e.identities.Pairwise (· ≤ ·) ∧ e.lists.Pairwise (· ≤ ·) := by
  simp only [entryOf, Option.bind_eq_bind, Option.bind_eq_some_iff, Option.guard_eq_some', Option.pure_def,
    Option.some.injEq] at h
  obtain ⟨_, -, _, -, _, -, _, -, _, -, _, -, _, -, rfl⟩ := h
  exact ⟨List.pairwise_insertionSort _ _, List.pairwise_insertionSort _ _⟩

theorem mem_mapM_some {α β : Type} {f : α → Option β} {as : List α} {bs : List β} (h : as.mapM f = some bs)
    {b : β} (hb : b ∈ bs) : ∃ a ∈ as, f a = some b := by
  induction as generalizing bs with
  | nil =>
    cases h
    cases hb
  | cons a as ih =>
    simp only [List.mapM_cons, Option.bind_eq_bind, Option.bind_eq_some_iff, Option.pure_def,
      Option.some.injEq] at h
    obtain ⟨b', hb', bs', hbs', rfl⟩ := h
    rcases List.mem_cons.1 hb with rfl | hmem
    · exact ⟨a, List.mem_cons_self, hb'⟩
    · obtain ⟨a', ha', hfa'⟩ := ih hbs' hmem
      exact ⟨a', List.mem_cons_of_mem _ ha', hfa'⟩

theorem tidy_of_directoryOf (h : directoryOf v = some d) : Tidy d := by
  simp only [directoryOf, Option.bind_eq_bind, Option.bind_eq_some_iff, Option.guard_eq_some', Option.pure_def,
    Option.some.injEq] at h
  obtain ⟨_, -, _, -, _, -, _, -, _, -, _, -, _, -, _, -, personas, -, entries, hentries, _, -, _, -, rfl⟩ := h
  have hentry : ∀ e ∈ entries, e.identities.Pairwise (· ≤ ·) ∧ e.lists.Pairwise (· ≤ ·) := by
    intro e he
    cases hv : v.get "entries" with
    | arr vs =>
      rw [hv] at hentries
      obtain ⟨_, -, hread⟩ := mem_mapM_some hentries he
      exact entryOf_tidied hread
    | _ =>
      rw [hv] at hentries
      cases hentries
  have hmem : ∀ e, e ∈ entries.insertionSort (fun a b => a.id ≤ b.id) ↔ e ∈ entries :=
    fun e => (List.perm_insertionSort _ _).mem_iff
  refine ⟨List.pairwise_insertionSort _ _, ?_, ?_, ?_⟩
  · exact List.pairwise_insertionSort (fun a b : ChildDirectoryEntry => a.id ≤ b.id) _
  · exact fun e he => (hentry e ((hmem e).1 he)).1
  · exact fun e he => (hentry e ((hmem e).1 he)).2

/-! ## Texts -/

section

variable [Numerals]

theorem isJson_keysToJs (ks : List Hex64) : IsJson (keysToJs ks) := isJson_map_toJs ks

theorem ChildDirectoryEntry.isJson_toJs (e : ChildDirectoryEntry) : IsJson e.toJs := by
  simp only [ChildDirectoryEntry.toJs, IsJson, HoldJson, and_true, List.map_cons, List.map_nil]
  exact ⟨by decide, trivial, trivial, isJson_ofLit _, isJson_keysToJs _, isJson_keysToJs _⟩

theorem ChildContactDirectory.isJson_toJs (hint : IntegersSurvive) (d : ChildContactDirectory) :
    IsJson d.toJs := by
  have hentries : IsJson (.arr (d.entries.map ChildDirectoryEntry.toJs)) := by
    rw [IsJson, areJson_iff]
    intro v hv
    obtain ⟨e, -, rfl⟩ := List.mem_map.1 hv
    exact e.isJson_toJs
  simp only [ChildContactDirectory.toJs, IsJson, HoldJson, and_true, List.map_cons, List.map_nil]
  exact ⟨by decide, hint.nat _, trivial, trivial, hint.nat _, hint.nat _, hint.nat _, trivial,
    isJson_keysToJs _, hentries⟩

variable {d : ChildContactDirectory}

theorem tidy_of_parse {raw : JsString} (h : parseChildContactDirectory raw = some d) : Tidy d := by
  unfold parseChildContactDirectory at h
  split at h
  · cases h
  · obtain ⟨v, -, hv⟩ := Option.bind_eq_some_iff.1 h
    exact tidy_of_directoryOf hv

theorem parse_text (hint : IntegersSurvive) {d' : ChildContactDirectory}
    (h : parseChildContactDirectory (jsonText d.toJs) = some d') : Valid d ∧ d' = d.tidied := by
  unfold parseChildContactDirectory at h
  split at h
  · cases h
  · rw [parse_jsonText (d.isJson_toJs hint), Option.bind_some] at h
    exact directoryOf_toJs.1 h

theorem seal_eq (hint : IntegersSurvive) {view : ChildContactDirectory} {event : SealedDirectory}
    (htidy : Tidy view) (h : sealChildContactDirectory view = some event) :
    event = ⟨view.issuedAt, view⟩ := by
  obtain ⟨parsed, hparsed, rfl⟩ := Option.map_eq_some_iff.1 h
  obtain ⟨-, rfl⟩ := parse_text hint hparsed
  rw [tidied_of_tidy htidy]

/-! ## What is projected -/

variable {personas : List Hex64}

variable {v : JsValue} {record : EffectiveContact} {blocked : List Hex64}

theorem isJson_entryFor (h : entryFor personas blocked record = some v) : IsJson v := by
  unfold entryFor at h
  split at h
  · cases h
  · dsimp only at h
    split at h
    · cases h
    · cases h
      simp only [projectedEntry, IsJson, HoldJson, and_true, List.map_cons, List.map_nil]
      exact ⟨by decide, trivial, trivial, isJson_ofLit _, isJson_keysToJs _, isJson_keysToJs _⟩

variable {key : Hex64}

omit [Numerals] in
theorem not_mem_of_entryFor
    (hfor : entryFor personas blocked record = some v) {all : List Hex64} {e : ChildDirectoryEntry}
    (he : entryOf all v = some e) (hkey : key ∈ e.identities) : key ∉ blocked := by
  unfold entryFor at hfor
  split at hfor
  · cases hfor
  · dsimp only at hfor
    split at hfor
    · cases hfor
    · cases hfor
      simp only [entryOf, Option.bind_eq_bind, Option.bind_eq_some_iff, Option.guard_eq_some', Option.pure_def,
        Option.some.injEq] at he
      obtain ⟨_, -, _, -, _, -, ids, hids, _, -, _, -, _, -, rfl⟩ := he
      have hget : (projectedEntry record
          ((distinct (recordKeys record)).filter fun p => !blocked.contains p)
          (personas.filter fun p => contactBelongsToList record.toContactRecord p)).get "identities" =
          keysToJs ((distinct (recordKeys record)).filter fun p => !blocked.contains p) := by
        simp [projectedEntry, JsValue.get_obj_cons]
      rw [hget, keys_keysToJs, Option.ite_none_right_eq_some, Option.some.injEq] at hids
      obtain ⟨-, rfl⟩ := hids
      have hmem := (List.perm_insertionSort _ _).mem_iff.1 hkey
      simpa using (List.mem_filter.1 hmem).2

variable {now revision : ℕ} {guardian : Hex64}

/-- Every entry that is read is one that was projected. -/
theorem exists_entry_of_parse (hint : IntegersSurvive) {recipient : Hex64}
    {conflicted : Bool} {entries : List JsValue} (hjson : ∀ v ∈ entries, IsJson v)
    (h : parseChildContactDirectory
      (jsonText (projectedDirectory guardian recipient revision now conflicted personas entries)) = some d) :
    ∀ e ∈ d.entries, ∃ v ∈ entries, entryOf personas v = some e := by
  have hobject :
      IsJson (projectedDirectory guardian recipient revision now conflicted personas entries) := by
    simp only [projectedDirectory, IsJson, HoldJson, and_true, List.map_cons, List.map_nil]
    exact ⟨by decide, hint.nat _, trivial, trivial, hint.nat _, hint.nat _, hint.nat _, trivial,
      isJson_keysToJs _, areJson_iff.2 hjson⟩
  unfold parseChildContactDirectory at h
  split at h
  · cases h
  · rw [parse_jsonText hobject, Option.bind_some] at h
    simp only [directoryOf, Option.bind_eq_bind, Option.bind_eq_some_iff, Option.guard_eq_some',
      Option.pure_def, Option.some.injEq] at h
    obtain ⟨_, -, _, -, _, -, _, -, _, -, _, -, _, -, _, -, ks, hks, es, hes, _, -, _, -, rfl⟩ := h
    have hpersonas : (projectedDirectory guardian recipient revision now conflicted personas entries).get
        "personas" = keysToJs personas := by simp [projectedDirectory, JsValue.get_obj_cons]
    have hentries : (projectedDirectory guardian recipient revision now conflicted personas entries).get
        "entries" = .arr entries := by simp [projectedDirectory, JsValue.get_obj_cons]
    rw [hpersonas, keys_keysToJs, Option.ite_none_right_eq_some, Option.some.injEq] at hks
    obtain ⟨-, rfl⟩ := hks
    rw [hentries] at hes
    intro e he
    exact mem_mapM_some hes ((List.perm_insertionSort _ _).mem_iff.1 he)

variable {s : ProjectionScope}

theorem exists_record_of_project (hint : IntegersSurvive) (h : projectChildContactDirectory s revision now = some d)
    (hguardian : isHex 64 (.str s.guardian) = some guardian) :
    ∃ personas, ∀ e ∈ d.entries, ∃ record ∈ effectiveRecords guardian s.settings s.records, ∃ v,
      entryFor personas (blockedPeers (effectiveRecords guardian s.settings s.records)) record = some v ∧
        entryOf personas v = some e := by
  unfold projectChildContactDirectory at h
  simp only [Option.bind_eq_bind, Option.bind_eq_some_iff, Option.guard_eq_some'] at h
  obtain ⟨child, -, _, hguardian', recipient, -, personas, -, _, -, _, -, _, -, h⟩ := h
  cases hguardian.symm.trans hguardian'
  have hentry : ∀ v ∈ (if (s.settings.any fun settings => settings.contactPolicyConflicted) = true then []
      else (effectiveRecords guardian s.settings s.records).filterMap
        (entryFor personas (blockedPeers (effectiveRecords guardian s.settings s.records)))),
      ∃ record ∈ effectiveRecords guardian s.settings s.records,
        entryFor personas (blockedPeers (effectiveRecords guardian s.settings s.records)) record = some v := by
    intro v hv
    split at hv
    · cases hv
    · exact List.mem_filterMap.1 hv
  refine ⟨personas, fun e he => ?_⟩
  obtain ⟨v, hv, hread⟩ := exists_entry_of_parse hint (fun v hv => by
    obtain ⟨record, -, hfor⟩ := hentry v hv
    exact isJson_entryFor hfor) h e he
  obtain ⟨record, hrecord, hfor⟩ := hentry v hv
  exact ⟨record, hrecord, v, hfor, hread⟩

theorem not_listed_of_blocked (hint : IntegersSurvive) (h : projectChildContactDirectory s revision now = some d) (hguardian : isHex 64 (.str s.guardian) = some guardian)
    (hblocked : key ∈ blockedPeers (effectiveRecords guardian s.settings s.records)) :
    ∀ e ∈ d.entries, key ∉ e.identities := by
  intro e he hkey
  obtain ⟨personas, hentry⟩ := exists_record_of_project hint h hguardian
  obtain ⟨record, -, v, hfor, hread⟩ := hentry e he
  exact not_mem_of_entryFor hfor hread hkey hblocked

theorem tidy_of_project (h : projectChildContactDirectory s revision now = some d) : Tidy d := by
  unfold projectChildContactDirectory at h
  simp only [Option.bind_eq_bind, Option.bind_eq_some_iff] at h
  obtain ⟨_, -, _, -, _, -, _, -, _, -, _, -, _, -, h⟩ := h
  exact tidy_of_parse h

end

end SignetApp.ChildContacts
