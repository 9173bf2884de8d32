import SignetApp.Apps.RegistryMerge
import SignetApp.Sync.Wire

/-!
# Reconciled registries

The laws of a merge over the whole registry, for a backup as the parser returns it: no local grant
is lost or repeated, nothing revoked comes back, and merging the same backup again changes nothing.
-/

namespace SignetApp.Apps

open SignetApp.Js SignetApp.Contacts SignetApp.Sync

/-! ## What the parser returns -/

/-- A row as the parser builds it: its labels are capped and its list, if any, is named. -/
structure Parsed (r : WireGrantV2) : Prop where
  owner : truthy r.ownerIdentityPubkey = r.ownerIdentityPubkey
  labels : capLabelCount r.appLabels maxAppLabelsPerGrant = r.appLabels

theorem truthy_hex (owner : Option Hex64) : truthy (owner.map (·.val)) = owner.map (·.val) := by
  cases owner with
  | none => rfl
  | some key =>
    have hne : key.val ≠ [] := by
      intro h
      have hhex := key.property
      rw [h] at hhex
      cases hhex
    exact (truthy_some _).trans (if_neg hne)

section
variable [ContactsSdk]

theorem parsed_of_parseWireGrant {v : JsValue} {r : WireGrantV2} (h : parseWireGrant v = some r) :
    Parsed r := by
  unfold parseWireGrant at h
  iterate 3 obtain ⟨_, _, h⟩ := Option.bind_eq_some_iff.mp h
  obtain ⟨owner, _, h⟩ := Option.bind_eq_some_iff.mp h
  iterate 11 obtain ⟨_, _, h⟩ := Option.bind_eq_some_iff.mp h
  cases h
  exact ⟨truthy_hex owner, OrderedMap.newest_newest _ _ _⟩

theorem parsed_of_readGrant {candidates : List JsValue} :
    ∀ {acc : List WireGrantV2 × ℕ}, (∀ r ∈ acc.1, Parsed r) →
      ∀ r ∈ (candidates.foldl readGrant acc).1, Parsed r := by
  induction candidates with
  | nil => exact fun h => h
  | cons candidate candidates ih =>
    intro acc hacc
    apply ih
    unfold readGrant
    split
    · exact hacc
    · next parsed hparsed =>
      have hpush : ∀ r ∈ acc.1 ++ [parsed], Parsed r := by
        intro r hr
        obtain hr | hr := List.mem_append.mp hr
        · exact hacc r hr
        · rw [List.mem_singleton.mp hr]
          exact parsed_of_parseWireGrant hparsed
      split
      · exact hpush
      · split
        · exact hacc
        · exact hpush

theorem parsed_of_payload [Numerals] {raw : JsString} {payload : GrantsRailPayload}
    (h : parseGrantsPayload raw = some payload) : ∀ r ∈ payload.grants, Parsed r := by
  simp only [parseGrantsPayload, Option.bind_eq_bind, Option.bind_eq_some_iff] at h
  obtain ⟨_, -, _, -, _, -, _, -, hpayload⟩ := h
  cases hpayload
  exact parsed_of_readGrant fun _ hr => absurd hr List.not_mem_nil

end

/-! ## The ids of a merged registry -/

/-- The ids of a registry. -/
abbrev idsOf (grants : List AppGrantV2) : List JsString := grants.map (·.grantId)

section
variable {locals : List AppGrantV2} {remotes : List WireGrantV2}

theorem idsOf_map_mergedRow : idsOf (locals.map (mergedRow remotes)) = idsOf locals := by
  rw [idsOf, List.map_map]
  exact List.map_congr_left fun l _ => grantId_mergedRow l

/-- The grants taken from the backup. -/
abbrev taken (locals : List AppGrantV2) (remotes : List WireGrantV2) : List AppGrantV2 :=
  (adoptable locals remotes).take (room locals remotes)

theorem adopted_of_taken {g : AppGrantV2} (h : g ∈ taken locals remotes) :
    Adopted locals remotes g := mem_adoptable_iff.mp (List.mem_of_mem_take h)

theorem ids_filterMap_fromWireOnly (rs : List WireGrantV2) :
    (idsOf (rs.filterMap fromWireOnly)).Sublist (rs.map WireGrantV2.grantId) := by
  induction rs with
  | nil => exact List.Sublist.refl _
  | cons r rs ih =>
    cases h : fromWireOnly r with
    | none =>
      rw [List.filterMap_cons_none h]
      exact ih.cons _
    | some g =>
      obtain ⟨-, -, rfl⟩ := fromWireOnly_eq_some_iff.mp h
      rw [List.filterMap_cons_some h]
      exact ih.cons_cons _

theorem nodup_adoptable (hdistinct : OneEach WireGrantV2.grantId remotes) :
    (idsOf (adoptable locals remotes)).Nodup := by
  apply List.Nodup.sublist (ids_filterMap_fromWireOnly _)
  have hperm := (List.perm_insertionSort (fun a b : WireGrantV2 => b.updatedAt ≤ a.updatedAt)
    (remotes.filter fun r =>
      !(byKey (fun g : AppGrantV2 => g.grantId) locals).has r.grantId && r.revokedAt.isNone)).map
    WireGrantV2.grantId
  exact hperm.nodup_iff.mpr (hdistinct.sublist (List.filter_sublist.map _))

theorem idsOf_mergeGrantRegistry :
    idsOf (mergeGrantRegistry locals remotes).grants
      = idsOf locals ++ idsOf (taken locals remotes) := by
  rw [grants_mergeGrantRegistry, idsOf, List.map_append, ← idsOf, idsOf_map_mergedRow]

theorem nodup_mergeGrantRegistry (hlocals : (idsOf locals).Nodup)
    (hdistinct : OneEach WireGrantV2.grantId remotes) :
    (idsOf (mergeGrantRegistry locals remotes).grants).Nodup := by
  rw [idsOf_mergeGrantRegistry, List.nodup_append]
  refine ⟨hlocals, (nodup_adoptable hdistinct).sublist ((List.take_sublist _ _).map _), ?_⟩
  rintro id hid _ htaken rfl
  obtain ⟨g, hg, rfl⟩ := List.mem_map.mp htaken
  exact (adopted_of_taken hg).new hid

theorem countP_id_eq_one {grants : List AppGrantV2} (h : (idsOf grants).Nodup) {g : AppGrantV2}
    (hg : g ∈ grants) : grants.countP (fun g' => g'.grantId = g.grantId) = 1 := by
  have hcount := List.count_eq_one_of_mem h (List.mem_map_of_mem hg)
  rw [List.count, List.countP_map] at hcount
  rw [← hcount]
  apply List.countP_congr
  intro g' _
  simp

theorem countP_mergeGrantRegistry (hlocals : (idsOf locals).Nodup) {l : AppGrantV2}
    (hl : l ∈ locals) :
    (mergeGrantRegistry locals remotes).grants.countP (fun g => g.grantId = l.grantId) = 1 := by
  have hkept : (idsOf (locals.map (mergedRow remotes))).Nodup := by rwa [idsOf_map_mergedRow]
  have hone := countP_id_eq_one hkept (List.mem_map_of_mem hl)
  rw [grantId_mergedRow] at hone
  rw [grants_mergeGrantRegistry, List.countP_append, hone, Nat.add_eq_left, List.countP_eq_zero]
  intro g hg hid
  apply (adopted_of_taken hg).new
  rw [of_decide_eq_true hid]
  exact List.mem_map_of_mem hl

/-! ## The cap -/

theorem countP_taken : (taken locals remotes).countP AppGrantV2.isActive
    = (taken locals remotes).length := by
  rw [List.countP_eq_length]
  intro g hg
  exact Option.isNone_iff_eq_none.mpr (adopted_of_taken hg).active

theorem countP_mergedRow_le :
    (locals.map (mergedRow remotes)).countP AppGrantV2.isActive
      ≤ locals.countP AppGrantV2.isActive := by
  rw [List.countP_map]
  exact List.countP_mono_left fun l _ h => isActive_of_mergedRow remotes h

theorem active_mergeGrantRegistry :
    (mergeGrantRegistry locals remotes).grants.countP AppGrantV2.isActive
      = (locals.map (mergedRow remotes)).countP AppGrantV2.isActive
        + min (room locals remotes) (adoptable locals remotes).length := by
  rw [grants_mergeGrantRegistry, List.countP_append, countP_taken, List.length_take]

theorem active_le_max :
    (mergeGrantRegistry locals remotes).grants.countP AppGrantV2.isActive
      ≤ max contactGrantV2Cap (locals.countP AppGrantV2.isActive) := by
  have hle := @countP_mergedRow_le locals remotes
  rw [active_mergeGrantRegistry]
  unfold room
  omega

/-! ## Merging again -/

/-- A grant just adopted is what its row says. -/
theorem mergedRow_of_adopted (hdistinct : OneEach WireGrantV2.grantId remotes)
    (hparsed : ∀ r ∈ remotes, Parsed r) {g : AppGrantV2} (hg : Adopted locals remotes g) :
    mergedRow remotes g = g := by
  obtain ⟨-, hactive, hkey, r, hr, rfl⟩ := hg
  obtain ⟨howner, hlabels⟩ := hparsed r hr
  have hactive : r.revokedAt = none := hactive
  have hkey : isUsableKey r.railPrivateKey = true := hkey
  rw [mergedRow_of_twin (twinOf_of_mem hdistinct hr rfl)]
  set g : AppGrantV2 := { r with seenOperationIds := [] } with hgdef
  have hbase : base g r = r := if_neg (lt_irrefl r.updatedAt)
  have hsource : keySource g r = r := by
    rw [keySource, if_neg (lt_irrefl r.updatedAt)]
    exact if_pos hkey
  have hscope : scopesDiffer g r = false := by simp [scopesDiffer, hgdef]
  have hauto : mergedAutoAccept g r = r.autoAcceptInvites := by
    unfold mergedAutoAccept
    split
    · next h => exact (h.2.elim id id).symm
    · rw [hbase]
  have hmerged : mergeAppLabels g.appLabels r.appLabels = r.appLabels := by
    show capLabelCount (r.appLabels.absorb AppLabelEntry.updatedAt r.appLabels) _ = _
    rw [OrderedMap.absorb_self]
    exact hlabels
  have hrevoked : earlierDefined g.revokedAt r.revokedAt = r.revokedAt := by
    show earlierDefined r.revokedAt r.revokedAt = r.revokedAt
    rw [hactive]
    rfl
  rw [mergeOne, hscope, hsource, hkey]
  show combine g r = g
  rw [combine, hbase, hsource, howner, hauto, hmerged, hrevoked]

theorem map_mergedRow_again (hdistinct : OneEach WireGrantV2.grantId remotes)
    (hparsed : ∀ r ∈ remotes, Parsed r) :
    (mergeGrantRegistry locals remotes).grants.map (mergedRow remotes)
      = (mergeGrantRegistry locals remotes).grants := by
  rw [grants_mergeGrantRegistry, List.map_append, List.map_map]
  congr 1
  · exact List.map_congr_left fun l _ => mergedRow_mergedRow l
  · exact (List.map_congr_left fun g hg =>
      mergedRow_of_adopted hdistinct hparsed (adopted_of_taken hg)).trans (List.map_id _)

/-- What is left to adopt is what was turned away. -/
theorem adoptable_again (hdistinct : OneEach WireGrantV2.grantId remotes) :
    (adoptable (mergeGrantRegistry locals remotes).grants remotes).Perm
      ((adoptable locals remotes).drop (room locals remotes)) := by
  have hids := @nodup_adoptable locals remotes hdistinct
  have hsplit := List.take_append_drop (room locals remotes) (adoptable locals remotes)
  rw [List.perm_ext_iff_of_nodup (nodup_adoptable hdistinct).of_map
    (hids.of_map.sublist (List.drop_sublist _ _))]
  intro g
  have hresult : g.grantId ∈ idsOf (mergeGrantRegistry locals remotes).grants
      ↔ g.grantId ∈ idsOf locals ∨ g.grantId ∈ idsOf (taken locals remotes) := by
    rw [idsOf_mergeGrantRegistry, List.mem_append]
  rw [mem_adoptable_iff]
  constructor
  · rintro ⟨hnew, hactive, hkey, hwire⟩
    have hnew : g.grantId ∉ idsOf (mergeGrantRegistry locals remotes).grants := hnew
    rw [hresult, not_or] at hnew
    have hmem : g ∈ adoptable locals remotes :=
      mem_adoptable_iff.mpr ⟨hnew.1, hactive, hkey, hwire⟩
    rw [← hsplit] at hmem
    obtain hmem | hmem := List.mem_append.mp hmem
    · exact absurd (List.mem_map_of_mem hmem) hnew.2
    · exact hmem
  · intro hdrop
    obtain ⟨hnew, hactive, hkey, hwire⟩ := mem_adoptable_iff.mp (List.mem_of_mem_drop hdrop)
    refine ⟨?_, hactive, hkey, hwire⟩
    show g.grantId ∉ idsOf (mergeGrantRegistry locals remotes).grants
    rw [hresult, not_or]
    refine ⟨hnew, fun htaken => ?_⟩
    -- The ids of the two halves differ.
    rw [← hsplit, idsOf, List.map_append, List.nodup_append] at hids
    exact hids.2.2 _ htaken _ (List.mem_map_of_mem hdrop) rfl

theorem mergeGrantRegistry_again (hdistinct : OneEach WireGrantV2.grantId remotes)
    (hparsed : ∀ r ∈ remotes, Parsed r) :
    mergeGrantRegistry (mergeGrantRegistry locals remotes).grants remotes
      = mergeGrantRegistry locals remotes := by
  set result := mergeGrantRegistry locals remotes with hresult
  have hrows := @map_mergedRow_again locals remotes hdistinct hparsed
  have hlength : (adoptable result.grants remotes).length
      = (adoptable locals remotes).length - room locals remotes := by
    rw [(adoptable_again hdistinct).length_eq, List.length_drop]
  have hroom : room result.grants remotes
      = room locals remotes - (adoptable locals remotes).length := by
    rw [room, hrows, active_mergeGrantRegistry]
    unfold room
    omega
  have hgrants : (mergeGrantRegistry result.grants remotes).grants = result.grants := by
    rw [grants_mergeGrantRegistry, hrows]
    have hnone : (adoptable result.grants remotes).take (room result.grants remotes) = [] := by
      rw [List.take_eq_nil_iff, hroom]
      obtain hle | hle := le_total (room locals remotes) (adoptable locals remotes).length
      · exact .inl (Nat.sub_eq_zero_of_le hle)
      · exact .inr (List.eq_nil_of_length_eq_zero (hlength.trans (Nat.sub_eq_zero_of_le hle)))
    rw [hnone, List.append_nil]
  have hskipped : (mergeGrantRegistry result.grants remotes).skippedRemote = result.skippedRemote := by
    rw [skippedRemote_mergeGrantRegistry, hresult, skippedRemote_mergeGrantRegistry, ← hresult,
      hlength, hroom]
    omega
  calc mergeGrantRegistry result.grants remotes
      = ⟨(mergeGrantRegistry result.grants remotes).grants,
          (mergeGrantRegistry result.grants remotes).skippedRemote⟩ := rfl
    _ = result := by rw [hgrants, hskipped]

end

/-! ## The laws of a merge -/

/-- What any merge keeps: each local grant once, in a row that is its own; from the backup only
grants in force; and no more grants in force than the cap, or than there were. -/
structure KeepsLocal (locals : List AppGrantV2) (remotes : List WireGrantV2) : Prop where
  once : ∀ l ∈ locals,
    (mergeGrantRegistry locals remotes).grants.countP (fun g => g.grantId = l.grantId) = 1
  rows : ∀ l ∈ locals, ∃ g ∈ (mergeGrantRegistry locals remotes).grants, RowKept remotes l g
  adopted : ∀ g ∈ (mergeGrantRegistry locals remotes).grants,
    g.grantId ∉ idsOf locals → Adopted locals remotes g
  capped : (mergeGrantRegistry locals remotes).grants.countP AppGrantV2.isActive
    ≤ max contactGrantV2Cap (locals.countP AppGrantV2.isActive)

/-- On top of that no id comes twice, revocations are taken over where `takes` says so, and the
same backup changes nothing more. -/
structure Reconciled (takes : AppGrantV2 → WireGrantV2 → Bool) (locals : List AppGrantV2)
    (remotes : List WireGrantV2) : Prop extends KeepsLocal locals remotes where
  distinct : (idsOf (mergeGrantRegistry locals remotes).grants).Nodup
  revoked : ∀ l ∈ locals, ∃ g ∈ (mergeGrantRegistry locals remotes).grants,
    g.grantId = l.grantId ∧ RevocationTaken remotes takes l g
  again : mergeGrantRegistry (mergeGrantRegistry locals remotes).grants remotes
    = mergeGrantRegistry locals remotes

section
variable {locals : List AppGrantV2} {remotes : List WireGrantV2}

theorem mergedRow_mem {l : AppGrantV2} (hl : l ∈ locals) :
    mergedRow remotes l ∈ (mergeGrantRegistry locals remotes).grants := by
  rw [grants_mergeGrantRegistry]
  exact List.mem_append_left _ (List.mem_map_of_mem hl)

theorem keepsLocal (hlocals : (idsOf locals).Nodup) : KeepsLocal locals remotes where
  once _ hl := countP_mergeGrantRegistry hlocals hl
  rows l hl := ⟨mergedRow remotes l, mergedRow_mem hl, rowKept_mergedRow remotes l⟩
  adopted g hg hnew := by
    rw [grants_mergeGrantRegistry] at hg
    obtain hkept | htaken := List.mem_append.mp hg
    · have hid : g.grantId ∈ idsOf (locals.map (mergedRow remotes)) := List.mem_map_of_mem hkept
      rw [idsOf_map_mergedRow] at hid
      exact absurd hid hnew
    · exact adopted_of_taken htaken
  capped := active_le_max

theorem reconciled (hlocals : (idsOf locals).Nodup) (hparsed : ∀ r ∈ remotes, Parsed r)
    (hdistinct : OneEach WireGrantV2.grantId remotes) : Reconciled hears locals remotes where
  toKeepsLocal := keepsLocal hlocals
  distinct := nodup_mergeGrantRegistry hlocals hdistinct
  revoked l hl := ⟨mergedRow remotes l, mergedRow_mem hl, grantId_mergedRow l,
    revocationTaken_mergedRow hdistinct l⟩
  again := mergeGrantRegistry_again hdistinct hparsed

end

/-- **Merging never destroys or resurrects a grant.** A backup that repeats no id reconciles the
registry; any backup keeps what is local. -/
theorem mergeGrantRegistry_laws [ContactsSdk] [Numerals] {locals : List AppGrantV2} {raw : JsString}
    {payload : GrantsRailPayload} (hlocals : (idsOf locals).Nodup)
    (hparse : parseGrantsPayload raw = some payload) :
    KeepsLocal locals payload.grants ∧
    (OneEach WireGrantV2.grantId payload.grants → Reconciled hears locals payload.grants) :=
  ⟨keepsLocal hlocals, reconciled hlocals (parsed_of_payload hparse)⟩

/-! ## Backups -/

/-- An SDK for examples: every capability is known, every window offered. -/
@[reducible] def sampleSdk : ContactsSdk where
  maxAppLabel := 100
  maxAppName := 60
  maxCapabilities := 32
  isCapability _ := true
  normaliseCapabilities := distinct
  clampStaleness q := q

/-- A grant off the wire, with the given rail key and revocation. -/
def sampleWire (railPrivateKey : JsString) (revoked : JsObject) : JsValue :=
  .obj ([
    ("grantId", (Hex.repeated 32 1).toJs),
    ("directoryId", .ofLit "owner"),
    ("ownerIdentityPubkey", (Hex.repeated 64 2).toJs),
    ("appPubkey", (Hex.repeated 64 3).toJs),
    ("createdAt", .ofNat 1),
    ("updatedAt", .ofNat 2),
    ("appName", .ofLit "Maps"),
    ("capabilities", .arr []),
    ("railPubkey", (Hex.repeated 64 4).toJs),
    ("railPrivateKey", .str railPrivateKey),
    ("relay", .ofLit "wss://relay.example"),
    ("maxStalenessSeconds", .ofNat 3600),
    ("appLabels", .obj [])] ++ revoked)

/-- The same grant in a registry. -/
def sampleGrant (railPrivateKey : JsString) (revokedAt : Option ℚ) : AppGrantV2 where
  grantId := (Hex.repeated 32 1).val
  directoryId := lit "owner"
  ownerIdentityPubkey := some (Hex.repeated 64 2).val
  appPubkey := (Hex.repeated 64 3).val
  createdAt := 1
  updatedAt := 2
  appName := lit "Maps"
  capabilities := []
  railPubkey := (Hex.repeated 64 4).val
  railPrivateKey
  relay := lit "wss://relay.example"
  maxStalenessSeconds := 3600
  revokedAt

def backupValue (rows : List JsValue) : JsValue :=
  .obj [("v", .ofNat 2), ("kind", .ofLit "grants"), ("createdAt", .ofNat 1), ("grants", .arr rows)]

/-- A backup as JSON text. -/
abbrev backupOf [Platform] (rows : List JsValue) : JsString := jsonText (backupValue rows)

section
variable [ContactsSdk] [Numerals]

theorem parse_backupOf (hint : IntegersSurvive) {rows : List JsValue} {grants : List WireGrantV2}
    (hrows : AreJson rows) (hread : (rows.foldl readGrant ([], 0)).1 = grants) :
    parseGrantsPayload (backupOf rows) = some ⟨1, grants⟩ := by
  have hjson : IsJson (backupValue rows) := by
    simp only [backupValue, IsJson, HoldJson, and_true, List.map_cons, List.map_nil]
    exact ⟨by decide, hint 2, trivial, hint 1, hrows⟩
  have hobject : asObject (backupOf rows) = some (backupValue rows) := by
    rw [asObject, parse_jsonText hjson, Option.bind_some]
    rfl
  rw [parseGrantsPayload, hobject]
  simp [backupValue, JsValue.get_obj_cons, isArray, hread]

omit [ContactsSdk] in
theorem isJson_sampleWire (hint : IntegersSurvive) (railPrivateKey : JsString) :
    IsJson (sampleWire railPrivateKey []) ∧
    IsJson (sampleWire railPrivateKey [("revokedAt", .ofNat 5)]) := by
  constructor
  · simp only [sampleWire, List.append_nil, IsJson, HoldJson, AreJson, and_true,
      List.map_cons, List.map_nil, List.nodup_nil]
    exact ⟨by decide, trivial, trivial, trivial, trivial, hint 1, hint 2, trivial, trivial, trivial,
      trivial, trivial, hint 3600⟩
  · simp only [sampleWire, List.cons_append, List.nil_append, IsJson, HoldJson, AreJson, and_true,
      List.map_cons, List.map_nil, List.nodup_nil]
    exact ⟨by decide, trivial, trivial, trivial, trivial, hint 1, hint 2, trivial, trivial, trivial,
      trivial, trivial, hint 3600, trivial, hint 5⟩

end

/-- A usable rail key. -/
abbrev sampleKey : JsString := (Hex.repeated 64 5).val

theorem mergeGrantRegistry_laws_backup :
    ∃ payload, @parseGrantsPayload sampleSdk decimalNumerals
        (@backupOf decimalNumerals.toPlatform [sampleWire sampleKey [("revokedAt", .ofNat 5)]])
          = some payload ∧
      KeepsLocal [sampleGrant sampleKey none] payload.grants ∧
      Reconciled hears [sampleGrant sampleKey none] payload.grants := by
  have hint := integersSurvive_decimal
  have hparse := @parse_backupOf sampleSdk decimalNumerals hint
    [sampleWire sampleKey [("revokedAt", .ofNat 5)]] [(sampleGrant sampleKey (some 5)).toWireGrantV2]
    ⟨(@isJson_sampleWire decimalNumerals hint sampleKey).2, trivial⟩ (by decide +kernel)
  obtain ⟨hkeeps, hreconciled⟩ := @mergeGrantRegistry_laws sampleSdk decimalNumerals
    [sampleGrant sampleKey none] _ _ (by decide) hparse
  exact ⟨_, hparse, hkeeps, hreconciled (List.nodup_singleton _)⟩

/-- Where neither side has a rail key a revocation is not taken over, and a backup that repeats an
id has its grant adopted twice. -/
theorem revocation_lost_or_row_doubled :
    (¬ ∀ (locals : List AppGrantV2) (raw : JsString) (payload : GrantsRailPayload),
      (idsOf locals).Nodup → @parseGrantsPayload sampleSdk decimalNumerals raw = some payload →
      OneEach WireGrantV2.grantId payload.grants →
      Reconciled (fun _ _ => true) locals payload.grants) ∧
    (¬ ∀ (locals : List AppGrantV2) (raw : JsString) (payload : GrantsRailPayload),
      (idsOf locals).Nodup → @parseGrantsPayload sampleSdk decimalNumerals raw = some payload →
      Reconciled hears locals payload.grants) := by
  have hint := integersSurvive_decimal
  constructor
  · intro hclaim
    have hparse := @parse_backupOf sampleSdk decimalNumerals hint
      [sampleWire [] [("revokedAt", .ofNat 5)]] [(sampleGrant [] (some 5)).toWireGrantV2]
      ⟨(@isJson_sampleWire decimalNumerals hint []).2, trivial⟩ (by decide +kernel)
    obtain ⟨g, hg, hid, htaken⟩ := (hclaim [sampleGrant [] none] _ _ (by decide) hparse
      (List.nodup_singleton _)).revoked _ List.mem_cons_self
    have hresult : (mergeGrantRegistry [sampleGrant [] none]
        [(sampleGrant [] (some 5)).toWireGrantV2]).grants = [sampleGrant [] none] := by
      decide +kernel
    rw [hresult, List.mem_singleton] at hg
    have hrevoked := htaken.twin _ List.mem_cons_self rfl rfl
    rw [hg] at hrevoked
    cases hrevoked
  · intro hclaim
    have hparse := @parse_backupOf sampleSdk decimalNumerals hint
      [sampleWire sampleKey [], sampleWire sampleKey []]
      [(sampleGrant sampleKey none).toWireGrantV2, (sampleGrant sampleKey none).toWireGrantV2]
      ⟨(@isJson_sampleWire decimalNumerals hint sampleKey).1,
        (@isJson_sampleWire decimalNumerals hint sampleKey).1, trivial⟩ (by decide +kernel)
    have hdistinct := (hclaim [] _ _ List.nodup_nil hparse).distinct
    revert hdistinct
    decide +kernel

end SignetApp.Apps
