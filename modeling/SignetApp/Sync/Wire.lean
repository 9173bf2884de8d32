import SignetApp.Sync.Payload

/-!
# Payloads survive the wire

What each parser makes of the text of a payload. The rows of a payload are those of the local
store: JSON objects the operation guard accepts.
-/

namespace SignetApp.Sync

open SignetApp.Js SignetApp.Contacts

/-! ## Ids -/

variable {ids : List JsString}

theorem hexIds_map_str (hhex : ∀ id ∈ ids, isHexOf 32 id = true)
    (hnodup : ids.Nodup) : hexIds (ids.map .str) = ids := by
  have hfold : ∀ (ids out : List JsString), (∀ id ∈ ids, isHexOf 32 id = true) →
      (out ++ ids).Nodup → (ids.map JsValue.str).foldl addHexId out = out ++ ids := by
    intro ids
    induction ids with
    | nil => intro out _ _; simp
    | cons id ids ih =>
      intro out hhex hnodup
      have hnew : id ∉ out := fun hmem =>
        (List.nodup_append.mp hnodup).2.2 id hmem id List.mem_cons_self rfl
      have hstep : addHexId out (.str id) = out ++ [id] := by
        rw [addHexId, if_pos (hhex id List.mem_cons_self)]
        exact if_neg hnew
      rw [List.map_cons, List.foldl_cons, hstep]
      rw [ih (out ++ [id]) (fun i hi => hhex i (List.mem_cons_of_mem _ hi)) (by simpa using hnodup)]
      simp
  exact hfold ids [] hhex (by simpa using hnodup)

theorem parseDeviceIds_idsToJs (hcap : ids.length ≤ maxDeviceIds)
    (hhex : ∀ id ∈ ids, isHexOf 32 id = true) (hnodup : ids.Nodup) :
    parseDeviceIds (idsToJs ids) = some ids := by
  rw [idsToJs, parseDeviceIds, List.length_map, if_neg (by omega), hexIds_map_str hhex hnodup]

theorem parseFrontier_toJs {f : CheckpointFrontierWire} (hlen : f.opIds.length ≤ maxOpsPerPayload) :
    parseFrontier f.toJs = some { f with opIds := (hexIds f.opIds).map .str } := by
  have hclock : f.toJs.get "maxClock" = .ofNat f.maxClock := by
    simp [CheckpointFrontierWire.toJs, JsValue.get_obj_cons]
  have hids : f.toJs.get "opIds" = .arr f.opIds := by
    simp [CheckpointFrontierWire.toJs, JsValue.get_obj_cons]
  rw [parseFrontier, hclock, hids]
  simp [CheckpointFrontierWire.toJs, isObj, Nat.not_lt.mpr hlen]

theorem isNonNegativeInt_int {n : ℤ} (h : 0 ≤ n) :
    isNonNegativeInt (.num (.finite n)) = some n.toNat := by
  simp [isNonNegativeInt, h]

section
variable [Numerals]

/-- Every integer is read back from its text. -/
def IntegersSurvive : Prop := ∀ n : ℤ, Survives (n : ℚ)

theorem IntegersSurvive.nat (h : IntegersSurvive) (n : ℕ) : Survives (n : ℚ) := h n

/-- A row of the local store. -/
structure Stored (row : RawOperation) : Prop where
  json : IsJson (.obj row)
  valid : ∃ op, validateOperation (.obj row) = .ok (some op)

theorem Stored.of_accepted {row : RawOperation} (hjson : IsJson (.obj row))
    (h : (accepted (.obj row)).isSome = true) : Stored row := by
  refine ⟨hjson, ?_⟩
  obtain ⟨op, hop⟩ := Option.isSome_iff_exists.mp h
  unfold accepted at hop
  split at hop
  · next result hresult => exact ⟨op, hop ▸ hresult⟩
  · cases hop

variable {rows : List RawOperation}

theorem validRows_stored (h : ∀ row ∈ rows, Stored row) : validRows (rows.map .obj) = .ok rows := by
  induction rows with
  | nil => rfl
  | cons row rows ih =>
    obtain ⟨op, hop⟩ := (h row List.mem_cons_self).valid
    rw [List.map_cons, validRows, hop, ih fun r hr => h r (List.mem_cons_of_mem _ hr)]
    rfl

theorem parseOps_opsToJs (h : ∀ row ∈ rows, Stored row)
    (hlen : rows.length ≤ maxOpsPerPayload) : parseOps (opsToJs rows) = .ok (some rows) := by
  rw [opsToJs, parseOps, List.length_map, if_neg (by omega), validRows_stored h]
  rfl

theorem isJson_opsToJs (h : ∀ row ∈ rows, Stored row) : IsJson (opsToJs rows) := by
  rw [opsToJs, IsJson, areJson_iff]
  intro v hv
  obtain ⟨row, hrow, rfl⟩ := List.mem_map.mp hv
  exact (h row hrow).json

theorem isJson_map_str (ids : List JsString) : IsJson (.arr (ids.map .str)) := by
  rw [IsJson, areJson_iff]
  intro v hv
  obtain ⟨id, -, rfl⟩ := List.mem_map.mp hv
  trivial

theorem isJson_map_toJs {n : ℕ} (hs : List (Hex n)) : IsJson (.arr (hs.map Hex.toJs)) := by
  rw [IsJson, areJson_iff]
  intro v hv
  obtain ⟨h, -, rfl⟩ := List.mem_map.mp hv
  trivial

theorem isJson_ofLit (s : String) : IsJson (.ofLit s) := trivial

/-! ## Kinds -/

theorem parse_jsonText {v : JsValue} (hv : IsJson v) : parse (jsonText v) = some v := by
  obtain ⟨text, htext⟩ := stringify_isSome hv
  rw [jsonText, htext, Option.getD_some]
  exact parse_stringify hv htext

theorem ofKind_jsonText {v : JsValue} (hv : IsJson v) (hobj : isObj v = true)
    (hversion : v.get "v" = .ofNat 2) (kind : String) :
    ofKind kind (jsonText v) = if v.get "kind" = .ofLit kind then some v else none := by
  have hobject : asObject (jsonText v) = some v := by
    rw [asObject, parse_jsonText hv, Option.bind_some, if_pos hobj]
  by_cases hkind : v.get "kind" = .ofLit kind
  · rw [if_pos hkind, ofKind, hobject]
    simp [hversion, hkind]
  · rw [if_neg hkind, ofKind, hobject]
    simp [hkind]

theorem isJson_frontier (hint : IntegersSurvive) {f : CheckpointFrontierWire}
    (hids : ∀ id ∈ f.opIds, IsJson id) : IsJson f.toJs := by
  simp only [CheckpointFrontierWire.toJs, IsJson, HoldJson, and_true, List.map_cons, List.map_nil]
  exact ⟨by decide, hint.nat _, areJson_iff.mpr hids⟩

/-! ## Checkpoints -/

variable {p : CheckpointPayload}

theorem isJson_checkpoint (hint : IntegersSurvive)
    (hrows : ∀ row ∈ p.ops, Stored row) (hids : ∀ id ∈ p.frontier.opIds, IsJson id) :
    IsJson p.toJs := by
  simp only [CheckpointPayload.toJs, IsJson, HoldJson, and_true, List.map_cons, List.map_nil]
  exact ⟨by decide, hint.nat _, isJson_ofLit _, hint.nat _, hint _, isJson_map_str _,
    isJson_frontier hint hids, isJson_opsToJs hrows⟩

theorem parseCheckpointPayload_jsonText (hint : IntegersSurvive)
    (hrows : ∀ row ∈ p.ops, Stored row) (hids : ∀ id ∈ p.frontier.opIds, IsJson id)
    (hopIds : p.frontier.opIds.length ≤ maxOpsPerPayload) (hops : p.ops.length ≤ maxOpsPerPayload)
    (hcap : p.deviceIds.length ≤ maxDeviceIds) (hhex : ∀ id ∈ p.deviceIds, isHexOf 32 id = true)
    (hnodup : p.deviceIds.Nodup) (htime : 0 ≤ p.createdAt) :
    parseCheckpointPayload (jsonText p.toJs) = .ok (some { p with
      frontier := { p.frontier with opIds := (hexIds p.frontier.opIds).map .str } }) := by
  have hkind := ofKind_jsonText (isJson_checkpoint hint hrows hids) rfl
    (by simp [CheckpointPayload.toJs, JsValue.get_obj_cons]) "checkpoint"
  rw [if_pos (by simp [CheckpointPayload.toJs, JsValue.get_obj_cons])] at hkind
  rw [parseCheckpointPayload, hkind]
  simp [CheckpointPayload.toJs, JsValue.get_obj_cons, withOps, parseDeviceIds_idsToJs hcap hhex hnodup,
    parseFrontier_toJs hopIds, parseOps_opsToJs hrows hops, isNonNegativeInt_int htime, htime]

/-! ## Chunks -/

variable {c : ChunkPayload}

theorem isJson_chunk (hint : IntegersSurvive)
    (hrows : ∀ row ∈ c.ops, Stored row) : IsJson c.toJs := by
  simp only [ChunkPayload.toJs, IsJson, HoldJson, and_true, List.map_cons, List.map_nil]
  exact ⟨by decide, hint.nat _, isJson_ofLit _, hint.nat _, hint.nat _, isJson_opsToJs hrows⟩

theorem parseChunkPayload_jsonText (hint : IntegersSurvive)
    (hrows : ∀ row ∈ c.ops, Stored row) (hops : c.ops.length ≤ maxOpsPerPayload)
    (hindex : c.index < maxChunks) : parseChunkPayload (jsonText c.toJs) = .ok (some c) := by
  have hkind := ofKind_jsonText (isJson_chunk hint hrows) rfl
    (by simp [ChunkPayload.toJs, JsValue.get_obj_cons]) "chunk"
  rw [if_pos (by simp [ChunkPayload.toJs, JsValue.get_obj_cons])] at hkind
  rw [parseChunkPayload, hkind]
  simp [ChunkPayload.toJs, JsValue.get_obj_cons, withOps, hindex, parseOps_opsToJs hrows hops]

/-! ## Manifests -/

variable {m : CheckpointManifest}

theorem isJson_manifest (hint : IntegersSurvive)
    (hids : ∀ id ∈ m.frontier.opIds, IsJson id) : IsJson m.toJs := by
  simp only [CheckpointManifest.toJs, IsJson, HoldJson, and_true, List.map_cons, List.map_nil]
  exact ⟨by decide, hint.nat _, isJson_ofLit _, hint.nat _, isJson_map_toJs _, isJson_map_toJs _, hint.nat _,
    isJson_frontier hint hids, isJson_map_str _, hint _⟩

theorem parseManifest_jsonText (hint : IntegersSurvive)
    (hids : m.frontier.opIds = []) (htags : m.chunkTags ≠ []) (hchunks : m.chunkTags.length ≤ maxChunks)
    (hdigests : m.chunkDigests.length = m.chunkTags.length) (hcount : m.opCount ≤ maxCheckpointOps)
    (hcap : m.deviceIds.length ≤ maxDeviceIds) (hhex : ∀ id ∈ m.deviceIds, isHexOf 32 id = true)
    (hnodup : m.deviceIds.Nodup) (htime : 0 ≤ m.createdAt) : parseManifest (jsonText m.toJs) = some m := by
  have hjson := isJson_manifest hint (m := m) (by simp [hids])
  have hkind := ofKind_jsonText hjson rfl
    (by simp [CheckpointManifest.toJs, JsValue.get_obj_cons]) "checkpoint-manifest"
  rw [if_pos (by simp [CheckpointManifest.toJs, JsValue.get_obj_cons])] at hkind
  have hfrontier := parseFrontier_toJs (f := m.frontier) (by simp [hids])
  rw [parseManifest, hkind]
  simp [CheckpointManifest.toJs, JsValue.get_obj_cons, isArrayOf_toJs (fun h => isHex_toJs h),
    htags, hchunks, hdigests, hcount, parseDeviceIds_idsToJs hcap hhex hnodup, hfrontier, hids, hexIds,
    isNonNegativeInt_int htime, htime]
  rw [← hids]

end

/-! ## A platform that reads what it prints -/

/-- The digits of a number in decimal. -/
def digitsText (n : ℕ) : JsString := (Nat.toDigits 10 n).map unit

/-- The number decimal digits stand for. -/
def readDigits (s : JsString) : Option ℚ :=
  if s ≠ [] ∧ s.all isDigit then some ((s.foldl (fun n u => 10 * n + (u.val - 48)) 0 : ℕ) : ℚ)
  else none

/-- A platform for examples: integers in decimal, and no text is a URL. -/
@[reducible] def decimalNumerals : Numerals where
  numberText q := (if q.num < 0 then [unit '-'] else []) ++ digitsText q.num.natAbs
  parseUrl _ := none
  readNumber s :=
    if s.head? = some (unit '-') then (readDigits s.tail).map fun q => -q else readDigits s

theorem val_unit_of_isDigit {c : Char} (h : c.isDigit = true) :
    (unit c).val = c.toNat ∧ isDigit (unit c) = true := by
  have hc : 48 ≤ c.toNat ∧ c.toNat ≤ 57 := by
    simpa [Char.isDigit, UInt32.le_iff_toNat_le] using h
  have hval : (unit c).val = c.toNat := Nat.mod_eq_of_lt (by omega)
  refine ⟨hval, ?_⟩
  simp only [isDigit, Bool.and_eq_true, decide_eq_true_eq, Fin.le_def, hval]
  exact hc

theorem readDigits_digitsText (n : ℕ) : readDigits (digitsText n) = some (n : ℚ) := by
  have hdigit : ∀ c ∈ Nat.toDigits 10 n, c.isDigit = true := fun c hc =>
    Nat.isDigit_of_mem_toDigits (by decide) (by decide) hc
  have hall : (digitsText n).all isDigit = true := by
    rw [List.all_eq_true]
    intro u hu
    obtain ⟨c, hc, rfl⟩ := List.mem_map.mp hu
    exact (val_unit_of_isDigit (hdigit c hc)).2
  have hfold : ∀ (cs : List Char) (start : ℕ), (∀ c ∈ cs, c.isDigit = true) →
      (cs.map unit).foldl (fun n u => 10 * n + (u.val - 48)) start
        = Nat.ofDigitChars 10 cs start := by
    intro cs
    induction cs with
    | nil => intro start _; rw [Nat.ofDigitChars_nil]; rfl
    | cons c cs ih =>
      intro start hcs
      rw [List.map_cons, List.foldl_cons, ih _ fun d hd => hcs d (List.mem_cons_of_mem _ hd),
        Nat.ofDigitChars_cons, (val_unit_of_isDigit (hcs c List.mem_cons_self)).1]
      rfl
  have hne : digitsText n ≠ [] := by simp [digitsText, Nat.toDigits_ne_nil]
  rw [readDigits, if_pos ⟨hne, hall⟩, digitsText, hfold _ _ hdigit, Nat.ofDigitChars_ten_toDigits]

theorem head_digitsText (n : ℕ) : (digitsText n).head? ≠ some (unit '-') := by
  intro h
  obtain ⟨c, hc, hunit⟩ := List.mem_map.mp (List.mem_of_mem_head? h)
  have hdigit := (val_unit_of_isDigit (Nat.isDigit_of_mem_toDigits (by decide) (by decide) hc)).2
  rw [hunit] at hdigit
  exact absurd hdigit (by decide)

theorem integersSurvive_decimal : @IntegersSurvive decimalNumerals := by
  intro n
  have hdigits : ∀ u ∈ digitsText n.natAbs, isNumeralUnit u = true := by
    intro u hu
    obtain ⟨c, hc, rfl⟩ := List.mem_map.mp hu
    have hdigit := (val_unit_of_isDigit (Nat.isDigit_of_mem_toDigits (by decide) (by decide) hc)).2
    simp [isNumeralUnit, hdigit]
  have hne : digitsText n.natAbs ≠ [] := by simp [digitsText, Nat.toDigits_ne_nil]
  have hread := readDigits_digitsText n.natAbs
  have htext : decimalNumerals.toPlatform.numberText (n : ℚ)
      = (if n < 0 then [unit '-'] else []) ++ digitsText n.natAbs := by
    change (if (n : ℚ).num < 0 then [unit '-'] else []) ++ digitsText (n : ℚ).num.natAbs = _
    rw [Rat.num_intCast]
  refine @Survives.mk decimalNumerals n ?_ ?_ ?_
  · rw [htext]
    by_cases hneg : n < 0
    · have habs : -((n.natAbs : ℕ) : ℚ) = n := by
        have h : -((n.natAbs : ℕ) : ℤ) = n := by omega
        rw [← Int.cast_natCast, ← Int.cast_neg, h]
      change (if ((if n < 0 then [unit '-'] else []) ++ _).head? = _ then _ else _) = _
      simp only [hneg, if_true, List.cons_append, List.nil_append, List.head?_cons, List.tail_cons,
        hread, Option.map_some, habs]
    · have habs : ((n.natAbs : ℕ) : ℚ) = n := by
        have h : ((n.natAbs : ℕ) : ℤ) = n := by omega
        rw [← Int.cast_natCast, h]
      change (if ((if n < 0 then [unit '-'] else []) ++ _).head? = _ then _ else _) = _
      simp [hneg, hread, habs, head_digitsText]
  · rw [htext]
    simp [hne]
  · intro u hu
    rw [htext] at hu
    rcases List.mem_append.mp hu with hu | hu
    · split at hu
      · rw [List.mem_singleton.mp hu]
        decide
      · cases hu
    · exact hdigits u hu

end SignetApp.Sync
