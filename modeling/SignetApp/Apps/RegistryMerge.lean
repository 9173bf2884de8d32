import SignetApp.Apps.Registry

/-!
# Merging registries

What a merge of two registries keeps, adopts and revokes, and that merging the same backup again
changes nothing. A backup that repeats a grant id is outside the last: the map a merge looks rows
up in keeps the last row of an id, the adoption loop reads every row.
-/

namespace SignetApp.Apps

open SignetApp.Js SignetApp.Contacts

/-! ## Revocation times -/

@[simp] theorem earlierDefined_earlierDefined (a b : Option ℚ) :
    earlierDefined (earlierDefined a b) b = earlierDefined a b := by
  cases a with
  | none => cases b <;> simp [earlierDefined]
  | some a =>
    cases b with
    | none => rfl
    | some b => simp [earlierDefined]

theorem isSome_earlierDefined (a b : Option ℚ) :
    (earlierDefined a b).isSome = (a.isSome || b.isSome) := by
  cases a <;> cases b <;> rfl

/-! ## One row -/

@[simp] theorem truthy_none : truthy none = none := rfl

theorem truthy_some (s : JsString) : truthy (some s) = if s = [] then none else some s := by
  by_cases hs : s = []
  · simp [truthy, hs]
  · simp [truthy, Option.filter, hs]

@[simp] theorem truthy_truthy (s : Option JsString) : truthy (truthy s) = truthy s := by
  simp [truthy]

theorem keySource_cases (l : AppGrantV2) (r : WireGrantV2) :
    keySource l r = l.toWireGrantV2 ∨ keySource l r = r := by
  unfold keySource
  split
  next winner other h =>
    split at h
    · cases h
      split
      · exact .inr rfl
      · exact .inl rfl
    · cases h
      split
      · exact .inl rfl
      · exact .inr rfl

theorem isUsableKey_keySource (l : AppGrantV2) (r : WireGrantV2) :
    isUsableKey (keySource l r).railPrivateKey
      = (isUsableKey l.railPrivateKey || isUsableKey r.railPrivateKey) := by
  unfold keySource
  by_cases hwins : l.updatedAt < r.updatedAt
  · simp only [if_pos hwins]
    split
    · next h => simp [h]
    · next h => simp [h]
  · simp only [if_neg hwins]
    split
    · next h => simp [h]
    · next h => simp [h]

theorem base_combine (l : AppGrantV2) (r : WireGrantV2) :
    base (combine l r) r = (combine l r).toWireGrantV2 := by
  apply if_neg
  show ¬ (base l r).updatedAt < r.updatedAt
  unfold base
  split
  · exact lt_irrefl _
  · assumption

variable {r : WireGrantV2} {l : AppGrantV2}

theorem keySource_combine (h : isUsableKey (keySource l r).railPrivateKey = true) :
    keySource (combine l r) r = (combine l r).toWireGrantV2 := by
  have hlast : ¬ (combine l r).updatedAt < r.updatedAt := by
    show ¬ (base l r).updatedAt < r.updatedAt
    unfold base
    split
    · exact lt_irrefl _
    · assumption
  have hkey : isUsableKey (combine l r).railPrivateKey = true := h
  rw [keySource, if_neg hlast]
  exact if_pos hkey

theorem mergedAutoAccept_combine (l : AppGrantV2) (r : WireGrantV2) :
    mergedAutoAccept (combine l r) r = mergedAutoAccept l r := by
  have hown : (base (combine l r) r).autoAcceptInvites = mergedAutoAccept l r := by
    rw [base_combine]
    rfl
  rw [mergedAutoAccept, hown]
  split
  · next h =>
    obtain ⟨hupdated, hfalse⟩ := h
    obtain hfalse | hfalse := hfalse
    · exact hfalse.symm
    · -- The remote side is narrowed and not older, so it decided the first merge too.
      have hupdated : (base l r).updatedAt = r.updatedAt := hupdated
      unfold mergedAutoAccept base
      unfold base at hupdated
      split at hupdated
      · next hlt => simp [hlt, hfalse]
      · simp [hupdated, hfalse]
  · rfl

theorem combine_combine (h : isUsableKey (keySource l r).railPrivateKey = true) :
    combine (combine l r) r = combine l r := by
  have hbase := base_combine l r
  have hkeys := keySource_combine h
  have hlabels : mergeAppLabels (combine l r).appLabels r.appLabels = (combine l r).appLabels :=
    OrderedMap.newest_absorb_newest _ _ l.appLabels r.appLabels
  have hrevoked : earlierDefined (combine l r).revokedAt r.revokedAt = (combine l r).revokedAt :=
    earlierDefined_earlierDefined _ _
  have howner : truthy (combine l r).ownerIdentityPubkey = (combine l r).ownerIdentityPubkey :=
    truthy_truthy _
  have hauto := mergedAutoAccept_combine l r
  rw [combine, hbase, hkeys, hlabels, hrevoked, howner, hauto]
  rfl

theorem scopesDiffer_combine (h : scopesDiffer l r = false) :
    scopesDiffer (combine l r) r = false := by
  have howner : (combine l r).ownerIdentityPubkey = truthy (base l r).ownerIdentityPubkey := rfl
  unfold scopesDiffer at h ⊢
  rw [howner, truthy_truthy]
  unfold base
  split
  · cases hr : r.ownerIdentityPubkey with
    | none => simp
    | some owner =>
      by_cases hempty : owner = []
      · simp [truthy_some, hempty]
      · simp [truthy_some, hempty]
  · cases hl : l.ownerIdentityPubkey with
    | none => simp
    | some owner =>
      rw [hl] at h
      by_cases hempty : owner = []
      · simp [truthy_some, hempty]
      · simpa [truthy_some, hempty] using h

theorem mergeOne_mergeOne {m : AppGrantV2} (h : mergeOne l r = some m) : mergeOne m r = some m := by
  unfold mergeOne at h
  split at h
  · next hdiffer =>
    cases h
    have hagain : scopesDiffer { l with revokedAt := earlierDefined l.revokedAt r.revokedAt } r = true :=
      hdiffer
    rw [mergeOne, if_pos hagain, earlierDefined_earlierDefined]
  · next hsame =>
    split at h
    · next husable =>
      cases h
      have hkey : isUsableKey (keySource (combine l r) r).railPrivateKey = true := by
        rw [keySource_combine husable]
        exact husable
      rw [mergeOne, if_neg (by rw [scopesDiffer_combine (by simpa using hsame)]; decide),
        if_pos hkey, combine_combine husable]
    · cases h

theorem grantId_mergeOne {m : AppGrantV2} (h : mergeOne l r = some m) : m.grantId = l.grantId := by
  unfold mergeOne at h
  split at h
  · cases h
    rfl
  · split at h
    · cases h
      rfl
    · cases h

/-! ## The local rows -/

section
variable (remotes : List WireGrantV2)

/-- The row of a backup a merge reads for a local grant. -/
abbrev twinOf (l : AppGrantV2) : Option WireGrantV2 := (byKey WireGrantV2.grantId remotes).get l.grantId

/-- A local row as a merge leaves it. -/
abbrev mergedRow (l : AppGrantV2) : AppGrantV2 := mergeRow (byKey WireGrantV2.grantId remotes) l

variable {remotes}

variable {r : WireGrantV2} {l : AppGrantV2}

theorem mergedRow_of_twin (h : twinOf remotes l = some r) :
    mergedRow remotes l = (mergeOne l r).getD l := by
  rw [mergedRow, mergeRow]
  simp only [show (byKey WireGrantV2.grantId remotes).get l.grantId = some r from h]

theorem mergedRow_of_alone (h : twinOf remotes l = none) : mergedRow remotes l = l := by
  rw [mergedRow, mergeRow]
  simp only [show (byKey WireGrantV2.grantId remotes).get l.grantId = none from h]

@[simp] theorem grantId_mergedRow (l : AppGrantV2) : (mergedRow remotes l).grantId = l.grantId := by
  cases htwin : twinOf remotes l with
  | none => rw [mergedRow_of_alone htwin]
  | some r =>
    rw [mergedRow_of_twin htwin]
    cases h : mergeOne l r with
    | none => rfl
    | some m => exact grantId_mergeOne h

theorem mergedRow_mergedRow (l : AppGrantV2) :
    mergedRow remotes (mergedRow remotes l) = mergedRow remotes l := by
  have hsame : twinOf remotes (mergedRow remotes l) = twinOf remotes l := by
    rw [twinOf, grantId_mergedRow]
  cases htwin : twinOf remotes l with
  | none => rw [mergedRow_of_alone htwin, mergedRow_of_alone htwin]
  | some r =>
    rw [mergedRow_of_twin (hsame.trans htwin), mergedRow_of_twin htwin]
    cases h : mergeOne l r with
    | none =>
      show (mergeOne l r).getD l = l
      rw [h]
      rfl
    | some m =>
      show (mergeOne m r).getD m = m
      rw [mergeOne_mergeOne h]
      rfl

variable (remotes)

/-- What a merge leaves of a local row: its id, what this device did, and a pair of rail keys from
one side, usable if this device's own was. -/
structure RowKept (l g : AppGrantV2) : Prop where
  grantId : g.grantId = l.grantId
  seenOperationIds : g.seenOperationIds = l.seenOperationIds
  lastProjectionHash : g.lastProjectionHash = l.lastProjectionHash
  lastProjectionAt : g.lastProjectionAt = l.lastProjectionAt
  lastPublishState : g.lastPublishState = l.lastPublishState
  railKeys : (g.railPubkey = l.railPubkey ∧ g.railPrivateKey = l.railPrivateKey) ∨
    ∃ r ∈ remotes, r.grantId = l.grantId ∧
      g.railPubkey = r.railPubkey ∧ g.railPrivateKey = r.railPrivateKey
  usable : isUsableKey l.railPrivateKey = true → isUsableKey g.railPrivateKey = true

theorem RowKept.refl (l : AppGrantV2) : RowKept remotes l l :=
  ⟨rfl, rfl, rfl, rfl, rfl, .inl ⟨rfl, rfl⟩, id⟩

theorem rowKept_mergedRow (l : AppGrantV2) : RowKept remotes l (mergedRow remotes l) := by
  cases htwin : twinOf remotes l with
  | none =>
    rw [mergedRow_of_alone htwin]
    exact RowKept.refl remotes l
  | some r =>
    rw [mergedRow_of_twin htwin]
    obtain ⟨hr, hid⟩ := mem_of_get_byKey htwin
    unfold mergeOne
    split
    · exact ⟨rfl, rfl, rfl, rfl, rfl, .inl ⟨rfl, rfl⟩, id⟩
    · split
      · next husable =>
        refine ⟨rfl, rfl, rfl, rfl, rfl, ?_, fun _ => husable⟩
        obtain hside | hside := keySource_cases l r
        · refine .inl ⟨?_, ?_⟩
          · show (keySource l r).railPubkey = l.railPubkey
            rw [hside]
          · show (keySource l r).railPrivateKey = l.railPrivateKey
            rw [hside]
        · refine .inr ⟨r, hr, hid, ?_, ?_⟩
          · show (keySource l r).railPubkey = r.railPubkey
            rw [hside]
          · show (keySource l r).railPrivateKey = r.railPrivateKey
            rw [hside]
      · exact RowKept.refl remotes l

/-- Does a merge take over when the remote side revoked a grant? Not where neither side has a rail
key to publish with: such a row is kept as it is. -/
def hears (l : AppGrantV2) (r : WireGrantV2) : Bool :=
  scopesDiffer l r || isUsableKey l.railPrivateKey || isUsableKey r.railPrivateKey

/-- The revocation time of a merged row, wherever the merge takes it over. -/
structure RevocationTaken (takes : AppGrantV2 → WireGrantV2 → Bool) (l g : AppGrantV2) : Prop where
  twin : ∀ r ∈ remotes, r.grantId = l.grantId → takes l r = true →
    g.revokedAt = earlierDefined l.revokedAt r.revokedAt
  keptAsIs : ∀ r ∈ remotes, r.grantId = l.grantId → takes l r = false → g = l
  alone : l.grantId ∉ remotes.map WireGrantV2.grantId → g = l

theorem revokedAt_mergeOne (h : hears l r = true) :
    ((mergeOne l r).getD l).revokedAt = earlierDefined l.revokedAt r.revokedAt := by
  unfold mergeOne
  split
  · rfl
  · next hsame =>
    rw [isUsableKey_keySource, if_pos (by simpa [hears, hsame] using h)]
    rfl

theorem mergeOne_of_not_hears (h : hears l r = false) : mergeOne l r = none := by
  simp only [hears, Bool.or_eq_false_iff] at h
  obtain ⟨⟨hsame, hl⟩, hr⟩ := h
  rw [mergeOne, hsame, isUsableKey_keySource, hl, hr]
  rfl

theorem twinOf_of_mem {remotes : List WireGrantV2} (hdistinct : OneEach WireGrantV2.grantId remotes) (hr : r ∈ remotes) (hid : r.grantId = l.grantId) :
    twinOf remotes l = some r := by
  rw [twinOf, get_byKey hdistinct, ← hid]
  exact valueFor_self hdistinct hr

theorem twinOf_eq_none {remotes : List WireGrantV2}
    (h : l.grantId ∉ remotes.map WireGrantV2.grantId) : twinOf remotes l = none := by
  cases htwin : twinOf remotes l with
  | none => rfl
  | some r =>
    obtain ⟨hr, hid⟩ := mem_of_get_byKey htwin
    exact absurd (List.mem_map.mpr ⟨r, hr, hid⟩) h

theorem revocationTaken_mergedRow {remotes : List WireGrantV2}
    (hdistinct : OneEach WireGrantV2.grantId remotes) (l : AppGrantV2) :
    RevocationTaken remotes hears l (mergedRow remotes l) where
  twin r hr hid hhears := by
    rw [mergedRow_of_twin (twinOf_of_mem hdistinct hr hid)]
    exact revokedAt_mergeOne hhears
  keptAsIs r hr hid hhears := by
    rw [mergedRow_of_twin (twinOf_of_mem hdistinct hr hid), mergeOne_of_not_hears hhears]
    rfl
  alone h := mergedRow_of_alone (twinOf_eq_none h)

theorem isActive_of_mergedRow (h : (mergedRow remotes l).isActive = true) : l.isActive = true := by
  cases htwin : twinOf remotes l with
  | none => rwa [mergedRow_of_alone htwin] at h
  | some r =>
    rw [mergedRow_of_twin htwin] at h
    cases hhears : hears l r with
    | false => rwa [mergeOne_of_not_hears hhears] at h
    | true =>
      have hnone : earlierDefined l.revokedAt r.revokedAt = none := by
        rw [← revokedAt_mergeOne hhears]
        exact Option.isNone_iff_eq_none.mp h
      have hsome := isSome_earlierDefined l.revokedAt r.revokedAt
      rw [hnone] at hsome
      show l.revokedAt.isNone = true
      cases hl : l.revokedAt with
      | none => rfl
      | some at_ => simp [hl] at hsome

end

/-! ## The adoption loop -/

/-- The remote-only grants that could be adopted, in the order they are tried. -/
def adoptable (locals : List AppGrantV2) (remotes : List WireGrantV2) : List AppGrantV2 :=
  (remoteOnly locals remotes).filterMap fromWireOnly

/-- The room the cap leaves next to the local grants in force. -/
def room (locals : List AppGrantV2) (remotes : List WireGrantV2) : ℕ :=
  contactGrantV2Cap
    - (locals.map (mergedRow remotes)).countP AppGrantV2.isActive

/-- The loop takes grants while there is room and counts the rest. -/
theorem foldl_adopt (rs : List WireGrantV2) (s : Adoption) :
    (rs.foldl adopt s).out
        = s.out ++ (rs.filterMap fromWireOnly).take (contactGrantV2Cap - s.active) ∧
      (rs.foldl adopt s).skippedRemote
        = s.skippedRemote
          + ((rs.filterMap fromWireOnly).length - (contactGrantV2Cap - s.active)) := by
  induction rs generalizing s with
  | nil => simp
  | cons r rs ih =>
    rw [List.foldl_cons]
    obtain ⟨hout, hskipped⟩ := ih (adopt s r)
    rw [hout, hskipped]
    cases hfresh : fromWireOnly r with
    | none =>
      have hstep : adopt s r = s := by simp [adopt, hfresh]
      rw [hstep, List.filterMap_cons_none hfresh]
      exact ⟨rfl, rfl⟩
    | some fresh =>
      rw [List.filterMap_cons_some hfresh]
      by_cases hcap : contactGrantV2Cap ≤ s.active
      · have hstep : adopt s r = { s with skippedRemote := s.skippedRemote + 1 } := by
          simp only [adopt, hfresh, if_pos hcap]
        have hroom : contactGrantV2Cap - s.active = 0 := Nat.sub_eq_zero_of_le hcap
        rw [hstep]
        simp only [hroom, List.take_zero, List.length_cons, Nat.sub_zero, true_and]
        omega
      · have hstep : adopt s r = { s with active := s.active + 1, out := s.out ++ [fresh] } := by
          simp only [adopt, hfresh, if_neg hcap]
        have hroom : contactGrantV2Cap - s.active = contactGrantV2Cap - (s.active + 1) + 1 := by omega
        rw [hstep]
        simp only [hroom, List.take_succ_cons, List.length_cons, List.append_assoc,
          List.singleton_append, Nat.add_sub_add_right, and_self]

theorem grants_mergeGrantRegistry (locals : List AppGrantV2) (remotes : List WireGrantV2) :
    (mergeGrantRegistry locals remotes).grants
      = locals.map (mergedRow remotes)
        ++ (adoptable locals remotes).take (room locals remotes) :=
  (foldl_adopt _ _).1

theorem skippedRemote_mergeGrantRegistry (locals : List AppGrantV2) (remotes : List WireGrantV2) :
    (mergeGrantRegistry locals remotes).skippedRemote
      = (adoptable locals remotes).length - room locals remotes := by
  have h := (foldl_adopt (remoteOnly locals remotes)
    ⟨locals.map (mergedRow remotes),
      (locals.map (mergedRow remotes)).countP AppGrantV2.isActive, 0⟩).2
  rw [Nat.zero_add] at h
  exact h

theorem fromWireOnly_eq_some_iff {g : AppGrantV2} :
    fromWireOnly r = some g ↔
      r.revokedAt = none ∧ isUsableKey r.railPrivateKey = true ∧ g = { r with seenOperationIds := [] } := by
  unfold fromWireOnly
  cases hrevoked : r.revokedAt with
  | some at_ => simp
  | none =>
    cases hkey : isUsableKey r.railPrivateKey with
    | false => simp
    | true => simp [eq_comm]

theorem mem_remoteOnly {locals : List AppGrantV2} {remotes : List WireGrantV2} :
    r ∈ remoteOnly locals remotes ↔
      r ∈ remotes ∧ r.grantId ∉ locals.map (·.grantId) ∧ r.revokedAt = none := by
  have hhas : (byKey (fun g : AppGrantV2 => g.grantId) locals).has r.grantId = true
      ↔ r.grantId ∈ locals.map (·.grantId) := has_byKey
  rw [remoteOnly, List.mem_insertionSort, List.mem_filter]
  simp only [Bool.and_eq_true, Bool.not_eq_true', Option.isNone_iff_eq_none, ← hhas,
    Bool.not_eq_true]

/-- An adopted grant is a remote one, unknown here, in force and with a usable key. -/
structure Adopted (locals : List AppGrantV2) (remotes : List WireGrantV2) (g : AppGrantV2) : Prop where
  new : g.grantId ∉ locals.map (·.grantId)
  active : g.revokedAt = none
  usable : isUsableKey g.railPrivateKey = true
  fromWire : ∃ r ∈ remotes, g = { r with seenOperationIds := [] }

theorem mem_adoptable_iff {locals : List AppGrantV2} {remotes : List WireGrantV2} {g : AppGrantV2} :
    g ∈ adoptable locals remotes ↔ Adopted locals remotes g := by
  rw [adoptable, List.mem_filterMap]
  constructor
  · rintro ⟨r, hr, hg⟩
    obtain ⟨hmem, hnew, -⟩ := mem_remoteOnly.mp hr
    obtain ⟨hactive, hkey, rfl⟩ := fromWireOnly_eq_some_iff.mp hg
    exact ⟨hnew, hactive, hkey, r, hmem, rfl⟩
  · rintro ⟨hnew, hactive, hkey, r, hr, rfl⟩
    exact ⟨r, mem_remoteOnly.mpr ⟨hr, hnew, hactive⟩,
      fromWireOnly_eq_some_iff.mpr ⟨hactive, hkey, rfl⟩⟩

end SignetApp.Apps
