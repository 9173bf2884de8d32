import SignetApp.Credentials.Precedence

/-!
# Credentials converge

A record within the bounds of the parser arrives with its rank, so what many devices end with is the
highest rank among the records they started from, in whatever order they merge. Records that tie in
rank stay as each device has them.
-/

namespace SignetApp.Credentials

open SignetApp.Js

/-! ## What a device reads of another's list -/

/-- The record is within the bounds of the parser. -/
structure Portable (c : StoredCredential) : Prop where
  documentId : c.documentId.length ≤ maxRoutingFieldLen
  event : c.event.length ≤ maxEventLen
  verifierPubkey : isHexOf 64 (toLowerCase c.verifierPubkey) = true

/-- The fields that matter between devices. -/
structure SameFields (c d : StoredCredential) : Prop where
  verifierStatus : c.verifierStatus = d.verifierStatus
  verifiedAt : c.verifiedAt = d.verifiedAt
  pendingIssuedAt : c.pendingIssuedAt = d.pendingIssuedAt
  confirmationAt : c.confirmationAt = d.confirmationAt
  expiresAt : c.expiresAt = d.expiresAt
  revokedAt : c.revokedAt = d.revokedAt
  event : c.event = d.event

theorem lookup_optionalProp {α : Type} (name k : String) (toJs : α → JsValue) (v : Option α) :
    (optionalProp name toJs v).lookup k = if k = name then v.map toJs else none := by
  cases v with
  | none => simp [optionalProp]
  | some a =>
    by_cases h : k = name
    · simp [optionalProp, h]
    · have hb : (k == name) = false := by simpa using h
      simp [optionalProp, List.lookup_cons, h, hb]

theorem hexAnyCase_toJs (h : Hex 64) : hexAnyCase h.toJs = some h := by
  have hlower := toLowerCase_of_hex h.property
  have hhex : isHexOf 64 (toLowerCase h.val) = true := by
    rw [hlower]
    exact h.property
  show (if h' : isHexOf 64 (toLowerCase h.val) = true then some (⟨toLowerCase h.val, h'⟩ : Hex 64)
    else none) = some h
  rw [dif_pos hhex]
  exact congrArg some (Subtype.ext hlower)

/-- **A record within the bounds arrives**, its leaves and proofs cut to their own bounds. -/
theorem parseItem_toJs {c : StoredCredential} (h : Portable c) : parseItem c.toJs = some { c with
    merkleLeaves := c.merkleLeaves.bind fun leaves => parseLeaves (leavesToJs leaves)
    merkleProofs := c.merkleProofs.bind fun proofs => textUpTo maxEventLen (.str proofs)
    verifierPubkey := toLowerCase c.verifierPubkey } := by
  have hid : c.toJs.get "id" = c.id.toJs := rfl
  have hdocument : c.toJs.get "documentId" = .str c.documentId := rfl
  have hkeypair : c.toJs.get "keypairType" = StringUnion.toJs c.keypairType := rfl
  have hevent : c.toJs.get "event" = .str c.event := rfl
  have hverifier : c.toJs.get "verifierPubkey" = .str c.verifierPubkey := rfl
  have hverified : c.toJs.get "verifiedAt" = numToJs c.verifiedAt := rfl
  have hstatus : c.toJs.get "verifierStatus" = StringUnion.toJs c.verifierStatus := rfl
  have hleaves : c.toJs.get "merkleLeaves" = (c.merkleLeaves.map leavesToJs).getD .undefined := by
    simp [StoredCredential.toJs, JsValue.get, List.lookup_append, List.lookup, lookup_optionalProp]
  have hproofs : c.toJs.get "merkleProofs" = (c.merkleProofs.map .str).getD .undefined := by
    simp [StoredCredential.toJs, JsValue.get, List.lookup_append, List.lookup, lookup_optionalProp]
  have hpending : c.toJs.get "pendingIssuedAt" = (c.pendingIssuedAt.map numToJs).getD .undefined := by
    simp [StoredCredential.toJs, JsValue.get, List.lookup_append, List.lookup, lookup_optionalProp]
  have hconfirmation : c.toJs.get "confirmationAt"
      = (c.confirmationAt.map numToJs).getD .undefined := by
    simp [StoredCredential.toJs, JsValue.get, List.lookup_append, List.lookup, lookup_optionalProp]
  have hexpires : c.toJs.get "expiresAt" = (c.expiresAt.map numToJs).getD .undefined := by
    simp [StoredCredential.toJs, JsValue.get, List.lookup_append, List.lookup, lookup_optionalProp]
  have hrevoked : c.toJs.get "revokedAt" = (c.revokedAt.map numToJs).getD .undefined := by
    simp [StoredCredential.toJs, JsValue.get, List.lookup_append, List.lookup, lookup_optionalProp]
  have hnum : ∀ v : Option ℚ, isFinite ((v.map numToJs).getD .undefined) = v := by
    intro v
    cases v with
    | none => rfl
    | some q => rfl
  have hhex : hexAnyCase (.str c.verifierPubkey)
      = some (⟨toLowerCase c.verifierPubkey, h.verifierPubkey⟩ : Hex 64) := dif_pos h.verifierPubkey
  have hdoc : textUpTo maxRoutingFieldLen (.str c.documentId) = some c.documentId := if_pos h.documentId
  have hev : textUpTo maxEventLen (.str c.event) = some c.event := if_pos h.event
  have hlv : parseLeaves ((c.merkleLeaves.map leavesToJs).getD .undefined)
      = c.merkleLeaves.bind fun leaves => parseLeaves (leavesToJs leaves) := by
    cases c.merkleLeaves with
    | none => rfl
    | some leaves => rfl
  have hpr : textUpTo maxEventLen ((c.merkleProofs.map .str).getD .undefined)
      = c.merkleProofs.bind fun proofs => textUpTo maxEventLen (.str proofs) := by
    cases c.merkleProofs with
    | none => rfl
    | some proofs => rfl
  unfold parseItem
  rw [hid, hdocument, hkeypair, hevent, hverifier, hverified, hstatus, hleaves, hproofs, hpending,
    hconfirmation, hexpires, hrevoked, hexAnyCase_toJs, hhex, hdoc, hev, hlv, hpr, hnum, hnum, hnum,
    hnum, parse_toJs, parse_toJs]
  rfl

variable {cs : List StoredCredential}

theorem received_eq (h : cs.length ≤ maxSyncCredentials) :
    received cs = cs.filterMap fun c => parseItem c.toJs := by
  have hv : (payload cs).get "v" = .ofNat schemaV := rfl
  have hcredentials : (payload cs).get "credentials" = .arr (cs.map StoredCredential.toJs) := rfl
  have hfinite : isFinite (.ofNat schemaV) = some (schemaV : ℚ) := rfl
  unfold received parsePayload
  rw [hv, hcredentials, hfinite]
  simp [List.length_map, not_lt.2 h, List.filterMap_map]

theorem mem_received (h : cs.length ≤ maxSyncCredentials)
    (hportable : ∀ c ∈ cs, Portable c) {d : StoredCredential} : d ∈ received cs →
      ∃ c ∈ cs, d.id = c.id ∧ rank d = rank c ∧ Portable d := by
  rw [received_eq h]
  intro hd
  obtain ⟨c, hc, hparse⟩ := List.mem_filterMap.1 hd
  rw [parseItem_toJs (hportable c hc)] at hparse
  obtain rfl := Option.some.inj hparse
  refine ⟨c, hc, rfl, rfl, (hportable c hc).documentId, (hportable c hc).event, ?_⟩
  rw [toLowerCase_toLowerCase]
  exact (hportable c hc).verifierPubkey

theorem topRank_received (h : cs.length ≤ maxSyncCredentials)
    (hportable : ∀ c ∈ cs, Portable c) (id : Hex 64) : topRank id (received cs) = topRank id cs := by
  apply le_antisymm
  · apply topRank_le
    rintro d hd rfl
    obtain ⟨c, hc, hid, hrank, -⟩ := mem_received h hportable hd
    rw [hid, hrank]
    exact le_topRank hc
  · apply topRank_le
    rintro c hc rfl
    obtain ⟨d, hd, hid, hrank⟩ : ∃ d ∈ received cs, d.id = c.id ∧ rank d = rank c := by
      rw [received_eq h]
      exact ⟨_, List.mem_filterMap.2 ⟨c, hc, parseItem_toJs (hportable c hc)⟩, rfl, rfl⟩
    rw [← hid, ← hrank]
    exact le_topRank hd

/-! ## One merge -/

section

variable {locals remotes : List StoredCredential} {c d : StoredCredential}

theorem oneEach_merged (h : OneEach StoredCredential.id locals) :
    OneEach StoredCredential.id (mergeCredentialLists locals remotes).merged :=
  oneEach_values (keyed_foldl (keyed_byKey h))

theorem topRank_merged (h : OneEach StoredCredential.id locals) (id : Hex 64) :
    topRank id (mergeCredentialLists locals remotes).merged
      = topRank id locals ⊔ topRank id remotes := by
  show topRank id (remotes.foldl mergeStep (byKey _ locals, [])).1.values = _
  rw [topRank_values (keyed_foldl (keyed_byKey h)), mapRank_foldl, mapRank_byKey h]

theorem get_merged (h : OneEach StoredCredential.id locals) (id : Hex 64) :
    valueFor StoredCredential.id (mergeCredentialLists locals remotes).merged id
        = valueFor StoredCredential.id locals id ∨
      ∃ r ∈ remotes, r.id = id ∧
        valueFor StoredCredential.id (mergeCredentialLists locals remotes).merged id = some r ∧
        topRank id locals < rank r := by
  have hvalue : valueFor StoredCredential.id (mergeCredentialLists locals remotes).merged id
      = (remotes.foldl mergeStep (byKey StoredCredential.id locals, [])).1.get id :=
    valueFor_values (keyed_foldl (keyed_byKey h)) id
  rw [hvalue, ← get_byKey h, ← mapRank_byKey h]
  exact get_foldl

theorem mem_merged (h : OneEach StoredCredential.id locals)
    (hc : c ∈ (mergeCredentialLists locals remotes).merged) :
    c ∈ locals ∨ c ∈ remotes ∧ ∀ l ∈ locals, l.id = c.id → rank l < rank c := by
  have hvalue := valueFor_self (oneEach_merged h) hc
  obtain hsame | ⟨r, hr, hid, hget, hlt⟩ := @get_merged _ remotes h c.id
  · rw [hsame, valueFor_eq_some_iff h] at hvalue
    exact .inl hvalue.1
  · obtain rfl := Option.some.inj (hvalue.symm.trans hget)
    right
    refine ⟨hr, ?_⟩
    intro l hl hlc
    rw [← hlc] at hlt
    exact WithBot.coe_lt_coe.1 ((le_topRank hl).trans_lt hlt)

theorem rank_le_merged (h : OneEach StoredCredential.id locals)
    (hc : c ∈ (mergeCredentialLists locals remotes).merged) (hd : d ∈ locals ++ remotes)
    (hid : d.id = c.id) : rank d ≤ rank c := by
  have htop := @topRank_oneEach c.id _ (@oneEach_merged _ remotes h)
  rw [valueFor_self (oneEach_merged h) hc, topRank_merged h, ← topRank_append] at htop
  have hle := le_topRank hd
  rw [hid, htop] at hle
  exact WithBot.coe_le_coe.1 hle

end

/-! ## Many devices -/

/-- The records a device saw: its own at first, and what it read of others. -/
def seen : Exchange (List StoredCredential) → List StoredCredential
  | .holds cs => cs
  | .merge own remote => seen own ++ received (remote.outcome mergeReceived)

variable {t : Exchange (List StoredCredential)}

theorem outcome_seen (ht : ∀ cs ∈ t.sources, OneEach StoredCredential.id cs) :
    OneEach StoredCredential.id (t.outcome mergeReceived) ∧
      (∀ id, topRank id (t.outcome mergeReceived) = topRank id (seen t)) ∧
      ∀ c ∈ t.outcome mergeReceived, c ∈ seen t := by
  induction t with
  | holds cs => exact ⟨ht cs List.mem_cons_self, fun _ => rfl, fun _ hc => hc⟩
  | merge own remote ihOwn ihRemote =>
    obtain ⟨hone, htop, hmem⟩ := ihOwn fun cs h => ht cs (List.mem_append_left _ h)
    refine ⟨oneEach_merged hone, ?_, ?_⟩
    · intro id
      show topRank id (mergeCredentialLists _ _).merged = topRank id (seen own ++ _)
      rw [topRank_merged hone, topRank_append, htop]
    · intro c hc
      obtain hc | ⟨hc, -⟩ := mem_merged hone hc
      · exact List.mem_append_left _ (hmem c hc)
      · exact List.mem_append_right _ hc

variable {ids : Finset (Hex 64)}

theorem length_le_of_ids (h : OneEach StoredCredential.id cs) (hids : ∀ c ∈ cs, c.id ∈ ids) : cs.length ≤ ids.card := by
  have hcard : (cs.map StoredCredential.id).toFinset.card = cs.length := by
    rw [List.toFinset_card_of_nodup h, List.length_map]
  rw [← hcard]
  apply Finset.card_le_card
  intro id hid
  obtain ⟨c, hc, rfl⟩ := List.mem_map.1 (List.mem_toFinset.1 hid)
  exact hids c hc

/-- Where the parser takes every record, all that any device held at first spreads. -/
theorem outcome_spreads (hcard : ids.card ≤ maxSyncCredentials) (ht : ∀ cs ∈ t.sources,
      OneEach StoredCredential.id cs ∧ ∀ c ∈ cs, Portable c ∧ c.id ∈ ids) :
    (OneEach StoredCredential.id (t.outcome mergeReceived) ∧
      ∀ c ∈ t.outcome mergeReceived, Portable c ∧ c.id ∈ ids) ∧
      ∀ id, topRank id (t.outcome mergeReceived) = topRank id t.sources.flatten := by
  induction t with
  | holds cs =>
    refine ⟨ht cs List.mem_cons_self, ?_⟩
    intro id
    rw [Exchange.outcome, Exchange.sources, List.flatten_singleton]
  | merge own remote ihOwn ihRemote =>
    obtain ⟨⟨hone, hown⟩, htop⟩ := ihOwn fun cs h => ht cs (List.mem_append_left _ h)
    obtain ⟨⟨honeR, hremote⟩, htopR⟩ := ihRemote fun cs h => ht cs (List.mem_append_right _ h)
    have hlength : (remote.outcome mergeReceived).length ≤ maxSyncCredentials :=
      (length_le_of_ids honeR fun c hc => (hremote c hc).2).trans hcard
    have hportable : ∀ c ∈ remote.outcome mergeReceived, Portable c := fun c hc => (hremote c hc).1
    refine ⟨⟨oneEach_merged hone, ?_⟩, ?_⟩
    · intro c hc
      obtain hc | ⟨hc, -⟩ := mem_merged hone hc
      · exact hown c hc
      · obtain ⟨d, hd, hid, -, hc⟩ := mem_received hlength hportable hc
        exact ⟨hc, hid ▸ (hremote d hd).2⟩
    · intro id
      show topRank id (mergeCredentialLists _ _).merged = _
      rw [topRank_merged hone, topRank_received hlength hportable, htop, htopR, Exchange.sources,
        List.flatten_append, topRank_append]

/-! ## What holds -/

/-- Two lists agree up to ties: for every id they hold records of one standing, or none, and these
are the same where the versions of that rank among `cs` are. -/
def Agree (cs locals remotes : List StoredCredential) : Prop :=
  ∀ c ∈ locals, ∃ d ∈ remotes, d.id = c.id ∧ SameStanding c d ∧
    ((∀ x ∈ cs, ∀ y ∈ cs, x.id = c.id → y.id = c.id → rank x = rank c → rank y = rank c →
      SameFields x y) → SameFields c d)

structure MergesByRank : Prop where
  oneEach : ∀ locals remotes, OneEach StoredCredential.id locals →
    OneEach StoredCredential.id (mergeCredentialLists locals remotes).merged
  /-- A record is one of the two lists', whole; a remote one only where it outranks the local one. -/
  whole : ∀ locals remotes, OneEach StoredCredential.id locals →
    ∀ c ∈ (mergeCredentialLists locals remotes).merged,
      c ∈ locals ∨ c ∈ remotes ∧ ∀ l ∈ locals, l.id = c.id → rank l < rank c
  /-- What is not outranked stays, with its leaves and proofs. -/
  stays : ∀ locals remotes, OneEach StoredCredential.id locals → ∀ l ∈ locals,
    (∀ r ∈ remotes, r.id = l.id → rank r ≤ rank l) → l ∈ (mergeCredentialLists locals remotes).merged
  /-- A revocation on any side is kept, but against a later verification. -/
  revoked : ∀ locals remotes, OneEach StoredCredential.id locals →
    ∀ c ∈ (mergeCredentialLists locals remotes).merged, ∀ d ∈ locals ++ remotes, d.id = c.id →
      d.revokedAt.isSome = true → c.revokedAt.isSome = true ∨ d.verifiedAt < c.verifiedAt
  /-- A confirmed record does not give way to an unconfirmed one of its time that is not revoked. -/
  confirmed : ∀ locals remotes, OneEach StoredCredential.id locals →
    ∀ c ∈ (mergeCredentialLists locals remotes).merged, ∀ d ∈ locals ++ remotes, d.id = c.id →
      d.verifierStatus = .confirmed →
      c.verifierStatus = .confirmed ∨ c.revokedAt.isSome = true ∨ d.verifiedAt < c.verifiedAt
  again : ∀ locals remotes, OneEach StoredCredential.id locals →
    (mergeCredentialLists (mergeCredentialLists locals remotes).merged remotes).toSave = []
  /-- Devices that saw the same records agree. -/
  agree : ∀ t u : Exchange (List StoredCredential),
    (∀ cs ∈ t.sources, OneEach StoredCredential.id cs) →
    (∀ cs ∈ u.sources, OneEach StoredCredential.id cs) → (∀ c, c ∈ seen t ↔ c ∈ seen u) →
    Agree (seen t) (t.outcome mergeReceived) (u.outcome mergeReceived)
  /-- Devices whose records came from the same lists hold records of one standing. -/
  spreads : ∀ (t u : Exchange (List StoredCredential)) (ids : Finset (Hex 64)),
    ids.card ≤ maxSyncCredentials → (∀ cs ∈ t.sources, OneEach StoredCredential.id cs ∧
      ∀ c ∈ cs, Portable c ∧ c.id ∈ ids) → (∀ cs, cs ∈ t.sources ↔ cs ∈ u.sources) →
    ∀ c ∈ t.outcome mergeReceived, ∃ d ∈ u.outcome mergeReceived, d.id = c.id ∧ SameStanding c d

theorem exists_of_topRank {ds : List StoredCredential} (hcs : OneEach StoredCredential.id cs)
    (hds : OneEach StoredCredential.id ds) {c : StoredCredential} (hc : c ∈ cs)
    (h : topRank c.id cs = topRank c.id ds) : ∃ d ∈ ds, d.id = c.id ∧ rank d = rank c := by
  rw [topRank_oneEach hcs, valueFor_self hcs hc, topRank_oneEach hds] at h
  cases hd : valueFor StoredCredential.id ds c.id with
  | none =>
    rw [hd] at h
    exact absurd h WithBot.coe_ne_bot
  | some d =>
    rw [hd] at h
    obtain ⟨hmem, hid⟩ := (valueFor_eq_some_iff hds).1 hd
    exact ⟨d, hmem, hid, (WithBot.coe_inj.1 h).symm⟩

theorem merges_by_rank : MergesByRank where
  oneEach _ _ h := oneEach_merged h
  whole _ _ h _ hc := mem_merged h hc
  stays := by
    intro locals remotes h l hl hle
    have hvalue := valueFor_self h hl
    obtain hsame | ⟨r, hr, hid, -, hlt⟩ := @get_merged _ remotes h l.id
    · rw [hvalue] at hsame
      exact ((valueFor_eq_some_iff (oneEach_merged h)).1 hsame).1
    · have hlt' := (le_topRank hl).trans_lt hlt
      exact absurd (WithBot.coe_lt_coe.1 hlt') (hle r hr hid).not_gt
  revoked _ _ h _ hc _ hd hid hrevoked := revoked_of_rank_le (rank_le_merged h hc hd hid) hrevoked
  confirmed _ _ h _ hc _ hd hid hconfirmed :=
    confirmed_of_rank_le (rank_le_merged h hc hd hid) hconfirmed
  again := by
    intro locals remotes h
    have hone := @oneEach_merged _ remotes h
    have hsame : remotes.foldl mergeStep
        (byKey StoredCredential.id (mergeCredentialLists locals remotes).merged, [])
          = (byKey StoredCredential.id (mergeCredentialLists locals remotes).merged, []) := by
      apply foldl_of_le
      intro r hr
      rw [mapRank_byKey hone, topRank_merged h]
      exact (le_topRank hr).trans le_sup_right
    exact congrArg Prod.snd hsame
  agree := by
    intro t u ht hu hseen c hc
    obtain ⟨hone, htop, hmem⟩ := outcome_seen ht
    obtain ⟨hone', htop', hmem'⟩ := outcome_seen hu
    have heq : topRank c.id (t.outcome mergeReceived) = topRank c.id (u.outcome mergeReceived) := by
      rw [htop, htop', topRank_congr hseen]
    obtain ⟨d, hd, hid, hrank⟩ := exists_of_topRank hone hone' hc heq
    refine ⟨d, hd, hid, sameStanding_of_rank hrank.symm, ?_⟩
    intro hsame
    exact hsame c (hmem c hc) d ((hseen d).2 (hmem' d hd)) rfl hid rfl hrank
  spreads := by
    intro t u ids hcard ht hsources c hc
    have hu : ∀ cs ∈ u.sources, OneEach StoredCredential.id cs ∧ ∀ c ∈ cs, Portable c ∧ c.id ∈ ids :=
      fun cs h => ht cs ((hsources cs).2 h)
    obtain ⟨⟨hone, -⟩, htop⟩ := outcome_spreads hcard ht
    obtain ⟨⟨hone', -⟩, htop'⟩ := outcome_spreads hcard hu
    have heq : topRank c.id (t.outcome mergeReceived) = topRank c.id (u.outcome mergeReceived) := by
      rw [htop, htop']
      apply topRank_congr
      intro d
      rw [List.mem_flatten, List.mem_flatten]
      simp only [hsources]
    obtain ⟨d, hd, hid, hrank⟩ := exists_of_topRank hone hone' hc heq
    exact ⟨d, hd, hid, sameStanding_of_rank hrank.symm⟩

/-! ## What does not -/

def sampleCredential : StoredCredential where
  id := .repeated 64 10
  documentId := lit "doc-1"
  keypairType := .persona
  event := lit "\x7b\x7d"
  merkleLeaves := some [("dateOfBirth", lit "2010-05-01")]
  merkleProofs := none
  verifierPubkey := (Hex.repeated 64 11).val
  verifiedAt := 1000
  verifierStatus := .pending
  pendingIssuedAt := some 900
  confirmationAt := none
  expiresAt := none
  revokedAt := none

/-- A later verification undoes a revocation, and a lapse on one device stays there. -/
theorem revocation_undone :
    (mergeReceived [{ sampleCredential with revokedAt := some 1200 }]
        [{ sampleCredential with verifiedAt := 2000 }]).map (·.revokedAt) = [none] ∧
      (mergeReceived [sampleCredential] [{ sampleCredential with verifierStatus := .expiredPending }]).map
        (·.verifierStatus) = [.pending] ∧
      (mergeReceived [{ sampleCredential with verifierStatus := .expiredPending }] [sampleCredential]).map
        (·.verifierStatus) = [.expiredPending] := by
  decide +kernel

end SignetApp.Credentials
