import SignetApp.Bots.Snapshots

/-!
# Registries of one owner converge

The merge of the snapshots of registries that agree does not depend on the order, and is accepted
where it fits; on the device that merges, what was removed stays removed and a live bot keeps its key.
-/

namespace SignetApp.Bots

open SignetApp.Js SignetApp.Sync

/-! ## Registries that agree -/

/-- The bots agree on what does not change, and each derivation name is of one bot. -/
structure Agree (bots : List BotRecord) : Prop where
  immutable : AgreeOn bots bots
  names : ∀ a ∈ bots, ∀ b ∈ bots, a.derivationName ≠ none → a.derivationName = b.derivationName →
    a.publicKey = b.publicKey

def Claims (bots : List BotRecord) (claim : BotOwnershipState) : Prop :=
  ∃ bot ∈ bots, bot.ownership = some claim

/-- A claim was published under the id of its event, if it was; and an event is told by its id. -/
structure Consistent (bots : List BotRecord) : Prop where
  published : ∀ claim, Claims bots claim → ∀ id, claim.publishedEventId = some id → id = claim.event.id
  events : ∀ claim, Claims bots claim → ∀ claim', Claims bots claim' →
    claim.event.id = claim'.event.id → claim.event = claim'.event

/-- The family of these bots. -/
def familyOf (bots : List BotRecord) (h : Agree bots) (hc : Consistent bots) : Family where
  identities := { i | ∃ bot ∈ bots, bot.identity = i }
  events := { e | ∃ claim, Claims bots claim ∧ claim.event = e }
  oneIdentity := by
    rintro _ ⟨a, ha, rfl⟩ _ ⟨b, hb, rfl⟩ hkey
    have hkey' : a.publicKey = b.publicKey := hkey
    exact (conflicts_eq_false_iff hkey').1 (h.immutable a ha b hb hkey')
  oneName := by
    rintro _ ⟨a, ha, rfl⟩ _ ⟨b, hb, rfl⟩ hsome heq
    exact h.names a ha b hb hsome heq
  oneEvent := by
    rintro _ ⟨claim, hclaim, rfl⟩ _ ⟨claim', hclaim', rfl⟩ hid
    exact hc.events claim hclaim claim' hclaim' hid

theorem known_familyOf {bots : List BotRecord} {h : Agree bots} {hc : Consistent bots}
    {x : BotRegistry} (hsub : ∀ bot ∈ x.bots, bot ∈ bots) : Known (familyOf bots h hc) x :=
  fun bot hbot => ⟨bot, hsub bot hbot, rfl⟩

section

variable [Platform] {x y : BotRegistry} {f : Family}

theorem Within.merge (hx : Within f x) (hy : Within f y) :
    ∃ data, mergedData x y = some data ∧ Joined x y data :=
  mergedData_eq hx.tidy.oneEach hy.tidy.oneEach (fun bot hbot => (hy.among bot hbot).privateKey)
    (hx.known.agreeOn hy.known)

end

section

variable [Platform] [Keys] {root : JsString} {x y z r xy yz : BotRegistry} {f : Family}

/-! ## Merges pass the check -/

theorem Checked.mergeBot {a b : BotRecord} (ha : Checked root x.allocated a)
    (hb : Checked root y.allocated b) (hidentity : a.identity = b.identity)
    {names : List JsString} (hx : ∀ n ∈ x.allocated, n ∈ names) (hy : ∀ n ∈ y.allocated, n ∈ names) :
    Checked root names (mergeBot a b) := by
  have hmerged := identity_mergeBot hidentity
  simp only [BotRecord.identity, Identity.mk.injEq] at hidentity hmerged
  obtain ⟨hkey, howner, hsource, hname, hcreated⟩ := hidentity
  obtain ⟨hkey', howner', hsource', hname', hcreated'⟩ := hmerged
  have hnewer : Checked root names (newerBot a b) := by
    rcases newerBot_mem a b with h | h
    · rw [h]
      exact ha.mono hx
    · rw [h]
      exact hb.mono hy
  have hna : Nonneg a.removedAt := fun t ht => isStamp_nonneg (ha.removedAt t ht).1
  have hnb : Nonneg b.removedAt := fun t ht => isStamp_nonneg (hb.removedAt t ht).1
  refine { publicKey := hkey' ▸ ha.publicKey, ownerPersona := howner' ▸ ha.ownerPersona,
           notRoot := howner' ▸ ha.notRoot, notOwn := ?_, labelled := ?_, label := ?_,
           createdAt := hcreated' ▸ ha.createdAt, updatedAt := ?_, afterwards := ?_, removedAt := ?_,
           derived := ?_, standalone := ?_, privateKey := ?_, ownership := ?_ }
  · rw [howner', hkey']
    exact ha.notOwn
  · rw [mergeBot_eq]
    exact hnewer.labelled
  · rw [mergeBot_eq]
    exact hnewer.label
  · rw [mergeBot_eq]
    exact hnewer.updatedAt
  · rw [mergeBot_eq]
    exact hnewer.afterwards
  · intro t ht
    rw [hcreated']
    rw [mergeBot_eq] at ht
    rcases latest_mem hna hnb ht with hat | hbt
    · exact ha.removedAt t hat
    · rw [hcreated]
      exact hb.removedAt t hbt
  · intro hderived
    rw [hsource'] at hderived
    obtain ⟨hnone, name, hsome, htoken, hmem⟩ := ha.derived hderived
    refine ⟨?_, name, hname'.trans hsome, htoken, hx name hmem⟩
    rw [mergeBot_eq]
    show (if _ then a.privateKey else none) = none
    rw [hnone, ite_self]
  · intro hstandalone
    rw [hsource'] at hstandalone
    exact hname'.trans (ha.standalone hstandalone)
  · intro key hsome
    rw [hkey']
    apply ha.privateKey key
    rw [mergeBot_eq] at hsome
    by_cases hlive : a.removedAt = none ∧ b.removedAt = none
    · exact (if_pos hlive).symm.trans hsome
    · cases (if_neg hlive).symm.trans hsome
  · -- Who a claim is checked against is the same for the three records.
    have hsubject : ∀ (bot : BotRecord) (claim : BotOwnershipState), bot.publicKey = a.publicKey →
        bot.ownerPersona = a.ownerPersona → claim.valid bot = claim.valid a := by
      intro bot claim h h'
      unfold BotOwnershipState.valid
      rw [h, h']
    intro claim hclaim
    rw [hsubject _ claim hkey' howner']
    have hmerge : a.ownership.merge mergeClaim b.ownership = some claim := by
      rw [mergeBot_eq] at hclaim
      exact hclaim
    have hvb : ∀ cb, b.ownership = some cb → cb.valid a = true := by
      intro cb hcb
      rw [← hsubject b cb hkey.symm howner.symm]
      exact hb.ownership cb hcb
    cases hoa : a.ownership with
    | none =>
      rw [hoa, Option.merge_none_left] at hmerge
      exact hvb claim hmerge
    | some ca =>
      cases hob : b.ownership with
      | none =>
        rw [hoa, hob, Option.merge_none_right] at hmerge
        exact ha.ownership claim (hoa.trans hmerge)
      | some cb =>
        rw [hoa, hob] at hmerge
        obtain rfl := Option.some.inj hmerge
        exact mergeClaim_valid (ha.ownership ca hoa) (hvb cb hob)

theorem Joined.clean (h : Joined x y r) (hx : Valid root x) (hy : Valid root y) :
    ∀ bot ∈ r.bots, bot.clean = bot := by
  intro bot hbot
  rcases h.mem_cases hx.oneEach hy.oneEach hbot with hmem | hmem | ⟨a, ha, b, hb, -, rfl⟩
  · exact hx.clean bot hmem.1
  · exact hy.clean bot hmem.1
  · exact clean_mergeBot (hx.clean a ha) (hy.clean b hb)

/-- **A merge passes the check**, if it has not too many bots or names. -/
theorem Joined.valid (h : Joined x y r) (hx : Valid root x) (hy : Valid root y) (hkx : Known f x)
    (hky : Known f y) (hbots : r.bots.length ≤ maxBots) (hallocated : r.allocated.length ≤ maxAllocated) :
    Valid root r := by
  have hsubx : ∀ n ∈ x.allocated, n ∈ r.allocated := fun n hn => (h.names n).2 (.inl hn)
  have hsuby : ∀ n ∈ y.allocated, n ∈ r.allocated := fun n hn => (h.names n).2 (.inr hn)
  have hcases := fun {bot : BotRecord} (hbot : bot ∈ r.bots) => h.mem_cases hx.oneEach hy.oneEach hbot
  refine { hexRoot := hx.hexRoot, ownerRoot := h.ownerRoot.trans hx.ownerRoot, bots := hbots,
           allocated := hallocated, tokens := ?_, distinctNames := h.tidy.distinctNames,
           oneEach := h.tidy.oneEach, preference := ?_, checked := ?_, derivationNames := ?_,
           clean := h.clean hx hy }
  · intro name hname
    exact ((h.names name).1 hname).elim (hx.tokens name) (hy.tokens name)
  · have hdate : r.preferenceUpdatedAt = x.preferenceUpdatedAt ∨
        r.preferenceUpdatedAt = y.preferenceUpdatedAt := by
      have hpreference := h.preference
      rcases max_cases x.preference y.preference with ⟨hmax, -⟩ | ⟨hmax, -⟩
      · exact .inl (Prod.mk.inj (toLex_inj.1 (hpreference.trans hmax))).1
      · exact .inr (Prod.mk.inj (toLex_inj.1 (hpreference.trans hmax))).1
    rcases hdate with heq | heq
    · rw [heq]
      exact hx.preference
    · rw [heq]
      exact hy.preference
  · intro bot hbot
    rcases hcases hbot with hmem | hmem | ⟨a, ha, b, hb, hkey, rfl⟩
    · exact (hx.checked bot hmem.1).mono hsubx
    · exact (hy.checked bot hmem.1).mono hsuby
    · exact (hx.checked a ha).mergeBot (hy.checked b hb) (f.oneIdentity (hkx a ha) (hky b hb) hkey)
        hsubx hsuby
  · have hknown : Known f r := h.known hx.oneEach hy.oneEach hkx hky
    have hpairs : r.bots.Pairwise fun a b => a.publicKey ≠ b.publicKey := List.pairwise_map.1 h.tidy.oneEach
    rw [List.Nodup, List.pairwise_filterMap]
    apply hpairs.imp_of_mem
    intro a b ha hb hne name hname name' hname' heq
    apply hne
    subst heq
    apply f.oneName _ (hknown a ha) _ (hknown b hb)
    · intro hnone
      have hsome : a.derivationName = some name := hname
      cases hsome.symm.trans hnone
    · exact hname.trans hname'.symm

theorem eq_of_parse {data : BotRegistry} (h : parseBotRegistry data root = some r)
    (hclean : ∀ bot ∈ data.bots, bot.clean = bot) : r = data := by
  have hmap : data.bots.map BotRecord.clean = data.bots := by
    conv_rhs => rw [← List.map_id data.bots]
    exact List.map_congr_left hclean
  unfold parseBotRegistry at h
  split_ifs at h
  rw [hmap] at h
  exact (Option.some.inj h).symm

section

variable {bots : List BotRecord} {h : Agree bots} {hc : Consistent bots}

theorem within_familyOf (hx : Valid root x) (hsub : ∀ bot ∈ x.bots, bot ∈ bots) :
    Within (familyOf bots h hc) (botRegistrySnapshot x) where
  tidy := tidy_snapshot hx.oneEach hx.distinctNames
  known := by
    intro bot hbot
    obtain ⟨a, ha, rfl⟩ := mem_snapshot.1 hbot
    rw [(hx.checked a ha).snapshot_eq]
    exact ⟨a, hsub a ha, rfl⟩
  among := by
    intro bot hbot
    obtain ⟨a, ha, rfl⟩ := mem_snapshot.1 hbot
    have hchecked := hx.checked a ha
    rw [hchecked.snapshot_eq]
    refine { privateKey := rfl, ownership := ?_, removedAt := ?_ }
    · intro claim hclaim
      have hmem : Claims bots claim := ⟨a, hsub a ha, hclaim⟩
      have hvalid := claim_valid_iff.1 (hchecked.ownership claim hclaim)
      exact { event := ⟨claim, hmem, rfl⟩, published := hc.published claim hmem,
              lastAttemptAt := fun t ht => isStamp_nonneg (hvalid.2.2 t ht) }
    · intro t ht
      exact isStamp_nonneg (hchecked.removedAt t ht).1

end

/-! ## The laws on snapshots -/

theorem mergeBotRegistry_eq (hroot : x.ownerRoot = y.ownerRoot) {data : BotRegistry}
    (hdata : mergedData x y = some data) :
    mergeBotRegistry x y = parseBotRegistry data x.ownerRoot := by
  rw [mergeBotRegistry, if_neg (not_not.2 hroot), hdata]
  rfl

theorem merge_comm (hx : Within f x) (hy : Within f y) (hroot : x.ownerRoot = y.ownerRoot) :
    mergeBotRegistry x y = mergeBotRegistry y x := by
  obtain ⟨data, hdata, hjoined⟩ := hx.merge hy
  obtain ⟨data', hdata', hjoined'⟩ := hy.merge hx
  rw [mergeBotRegistry_eq hroot hdata, mergeBotRegistry_eq hroot.symm hdata',
    hjoined.comm hjoined' hx hy hroot, hroot]

theorem joined_of_merge (hx : Valid root x) (hy : Valid root y) {data : BotRegistry}
    (hdata : mergedData x y = some data) (hjoined : Joined x y data)
    (h : mergeBotRegistry x y = some r) : r = data := by
  rw [mergeBotRegistry_eq (hx.ownerRoot.trans hy.ownerRoot.symm) hdata] at h
  exact eq_of_parse h (hjoined.clean hx hy)

theorem merge_assoc (hx : Valid root x) (hy : Valid root y) (hz : Valid root z) (hwx : Within f x)
    (hwy : Within f y) (hwz : Within f z) (hxy : mergeBotRegistry x y = some xy)
    (hyz : mergeBotRegistry y z = some yz) : mergeBotRegistry xy z = mergeBotRegistry x yz := by
  obtain ⟨data, hdata, hjxy⟩ := hwx.merge hwy
  obtain ⟨data', hdata', hjyz⟩ := hwy.merge hwz
  obtain rfl := joined_of_merge hx hy hdata hjxy hxy
  obtain rfl := joined_of_merge hy hz hdata' hjyz hyz
  have hwxy := hjxy.within hwx hwy
  have hwyz := hjyz.within hwy hwz
  obtain ⟨left, hleft, hjleft⟩ := hwxy.merge hwz
  obtain ⟨right, hright, hjright⟩ := hwx.merge hwyz
  have hrootl : xy.ownerRoot = z.ownerRoot := by rw [hjxy.ownerRoot, hx.ownerRoot, hz.ownerRoot]
  have hrootr : x.ownerRoot = yz.ownerRoot := by rw [hjyz.ownerRoot, hx.ownerRoot, hy.ownerRoot]
  rw [mergeBotRegistry_eq hrootl hleft, mergeBotRegistry_eq hrootr hright,
    Joined.assoc hjxy hjleft hjyz hjright hwx hwy hwz, hjxy.ownerRoot]

theorem merge_self (hx : Valid root x) (hwx : Within f x) (htext : textLength x.toJs ≤ maxRegistryText) :
    mergeBotRegistry x x = some x := by
  obtain ⟨data, hdata, hjoined⟩ := hwx.merge hwx
  rw [mergeBotRegistry_eq rfl hdata, hjoined.self hwx, hx.ownerRoot]
  exact parse_of_valid hx htext

end

/-! ## What a merge keeps -/

/-- What the merge of a registry with what came in says of the bots of the two. -/
structure Keeps (x y r : BotRegistry) : Prop where
  bots : ∀ a ∈ x.bots ++ y.bots, ∃ bot ∈ r.bots, bot.publicKey = a.publicKey
  noOthers : ∀ bot ∈ r.bots, ∃ a ∈ x.bots ++ y.bots, a.publicKey = bot.publicKey
  /-- A bot that was removed on either side is removed, and not before. -/
  removed : ∀ bot ∈ r.bots, ∀ a ∈ x.bots ++ y.bots, a.publicKey = bot.publicKey →
    ∀ t, a.removedAt = some t → ∃ t', bot.removedAt = some t' ∧ t ≤ t'
  /-- A bot that was removed has no key, unless nothing came in about it. -/
  withoutKey : ∀ bot ∈ r.bots, bot.removedAt ≠ none → bot.privateKey = none ∨
    (bot ∈ x.bots ∧ ∀ b ∈ y.bots, b.publicKey ≠ bot.publicKey)
  keepsKey : ∀ bot ∈ r.bots, bot.removedAt = none → ∀ a ∈ x.bots, a.publicKey = bot.publicKey →
    bot.privateKey = a.privateKey
  /-- The claim is the newest of the two, and what the owner asked for stays asked for. -/
  newest : ∀ bot ∈ r.bots, ∀ a ∈ x.bots ++ y.bots, a.publicKey = bot.publicKey →
    ∀ claim, a.ownership = some claim → ∃ kept, bot.ownership = some kept ∧
      claim.event.created_at ≤ kept.event.created_at ∧
      (claim.publishRequested = true → kept.publishRequested = true)
  oneOfTwo : ∀ bot ∈ r.bots, ∀ kept, bot.ownership = some kept →
    ∃ a ∈ x.bots ++ y.bots, a.publicKey = bot.publicKey ∧
      ∃ claim, a.ownership = some claim ∧ claim.event = kept.event

theorem eq_of_publicKey {bots : List BotRecord} (h : OneEach BotRecord.publicKey bots)
    {a b : BotRecord} (ha : a ∈ bots) (hb : b ∈ bots) (hkey : a.publicKey = b.publicKey) : a = b := by
  have hva := valueFor_self h ha
  rw [hkey, valueFor_self h hb] at hva
  exact (Option.some.inj hva).symm

theorem created_at_le {e f : NostrEvent} (h : ¬ e.date < f.date) : f.created_at ≤ e.created_at := by
  apply not_lt.1
  intro hlt
  exact h (date_lt.2 (.inl hlt))

theorem created_at_newerClaim (a b : BotOwnershipState) :
    a.event.created_at ≤ (newerClaim a b).event.created_at ∧
      b.event.created_at ≤ (newerClaim a b).event.created_at := by
  unfold newerClaim
  split
  · next h => exact ⟨created_at_le h.not_gt, le_rfl⟩
  · next h => exact ⟨le_rfl, created_at_le h⟩

theorem latest_eq_none {s t : Option ℚ} : latest s t = none ↔ s = none ∧ t = none := by
  cases s <;> cases t <;> simp [latest]

section

variable [Platform] {a b : BotRecord}

theorem mergeBot_removedAt : (mergeBot a b).removedAt = latest a.removedAt b.removedAt := by
  rw [mergeBot_eq]

theorem mergeBot_privateKey : (mergeBot a b).privateKey
    = if a.removedAt = none ∧ b.removedAt = none then a.privateKey else none := by
  rw [mergeBot_eq]

theorem mergeBot_ownership : (mergeBot a b).ownership = a.ownership.merge mergeClaim b.ownership := by
  rw [mergeBot_eq]

/-- The claim that two records are merged to is no older than either's, and was asked for if either
was. -/
theorem mergeBot_newest {claim : BotOwnershipState}
    (h : a.ownership = some claim ∨ b.ownership = some claim) : ∃ kept,
      (mergeBot a b).ownership = some kept ∧ claim.event.created_at ≤ kept.event.created_at ∧
      (claim.publishRequested = true → kept.publishRequested = true) := by
  rw [mergeBot_ownership]
  cases hoa : a.ownership with
  | none =>
    rw [hoa] at h
    have hob := h.resolve_left (Option.some_ne_none claim).symm
    rw [hob]
    exact ⟨claim, rfl, le_rfl, id⟩
  | some ca =>
    cases hob : b.ownership with
    | none =>
      rw [hoa, hob] at h
      have hca := h.resolve_right (Option.some_ne_none claim).symm
      obtain rfl := Option.some.inj hca
      exact ⟨ca, rfl, le_rfl, id⟩
    | some cb =>
      refine ⟨mergeClaim ca cb, rfl, ?_⟩
      have hdates := created_at_newerClaim ca cb
      rw [hoa, hob] at h
      rcases h with hca | hcb
      · obtain rfl := Option.some.inj hca
        refine ⟨hdates.1, fun hrequested => ?_⟩
        show (ca.publishRequested || cb.publishRequested) = true
        rw [hrequested, Bool.true_or]
      · obtain rfl := Option.some.inj hcb
        refine ⟨hdates.2, fun hrequested => ?_⟩
        show (ca.publishRequested || cb.publishRequested) = true
        rw [hrequested, Bool.or_true]

theorem mergeBot_oneOfTwo {kept : BotOwnershipState} (h : (mergeBot a b).ownership = some kept) :
    ∃ claim, (a.ownership = some claim ∨ b.ownership = some claim) ∧ claim.event = kept.event := by
  rw [mergeBot_ownership] at h
  cases hoa : a.ownership with
  | none =>
    rw [hoa, Option.merge_none_left] at h
    exact ⟨kept, .inr h, rfl⟩
  | some ca =>
    cases hob : b.ownership with
    | none =>
      rw [hoa, hob, Option.merge_none_right] at h
      exact ⟨kept, .inl h, rfl⟩
    | some cb =>
      rw [hoa, hob] at h
      obtain rfl := Option.some.inj h
      show ∃ claim : BotOwnershipState, _ ∧ claim.event = (newerClaim ca cb).event
      rcases newerClaim_mem ca cb with hnewer | hnewer
      · exact ⟨ca, .inl rfl, by rw [hnewer]⟩
      · exact ⟨cb, .inr rfl, by rw [hnewer]⟩

variable {x y r : BotRegistry}

theorem Joined.exists_bot (h : Joined x y r) (hx : OneEach BotRecord.publicKey x.bots)
    (hy : OneEach BotRecord.publicKey y.bots) {c : BotRecord} (hc : c ∈ x.bots ++ y.bots) :
    ∃ bot ∈ r.bots, bot.publicKey = c.publicKey := by
  have hget := h.bots c.publicKey
  have hsome : ∃ bot, valueFor BotRecord.publicKey r.bots c.publicKey = some bot := by
    rw [hget]
    rcases List.mem_append.1 hc with hmem | hmem
    · rw [valueFor_self hx hmem]
      cases valueFor BotRecord.publicKey y.bots c.publicKey with
      | none => exact ⟨c, rfl⟩
      | some b => exact ⟨mergeBot c b, rfl⟩
    · rw [valueFor_self hy hmem]
      cases valueFor BotRecord.publicKey x.bots c.publicKey with
      | none => exact ⟨c, rfl⟩
      | some a => exact ⟨mergeBot a c, rfl⟩
  obtain ⟨bot, hbot⟩ := hsome
  have hmem := (valueFor_eq_some_iff h.tidy.oneEach).1 hbot
  exact ⟨bot, hmem⟩

theorem Joined.keeps (h : Joined x y r) (hx : OneEach BotRecord.publicKey x.bots)
    (hy : OneEach BotRecord.publicKey y.bots) (hkeys : ∀ bot ∈ y.bots, bot.privateKey = none) :
    Keeps x y r := by
  -- A record of one side with the key of a bot of the merge is that bot, or merged into it.
  have hcases : ∀ bot ∈ r.bots, ∀ c ∈ x.bots ++ y.bots, c.publicKey = bot.publicKey → c = bot ∨
      ∃ a ∈ x.bots, ∃ b ∈ y.bots, a.publicKey = b.publicKey ∧ bot = mergeBot a b ∧ (c = a ∨ c = b) := by
    intro bot hbot c hc hkey
    rcases h.mem_cases hx hy hbot with ⟨hmem, hno⟩ | ⟨hmem, hno⟩ | ⟨a, ha, b, hb, hab, rfl⟩
    · rcases List.mem_append.1 hc with hcx | hcy
      · exact .inl (eq_of_publicKey hx hcx hmem hkey)
      · exact absurd hkey (hno c hcy)
    · rcases List.mem_append.1 hc with hcx | hcy
      · exact absurd hkey (hno c hcx)
      · exact .inl (eq_of_publicKey hy hcy hmem hkey)
    · rw [mergeBot_publicKey hab] at hkey
      refine .inr ⟨a, ha, b, hb, hab, rfl, ?_⟩
      rcases List.mem_append.1 hc with hcx | hcy
      · exact .inl (eq_of_publicKey hx hcx ha hkey)
      · exact .inr (eq_of_publicKey hy hcy hb (hkey.trans hab))
  refine { bots := fun c hc => h.exists_bot hx hy hc, noOthers := ?_, removed := ?_, withoutKey := ?_,
           keepsKey := ?_, newest := ?_, oneOfTwo := ?_ }
  · intro bot hbot
    rcases h.mem_cases hx hy hbot with ⟨hmem, -⟩ | ⟨hmem, -⟩ | ⟨a, ha, b, hb, hab, rfl⟩
    · exact ⟨bot, List.mem_append_left _ hmem, rfl⟩
    · exact ⟨bot, List.mem_append_right _ hmem, rfl⟩
    · exact ⟨a, List.mem_append_left _ ha, (mergeBot_publicKey hab).symm⟩
  · intro bot hbot c hc hkey t ht
    rcases hcases bot hbot c hc hkey with rfl | ⟨a, ha, b, hb, hab, rfl, hcab⟩
    · exact ⟨t, ht, le_rfl⟩
    · rw [mergeBot_removedAt]
      rcases hcab with rfl | rfl
      · exact le_latest (.inl ht)
      · exact le_latest (.inr ht)
  · intro bot hbot hremoved
    rcases h.mem_cases hx hy hbot with hmem | ⟨hmem, hno⟩ | ⟨a, ha, b, hb, hab, rfl⟩
    · exact .inr hmem
    · exact .inl (hkeys bot hmem)
    · left
      rw [mergeBot_removedAt, Ne, latest_eq_none] at hremoved
      rw [mergeBot_privateKey, if_neg hremoved]
  · intro bot hbot hlive c hc hkey
    rcases hcases bot hbot c (List.mem_append_left _ hc) hkey with rfl | ⟨a, ha, b, hb, hab, rfl, hcab⟩
    · rfl
    · rw [mergeBot_removedAt, latest_eq_none] at hlive
      rw [mergeBot_privateKey, if_pos hlive]
      rw [mergeBot_publicKey hab] at hkey
      rw [eq_of_publicKey hx hc ha hkey]
  · intro bot hbot c hc hkey claim hclaim
    rcases hcases bot hbot c hc hkey with rfl | ⟨a, ha, b, hb, hab, rfl, hcab⟩
    · exact ⟨claim, hclaim, le_rfl, id⟩
    · apply mergeBot_newest
      rcases hcab with rfl | rfl
      · exact .inl hclaim
      · exact .inr hclaim
  · intro bot hbot kept hkept
    rcases h.mem_cases hx hy hbot with ⟨hmem, -⟩ | ⟨hmem, -⟩ | ⟨a, ha, b, hb, hab, rfl⟩
    · exact ⟨bot, List.mem_append_left _ hmem, rfl, kept, hkept, rfl⟩
    · exact ⟨bot, List.mem_append_right _ hmem, rfl, kept, hkept, rfl⟩
    · obtain ⟨claim, hclaim, hevent⟩ := mergeBot_oneOfTwo hkept
      rcases hclaim with hca | hcb
      · exact ⟨a, List.mem_append_left _ ha, (mergeBot_publicKey hab).symm, claim, hca, hevent⟩
      · refine ⟨b, List.mem_append_right _ hb, ?_, claim, hcb, hevent⟩
        rw [mergeBot_publicKey hab, hab]

theorem Joined.length_bots (h : Joined x y r) (hx : OneEach BotRecord.publicKey x.bots)
    (hy : OneEach BotRecord.publicKey y.bots) (hkeys : ∀ bot ∈ y.bots, bot.privateKey = none) :
    r.bots.length = (distinct ((x.bots ++ y.bots).map BotRecord.publicKey)).length := by
  have hkeeps := h.keeps hx hy hkeys
  have hperm : (r.bots.map BotRecord.publicKey).Perm
      (distinct ((x.bots ++ y.bots).map BotRecord.publicKey)) := by
    apply (List.perm_ext_iff_of_nodup h.tidy.oneEach (nodup_distinct _)).2
    intro k
    rw [mem_distinct, List.mem_map, List.mem_map]
    constructor
    · rintro ⟨bot, hbot, rfl⟩
      exact hkeeps.noOthers bot hbot
    · rintro ⟨a, ha, rfl⟩
      exact hkeeps.bots a ha
  rw [← hperm.length_eq, List.length_map]

theorem Joined.length_allocated (h : Joined x y r) :
    r.allocated.length = (distinct (x.allocated ++ y.allocated)).length := by
  have hperm : r.allocated.Perm (distinct (x.allocated ++ y.allocated)) := by
    apply (List.perm_ext_iff_of_nodup h.tidy.distinctNames (nodup_distinct _)).2
    intro n
    rw [h.names, mem_distinct, List.mem_append]
  exact hperm.length_eq

end

end SignetApp.Bots
