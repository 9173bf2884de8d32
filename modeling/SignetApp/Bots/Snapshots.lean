import SignetApp.Bots.BotMerge
import SignetApp.Sync.TextSize

/-!
# The merge of two registries

The loop over the remote bots merges bot by bot (`foldlM_mergeStep`). A registry in order is
what its bots say by key, so the laws of the merge of records are laws of the merge of registries.
-/

namespace SignetApp.Bots

open SignetApp.Js SignetApp.Sync

/-! ## Registries in order -/

/-- A registry as it leaves the device, and as it comes out of a merge. -/
structure Tidy (r : BotRegistry) : Prop where
  oneEach : OneEach BotRecord.publicKey r.bots
  sorted : r.bots.Pairwise fun a b => a.publicKey ≤ b.publicKey
  distinctNames : r.allocated.Nodup
  sortedNames : r.allocated.Pairwise (· ≤ ·)

theorem byPublicKey_perm (bots : List BotRecord) : (byPublicKey bots).Perm bots :=
  List.perm_insertionSort _ bots

theorem byPublicKey_sorted (bots : List BotRecord) :
    (byPublicKey bots).Pairwise fun a b => a.publicKey ≤ b.publicKey := by
  have htotal : Std.Total fun a b : BotRecord => a.publicKey ≤ b.publicKey :=
    ⟨fun a b => le_total a.publicKey b.publicKey⟩
  have htrans : IsTrans BotRecord fun a b => a.publicKey ≤ b.publicKey :=
    ⟨fun _ _ _ hab hbc => le_trans hab hbc⟩
  exact List.pairwise_insertionSort _ bots

theorem valueFor_perm {as bs : List BotRecord} (h : as.Perm bs)
    (has : OneEach BotRecord.publicKey as) (k : JsString) :
    valueFor BotRecord.publicKey as k = valueFor BotRecord.publicKey bs k := by
  have hbs : OneEach BotRecord.publicKey bs := (h.map _).nodup_iff.1 has
  ext a
  rw [valueFor_eq_some_iff has, valueFor_eq_some_iff hbs, h.mem_iff]

theorem bots_ext {as bs : List BotRecord} (has : OneEach BotRecord.publicKey as)
    (hbs : OneEach BotRecord.publicKey bs) (hsa : as.Pairwise fun a b => a.publicKey ≤ b.publicKey)
    (hsb : bs.Pairwise fun a b => a.publicKey ≤ b.publicKey)
    (h : ∀ k, valueFor BotRecord.publicKey as k = valueFor BotRecord.publicKey bs k) : as = bs := by
  have hmem : ∀ a, a ∈ as ↔ a ∈ bs := by
    intro a
    have ha := @valueFor_eq_some_iff _ _ BotRecord.publicKey _ as has a.publicKey a
    have hb := @valueFor_eq_some_iff _ _ BotRecord.publicKey _ bs hbs a.publicKey a
    rw [h] at ha
    simpa using ha.symm.trans hb
  have hperm : as.Perm bs := (List.perm_ext_iff_of_nodup has.of_map hbs.of_map).2 hmem
  apply hperm.eq_of_pairwise _ hsa hsb
  intro a b ha hb hab hba
  have hkey : b.publicKey = a.publicKey := le_antisymm hba hab
  have hva := valueFor_self has ha
  rw [h, ← hkey, valueFor_self hbs hb] at hva
  exact (Option.some.inj hva).symm

theorem names_ext {as bs : List JsString} (has : as.Nodup) (hbs : bs.Nodup)
    (hsa : as.Pairwise (· ≤ ·)) (hsb : bs.Pairwise (· ≤ ·)) (h : ∀ n, n ∈ as ↔ n ∈ bs) : as = bs := by
  have hperm : as.Perm bs := (List.perm_ext_iff_of_nodup has hbs).2 h
  exact hperm.eq_of_pairwise (fun _ _ _ _ => le_antisymm) hsa hsb

/-- The date of the preference; of two of one second the one not to show is the later. -/
def BotRegistry.preference (r : BotRegistry) : ℚ ×ₗ Boolᵒᵈ :=
  toLex (r.preferenceUpdatedAt, OrderDual.toDual r.showNew)

theorem preference_lt {x y : BotRegistry} : x.preference < y.preference ↔ y.preferenceUpdatedAt > x.preferenceUpdatedAt
    ∨ (y.preferenceUpdatedAt = x.preferenceUpdatedAt ∧ y.showNew = false ∧ x.showNew = true) := by
  have hlex : x.preference < y.preference ↔ x.preferenceUpdatedAt < y.preferenceUpdatedAt
      ∨ (x.preferenceUpdatedAt = y.preferenceUpdatedAt
        ∧ OrderDual.toDual x.showNew < OrderDual.toDual y.showNew) := Prod.Lex.toLex_lt_toLex
  rw [hlex, gt_iff_lt, eq_comm, OrderDual.toDual_lt_toDual, Bool.lt_iff]

/-- What the merge takes for the preference. -/
def laterShowNew (x y : BotRegistry) : Bool :=
  if y.preferenceUpdatedAt > x.preferenceUpdatedAt
    ∨ (y.preferenceUpdatedAt = x.preferenceUpdatedAt ∧ y.showNew = false) then y.showNew
  else x.showNew

theorem laterShowNew_eq (x y : BotRegistry) :
    toLex (max x.preferenceUpdatedAt y.preferenceUpdatedAt, OrderDual.toDual (laterShowNew x y))
      = x.preference ⊔ y.preference := by
  unfold laterShowNew
  split
  · next hnewer =>
    have hle : x.preference ≤ y.preference := by
      rcases hnewer with hlt | ⟨heq, hshow⟩
      · exact (preference_lt.2 (.inl hlt)).le
      · cases hxs : x.showNew with
        | true => exact (preference_lt.2 (.inr ⟨heq, hshow, hxs⟩)).le
        | false =>
          apply le_of_eq
          rw [BotRegistry.preference, BotRegistry.preference, heq, hshow, hxs]
    have hdate : x.preferenceUpdatedAt ≤ y.preferenceUpdatedAt := by
      rcases hnewer with hlt | ⟨heq, -⟩
      · exact le_of_lt hlt
      · exact heq.ge
    rw [sup_eq_right.2 hle, max_eq_right hdate]
    rfl
  · next hnewer =>
    have hle : y.preference ≤ x.preference := by
      apply not_lt.1
      rw [preference_lt]
      rintro (hlt | ⟨heq, hshow, -⟩)
      · exact hnewer (.inl hlt)
      · exact hnewer (.inr ⟨heq, hshow⟩)
    have hdate : y.preferenceUpdatedAt ≤ x.preferenceUpdatedAt :=
      not_lt.1 fun hlt => hnewer (.inl hlt)
    rw [sup_eq_left.2 hle, max_eq_left hdate]
    rfl

theorem Tidy.ext {r r' : BotRegistry} (h : Tidy r) (h' : Tidy r') (hroot : r.ownerRoot = r'.ownerRoot)
    (hbots : ∀ k, valueFor BotRecord.publicKey r.bots k = valueFor BotRecord.publicKey r'.bots k)
    (hnames : ∀ n, n ∈ r.allocated ↔ n ∈ r'.allocated) (hpreference : r.preference = r'.preference) :
    r = r' := by
  obtain ⟨hdate, hshow⟩ := Prod.mk.inj (toLex_inj.1 hpreference)
  have heqBots := bots_ext h.oneEach h'.oneEach h.sorted h'.sorted hbots
  have heqNames := names_ext h.distinctNames h'.distinctNames h.sortedNames h'.sortedNames hnames
  have heqShow := OrderDual.toDual_inj.1 hshow
  cases r
  cases r'
  simp_all

/-! ## Snapshots -/

theorem oneEach_snapshot {bots : List BotRecord} (h : OneEach BotRecord.publicKey bots) :
    OneEach BotRecord.publicKey (bots.map BotRecord.snapshot) := by
  have hmap : (bots.map BotRecord.snapshot).map BotRecord.publicKey = bots.map BotRecord.publicKey := by
    rw [List.map_map]
    rfl
  rw [OneEach, hmap]
  exact h

theorem mem_snapshot {r : BotRegistry} {bot : BotRecord} :
    bot ∈ (botRegistrySnapshot r).bots ↔ ∃ a ∈ r.bots, a.snapshot = bot := by
  show bot ∈ byPublicKey _ ↔ _
  rw [(byPublicKey_perm _).mem_iff, List.mem_map]

theorem tidy_snapshot {r : BotRegistry} (h : OneEach BotRecord.publicKey r.bots)
    (hnames : r.allocated.Nodup) : Tidy (botRegistrySnapshot r) where
  oneEach := (((byPublicKey_perm _).map _).nodup_iff).2 (oneEach_snapshot h)
  sorted := byPublicKey_sorted _
  distinctNames := (List.perm_insertionSort _ r.allocated).nodup_iff.2 hnames
  sortedNames := List.pairwise_insertionSort _ _

/-! ## Families -/

/-- The bots and the signed claims that devices of one owner speak of: one identity for each key, one
bot for each derivation name, one event for each id. -/
structure Family where
  identities : Set Identity
  events : Set NostrEvent
  oneIdentity : identities.InjOn Identity.publicKey
  oneName : ∀ i ∈ identities, ∀ j ∈ identities, i.derivationName ≠ none →
    i.derivationName = j.derivationName → i.publicKey = j.publicKey
  oneEvent : OneForEachId events

/-- The bots of the registry are bots of the family. -/
def Known (f : Family) (r : BotRegistry) : Prop := ∀ bot ∈ r.bots, bot.identity ∈ f.identities

/-- A registry told to the other devices of the family. -/
structure Within (f : Family) (r : BotRegistry) : Prop where
  tidy : Tidy r
  known : Known f r
  among : ∀ bot ∈ r.bots, bot.Among f.events

/-- No bot of the one conflicts with one of the other. -/
def AgreeOn (xs ys : List BotRecord) : Prop :=
  ∀ a ∈ xs, ∀ b ∈ ys, a.publicKey = b.publicKey → conflicts a b = false

section

variable {f : Family} {x y z xy yz r r' : BotRegistry}

theorem Known.agreeOn (hx : Known f x) (hy : Known f y) : AgreeOn x.bots y.bots := by
  intro a ha b hb hkey
  rw [conflicts_eq_false_iff hkey]
  exact f.oneIdentity (hx a ha) (hy b hb) hkey

theorem Within.of_valueFor (hx : Within f x) {k : JsString} {a : BotRecord}
    (ha : valueFor BotRecord.publicKey x.bots k = some a) :
    a.identity ∈ f.identities ∧ a.Among f.events ∧ a.identity.publicKey = k := by
  obtain ⟨hmem, hkey⟩ := (valueFor_eq_some_iff hx.tidy.oneEach).1 ha
  exact ⟨hx.known a hmem, hx.among a hmem, hkey⟩

/-- The registry made of merged bots. -/
def madeOf (x y : BotRegistry) (bots : OrderedMap JsString BotRecord) : BotRegistry where
  ownerRoot := x.ownerRoot
  bots := byPublicKey bots.values
  allocated := (distinct (x.allocated ++ y.allocated)).insertionSort (· ≤ ·)
  showNew := laterShowNew x y
  preferenceUpdatedAt := max x.preferenceUpdatedAt y.preferenceUpdatedAt

variable {bots : OrderedMap JsString BotRecord}

theorem tidy_madeOf (h : Keyed BotRecord.publicKey bots) :
    Tidy (madeOf x y bots) where
  oneEach := ((byPublicKey_perm _).map _).nodup_iff.2 (oneEach_values h)
  sorted := byPublicKey_sorted _
  distinctNames := (List.perm_insertionSort _ _).nodup_iff.2 (nodup_distinct _)
  sortedNames := List.pairwise_insertionSort _ _

variable [Platform]

/-! ## The loop -/

/-- What the map holds for a bot does not conflict with what comes in. -/
def Agrees (bots : OrderedMap JsString BotRecord) (incoming : BotRecord) : Prop :=
  ∀ old, bots.get incoming.publicKey = some old → conflicts old incoming = false

theorem mergeStep_eq {incoming : BotRecord}
    (hkey : incoming.privateKey = none) (h : Agrees bots incoming) :
    mergeStep bots incoming = some (bots.set incoming.publicKey
      (((bots.get incoming.publicKey).map fun old => mergeBot old incoming).getD incoming)) := by
  unfold mergeStep
  rw [hkey, if_neg (by simp)]
  cases hget : bots.get incoming.publicKey with
  | none => rfl
  | some old =>
    dsimp only
    rw [h old hget, if_neg Bool.false_ne_true]
    rfl

theorem mergeBot_publicKey {a b : BotRecord} (h : a.publicKey = b.publicKey) :
    (mergeBot a b).publicKey = a.publicKey := by
  rw [mergeBot_eq]
  show (newerBot a b).publicKey = a.publicKey
  rcases newerBot_mem a b with hnewer | hnewer
  · rw [hnewer]
  · rw [hnewer, h]

/-- **The loop merges bot by bot**, unless two records conflict. -/
theorem foldlM_mergeStep {remote : List BotRecord} (hone : OneEach BotRecord.publicKey remote)
    (hkeys : ∀ bot ∈ remote, bot.privateKey = none)
    (hkeyed : Keyed BotRecord.publicKey bots) (hagree : ∀ bot ∈ remote, Agrees bots bot) :
    ∃ merged, remote.foldlM mergeStep bots = some merged ∧ Keyed BotRecord.publicKey merged ∧
      ∀ k, merged.get k = (bots.get k).merge mergeBot (valueFor BotRecord.publicKey remote k) := by
  induction remote generalizing bots with
  | nil => exact ⟨bots, rfl, hkeyed, fun k => by simp⟩
  | cons incoming remote ih =>
    obtain ⟨hnew, hone⟩ := List.nodup_cons.1 hone
    have hstep := mergeStep_eq (hkeys incoming List.mem_cons_self) (hagree incoming List.mem_cons_self)
    rw [List.foldlM_cons, hstep]
    generalize hbot : ((bots.get incoming.publicKey).map fun old => mergeBot old incoming).getD incoming
      = bot
    have hkey : bot.publicKey = incoming.publicKey := by
      cases hget : bots.get incoming.publicKey with
      | none =>
        rw [hget] at hbot
        exact hbot ▸ rfl
      | some old =>
        rw [hget] at hbot
        have hold := hkeyed.of_get hget
        subst hbot
        exact (mergeBot_publicKey hold).trans hold
    have hrest : ∀ b ∈ remote, Agrees (bots.set incoming.publicKey bot) b := by
      intro b hb old hold
      have hne : b.publicKey ≠ incoming.publicKey := fun heq =>
        hnew (List.mem_map.2 ⟨b, hb, heq⟩)
      rw [OrderedMap.get_set_of_ne _ _ hne] at hold
      exact hagree b (List.mem_cons_of_mem _ hb) old hold
    obtain ⟨merged, hfold, hmerged, hget⟩ := ih hone
      (fun b hb => hkeys b (List.mem_cons_of_mem _ hb)) (hkeyed.set hkey) hrest
    refine ⟨merged, hfold, hmerged, fun k => ?_⟩
    rw [hget, OrderedMap.get_set, valueFor_cons]
    by_cases hk : k = incoming.publicKey
    · rw [if_pos hk, if_pos hk.symm, hk, valueFor_eq_none hnew, Option.merge_none_right, ← hbot]
      cases bots.get incoming.publicKey <;> rfl
    · rw [if_neg hk, if_neg (Ne.symm hk)]

/-! ## Two registries joined -/

/-- The merge of two registries, by what they say. -/
structure Joined (x y r : BotRegistry) : Prop where
  ownerRoot : r.ownerRoot = x.ownerRoot
  bots : ∀ k, valueFor BotRecord.publicKey r.bots k
    = (valueFor BotRecord.publicKey x.bots k).merge mergeBot (valueFor BotRecord.publicKey y.bots k)
  names : ∀ n, n ∈ r.allocated ↔ n ∈ x.allocated ∨ n ∈ y.allocated
  preference : r.preference = x.preference ⊔ y.preference
  tidy : Tidy r

theorem mergedData_of_foldlM
    (h : y.bots.foldlM mergeStep (byKey BotRecord.publicKey x.bots) = some bots) :
    mergedData x y = some (madeOf x y bots) := by
  rw [mergedData, h]
  rfl

theorem mergedData_eq (hx : OneEach BotRecord.publicKey x.bots)
    (hy : OneEach BotRecord.publicKey y.bots) (hkeys : ∀ bot ∈ y.bots, bot.privateKey = none)
    (hagree : AgreeOn x.bots y.bots) : ∃ r, mergedData x y = some r ∧ Joined x y r := by
  have hloop : ∀ bot ∈ y.bots, Agrees (byKey BotRecord.publicKey x.bots) bot := by
    intro bot hbot old hold
    rw [get_byKey hx, valueFor_eq_some_iff hx] at hold
    exact hagree old hold.1 bot hbot hold.2
  obtain ⟨merged, hfold, hkeyed, hget⟩ := foldlM_mergeStep hy hkeys (keyed_byKey hx) hloop
  refine ⟨madeOf x y merged, mergedData_of_foldlM hfold, ?_⟩
  refine { ownerRoot := rfl, bots := ?_, names := ?_, preference := laterShowNew_eq x y,
           tidy := tidy_madeOf hkeyed }
  · intro k
    show valueFor BotRecord.publicKey (byPublicKey merged.values) k = _
    rw [← valueFor_perm (byPublicKey_perm _).symm (oneEach_values hkeyed), valueFor_values hkeyed,
      hget, get_byKey hx]
  · intro n
    show n ∈ (distinct (x.allocated ++ y.allocated)).insertionSort (· ≤ ·) ↔ _
    rw [(List.perm_insertionSort _ _).mem_iff, mem_distinct, List.mem_append]

/-- The bots of a merge: the bots that one side has, and the merges of what both have. -/
theorem Joined.mem_cases (h : Joined x y r) (hx : OneEach BotRecord.publicKey x.bots)
    (hy : OneEach BotRecord.publicKey y.bots) {bot : BotRecord} (hbot : bot ∈ r.bots) :
    (bot ∈ x.bots ∧ ∀ b ∈ y.bots, b.publicKey ≠ bot.publicKey)
      ∨ (bot ∈ y.bots ∧ ∀ a ∈ x.bots, a.publicKey ≠ bot.publicKey)
      ∨ ∃ a ∈ x.bots, ∃ b ∈ y.bots, a.publicKey = b.publicKey ∧ bot = mergeBot a b := by
  have hget := h.bots bot.publicKey
  rw [valueFor_self h.tidy.oneEach hbot] at hget
  have hnone : ∀ {bots : List BotRecord}, valueFor BotRecord.publicKey bots bot.publicKey = none →
      ∀ b ∈ bots, b.publicKey ≠ bot.publicKey := by
    intro bots hnone b hb heq
    rw [valueFor, List.find?_eq_none] at hnone
    exact hnone b hb (decide_eq_true heq)
  cases ha : valueFor BotRecord.publicKey x.bots bot.publicKey with
  | none =>
    rw [ha, Option.merge_none_left] at hget
    have hmem := (valueFor_eq_some_iff hy).1 hget.symm
    exact .inr (.inl ⟨hmem.1, hnone ha⟩)
  | some a =>
    have hamem := (valueFor_eq_some_iff hx).1 ha
    cases hb : valueFor BotRecord.publicKey y.bots bot.publicKey with
    | none =>
      rw [ha, hb, Option.merge_none_right] at hget
      obtain rfl := Option.some.inj hget
      exact .inl ⟨hamem.1, hnone hb⟩
    | some b =>
      have hbmem := (valueFor_eq_some_iff hy).1 hb
      rw [ha, hb] at hget
      exact .inr (.inr ⟨a, hamem.1, b, hbmem.1, hamem.2.trans hbmem.2.symm, Option.some.inj hget⟩)

theorem Joined.known (h : Joined x y r) (hx : OneEach BotRecord.publicKey x.bots)
    (hy : OneEach BotRecord.publicKey y.bots) (hkx : Known f x) (hky : Known f y) : Known f r := by
  intro bot hbot
  rcases h.mem_cases hx hy hbot with hmem | hmem | ⟨a, ha, b, hb, hkey, rfl⟩
  · exact hkx bot hmem.1
  · exact hky bot hmem.1
  · rw [identity_mergeBot (f.oneIdentity (hkx a ha) (hky b hb) hkey)]
    exact hkx a ha

theorem Joined.within (h : Joined x y r) (hx : Within f x) (hy : Within f y) : Within f r where
  tidy := h.tidy
  known := h.known hx.tidy.oneEach hy.tidy.oneEach hx.known hy.known
  among bot hbot := by
    rcases h.mem_cases hx.tidy.oneEach hy.tidy.oneEach hbot with hmem | hmem | ⟨a, ha, b, hb, -, rfl⟩
    · exact hx.among bot hmem.1
    · exact hy.among bot hmem.1
    · exact mergeBot_among (hx.among a ha) (hy.among b hb)

/-! ## The laws -/

theorem Joined.comm (hr : Joined x y r) (hr' : Joined y x r') (hx : Within f x) (hy : Within f y)
    (hroot : x.ownerRoot = y.ownerRoot) : r = r' := by
  apply hr.tidy.ext hr'.tidy
  · rw [hr.ownerRoot, hr'.ownerRoot, hroot]
  · intro k
    rw [hr.bots, hr'.bots]
    cases ha : valueFor BotRecord.publicKey x.bots k with
    | none => rw [Option.merge_none_left, Option.merge_none_right]
    | some a =>
      cases hb : valueFor BotRecord.publicKey y.bots k with
      | none => rw [Option.merge_none_left, Option.merge_none_right]
      | some b =>
        obtain ⟨hia, hwa, hka⟩ := hx.of_valueFor ha
        obtain ⟨hib, hwb, hkb⟩ := hy.of_valueFor hb
        exact congrArg some (mergeBot_comm f.oneEvent hwa hwb (f.oneIdentity hia hib (hka.trans hkb.symm)))
  · intro n
    rw [hr.names, hr'.names, or_comm]
  · rw [hr.preference, hr'.preference, sup_comm]

theorem Joined.assoc (hxy : Joined x y xy) (hr : Joined xy z r) (hyz : Joined y z yz)
    (hr' : Joined x yz r') (hx : Within f x) (hy : Within f y) (hz : Within f z) : r = r' := by
  apply hr.tidy.ext hr'.tidy
  · rw [hr.ownerRoot, hr'.ownerRoot, hxy.ownerRoot]
  · intro k
    rw [hr.bots, hr'.bots, hxy.bots, hyz.bots]
    cases ha : valueFor BotRecord.publicKey x.bots k with
    | none => rw [Option.merge_none_left, Option.merge_none_left]
    | some a =>
      cases hb : valueFor BotRecord.publicKey y.bots k with
      | none => rw [Option.merge_none_left, Option.merge_none_right]
      | some b =>
        cases hc : valueFor BotRecord.publicKey z.bots k with
        | none => rw [Option.merge_none_right, Option.merge_none_right]
        | some c =>
          obtain ⟨hia, hwa, hka⟩ := hx.of_valueFor ha
          obtain ⟨hib, hwb, hkb⟩ := hy.of_valueFor hb
          obtain ⟨hic, hwc, hkc⟩ := hz.of_valueFor hc
          have hab := f.oneIdentity hia hib (hka.trans hkb.symm)
          have hbc := f.oneIdentity hib hic (hkb.trans hkc.symm)
          exact congrArg some (mergeBot_assoc f.oneEvent hwa hwb hwc hab hbc)
  · intro n
    rw [hr.names, hr'.names, hxy.names, hyz.names, or_assoc]
  · rw [hr.preference, hr'.preference, hxy.preference, hyz.preference, sup_assoc]

theorem Joined.self (hr : Joined x x r) (hx : Within f x) : r = x := by
  apply hr.tidy.ext hx.tidy
  · exact hr.ownerRoot
  · intro k
    rw [hr.bots]
    cases ha : valueFor BotRecord.publicKey x.bots k with
    | none => rfl
    | some a => exact congrArg some (mergeBot_self f.oneEvent (hx.of_valueFor ha).2.1)
  · intro n
    rw [hr.names, or_self]
  · rw [hr.preference, sup_idem]

end

/-!
## Snapshots and merges are accepted

A snapshot of a checked registry passes the check, and so does a merge of two checked registries of
one family, as far as it fits.
-/

/-! ## The text of a snapshot -/

theorem names_property {α : Type} {name : String} {toJs : α → JsValue} (v : Option α) :
    ((property name toJs v).map Prod.fst).Sublist [name] := by
  cases v with
  | none => exact List.nil_sublist _
  | some a => exact List.Sublist.refl _

section

variable [Platform] {α : Type} {name : String} {toJs : α → JsValue}

theorem written_property (h : ∀ a, Written (toJs a)) (v : Option α) :
    ∀ p ∈ property name toJs v, Written p.2 := by
  intro p hp
  obtain ⟨a, -, rfl⟩ := List.mem_map.1 hp
  exact h a

theorem written_claim (claim : BotOwnershipState) : Written claim.toJs := written_obj _

theorem length_bot_eq (bot : BotRecord) : textLength bot.toJs
    = memberSizes ([("publicKey", .str bot.publicKey), ("ownerPersona", .str bot.ownerPersona),
        ("label", .str bot.label), ("source", StringUnion.toJs bot.source)]
      ++ property "derivationName" .str bot.derivationName
      ++ property "privateKey" .str bot.privateKey
      ++ property "ownership" BotOwnershipState.toJs bot.ownership
      ++ [("hidden", .bool bot.hidden), ("createdAt", numberToJs bot.createdAt),
        ("updatedAt", numberToJs bot.updatedAt)]
      ++ property "removedAt" numberToJs bot.removedAt) - 1 + 2 := by
  apply length_jsonText_obj
  · intro p hp
    simp only [List.mem_append, List.mem_cons, List.not_mem_nil, or_false] at hp
    rcases hp with ((((h | hp) | hp) | hp) | h) | hp
    · rcases h with rfl | rfl | rfl | rfl
      · exact written_str _
      · exact written_str _
      · exact written_str _
      · exact written_str _
    · exact written_property written_str _ p hp
    · exact written_property written_str _ p hp
    · exact written_property written_claim _ p hp
    · rcases h with rfl | rfl | rfl
      · exact written_bool _
      · exact written_num _
      · exact written_num _
    · exact written_property (fun _ => written_num _) _ p hp
  · simp only [List.map_append]
    apply List.Nodup.sublist (((((((List.Sublist.refl _).append (names_property _)).append
      (names_property _)).append (names_property _)).append (List.Sublist.refl _)).append
      (names_property _)))
    show ["publicKey", "ownerPersona", "label", "source", "derivationName", "privateKey", "ownership",
      "hidden", "createdAt", "updatedAt", "removedAt"].Nodup
    decide

theorem length_registry_eq (r : BotRegistry) : textLength r.toJs
    = memberSizes [("v", .ofNat 1), ("ownerRoot", .str r.ownerRoot),
        ("bots", .arr (r.bots.map BotRecord.toJs)), ("allocated", .arr (r.allocated.map .str)),
        ("showNew", .bool r.showNew), ("preferenceUpdatedAt", numberToJs r.preferenceUpdatedAt)]
      - 1 + 2 := by
  apply length_jsonText_obj
  · intro p hp
    simp only [List.mem_cons, List.not_mem_nil, or_false] at hp
    rcases hp with rfl | rfl | rfl | rfl | rfl | rfl
    · exact written_num _
    · exact written_str _
    · exact written_arr _
    · exact written_arr _
    · exact written_bool _
    · exact written_num _
  · show ["v", "ownerRoot", "bots", "allocated", "showNew", "preferenceUpdatedAt"].Nodup
    decide

end

/-! ## Texts that are there -/

theorem ne_nil_of_token {name : JsString} (h : token name = true) : name ≠ [] := by
  rintro rfl
  cases h

theorem ne_nil_of_isHexOf {id : JsString} (h : isHexOf 64 id = true) : id ≠ [] := by
  rintro rfl
  cases h

theorem filter_eq_self {v : Option JsString} (h : ∀ s, v = some s → s ≠ []) :
    v.filter (· ≠ []) = v := by
  cases v with
  | none => rfl
  | some s => simp [Option.filter, h s rfl]

section

variable [Platform] [Keys] {root : JsString} {allocated : List JsString}

/-! ## Claims -/

/-- What the check asks of a claim's event. -/
def Attests (bot : BotRecord) (event : NostrEvent) : Prop :=
  textLength event.toJs ≤ maxEventText ∧ event.kind = 31000 ∧ event.pubkey = bot.ownerPersona
    ∧ event.tags.length ≤ maxEventTags ∧ Keys.verifyEvent event = true
    ∧ hasOneTag event (lit "d") (lit "bot-ownership:" ++ bot.publicKey) = true
    ∧ hasOneTag event (lit "type") (lit "bot-ownership") = true
    ∧ hasOneTag event (lit "p") bot.publicKey = true

variable {bot : BotRecord}

theorem claim_valid_iff {claim : BotOwnershipState} : claim.valid bot = true ↔
    Attests bot claim.event ∧ (∀ id, claim.publishedEventId = some id → isHexOf 64 id = true)
      ∧ ∀ t, claim.lastAttemptAt = some t → isStamp t = true := by
  simp only [BotOwnershipState.valid, Attests, Bool.and_eq_true, decide_eq_true_eq, Option.all_eq_true]
  constructor
  · rintro ⟨⟨⟨⟨⟨⟨⟨⟨⟨h1, h2⟩, h3⟩, h4⟩, h5⟩, h6⟩, h7⟩, h8⟩, h9⟩, h10⟩
    exact ⟨⟨h1, h2, h3, h4, h5, h8, h9, h10⟩, h6, h7⟩
  · rintro ⟨⟨h1, h2, h3, h4, h5, h8, h9, h10⟩, h6, h7⟩
    exact ⟨⟨⟨⟨⟨⟨⟨⟨⟨h1, h2⟩, h3⟩, h4⟩, h5⟩, h6⟩, h7⟩, h8⟩, h9⟩, h10⟩

theorem mergeClaim_valid {a b : BotOwnershipState} (ha : a.valid bot = true)
    (hb : b.valid bot = true) : (mergeClaim a b).valid bot = true := by
  rw [claim_valid_iff] at ha hb ⊢
  obtain ⟨hea, hia, hta⟩ := ha
  obtain ⟨heb, hib, htb⟩ := hb
  refine ⟨?_, ?_, ?_⟩
  · show Attests bot (newerClaim a b).event
    rcases newerClaim_mem a b with h | h
    · rw [h]
      exact hea
    · rw [h]
      exact heb
  · intro id hid
    simp only [mergeClaim] at hid
    split at hid
    · next hpublished =>
      obtain rfl := Option.some.inj hid
      exact hpublished.elim (hia _) (hib _)
    · cases hid
  · intro t ht
    have hna : Nonneg a.lastAttemptAt := fun q hq => isStamp_nonneg (hta q hq)
    have hnb : Nonneg b.lastAttemptAt := fun q hq => isStamp_nonneg (htb q hq)
    exact (latest_mem hna hnb ht).elim (hta t) (htb t)

/-! ## Snapshots -/

theorem Checked.snapshot_eq (h : Checked root allocated bot) :
    bot.snapshot = { bot with privateKey := none } := by
  have hname : bot.derivationName.filter (· ≠ []) = bot.derivationName := by
    apply filter_eq_self
    intro name hname
    by_cases hsource : bot.source = .derived
    · obtain ⟨-, name', hname', htoken, -⟩ := h.derived hsource
      obtain rfl := Option.some.inj (hname.symm.trans hname')
      exact ne_nil_of_token htoken
    · rw [h.standalone hsource] at hname
      cases hname
  have hclaim : (bot.ownership.map fun claim : BotOwnershipState =>
      { claim with publishedEventId := claim.publishedEventId.filter (· ≠ []) }) = bot.ownership := by
    cases hownership : bot.ownership with
    | none => rfl
    | some claim =>
      have hvalid := claim_valid_iff.1 (h.ownership claim hownership)
      have hid : claim.publishedEventId.filter (· ≠ []) = claim.publishedEventId :=
        filter_eq_self fun id hid => ne_nil_of_isHexOf (hvalid.2.1 id hid)
      show some { claim with publishedEventId := claim.publishedEventId.filter (· ≠ []) } = some claim
      rw [hid]
  unfold BotRecord.snapshot
  rw [hname, hclaim]

theorem Checked.snapshot (h : Checked root allocated bot) :
    Checked root allocated bot.snapshot := by
  rw [h.snapshot_eq]
  exact { h with
    derived := fun hsource => ⟨rfl, (h.derived hsource).2⟩
    privateKey := fun key hkey => by cases hkey
    ownership := fun claim hclaim => h.ownership claim hclaim }

variable {x y r : BotRegistry}

theorem Valid.snapshot (h : Valid root x) : Valid root (botRegistrySnapshot x) := by
  have hnames := List.perm_insertionSort (· ≤ ·) x.allocated
  have htidy := tidy_snapshot h.oneEach h.distinctNames
  refine { hexRoot := h.hexRoot, ownerRoot := h.ownerRoot, bots := ?_, allocated := ?_, tokens := ?_,
           distinctNames := htidy.distinctNames, oneEach := htidy.oneEach, preference := h.preference,
           checked := ?_, derivationNames := ?_, clean := ?_ }
  · show (byPublicKey (x.bots.map BotRecord.snapshot)).length ≤ maxBots
    rw [(byPublicKey_perm _).length_eq, List.length_map]
    exact h.bots
  · show (x.allocated.insertionSort (· ≤ ·)).length ≤ maxAllocated
    rw [hnames.length_eq]
    exact h.allocated
  · intro name hname
    exact h.tokens name (hnames.mem_iff.1 hname)
  · intro bot hbot
    obtain ⟨a, ha, rfl⟩ := mem_snapshot.1 hbot
    exact (h.checked a ha).snapshot.mono fun name hname => hnames.mem_iff.2 hname
  · show ((byPublicKey (x.bots.map BotRecord.snapshot)).filterMap BotRecord.derivationName).Nodup
    have hmap : (x.bots.map BotRecord.snapshot).filterMap BotRecord.derivationName
        = x.bots.filterMap BotRecord.derivationName := by
      rw [List.filterMap_map]
      apply List.filterMap_congr
      intro bot hbot
      show bot.snapshot.derivationName = bot.derivationName
      rw [(h.checked bot hbot).snapshot_eq]
    rw [((byPublicKey_perm _).filterMap _).nodup_iff, hmap]
    exact h.derivationNames
  · intro bot hbot
    obtain ⟨a, ha, rfl⟩ := mem_snapshot.1 hbot
    have hclean := h.clean a ha
    unfold BotRecord.clean at hclean ⊢
    have hlabel := congrArg BotRecord.label hclean
    show { a.snapshot with label := SignetApp.Contacts.sanitizeDisplayName a.label maxLabel } = a.snapshot
    rw [show SignetApp.Contacts.sanitizeDisplayName a.label maxLabel = a.label from hlabel]
    rfl

theorem length_bot_snapshot_le (h : Checked root allocated bot) :
    textLength bot.snapshot.toJs ≤ textLength bot.toJs := by
  rw [h.snapshot_eq, length_bot_eq, length_bot_eq]
  have hkey : memberSizes (property "privateKey" JsValue.str none) = 0 := rfl
  simp only [memberSizes_append, hkey]
  omega

/-- **What is told to other devices fits where the registry does.** -/
theorem Valid.length_snapshot_le (h : Valid root x) :
    textLength (botRegistrySnapshot x).toJs ≤ textLength x.toJs := by
  have hwritten : ∀ bots : List BotRecord, ∀ v ∈ bots.map BotRecord.toJs, Written v := by
    intro bots v hv
    obtain ⟨bot, -, rfl⟩ := List.mem_map.1 hv
    exact written_obj _
  have hnames : ∀ names : List JsString, ∀ v ∈ names.map JsValue.str, Written v := by
    intro names v hv
    obtain ⟨n, -, rfl⟩ := List.mem_map.1 hv
    exact written_str n
  have hbots : (jsonText (.arr ((botRegistrySnapshot x).bots.map BotRecord.toJs))).length
      ≤ (jsonText (.arr (x.bots.map BotRecord.toJs))).length := by
    have hperm : ((botRegistrySnapshot x).bots.map BotRecord.toJs).Perm
        ((x.bots.map BotRecord.snapshot).map BotRecord.toJs) := (byPublicKey_perm _).map _
    have hle : sizes (x.bots.map fun bot => jsonText bot.snapshot.toJs)
        ≤ sizes (x.bots.map fun bot => jsonText bot.toJs) :=
      sizes_map_le fun bot hbot => length_bot_snapshot_le (h.checked bot hbot)
    rw [length_jsonText_arr (hwritten _), length_jsonText_arr (hwritten _), sizes_perm (hperm.map _),
      List.map_map, List.map_map, List.map_map]
    exact Nat.add_le_add_right (Nat.sub_le_sub_right hle 1) 2
  have hallocated : (jsonText (.arr ((botRegistrySnapshot x).allocated.map .str))).length
      = (jsonText (.arr (x.allocated.map .str))).length := by
    have hperm : ((botRegistrySnapshot x).allocated.map JsValue.str).Perm (x.allocated.map .str) :=
      (List.perm_insertionSort _ x.allocated).map _
    rw [length_jsonText_arr (hnames _), length_jsonText_arr (hnames _), sizes_perm (hperm.map _)]
  have hroot : (botRegistrySnapshot x).ownerRoot = x.ownerRoot := rfl
  have hshow : (botRegistrySnapshot x).showNew = x.showNew := rfl
  have hdate : (botRegistrySnapshot x).preferenceUpdatedAt = x.preferenceUpdatedAt := rfl
  rw [length_registry_eq, length_registry_eq, hroot, hshow, hdate]
  simp only [memberSizes_cons, length_propertyText]
  omega

end

end SignetApp.Bots
