import Mathlib.Data.List.Lex
import Mathlib.Data.Prod.Lex
import SignetApp.Bots.Registry
import SignetApp.Collections.Dated
import SignetApp.Contacts.Sanitize
import SignetApp.Sync.Wire

/-!
# What a checked registry is

The check of a registry as a property, which a registry that was checked has, and which is all that
the check asks for but the size of the text.
-/

namespace SignetApp.Bots

open SignetApp.Js SignetApp.Sync
open SignetApp.Contacts (sanitizeDisplayName sanitizeDisplayName_idem)

/-! ## Records -/

section

variable [Platform] [Keys] {root : JsString} {allocated allocated' : List JsString}

/-- What the check asks of a record. -/
structure Checked (root : JsString) (allocated : List JsString) (bot : BotRecord) : Prop where
  publicKey : isHexOf 64 bot.publicKey = true
  ownerPersona : isHexOf 64 bot.ownerPersona = true
  notRoot : bot.ownerPersona ≠ root
  notOwn : bot.ownerPersona ≠ bot.publicKey
  labelled : trim bot.label ≠ []
  label : bot.label.length ≤ maxLabel
  createdAt : isStamp bot.createdAt = true
  updatedAt : isStamp bot.updatedAt = true
  afterwards : bot.createdAt ≤ bot.updatedAt
  removedAt : ∀ t, bot.removedAt = some t → isStamp t = true ∧ bot.createdAt ≤ t
  derived : bot.source = .derived → bot.privateKey = none ∧
    ∃ name, bot.derivationName = some name ∧ token name = true ∧ name ∈ allocated
  standalone : bot.source ≠ .derived → bot.derivationName = none
  privateKey : ∀ key, bot.privateKey = some key →
    isHexOf 64 key = true ∧ Keys.getPublicKey key = bot.publicKey
  ownership : ∀ claim, bot.ownership = some claim → claim.valid bot = true

theorem valid_iff {bot : BotRecord} : bot.valid root allocated = true ↔ Checked root allocated bot := by
  have hderived : (if bot.source = .derived then
        bot.derivationName.any (fun name => token name && allocated.contains name)
          && bot.privateKey.isNone
      else bot.derivationName.isNone) = true ↔
      (bot.source = .derived → bot.privateKey = none ∧
        ∃ name, bot.derivationName = some name ∧ token name = true ∧ name ∈ allocated) ∧
      (bot.source ≠ .derived → bot.derivationName = none) := by
    by_cases h : bot.source = .derived
    · rw [if_pos h]
      cases hname : bot.derivationName with
      | none => simp [h]
      | some name => simp [h, and_comm]
    · simp [h]
  unfold BotRecord.valid
  rw [Bool.and_eq_true, Bool.and_eq_true, Bool.and_eq_true, hderived]
  simp only [Bool.and_eq_true, bne_iff_ne, Bool.not_eq_true', List.isEmpty_eq_false_iff,
    decide_eq_true_eq, Option.all_eq_true]
  constructor
  · rintro ⟨⟨⟨⟨⟨⟨⟨⟨⟨⟨⟨⟨h1, h2⟩, h3⟩, h4⟩, h5⟩, h6⟩, h7⟩, h8⟩, h9⟩, h10⟩, h11, h12⟩, h13⟩, h14⟩
    exact ⟨h1, h2, h3, h4, h5, h6, h7, h8, h9, h10, h11, h12, h13, h14⟩
  · rintro ⟨h1, h2, h3, h4, h5, h6, h7, h8, h9, h10, h11, h12, h13, h14⟩
    exact ⟨⟨⟨⟨⟨⟨⟨⟨⟨⟨⟨⟨h1, h2⟩, h3⟩, h4⟩, h5⟩, h6⟩, h7⟩, h8⟩, h9⟩, h10⟩, h11, h12⟩, h13⟩, h14⟩

theorem Checked.mono {bot : BotRecord} (h : Checked root allocated bot)
    (hsub : ∀ name ∈ allocated, name ∈ allocated') : Checked root allocated' bot where
  publicKey := h.publicKey
  ownerPersona := h.ownerPersona
  notRoot := h.notRoot
  notOwn := h.notOwn
  labelled := h.labelled
  label := h.label
  createdAt := h.createdAt
  updatedAt := h.updatedAt
  afterwards := h.afterwards
  removedAt := h.removedAt
  derived hsource := by
    obtain ⟨hkey, name, hname, htoken, hmem⟩ := h.derived hsource
    exact ⟨hkey, name, hname, htoken, hsub name hmem⟩
  standalone := h.standalone
  privateKey := h.privateKey
  ownership := h.ownership

/-! ## Registries -/

/-- What the check asks of a registry, the size of its text apart; the labels are clean. -/
structure Valid (root : JsString) (r : BotRegistry) : Prop where
  hexRoot : isHexOf 64 root = true
  ownerRoot : r.ownerRoot = root
  bots : r.bots.length ≤ maxBots
  allocated : r.allocated.length ≤ maxAllocated
  tokens : ∀ name ∈ r.allocated, token name = true
  distinctNames : r.allocated.Nodup
  oneEach : OneEach BotRecord.publicKey r.bots
  preference : isStamp r.preferenceUpdatedAt = true
  checked : ∀ bot ∈ r.bots, Checked root r.allocated bot
  derivationNames : (r.bots.filterMap BotRecord.derivationName).Nodup
  clean : ∀ bot ∈ r.bots, bot.clean = bot

theorem Checked.clean {bot : BotRecord} (h : Checked root allocated bot)
    (hlabel : trim bot.clean.label ≠ []) : Checked root allocated bot.clean where
  publicKey := h.publicKey
  ownerPersona := h.ownerPersona
  notRoot := h.notRoot
  notOwn := h.notOwn
  labelled := hlabel
  label := SignetApp.Contacts.sanitizeDisplayName_length_le h.label
  createdAt := h.createdAt
  updatedAt := h.updatedAt
  afterwards := h.afterwards
  removedAt := h.removedAt
  derived := h.derived
  standalone := h.standalone
  privateKey := h.privateKey
  ownership claim hclaim := h.ownership claim hclaim

theorem valid_of_parse {data r : BotRegistry} (h : parseBotRegistry data root = some r) :
    Valid root r := by
  unfold parseBotRegistry at h
  split at h
  · cases h
  · next hroot =>
    split at h
    · cases h
    · split at h
      · cases h
      · next hshape =>
        split at h
        · cases h
        · next hbots =>
          split at h
          · cases h
          · next hlabels =>
            obtain rfl := Option.some.inj h
            simp only [not_or, not_not, not_lt, gt_iff_lt, Bool.not_eq_false] at hshape hbots
            obtain ⟨hroot', hcount, hallocated, htokens, hnodup, hkeys, hstamp⟩ := hshape
            obtain ⟨hvalid, hnames⟩ := hbots
            have hmap : (data.bots.map BotRecord.clean).map BotRecord.publicKey
                = data.bots.map BotRecord.publicKey := by
              rw [List.map_map]
              rfl
            have hchecked : ∀ bot ∈ data.bots, Checked root data.allocated bot := fun bot hbot =>
              valid_iff.1 (List.all_eq_true.1 hvalid bot hbot)
            refine { hexRoot := Bool.not_eq_false _ ▸ hroot, ownerRoot := hroot', bots := ?_,
                     allocated := hallocated, tokens := List.all_eq_true.1 htokens,
                     distinctNames := hnodup, oneEach := ?_, preference := hstamp, checked := ?_,
                     derivationNames := ?_, clean := ?_ }
            · show (data.bots.map BotRecord.clean).length ≤ maxBots
              rw [List.length_map]
              exact hcount
            · show ((data.bots.map BotRecord.clean).map BotRecord.publicKey).Nodup
              rw [hmap]
              exact hkeys
            · intro bot hbot
              obtain ⟨b, hb, rfl⟩ := List.mem_map.1 hbot
              apply (hchecked b hb).clean
              intro hnil
              apply hlabels
              rw [List.any_eq_true]
              exact ⟨b, hb, by rw [hnil]; rfl⟩
            · show ((data.bots.map BotRecord.clean).filterMap BotRecord.derivationName).Nodup
              rw [List.filterMap_map]
              exact hnames
            · intro bot hbot
              obtain ⟨b, hb, rfl⟩ := List.mem_map.1 hbot
              have hidem := sanitizeDisplayName_idem (hchecked b hb).label
              unfold BotRecord.clean
              rw [hidem]

/-- A valid registry whose text is not too long is accepted as it is. -/
theorem parse_of_valid {r : BotRegistry} (h : Valid root r)
    (htext : textLength r.toJs ≤ maxRegistryText) : parseBotRegistry r root = some r := by
  have hmap : r.bots.map BotRecord.clean = r.bots := by
    conv_rhs => rw [← List.map_id r.bots]
    exact List.map_congr_left h.clean
  have hlabels : ¬ r.bots.any (fun bot => (trim bot.clean.label).isEmpty) = true := by
    rw [List.any_eq_true]
    rintro ⟨bot, hbot, hempty⟩
    rw [h.clean bot hbot] at hempty
    exact (h.checked bot hbot).labelled (List.isEmpty_iff.1 hempty)
  have hvalid : r.bots.all (fun bot => bot.valid root r.allocated) = true :=
    List.all_eq_true.2 fun bot hbot => valid_iff.2 (h.checked bot hbot)
  unfold parseBotRegistry
  rw [if_neg (by rw [h.hexRoot]; exact Bool.true_eq_false_eq_False), if_neg (not_lt.2 htext), if_neg,
    if_neg, if_neg hlabels, hmap]
  · rintro (hfalse | hnames)
    · rw [hvalid] at hfalse
      cases hfalse
    · exact hnames h.derivationNames
  · rintro (hroot | hcount | hallocated | htokens | hnodup | hkeys | hstamp)
    · exact hroot h.ownerRoot
    · exact absurd h.bots (not_le.2 hcount)
    · exact absurd h.allocated (not_le.2 hallocated)
    · rw [List.all_eq_true.2 h.tokens] at htokens
      cases htokens
    · exact hnodup h.distinctNames
    · exact hkeys h.oneEach
    · rw [h.preference] at hstamp
      cases hstamp

end

end SignetApp.Bots

/-!
## Two records of one bot

What two records of one bot may differ in is a place in a semilattice, and the merge is the join of
the two places (`view_mergeBot`). So it keeps the laws of joins.
-/

namespace SignetApp.Bots

open SignetApp.Js SignetApp.Sync

/-! ## Optional stamps -/

/-- A stamp that is there is not negative. -/
def Nonneg (t : Option ℚ) : Prop := ∀ q, t = some q → 0 ≤ q

theorem isStamp_nonneg {q : ℚ} (h : isStamp q = true) : 0 ≤ q := by
  unfold isStamp at h
  rw [Bool.and_eq_true, decide_eq_true_eq, decide_eq_true_eq] at h
  exact h.2.1

theorem latest_eq_sup {a b : Option ℚ} (ha : Nonneg a) (hb : Nonneg b) :
    latest a b = ((a : WithBot ℚ) ⊔ (b : WithBot ℚ) : WithBot ℚ) := by
  cases a with
  | none =>
    cases b with
    | none => rfl
    | some q =>
      show some (max 0 q) = some q
      rw [max_eq_right (hb q rfl)]
  | some p =>
    cases b with
    | none =>
      show some (max p 0) = some p
      rw [max_eq_left (ha p rfl)]
    | some q => rfl

theorem Nonneg.latest {a b : Option ℚ} (ha : Nonneg a) : Nonneg (latest a b) := by
  intro t ht
  cases a with
  | none =>
    cases b with
    | none => cases ht
    | some q =>
      obtain rfl := Option.some.inj ht
      exact le_max_left _ _
  | some p =>
    obtain rfl := Option.some.inj ht
    exact (ha p rfl).trans (le_max_left _ _)

theorem latest_mem {a b : Option ℚ} (ha : Nonneg a) (hb : Nonneg b) {t : ℚ}
    (h : latest a b = some t) : a = some t ∨ b = some t := by
  cases a with
  | none =>
    cases b with
    | none => cases h
    | some q =>
      obtain rfl := Option.some.inj h
      right
      show some q = some (max 0 q)
      rw [max_eq_right (hb q rfl)]
  | some p =>
    cases b with
    | none =>
      obtain rfl := Option.some.inj h
      left
      show some p = some (max p 0)
      rw [max_eq_left (ha p rfl)]
    | some q =>
      obtain rfl := Option.some.inj h
      show some p = some (max p q) ∨ some q = some (max p q)
      rcases max_cases p q with ⟨hmax, -⟩ | ⟨hmax, -⟩
      · exact .inl (congrArg some hmax.symm)
      · exact .inr (congrArg some hmax.symm)

theorem le_latest {a b : Option ℚ} {q : ℚ} (h : a = some q ∨ b = some q) :
    ∃ t, latest a b = some t ∧ q ≤ t := by
  rcases h with rfl | rfl
  · exact ⟨_, rfl, le_max_left _ _⟩
  · cases a with
    | none => exact ⟨_, rfl, le_max_right _ _⟩
    | some p => exact ⟨_, rfl, le_max_right _ _⟩

/-! ## Claims -/

/-- The date of a claim; of two of one second the smaller id is the later. -/
def NostrEvent.date (e : NostrEvent) : ℚ ×ₗ JsStringᵒᵈ := toLex (e.created_at, OrderDual.toDual e.id)

theorem date_lt {e f : NostrEvent} : e.date < f.date ↔
    f.created_at > e.created_at ∨ (f.created_at = e.created_at ∧ f.id < e.id) := by
  rw [gt_iff_lt, eq_comm]
  exact Prod.Lex.toLex_lt_toLex

/-- The signed events, one for each id. -/
def OneForEachId (events : Set NostrEvent) : Prop := events.InjOn NostrEvent.id

variable {events : Set NostrEvent}

theorem eq_of_date_eq (hevents : OneForEachId events) {e f : NostrEvent} (he : e ∈ events)
    (hf : f ∈ events) (h : e.date = f.date) : e = f := by
  have hpair := Prod.mk.inj (toLex_inj.1 h)
  exact hevents he hf (OrderDual.toDual_inj.1 hpair.2)

/-- A claim whose event is one of these, published under its own id if it was. -/
structure BotOwnershipState.Among (events : Set NostrEvent) (claim : BotOwnershipState) : Prop where
  event : claim.event ∈ events
  published : ∀ id, claim.publishedEventId = some id → id = claim.event.id
  lastAttemptAt : Nonneg claim.lastAttemptAt

abbrev ClaimView := Dated (ℚ ×ₗ JsStringᵒᵈ) Bool × Bool × WithBot ℚ

def BotOwnershipState.view (claim : BotOwnershipState) : ClaimView :=
  (⟨claim.event.date, claim.publishedEventId.isSome⟩, claim.publishRequested, claim.lastAttemptAt)

theorem BotOwnershipState.Among.publishedEventId {claim : BotOwnershipState} (h : claim.Among events) :
    claim.publishedEventId = if claim.publishedEventId.isSome then some claim.event.id else none := by
  cases hid : claim.publishedEventId with
  | none => rfl
  | some id =>
    rw [h.published id hid]
    rfl

theorem claim_eq_of_view (hevents : OneForEachId events) {a b : BotOwnershipState}
    (ha : a.Among events) (hb : b.Among events) (h : a.view = b.view) : a = b := by
  obtain ⟨hdated, hrest⟩ := Prod.mk.inj h
  obtain ⟨hrequested, hattempt⟩ := Prod.mk.inj hrest
  obtain ⟨hdate, hpublished⟩ := Dated.mk.inj hdated
  have hevent := eq_of_date_eq hevents ha.event hb.event hdate
  have hid : a.publishedEventId = b.publishedEventId := by
    rw [ha.publishedEventId, hb.publishedEventId, hpublished, hevent]
  cases a
  cases b
  simp_all

/-- The claim whose event is kept. -/
def newerClaim (a b : BotOwnershipState) : BotOwnershipState :=
  if a.event.date < b.event.date then b else a

/-- The merge of two claims. -/
def mergeClaim (a b : BotOwnershipState) : BotOwnershipState where
  event := (newerClaim a b).event
  publishRequested := a.publishRequested || b.publishRequested
  publishedEventId :=
    if a.publishedEventId = some (newerClaim a b).event.id
      ∨ b.publishedEventId = some (newerClaim a b).event.id then some (newerClaim a b).event.id
    else none
  lastAttemptAt := latest a.lastAttemptAt b.lastAttemptAt

theorem mergeBotOwnership_eq (a b : Option BotOwnershipState) :
    mergeBotOwnership a b = a.merge mergeClaim b := by
  cases a with
  | none => cases b <;> rfl
  | some a =>
    cases b with
    | none => rfl
    | some b =>
      show some _ = some (mergeClaim a b)
      rw [mergeClaim, newerClaim]
      simp only [date_lt]

theorem newerClaim_mem (a b : BotOwnershipState) : newerClaim a b = a ∨ newerClaim a b = b := by
  unfold newerClaim
  split
  · exact .inr rfl
  · exact .inl rfl

theorem mergeClaim_among {a b : BotOwnershipState} (ha : a.Among events) (hb : b.Among events) :
    (mergeClaim a b).Among events where
  event := by
    show (newerClaim a b).event ∈ events
    rcases newerClaim_mem a b with h | h
    · rw [h]
      exact ha.event
    · rw [h]
      exact hb.event
  published := by
    intro id hid
    simp only [mergeClaim] at hid ⊢
    split at hid
    · exact (Option.some.inj hid).symm
    · cases hid
  lastAttemptAt := ha.lastAttemptAt.latest

theorem view_mergeClaim (hevents : OneForEachId events) {a b : BotOwnershipState}
    (ha : a.Among events) (hb : b.Among events) : (mergeClaim a b).view = a.view ⊔ b.view := by
  have hlatest := latest_eq_sup ha.lastAttemptAt hb.lastAttemptAt
  have hdated : (mergeClaim a b).view.1 = a.view.1 ⊔ b.view.1 := by
    obtain h | h | h := lt_trichotomy a.event.date b.event.date
    · have hnewer : newerClaim a b = b := if_pos h
      -- The first claim was published under its own id, which is not the second's.
      have hne : a.publishedEventId ≠ some b.event.id := by
        intro hid
        have hevent := hevents ha.event hb.event (ha.published _ hid).symm
        exact absurd h (hevent ▸ lt_irrefl _)
      rw [Dated.sup_of_lt h]
      simp only [mergeClaim, BotOwnershipState.view, hnewer, hne, false_or]
      rw [hb.publishedEventId]
      cases b.publishedEventId <;> simp
    · have hevent := eq_of_date_eq hevents ha.event hb.event h
      have hnewer : newerClaim a b = a := if_neg h.not_lt
      rw [Dated.sup_of_eq h]
      simp only [mergeClaim, BotOwnershipState.view, hnewer]
      rw [ha.publishedEventId, hb.publishedEventId, ← hevent]
      cases a.publishedEventId <;> cases b.publishedEventId <;> simp
    · have hnewer : newerClaim a b = a := if_neg h.not_gt
      have hne : b.publishedEventId ≠ some a.event.id := by
        intro hid
        have hevent := hevents hb.event ha.event (hb.published _ hid).symm
        exact absurd h (hevent ▸ lt_irrefl _)
      rw [Dated.sup_of_gt h]
      simp only [mergeClaim, BotOwnershipState.view, hnewer, hne, or_false]
      rw [ha.publishedEventId]
      cases a.publishedEventId <;> simp
  apply Prod.ext hdated
  apply Prod.ext
  · rfl
  · exact hlatest

/-! ## Records -/

/-- What the merge does not let two records of a bot differ in. -/
structure Identity where
  publicKey : JsString
  ownerPersona : JsString
  source : BotSource
  derivationName : Option JsString
  createdAt : ℚ

def BotRecord.identity (bot : BotRecord) : Identity :=
  ⟨bot.publicKey, bot.ownerPersona, bot.source, bot.derivationName, bot.createdAt⟩

theorem conflicts_eq_false_iff {a b : BotRecord} (hkey : a.publicKey = b.publicKey) :
    conflicts a b = false ↔ a.identity = b.identity := by
  simp [conflicts, BotRecord.identity, hkey, and_assoc]

/-- A record told to other devices. -/
structure BotRecord.Among (events : Set NostrEvent) (bot : BotRecord) : Prop where
  privateKey : bot.privateKey = none
  ownership : ∀ claim, bot.ownership = some claim → claim.Among events
  removedAt : Nonneg bot.removedAt

section

variable [Platform] {a b c : BotRecord}

/-- The date of what the owner chose; of two of one second the smaller text is the later. -/
def BotRecord.choice (bot : BotRecord) : ℚ ×ₗ JsStringᵒᵈ :=
  toLex (bot.updatedAt, OrderDual.toDual (choiceText bot))

theorem choice_lt : a.choice < b.choice ↔
    b.updatedAt > a.updatedAt ∨ (b.updatedAt = a.updatedAt ∧ choiceText b < choiceText a) := by
  rw [gt_iff_lt, @eq_comm _ b.updatedAt]
  exact Prod.Lex.toLex_lt_toLex

theorem choiceText_injective (h : choiceText a = choiceText b) :
    a.label = b.label ∧ a.hidden = b.hidden := by
  -- No number is read, so any reader of numbers will do.
  let numerals : Numerals := { readNumber := fun _ => none }
  have hjson : ∀ bot : BotRecord, IsJson (.arr [.str bot.label, .bool bot.hidden]) :=
    fun bot => ⟨trivial, trivial, trivial⟩
  have hparse := congrArg parse h
  unfold choiceText at hparse
  rw [parse_jsonText (hjson a), parse_jsonText (hjson b)] at hparse
  simpa using hparse

abbrev BotView := (ℚ ×ₗ JsStringᵒᵈ) × WithBot ClaimView × WithBot ℚ

def BotRecord.view (bot : BotRecord) : BotView :=
  (bot.choice, bot.ownership.map BotOwnershipState.view, bot.removedAt)

theorem bot_eq_of_view (hevents : OneForEachId events) (ha : a.Among events) (hb : b.Among events)
    (hidentity : a.identity = b.identity) (h : a.view = b.view) : a = b := by
  obtain ⟨hchoice, hrest⟩ := Prod.mk.inj h
  obtain ⟨hownership, hremoved⟩ := Prod.mk.inj hrest
  obtain ⟨hupdated, htext⟩ := Prod.mk.inj (toLex_inj.1 hchoice)
  obtain ⟨hlabel, hhidden⟩ := choiceText_injective (OrderDual.toDual_inj.1 htext)
  have hclaim : a.ownership = b.ownership := by
    cases hoa : a.ownership with
    | none =>
      rw [hoa] at hownership
      exact (Option.map_eq_none_iff.1 hownership.symm).symm
    | some claim =>
      rw [hoa] at hownership
      obtain ⟨claim', hob, hview⟩ := Option.map_eq_some_iff.1 hownership.symm
      rw [hob, claim_eq_of_view hevents (ha.ownership claim hoa) (hb.ownership claim' hob) hview.symm]
  have hkey : a.privateKey = b.privateKey := ha.privateKey.trans hb.privateKey.symm
  simp only [BotRecord.identity, Identity.mk.injEq] at hidentity
  obtain ⟨h1, h2, h3, h4, h5⟩ := hidentity
  cases a
  cases b
  simp_all

/-- The record whose choice is kept. -/
def newerBot (a b : BotRecord) : BotRecord := if a.choice < b.choice then b else a

theorem mergeBot_eq (a b : BotRecord) : mergeBot a b = { newerBot a b with
    ownership := a.ownership.merge mergeClaim b.ownership
    privateKey := if a.removedAt = none ∧ b.removedAt = none then a.privateKey else none
    removedAt := latest a.removedAt b.removedAt } := by
  rw [mergeBot, newerBot, mergeBotOwnership_eq]
  simp only [choice_lt]

theorem newerBot_mem (a b : BotRecord) : newerBot a b = a ∨ newerBot a b = b := by
  unfold newerBot
  split
  · exact .inr rfl
  · exact .inl rfl

theorem identity_mergeBot (h : a.identity = b.identity) : (mergeBot a b).identity = a.identity := by
  rw [mergeBot_eq]
  show (newerBot a b).identity = a.identity
  rcases newerBot_mem a b with hnewer | hnewer
  · rw [hnewer]
  · rw [hnewer, h]

theorem clean_mergeBot (ha : a.clean = a) (hb : b.clean = b) : (mergeBot a b).clean = mergeBot a b := by
  have hlabel : ∀ bot : BotRecord, bot.clean = bot →
      SignetApp.Contacts.sanitizeDisplayName bot.label maxLabel = bot.label :=
    fun bot hbot => congrArg BotRecord.label hbot
  rw [mergeBot_eq]
  unfold BotRecord.clean
  rcases newerBot_mem a b with h | h
  · rw [h, hlabel a ha]
  · rw [h, hlabel b hb]

theorem mergeBot_among (ha : a.Among events) (hb : b.Among events) : (mergeBot a b).Among events := by
  rw [mergeBot_eq]
  refine { privateKey := ?_, ownership := ?_, removedAt := ha.removedAt.latest }
  · show (if _ then a.privateKey else none) = none
    rw [ha.privateKey, ite_self]
  · intro claim hclaim
    have hmerge : a.ownership.merge mergeClaim b.ownership = some claim := hclaim
    cases hoa : a.ownership with
    | none =>
      rw [hoa, Option.merge_none_left] at hmerge
      exact hb.ownership claim hmerge
    | some ca =>
      cases hob : b.ownership with
      | none =>
        rw [hoa, hob, Option.merge_none_right] at hmerge
        exact ha.ownership claim (hoa.trans hmerge)
      | some cb =>
        rw [hoa, hob] at hmerge
        obtain rfl := Option.some.inj hmerge
        exact mergeClaim_among (ha.ownership ca hoa) (hb.ownership cb hob)

theorem choice_newerBot (a b : BotRecord) : (newerBot a b).choice = a.choice ⊔ b.choice := by
  unfold newerBot
  split
  · next h => exact (max_eq_right h.le).symm
  · next h => exact (max_eq_left (not_lt.1 h)).symm

theorem view_mergeBot (hevents : OneForEachId events) (ha : a.Among events) (hb : b.Among events) :
    (mergeBot a b).view = a.view ⊔ b.view := by
  rw [mergeBot_eq]
  apply Prod.ext
  · exact choice_newerBot a b
  · apply Prod.ext
    · show (a.ownership.merge mergeClaim b.ownership).map BotOwnershipState.view
        = ((a.ownership.map BotOwnershipState.view : WithBot ClaimView)
          ⊔ (b.ownership.map BotOwnershipState.view : WithBot ClaimView) : WithBot ClaimView)
      cases hoa : a.ownership with
      | none =>
        rw [Option.merge_none_left]
        exact (@bot_sup_eq (WithBot ClaimView) _ _ _).symm
      | some ca =>
        cases hob : b.ownership with
        | none =>
          rw [Option.merge_none_right]
          exact (@sup_bot_eq (WithBot ClaimView) _ _ _).symm
        | some cb =>
          have hview := view_mergeClaim hevents (ha.ownership ca hoa) (hb.ownership cb hob)
          exact congrArg some hview
    · exact latest_eq_sup ha.removedAt hb.removedAt

/-! ## The laws -/

theorem mergeBot_comm (hevents : OneForEachId events) (ha : a.Among events) (hb : b.Among events)
    (h : a.identity = b.identity) : mergeBot a b = mergeBot b a := by
  apply bot_eq_of_view hevents (mergeBot_among ha hb) (mergeBot_among hb ha)
  · rw [identity_mergeBot h, identity_mergeBot h.symm, h]
  · rw [view_mergeBot hevents ha hb, view_mergeBot hevents hb ha, sup_comm]

theorem mergeBot_assoc (hevents : OneForEachId events) (ha : a.Among events) (hb : b.Among events)
    (hc : c.Among events) (hab : a.identity = b.identity) (hbc : b.identity = c.identity) :
    mergeBot (mergeBot a b) c = mergeBot a (mergeBot b c) := by
  have hmab := mergeBot_among ha hb
  have hmbc := mergeBot_among hb hc
  apply bot_eq_of_view hevents (mergeBot_among hmab hc) (mergeBot_among ha hmbc)
  · rw [identity_mergeBot, identity_mergeBot hab, identity_mergeBot]
    · rw [identity_mergeBot hbc, hab]
    · rw [identity_mergeBot hab, hab, hbc]
  · rw [view_mergeBot hevents hmab hc, view_mergeBot hevents ha hb, view_mergeBot hevents ha hmbc,
      view_mergeBot hevents hb hc, sup_assoc]

theorem mergeBot_self (hevents : OneForEachId events) (ha : a.Among events) : mergeBot a a = a := by
  apply bot_eq_of_view hevents (mergeBot_among ha ha) ha
  · exact identity_mergeBot rfl
  · rw [view_mergeBot hevents ha ha, sup_idem]

end

end SignetApp.Bots
