import SignetApp.Bots.Convergence
import SignetApp.Concurrency.Reach
import SignetApp.Sync.Decimal

/-!
# The creation of bots

`createBot` reserves a derivation name, has the signer derive the bot, and saves it. Registries may be
merged, and other bots created, at any time between. No name is handed out twice
(`Reaches.handed_nodup`), for a name handed out stays allocated.
-/

namespace SignetApp.Bots

open SignetApp.Js SignetApp.Sync

/-! ## The program -/

/-- What `createBot` is asked for. -/
structure CreateArgs where
  ownerPersona : JsString
  ownedPersonas : List JsString
  label : JsString
  now : ℚ
  source : BotSource
  occupiedKeys : List JsString
  deriving DecidableEq

def CreateArgs.allowed (root : JsString) (args : CreateArgs) : Bool :=
  args.ownedPersonas.contains args.ownerPersona && args.ownerPersona != root
    && isHexOf 64 args.ownerPersona && isStamp args.now && !(trim args.label).isEmpty
    && decide (args.label.length ≤ maxLabel)

/-- The number after all that are allocated. -/
def nextNumber (allocated : List JsString) : ℕ :=
  (allocated.foldl (fun last name => max last (tokenNumber name : ℤ)) (-1) + 1).toNat

def reserve (state : BotRegistry) : BotRegistry :=
  { state with allocated := state.allocated ++ [lit "bot-" ++ digitsText (nextNumber state.allocated)] }

/-- The bot that is saved, unless its key is in use; `none` when it throws. -/
def saveBot (root : JsString) (args : CreateArgs) (derivationName : Option JsString)
    (publicKey : JsString) (privateKey : Option JsString) (state : BotRegistry) : Option BotRegistry :=
  let existing := state.bots.find? fun b => b.publicKey = publicKey
  let restored := existing.filter fun b => args.source = .imported && b.source ≠ .derived
    && b.privateKey.isNone && b.removedAt.isNone && b.ownerPersona = args.ownerPersona
  match restored with
  | some b =>
    let saved := { b with privateKey := privateKey }
    some { state with bots := state.bots.map fun bot => if bot.publicKey = publicKey then saved else bot }
  | none =>
    if existing.isSome || args.ownedPersonas.contains publicKey || args.occupiedKeys.contains publicKey
      || publicKey == root then none
    else
      let saved : BotRecord :=
        { publicKey := publicKey
          ownerPersona := args.ownerPersona
          label := args.label
          source := args.source
          derivationName := derivationName
          privateKey := privateKey
          ownership := none
          hidden := !state.showNew
          createdAt := args.now
          updatedAt := args.now
          removedAt := none }
      some { state with bots := state.bots ++ [saved] }

theorem allocated_saveBot {args : CreateArgs} {derivationName privateKey : Option JsString}
    {publicKey root : JsString} {x r : BotRegistry}
    (h : saveBot root args derivationName publicKey privateKey x = some r) :
    r.allocated = x.allocated := by
  unfold saveBot at h
  dsimp only at h
  split at h
  · obtain rfl := Option.some.inj h
    rfl
  · split at h
    · cases h
    · obtain rfl := Option.some.inj h
      rfl

/-! ## A device -/

structure Device where
  registry : BotRegistry
  /-- The creations that wait for the signer, with the name each was handed. -/
  waiting : List (CreateArgs × JsString)
  handed : List JsString

inductive Happening where
  /-- `createBot` of a derived bot, up to the signer. -/
  | ask (args : CreateArgs)
  /-- The signer has derived the bot of a creation. -/
  | derived (creation : CreateArgs × JsString) (publicKey : JsString)
  /-- A creation ends: the signer failed, or the session changed. -/
  | fail (creation : CreateArgs × JsString)
  /-- `createBot` of a bot with a key of its own. -/
  | keyed (args : CreateArgs) (privateKey : JsString)
  /-- A registry came in with the profiles. -/
  | merge (remote : BotRegistry)

def Device.store (d : Device) (update : BotRegistry → Option BotRegistry) : Device :=
  { d with registry := (update d.registry).getD d.registry }

/-- A device before any creation. -/
def Device.start (registry : BotRegistry) : Device where
  registry := registry
  waiting := []
  handed := []

theorem mem_allocated_store {d : Device} {update : BotRegistry → Option BotRegistry}
    (h : ∀ stored, update d.registry = some stored → ∀ name ∈ d.registry.allocated,
      name ∈ stored.allocated) :
    ∀ name ∈ d.registry.allocated, name ∈ (d.store update).registry.allocated := by
  intro name hname
  show name ∈ ((update d.registry).getD d.registry).allocated
  cases hupdate : update d.registry with
  | none => exact hname
  | some stored => exact h stored hupdate name hname

/-- The names handed out are different, and allocated. -/
structure Sound (d : Device) : Prop where
  distinct : d.handed.Nodup
  allocated : ∀ name ∈ d.handed, name ∈ d.registry.allocated

theorem Sound.store {d : Device} (h : Sound d) {update : BotRegistry → Option BotRegistry}
    (hkeeps : ∀ stored, update d.registry = some stored → ∀ name ∈ d.registry.allocated,
      name ∈ stored.allocated) : Sound (d.store update) where
  distinct := h.distinct
  allocated name hname := mem_allocated_store hkeeps name (h.allocated name hname)

section

variable [Platform] [Keys]

/-- `updateBotRegistry`: what is stored afterwards, `none` when it throws and nothing is stored. -/
def updateBotRegistry (root : JsString) (change : BotRegistry → Option BotRegistry)
    (stored : BotRegistry) : Option BotRegistry :=
  (change stored).bind fun state => parseBotRegistry state root

def Device.ask (root : JsString) (d : Device) (args : CreateArgs) : Device :=
  if args.allowed root = false ∨ args.source ≠ .derived then d
  else match updateBotRegistry root (fun state => some (reserve state)) d.registry with
    | none => d
    | some reserved =>
      match reserved.allocated.getLast? with
      | none => { d with registry := reserved }
      | some derivationName =>
        { registry := reserved
          waiting := d.waiting ++ [(args, derivationName)]
          handed := d.handed ++ [derivationName] }

def Device.next (root : JsString) (d : Device) : Happening → Device
  | .ask args => d.ask root args
  | .derived (args, name) publicKey =>
    if (args, name) ∈ d.waiting then
      { d with waiting := d.waiting.erase (args, name) }.store
        (updateBotRegistry root (saveBot root args (some name) publicKey none))
    else d
  | .fail creation => { d with waiting := d.waiting.erase creation }
  | .keyed args privateKey =>
    if args.allowed root = false ∨ args.source = .derived ∨ isHexOf 64 privateKey = false then d
    else d.store
      (updateBotRegistry root (saveBot root args none (Keys.getPublicKey privateKey) (some privateKey)))
  | .merge remote => d.store (updateBotRegistry root fun stored => mergeBotRegistry stored remote)

/-! ## Names stay allocated -/

variable {root : JsString} {x y r : BotRegistry} {d : Device}

theorem allocated_of_parse {data : BotRegistry} (h : parseBotRegistry data root = some r) :
    r.allocated = data.allocated := by
  unfold parseBotRegistry at h
  split_ifs at h
  obtain rfl := Option.some.inj h
  rfl

theorem mem_allocated_of_merge (h : mergeBotRegistry x y = some r) {name : JsString}
    (hname : name ∈ x.allocated) : name ∈ r.allocated := by
  unfold mergeBotRegistry at h
  split at h
  · cases h
  · obtain ⟨data, hdata, hparse⟩ := Option.bind_eq_some_iff.1 h
    rw [allocated_of_parse hparse]
    obtain ⟨bots, -, hmade⟩ := Option.bind_eq_some_iff.1 hdata
    obtain rfl := Option.some.inj hmade
    apply (List.perm_insertionSort _ _).mem_iff.2
    rw [mem_distinct, List.mem_append]
    exact .inl hname

theorem mem_allocated_updateSave {args : CreateArgs} {derivationName privateKey : Option JsString}
    {publicKey : JsString} {stored : BotRegistry}
    (h : updateBotRegistry root (saveBot root args derivationName publicKey privateKey) x = some stored) :
    ∀ name ∈ x.allocated, name ∈ stored.allocated := by
  obtain ⟨state, hsave, hparse⟩ := Option.bind_eq_some_iff.1 h
  intro name hname
  rw [allocated_of_parse hparse, allocated_saveBot hsave]
  exact hname

/-! ## Names are handed out once -/

/-- **A name that is handed out is a new one**: it is the one the reservation put last. -/
theorem Sound.ask (h : Sound d) (args : CreateArgs) : Sound (d.ask root args) := by
  unfold Device.ask
  split
  · exact h
  · cases hupdate : updateBotRegistry root (fun state => some (reserve state)) d.registry with
    | none => exact h
    | some reserved =>
      have hparse : parseBotRegistry (reserve d.registry) root = some reserved := hupdate
      have hvalid := valid_of_parse hparse
      have hallocated := allocated_of_parse hparse
      have hlast : reserved.allocated.getLast?
          = some (lit "bot-" ++ digitsText (nextNumber d.registry.allocated)) := by
        rw [hallocated]
        exact List.getLast?_concat
      dsimp only
      rw [hlast]
      have hnew := hvalid.distinctNames
      rw [hallocated] at hnew
      obtain ⟨-, -, hdisjoint⟩ := List.nodup_append.1 hnew
      have hmem : ∀ name ∈ d.registry.allocated, name ∈ reserved.allocated := by
        intro name hname
        rw [hallocated]
        exact List.mem_append_left _ hname
      refine { distinct := ?_, allocated := ?_ }
      · apply List.nodup_append.2
        refine ⟨h.distinct, List.nodup_singleton _, ?_⟩
        intro name hname name' hname'
        exact hdisjoint name (h.allocated name hname) name' hname'
      · intro name hname
        rcases List.mem_append.1 hname with hold | hlastName
        · exact hmem name (h.allocated name hold)
        · rw [hallocated]
          exact List.mem_append_right _ hlastName

theorem Sound.next (h : Sound d) (a : Happening) : Sound (d.next root a) := by
  cases a with
  | ask args => exact h.ask args
  | derived creation publicKey =>
    obtain ⟨args, name⟩ := creation
    show Sound (if (args, name) ∈ d.waiting then _ else d)
    split
    · have hwait : Sound { d with waiting := d.waiting.erase (args, name) } := ⟨h.distinct, h.allocated⟩
      apply hwait.store
      intro stored hstored
      exact mem_allocated_updateSave hstored
    · exact h
  | fail creation => exact ⟨h.distinct, h.allocated⟩
  | keyed args privateKey =>
    show Sound (if _ then d else _)
    split
    · exact h
    · apply h.store
      intro stored hstored
      exact mem_allocated_updateSave hstored
  | merge remote =>
    apply h.store
    intro stored hstored name hname
    obtain ⟨merged, hmerge, hparse⟩ := Option.bind_eq_some_iff.1 hstored
    rw [allocated_of_parse hparse]
    exact mem_allocated_of_merge hmerge hname

theorem handed_nodup {w : Device} (h : Reaches (Device.next root) (fun _ _ => True)
    (Device.start x) w) : w.handed.Nodup := by
  have hsound : Sound w := by
    apply Reaches.invariant _ _ h
    · exact ⟨List.nodup_nil, fun name hname => by cases hname⟩
    · intro t a ht _
      exact ht.next a
  exact hsound.distinct

/-! ## The registries of one owner -/

/-- The check accepts the registry as it is, as it does what it returned before. -/
def Accepted (root : JsString) (r : BotRegistry) : Prop :=
  parseBotRegistry r root = some r

/-- The bots and names of the two are not too many, and the text of the merge is not too long. -/
structure Fits (x y : BotRegistry) : Prop where
  bots : (distinct ((x.bots ++ y.bots).map BotRecord.publicKey)).length ≤ maxBots
  allocated : (distinct (x.allocated ++ y.allocated)).length ≤ maxAllocated
  text : ∀ data, mergedData x y = some data → textLength data.toJs ≤ maxRegistryText

/-- What the merge of three registries is. -/
structure Converges (root : JsString) (x y z : BotRegistry) : Prop where
  comm : mergeBotRegistry (botRegistrySnapshot x) (botRegistrySnapshot y)
    = mergeBotRegistry (botRegistrySnapshot y) (botRegistrySnapshot x)
  assoc : ∀ xy yz, mergeBotRegistry (botRegistrySnapshot x) (botRegistrySnapshot y) = some xy →
    mergeBotRegistry (botRegistrySnapshot y) (botRegistrySnapshot z) = some yz →
    mergeBotRegistry xy (botRegistrySnapshot z) = mergeBotRegistry (botRegistrySnapshot x) yz
  idem : mergeBotRegistry (botRegistrySnapshot x) (botRegistrySnapshot x)
    = some (botRegistrySnapshot x)
  /-- What came in is merged where it fits, into a snapshot and into the registry of the device. -/
  accepted : ∀ own, own = x ∨ own = botRegistrySnapshot x → Fits own (botRegistrySnapshot y) →
    ∃ r, mergeBotRegistry own (botRegistrySnapshot y) = some r ∧ Accepted root r
  keeps : ∀ own, own = x ∨ own = botRegistrySnapshot x → ∀ r,
    mergeBotRegistry own (botRegistrySnapshot y) = some r → Keeps own (botRegistrySnapshot y) r

section

variable {z : BotRegistry} {f : Family}

theorem Accepted.valid (h : Accepted root x) : Valid root x := valid_of_parse h

theorem Accepted.text (h : Accepted root x) : textLength x.toJs ≤ maxRegistryText := by
  unfold Accepted parseBotRegistry at h
  split_ifs at h with hroot htext
  exact not_lt.1 htext

theorem merge_accepted (hx : Valid root x) (hy : Valid root y) (hkx : Known f x) (hky : Known f y)
    (hkeys : ∀ bot ∈ y.bots, bot.privateKey = none) (hfits : Fits x y) :
    ∃ r, mergeBotRegistry x y = some r ∧ Accepted root r := by
  obtain ⟨data, hdata, hjoined⟩ := mergedData_eq hx.oneEach hy.oneEach hkeys (hkx.agreeOn hky)
  have hvalid : Valid root data := by
    apply hjoined.valid hx hy hkx hky
    · rw [hjoined.length_bots hx.oneEach hy.oneEach hkeys]
      exact hfits.bots
    · rw [hjoined.length_allocated]
      exact hfits.allocated
  have hparse := parse_of_valid hvalid (hfits.text data hdata)
  refine ⟨data, ?_, hparse⟩
  rw [mergeBotRegistry_eq (hx.ownerRoot.trans hy.ownerRoot.symm) hdata, hx.ownerRoot]
  exact hparse

theorem merge_keeps (hx : Valid root x) (hy : Valid root y) (hkx : Known f x) (hky : Known f y)
    (hkeys : ∀ bot ∈ y.bots, bot.privateKey = none) (h : mergeBotRegistry x y = some r) :
    Keeps x y r := by
  obtain ⟨data, hdata, hjoined⟩ := mergedData_eq hx.oneEach hy.oneEach hkeys (hkx.agreeOn hky)
  obtain rfl := joined_of_merge hx hy hdata hjoined h
  exact hjoined.keeps hx.oneEach hy.oneEach hkeys

theorem converges (hx : Accepted root x) (hy : Accepted root y) (hz : Accepted root z)
    (hagree : Agree (x.bots ++ y.bots ++ z.bots)) (hc : Consistent (x.bots ++ y.bots ++ z.bots)) :
    Converges root x y z := by
  have hsubx : ∀ bot ∈ x.bots, bot ∈ x.bots ++ y.bots ++ z.bots := fun bot hbot =>
    List.mem_append_left _ (List.mem_append_left _ hbot)
  have hsuby : ∀ bot ∈ y.bots, bot ∈ x.bots ++ y.bots ++ z.bots := fun bot hbot =>
    List.mem_append_left _ (List.mem_append_right _ hbot)
  have hsubz : ∀ bot ∈ z.bots, bot ∈ x.bots ++ y.bots ++ z.bots := fun bot hbot =>
    List.mem_append_right _ hbot
  have hwx := @within_familyOf _ _ root x _ hagree hc hx.valid hsubx
  have hwy := @within_familyOf _ _ root y _ hagree hc hy.valid hsuby
  have hwz := @within_familyOf _ _ root z _ hagree hc hz.valid hsubz
  have hkeys : ∀ bot ∈ (botRegistrySnapshot y).bots, bot.privateKey = none := fun bot hbot =>
    (hwy.among bot hbot).privateKey
  have hown : ∀ own, own = x ∨ own = botRegistrySnapshot x →
      Valid root own ∧ Known (familyOf _ hagree hc) own := by
    rintro own (rfl | rfl)
    · exact ⟨hx.valid, known_familyOf hsubx⟩
    · exact ⟨hx.valid.snapshot, hwx.known⟩
  have hroot : (botRegistrySnapshot x).ownerRoot = (botRegistrySnapshot y).ownerRoot :=
    hx.valid.ownerRoot.trans hy.valid.ownerRoot.symm
  refine { comm := merge_comm hwx hwy hroot, assoc := ?_, idem := ?_, accepted := ?_, keeps := ?_ }
  · intro xy yz hxy hyz
    exact merge_assoc hx.valid.snapshot hy.valid.snapshot hz.valid.snapshot hwx hwy hwz hxy hyz
  · apply merge_self hx.valid.snapshot hwx
    exact hx.valid.length_snapshot_le.trans hx.text
  · intro own hcases hfits
    obtain ⟨hvalid, hknown⟩ := hown own hcases
    exact merge_accepted hvalid hy.valid.snapshot hknown hwy.known hkeys hfits
  · intro own hcases r hr
    obtain ⟨hvalid, hknown⟩ := hown own hcases
    exact merge_keeps hvalid hy.valid.snapshot hknown hwy.known hkeys hr

end

/-- **Registries of one owner that agree converge, and no name is handed out twice.** -/
theorem registries_converge :
    (∀ root x y z, Accepted root x → Accepted root y → Accepted root z →
      Agree (x.bots ++ y.bots ++ z.bots) → Consistent (x.bots ++ y.bots ++ z.bots) →
      Converges root x y z) ∧
    ∀ root x w, Reaches (Device.next root) (fun _ _ => True) (Device.start x) w → w.handed.Nodup := by
  refine ⟨?_, ?_⟩
  · intro root x y z hx hy hz hagree hc
    exact converges hx hy hz hagree hc
  · intro root x w hw
    exact handed_nodup hw

end

/-! ## Where the check is not enough -/

/-- The last digits of a number, before what follows. -/
def hexText : ℕ → ℕ → JsString → JsString
  | 0, _, rest => rest
  | k + 1, n, rest => hexText k (n / 16) (hexDigit (Fin.ofNat 16 n) :: rest)

/-- The second root, the first bot and the third persona of the curve. -/
def sampleRoot : JsString := hexText 64
  0xc6047f9441ed7d6d3045406e95c07cd85c778e4b8cef3ca7abac09b95c709ee5 []
def sampleBot : JsString := hexText 64
  0x79be667ef9dcbbac55a06295ce870b07029bfcdb2dce28d959f2815b16f81798 []
def sampleOwner : JsString := hexText 64
  0xf9308a019258c31049344f85f89d5229b531c845836f99b08601f113bce036f9 []
def sampleKey : JsString := hexText 64 1 []

/-- The owner's claim to the bot, with a signature. -/
def sampleEvent (sig : ℕ) : NostrEvent where
  id := hexText 64 0x1ab2fb6e2203d3de128f4cdde9cc5cdfe6d1be1ecc92b454020a20f9664a04bd []
  pubkey := sampleOwner
  created_at := 1700000000
  kind := 31000
  tags := [[lit "d", lit "bot-ownership:" ++ sampleBot], [lit "type", lit "bot-ownership"],
    [lit "p", sampleBot]]
  content := []
  sig := hexText 128 sig []

/-- Two valid signatures of the claim. -/
def sampleSigned : NostrEvent := sampleEvent
  0xe524071160bd071c1eeec2a9b58d8ceef4b56d001a37e42024fea96cad922e3f7c6a9d1d348875a5cfb3ea0cc4f966c3bda051f47770da79a27d54444e185cba
def sampleSignedAgain : NostrEvent := sampleEvent
  0xe5e925b3c26ee63153dd71a0a7bc57547cebe4ebfc458dd286b10a2eb49b03b0e0d2803119e19cc49892c6a6487978b5cee16f4e7f6e86191c7b33ad2b1128e4

@[reducible] def sampleKeys : Keys where
  verifyEvent e := e = sampleSigned || e = sampleSignedAgain
  getPublicKey key := if key = sampleKey then sampleBot else []

def sampleRecord (privateKey : Option JsString) (ownership : Option BotOwnershipState)
    (removedAt : Option ℚ) : BotRecord where
  publicKey := sampleBot
  ownerPersona := sampleOwner
  label := lit "Post"
  source := .imported
  derivationName := none
  privateKey := privateKey
  ownership := ownership
  hidden := false
  createdAt := 1700000000
  updatedAt := 1700000000
  removedAt := removedAt

def sampleRegistry (bots : List BotRecord) : BotRegistry := { empty sampleRoot with bots := bots }

def sampleClaim (event : NostrEvent) (publishedEventId : Option JsString) : BotOwnershipState where
  event := event
  publishRequested := true
  publishedEventId := publishedEventId
  lastAttemptAt := none

theorem agree_singleton (bot : BotRecord) : Agree ([bot] ++ [] ++ []) := by
  have heq : ∀ a ∈ [bot] ++ [] ++ [], a = bot := by simp
  refine { immutable := ?_, names := ?_ }
  · intro a ha b hb hkey
    rw [conflicts_eq_false_iff hkey, heq a ha, heq b hb]
  · intro a ha b hb _ _
    rw [heq a ha, heq b hb]

section

attribute [local instance] samplePlatform sampleKeys

/-- A bot that was removed here and is not told of keeps its key. A claim that is said to have been
published under another id is no longer so once merged with itself. And of two signatures of one
claim the merge keeps the one that was here. -/
theorem check_not_enough :
    (∃ x y r, Accepted sampleRoot x ∧ Accepted sampleRoot y ∧ Agree (x.bots ++ y.bots ++ y.bots) ∧
      mergeBotRegistry x (botRegistrySnapshot y) = some r ∧
      ∃ bot ∈ r.bots, bot.removedAt ≠ none ∧ bot.privateKey ≠ none) ∧
    (∃ x, Accepted sampleRoot x ∧ mergeBotRegistry (botRegistrySnapshot x) (botRegistrySnapshot x)
      ≠ some (botRegistrySnapshot x)) ∧
    ∃ x y, Accepted sampleRoot x ∧ Accepted sampleRoot y ∧
      mergeBotRegistry (botRegistrySnapshot x) (botRegistrySnapshot y)
        ≠ mergeBotRegistry (botRegistrySnapshot y) (botRegistrySnapshot x) := by
  refine ⟨⟨sampleRegistry [sampleRecord (some sampleKey) none (some 1700000000)], sampleRegistry [],
      sampleRegistry [sampleRecord (some sampleKey) none (some 1700000000)], ?_, ?_, ?_, ?_, ?_⟩,
    ⟨sampleRegistry [sampleRecord none (some (sampleClaim sampleSigned (some sampleKey))) none], ?_, ?_⟩,
    ⟨sampleRegistry [sampleRecord none (some (sampleClaim sampleSigned none)) none],
      sampleRegistry [sampleRecord none (some (sampleClaim sampleSignedAgain none)) none], ?_, ?_, ?_⟩⟩
  · unfold Accepted
    decide +kernel
  · unfold Accepted
    decide +kernel
  · apply agree_singleton
  · decide +kernel
  · exact ⟨_, List.mem_singleton_self _, by decide, by decide⟩
  · unfold Accepted
    decide +kernel
  · decide +kernel
  · unfold Accepted
    decide +kernel
  · unfold Accepted
    decide +kernel
  · decide +kernel

/-- A bot that is live here and was removed elsewhere, and a run in which a bot is created. -/
theorem registries_converge_sample :
    Converges sampleRoot (sampleRegistry [sampleRecord (some sampleKey) none none])
      (sampleRegistry [sampleRecord none none (some 1700000001)]) (sampleRegistry []) ∧
    ((Device.start (empty sampleRoot)).next sampleRoot
      (.ask { ownerPersona := sampleOwner, ownedPersonas := [sampleOwner], label := lit "Post",
              now := 1700000000, source := .derived, occupiedKeys := [] })).handed.Nodup := by
  have hmem : ∀ a ∈ [sampleRecord (some sampleKey) none none]
      ++ [sampleRecord none none (some 1700000001)] ++ [],
      a.identity = (sampleRecord none none none).identity ∧ a.ownership = none := by
    intro a ha
    simp only [List.append_nil, List.cons_append, List.nil_append, List.mem_cons, List.not_mem_nil,
      or_false] at ha
    rcases ha with rfl | rfl
    · exact ⟨rfl, rfl⟩
    · exact ⟨rfl, rfl⟩
  refine ⟨?_, ?_⟩
  · apply registries_converge.1
    · unfold Accepted
      decide +kernel
    · unfold Accepted
      decide +kernel
    · unfold Accepted
      decide +kernel
    · refine { immutable := ?_, names := ?_ }
      · intro a ha b hb hkey
        rw [conflicts_eq_false_iff hkey, (hmem a ha).1, (hmem b hb).1]
      · intro a ha b hb _ _
        exact congrArg Identity.publicKey ((hmem a ha).1.trans (hmem b hb).1.symm)
    · have hnone : ∀ claim, ¬ Claims ([sampleRecord (some sampleKey) none none]
          ++ [sampleRecord none none (some 1700000001)] ++ []) claim := by
        rintro claim ⟨bot, hbot, hclaim⟩
        cases (hmem bot hbot).2.symm.trans hclaim
      exact { published := fun claim hclaim => absurd hclaim (hnone claim)
              events := fun claim hclaim => absurd hclaim (hnone claim) }
  · apply registries_converge.2 sampleRoot (empty sampleRoot)
    exact Reaches.refl.tail trivial

end

end SignetApp.Bots
