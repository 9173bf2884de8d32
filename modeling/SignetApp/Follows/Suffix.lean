import SignetApp.Contacts.Encoding
import SignetApp.Contacts.Membership
import SignetApp.Contacts.Mutations
import SignetApp.Contacts.Sanitize
import SignetApp.Sync.Projection

/-!
# Importing a follow list

`contacts-v2-follows-import.ts`, `planFollowsImport`: the operations that an import writes, of the most recent
follows that still fit into one checkpoint.
-/

namespace SignetApp.Follows

open SignetApp.Js SignetApp.Sync
open SignetApp.Contacts (RawOperation ContactRecord DirectoryId Hex32 Hex64 MutationActor OriginMethod ContactActorRole
  contactBelongsToList sanitizeDisplayName)

def checkpointImportLineBytes : ℕ := 1572864

def checkpointImportLineOps : ℕ := 48000

def projectionSeq : ℕ := 999999999

/-! ## Clocks -/

/-- The number that is nearest to an integer, the even one of two. -/
def toDouble (n : ℕ) : ℕ :=
  let unit := 2 ^ (Nat.log2 n - 52)
  let below := n / unit
  let rest := n % unit
  if unit < 2 * rest ∨ 2 * rest = unit ∧ below % 2 = 1 then (below + 1) * unit else below * unit

/-- `clock += 1`. -/
def addOne (clock : ℕ) : ℕ := toDouble (clock + 1)

/-! ## Operations -/

inductive ImportAction where
  | linkList (ownerIdentityPubkey : Hex64)
  | add (displayName : JsString) (ownerIdentityPubkey : Hex64)
  | addIdentity (itemId : Hex32) (pubkey : Hex64)
  | recordOrigin (id : Hex32) (ownerIdentityPubkey : Hex64) (method : OriginMethod) (addedAt : Timestamp)
      (caption : JsString)

def ImportAction.name : ImportAction → String
  | .linkList _ => "link-list"
  | .add _ _ => "add"
  | .addIdentity _ _ => "add-identity"
  | .recordOrigin _ _ _ _ _ => "record-origin"

def ImportAction.value : ImportAction → JsObject
  | .linkList owner => [("ownerIdentityPubkey", owner.toJs)]
  | .add displayName owner => [("type", .ofLit "person"), ("displayName", .str displayName), ("tier", .ofLit "ken"),
      ("ownerIdentityPubkey", owner.toJs)]
  | .addIdentity itemId pubkey => [("itemId", itemId.toJs), ("pubkey", pubkey.toJs), ("provenance", .ofLit "direct"),
      ("verification", .ofLit "unverified")]
  | .recordOrigin id owner method addedAt caption => [("id", id.toJs), ("ownerIdentityPubkey", owner.toJs),
      ("method", StringUnion.toJs method), ("addedAt", addedAt.toJs), ("caption", .str caption)]

/-- What `buildOperation` gives of a draft, and the list of the person who edits, of an origin. -/
structure ImportOperation where
  operationId : Hex32
  directoryId : DirectoryId
  contactId : Hex32
  actor : MutationActor
  logicalClock : ℕ
  action : ImportAction
  createdAt : Timestamp
  ownerIdentityPubkey : Option Hex64 := none

/-- The operation as a row. -/
def ImportOperation.toJs (op : ImportOperation) : RawOperation :=
  [("operationId", op.operationId.toJs), ("directoryId", op.directoryId.toJs), ("contactId", op.contactId.toJs),
    ("actorPubkey", op.actor.actorPubkey.toJs), ("actorRole", StringUnion.toJs op.actor.actorRole),
    ("actorDeviceId", op.actor.actorDeviceId.toJs), ("logicalClock", .ofNat op.logicalClock),
    ("action", .ofLit op.action.name), ("value", .obj op.action.value), ("createdAt", op.createdAt.toJs)] ++
  op.ownerIdentityPubkey.toList.map fun owner => ("ownerIdentityPubkey", owner.toJs)

/-! ## Entries -/

structure FollowImportEntry where
  pubkey : JsString
  displayName : JsString

/-- An entry under its key. -/
structure KeyedEntry where
  pubkey : Hex64
  displayName : JsString

/-- The ids that are drawn for one entry. -/
structure ImportIds where
  contactId : Hex32
  itemId : Hex32
  originId : Hex32
  first : Hex32
  second : Hex32
  third : Hex32

structure ImportArgs where
  entries : List FollowImportEntry
  ownerIdentityPubkey : Hex64
  originMethod : OriginMethod
  caption : JsString
  directoryId : DirectoryId
  /-- The directory's reduced records, removed ones included. -/
  records : List ContactRecord
  actor : MutationActor
  /-- Highest clock in the log. -/
  baseClock : ℕ
  now : Timestamp
  /-- The whole log, of every directory: it is what is checkpointed. -/
  wholeLog : List RawOperation
  ids : ℕ → ImportIds
  lineBytes : Option ℕ := none
  lineOps : Option ℕ := none

/-- The step of the index by key: a live record is preferred. -/
def indexKey (byKey : OrderedMap Hex64 ContactRecord) (record : ContactRecord) (key : Hex64) :
    OrderedMap Hex64 ContactRecord :=
  match byKey.get key with
  | none => byKey.set key record
  | some held =>
    if held.lifecycle = .removed ∧ record.lifecycle ≠ .removed then byKey.set key record else byKey

def indexRecord (byKey : OrderedMap Hex64 ContactRecord) (record : ContactRecord) : OrderedMap Hex64 ContactRecord :=
  record.identities.foldl (fun byKey identity => indexKey byKey record identity.pubkey) byKey

/-- `byKey`. -/
def recordsByKey (records : List ContactRecord) : OrderedMap Hex64 ContactRecord :=
  records.foldl indexRecord .empty

structure Deduping where
  seenKeys : List Hex64
  seenContacts : List Hex32
  entries : List KeyedEntry

def nameOf (displayName : JsString) : JsString :=
  let name := sanitizeDisplayName displayName 100
  if name = [] then lit "Unnamed" else name

/-- One entry of the list: once by key, and once by the contact it resolves to. -/
def dedupeStep (byKey : OrderedMap Hex64 ContactRecord) (d : Deduping) (entry : FollowImportEntry) : Deduping :=
  match isHex 64 (.str (toLowerCase entry.pubkey)) with
  | none => d
  | some key =>
    if d.seenKeys.contains key then d
    else
      let seenKeys := d.seenKeys ++ [key]
      let entries := d.entries ++ [⟨key, nameOf entry.displayName⟩]
      match byKey.get key with
      | none => { d with seenKeys, entries }
      | some existing =>
        if d.seenContacts.contains existing.contactId then { d with seenKeys }
        else ⟨seenKeys, d.seenContacts ++ [existing.contactId], entries⟩

def dedupe (byKey : OrderedMap Hex64 ContactRecord) (entries : List FollowImportEntry) : List KeyedEntry :=
  (entries.foldl (dedupeStep byKey) ⟨[], [], []⟩).entries

/-! ## Drafts -/

inductive GroupKind where
  | added | linked
  deriving DecidableEq

structure Group where
  kind : GroupKind
  /-- Index of the entry in the deduped input. -/
  entryIndex : ℕ
  ops : List ImportOperation

/-- Operations under one clock after another. -/
def stampFrom : ℕ → List ImportOperation → List ImportOperation
  | _, [] => []
  | clock, op :: ops => { op with logicalClock := addOne clock } :: stampFrom (addOne clock) ops

/-- What an entry comes to. -/
inductive Outcome where
  | unchanged
  | skipped
  | work (group : Group)

def Outcome.group? : Outcome → Option Group
  | .work group => some group
  | _ => none

def Outcome.isUnchanged : Outcome → Bool
  | .unchanged => true
  | _ => false

def Outcome.isSkipped : Outcome → Bool
  | .skipped => true
  | _ => false

namespace ImportArgs

variable (args : ImportArgs)

/-- Drafts carry placeholder clocks; the survivors are stamped afterwards. -/
def make (contactId operationId : Hex32) (action : ImportAction) : ImportOperation where
  operationId
  directoryId := args.directoryId
  contactId
  actor := args.actor
  logicalClock := 1
  action
  createdAt := args.now

def origin (contactId id operationId : Hex32) : ImportOperation :=
  { args.make contactId operationId
      (.recordOrigin id args.ownerIdentityPubkey args.originMethod args.now args.caption) with
    ownerIdentityPubkey := some args.ownerIdentityPubkey }

/-- One entry of `entries.forEach`. -/
def outcomeOf (byKey : OrderedMap Hex64 ContactRecord) (entry : KeyedEntry) (entryIndex : ℕ) : Outcome :=
  let ids := args.ids entryIndex
  match byKey.get entry.pubkey with
  | some existing =>
    if existing.lifecycle = .removed then .skipped -- on purpose: never revived by an import
    else if contactBelongsToList existing args.ownerIdentityPubkey then .unchanged
    else
      let link := args.make existing.contactId ids.first (.linkList args.ownerIdentityPubkey)
      .work ⟨.linked, entryIndex,
        if (existing.origins.getD []).length < 64 then [link, args.origin existing.contactId ids.originId ids.second]
        else [link]⟩
  | none =>
    .work ⟨.added, entryIndex,
      [args.make ids.contactId ids.first (.add entry.displayName args.ownerIdentityPubkey),
        args.make ids.contactId ids.second (.addIdentity ids.itemId entry.pubkey),
        args.origin ids.contactId ids.originId ids.third]⟩

def byKey : OrderedMap Hex64 ContactRecord := recordsByKey args.records

/-- The entries that are worked on. -/
def dedupedEntries : List KeyedEntry := dedupe args.byKey args.entries

def outcomes : List Outcome :=
  args.dedupedEntries.zipIdx.map fun p => args.outcomeOf args.byKey p.1 p.2

def groups : List Group := args.outcomes.filterMap Outcome.group?

def unchanged : ℕ := (args.outcomes.filter Outcome.isUnchanged).length

def skippedIdx : List ℕ := (args.outcomes.zipIdx.filter fun p => p.1.isSkipped).map Prod.snd

/-! ## Stamps and sizes -/

/-- The groups from one on, stamped. -/
def stamp (start : ℕ) : List ImportOperation :=
  stampFrom args.baseClock ((args.groups.drop start).flatMap Group.ops)

variable [Platform]

def fitsFrom (start : ℕ) : Bool :=
  let existingSizes := args.wholeLog.map operationWireBytes
  let added := args.stamp start
  if args.lineOps.getD checkpointImportLineOps < existingSizes.length + added.length then false
  else
    let projection := projectCheckpointFromSizes
      (existingSizes ++ added.map fun op => operationWireBytes op.toJs) projectionSeq
    projection.fits && projection.bytes ≤ (args.lineBytes.getD checkpointImportLineBytes : ℕ)

end ImportArgs

/-- The loop of the search: `hi` fits and `lo` does not; as many turns as they are apart are enough. -/
def searchStart (fits : ℕ → Bool) : ℕ → ℕ → ℕ → ℕ
  | 0, _, hi => hi
  | turns + 1, lo, hi =>
    if 1 < hi - lo then
      let mid := (lo + hi) / 2
      if fits mid then searchStart fits turns lo mid else searchStart fits turns mid hi
    else hi

/-! ## The plan -/

structure FollowImportPlan where
  ops : List ImportOperation
  added : ℕ
  linked : ℕ
  unchanged : ℕ
  skippedRemoved : ℕ
  covered : ℕ
  trimmed : Bool

/-- Unchanged follows inside the covered part of the list. -/
def countUnchangedFrom (entries : List KeyedEntry) (groups : List Group) (skipped : List ℕ)
    (firstKeptEntry : ℕ) : ℕ :=
  ((List.range entries.length).filter fun i =>
    firstKeptEntry ≤ i && (!(groups.map Group.entryIndex).contains i && !skipped.contains i)).length

variable [Platform]

/-- The first group that is kept. -/
def ImportArgs.keptFrom (args : ImportArgs) : ℕ :=
  if 0 < args.groups.length ∧ args.fitsFrom 0 = false then
    searchStart args.fitsFrom args.groups.length 0 args.groups.length
  else 0

def planFollowsImport (args : ImportArgs) : FollowImportPlan :=
  let kept := args.groups.drop args.keptFrom
  let trimmed : Bool := 0 < args.keptFrom
  let firstKeptEntry := kept.head?.elim args.dedupedEntries.length Group.entryIndex
  { ops := args.stamp args.keptFrom
    added := (kept.filter fun g => g.kind = .added).length
    linked := (kept.filter fun g => g.kind = .linked).length
    unchanged :=
      if trimmed then countUnchangedFrom args.dedupedEntries args.groups args.skippedIdx firstKeptEntry
      else args.unchanged
    skippedRemoved :=
      if trimmed then (args.skippedIdx.filter fun i => firstKeptEntry ≤ i).length else args.skippedIdx.length
    covered := if trimmed then args.dedupedEntries.length - firstKeptEntry else args.dedupedEntries.length
    trimmed }

end SignetApp.Follows

/-!
## The longest suffix that fits

A suffix of the groups that fits leaves no shorter one out: the stamps of what is left become no longer, and what
is packed after them goes no further.
-/

namespace SignetApp.Follows

open SignetApp.Js SignetApp.Sync
open SignetApp.Contacts (RawOperation Hex32 Hex64)

/-! ## The search -/

section

variable {fits : ℕ → Bool}

theorem searchStart_spec {turns lo hi : ℕ} (hturns : hi - lo ≤ turns) (hlt : lo < hi) (hlo : fits lo = false) :
    lo < searchStart fits turns lo hi ∧ searchStart fits turns lo hi ≤ hi ∧
      fits (searchStart fits turns lo hi - 1) = false ∧
      (searchStart fits turns lo hi = hi ∨ fits (searchStart fits turns lo hi) = true) := by
  induction turns generalizing lo hi with
  | zero => omega
  | succ turns ih =>
    rw [searchStart]
    split
    · dsimp only
      cases hmid : fits ((lo + hi) / 2) with
      | true =>
        obtain ⟨hgt, hle, hbefore, hfits⟩ := @ih lo ((lo + hi) / 2) (by omega) (by omega) hlo
        rw [if_pos rfl]
        refine ⟨hgt, by omega, hbefore, ?_⟩
        rcases hfits with heq | hfits
        · rw [heq]
          exact .inr hmid
        · exact .inr hfits
      | false =>
        rw [if_neg (by decide)]
        obtain ⟨hgt, hle, hbefore, hfits⟩ := @ih ((lo + hi) / 2) hi (by omega) (by omega) hmid
        exact ⟨by omega, hle, hbefore, hfits⟩
    · rename_i hnext
      have heq : hi - 1 = lo := by omega
      exact ⟨hlt, le_rfl, by rw [heq]; exact hlo, .inl rfl⟩

end

/-! ## Clocks -/

theorem toDouble_of_lt {n : ℕ} (h : n < 2 ^ 53) : toDouble n = n := by
  have hlog : Nat.log2 n - 52 = 0 := by
    by_cases hn : n = 0
    · rw [hn]
      decide
    · have := (Nat.log2_lt hn).2 h
      omega
  simp [toDouble, hlog, Nat.mod_one]

variable {clock : ℕ}

theorem addOne_eq (h : clock < 2 ^ 53) : addOne clock = clock + 1 := by
  rcases Nat.lt_or_eq_of_le (Nat.succ_le_of_lt h) with hlt | heq
  · exact toDouble_of_lt hlt
  · have hclock : clock = 2 ^ 53 - 1 := by omega
    rw [hclock]
    decide

variable {ops : List ImportOperation}

theorem clocks_stampFrom (h : clock + ops.length ≤ 2 ^ 53) :
    (stampFrom clock ops).map ImportOperation.logicalClock = (List.range ops.length).map fun i => clock + 1 + i := by
  induction ops generalizing clock with
  | nil => rfl
  | cons op ops ih =>
    rw [List.length_cons] at h
    have hone : addOne clock = clock + 1 := addOne_eq (by omega)
    rw [stampFrom, List.map_cons, hone, ih (by omega), List.length_cons, List.range_succ_eq_map, List.map_cons,
      List.map_map]
    refine congrArg₂ List.cons rfl (List.map_congr_left fun i _ => ?_)
    show clock + 1 + 1 + i = clock + 1 + (i + 1)
    omega

@[simp] theorem length_stampFrom (clock : ℕ) (ops : List ImportOperation) :
    (stampFrom clock ops).length = ops.length := by
  induction ops generalizing clock with
  | nil => rfl
  | cons op ops ih => rw [stampFrom, List.length_cons, ih, List.length_cons]

theorem stampFrom_append {ops' : List ImportOperation} (h : clock + ops.length ≤ 2 ^ 53) :
    stampFrom clock (ops ++ ops') = stampFrom clock ops ++ stampFrom (clock + ops.length) ops' := by
  induction ops generalizing clock with
  | nil => rfl
  | cons op ops ih =>
    rw [List.length_cons] at h
    have hone : addOne clock = clock + 1 := addOne_eq (by omega)
    have hclock : clock + 1 + ops.length = clock + (op :: ops).length := by rw [List.length_cons]; omega
    rw [List.cons_append, stampFrom, stampFrom, hone, ih (by omega), hclock, List.cons_append]

theorem mem_stampFrom {op : ImportOperation} (h : op ∈ stampFrom clock ops) :
    ∃ draft ∈ ops, op = { draft with logicalClock := op.logicalClock } := by
  induction ops generalizing clock with
  | nil => cases h
  | cons draft ops ih =>
    rcases List.mem_cons.1 h with rfl | h
    · exact ⟨draft, List.mem_cons_self, rfl⟩
    · obtain ⟨draft', hdraft, heq⟩ := ih h
      exact ⟨draft', List.mem_cons_of_mem _ hdraft, heq⟩

/-! ## Sizes -/

section

variable [Platform]

theorem chunkHeader_le (hdecimal : IntegersInDecimal) (seq : ℕ) {i j : ℕ} (h : i ≤ j) (hj : j < 10 ^ 21) :
    chunkHeader seq i ≤ chunkHeader seq j := by
  have hindex := utf8Length_ofNat_le hdecimal h hj
  unfold chunkHeader
  rw [utf8Length_jsonText_obj, utf8Length_jsonText_obj]
  · simp only [memberBytes_cons, memberBytes_nil]
    omega
  all_goals simp [JsValue.ofNat, JsValue.ofLit]

theorem chunkHeader_pos (seq index : ℕ) : 1 ≤ chunkHeader seq index := by
  unfold chunkHeader
  rw [utf8Length_jsonText_obj]
  · omega
  all_goals simp [JsValue.ofNat, JsValue.ofLit]

variable {clock clock' : ℕ}

theorem operationWireBytes_le (hdecimal : IntegersInDecimal) (op : ImportOperation)
    (h : clock ≤ clock') (hclock : clock' < 10 ^ 21) :
    operationWireBytes { op with logicalClock := clock }.toJs ≤
      operationWireBytes { op with logicalClock := clock' }.toJs := by
  have hnumber := utf8Length_ofNat_le hdecimal h hclock
  have howner : ∀ owner : Option Hex64, owner.toList = [] ∨ ∃ o, owner.toList = [o] := by
    intro owner
    cases owner with
    | none => exact .inl rfl
    | some o => exact .inr ⟨o, rfl⟩
  unfold operationWireBytes
  rw [utf8Length_jsonText_obj, utf8Length_jsonText_obj]
  · simp only [ImportOperation.toJs, List.cons_append, List.nil_append, memberBytes_cons]
    omega
  all_goals
    rcases howner op.ownerIdentityPubkey with h | ⟨o, h⟩ <;>
      simp [ImportOperation.toJs, h, JsValue.ofNat, JsValue.ofLit, Hex.toJs, StringUnion.toJs, Contacts.DirectoryId.toJs,
        Timestamp.toJs]

theorem sizes_stampFrom_le (hdecimal : IntegersInDecimal) (h : clock ≤ clock')
    {ops : List ImportOperation} (hclock : clock' + ops.length ≤ 2 ^ 53) :
    List.Forall₂ (· ≤ ·) ((stampFrom clock ops).map fun op => operationWireBytes op.toJs)
      ((stampFrom clock' ops).map fun op => operationWireBytes op.toJs) := by
  induction ops generalizing clock clock' with
  | nil => exact .nil
  | cons op ops ih =>
    rw [List.length_cons] at hclock
    have hone : addOne clock = clock + 1 := addOne_eq (by omega)
    have hone' : addOne clock' = clock' + 1 := addOne_eq (by omega)
    simp only [stampFrom, List.map_cons, hone, hone']
    refine .cons ?_ (ih (by omega) (by omega))
    exact operationWireBytes_le hdecimal op (by omega) (by omega)

end

/-! ## What fits -/

section

variable [Platform]

theorem projection_le (hdecimal : IntegersInDecimal) {seq : ℕ} {first out rest rest' : List ℕ} {limit : ℕ}
    (hitems : List.Forall₂ (· ≤ ·) rest rest')
    (h : ((projectCheckpointFromSizes (first ++ (out ++ rest')) seq).fits &&
      (projectCheckpointFromSizes (first ++ (out ++ rest')) seq).bytes ≤ (limit : ℕ)) = true) :
    ((projectCheckpointFromSizes (first ++ rest) seq).fits &&
      (projectCheckpointFromSizes (first ++ rest) seq).bytes ≤ (limit : ℕ)) = true := by
  by_cases hempty : first ++ rest = []
  · rw [hempty]
    simp [projectCheckpointFromSizes]
  · have hlength := hitems.length_eq
    have hne : first ++ (out ++ rest') ≠ [] := by
      intro hnil
      simp only [List.append_eq_nil_iff] at hnil hempty
      obtain ⟨hfirst, -, hrest⟩ := hnil
      refine hempty ⟨hfirst, List.length_eq_zero_iff.1 ?_⟩
      rw [hlength, hrest]
      rfl
    rw [projectCheckpoint_eq seq hne] at h
    rw [projectCheckpoint_eq seq hempty]
    cases hpacked : (chunking seq).putAll NextFit.start (first ++ (out ++ rest')) with
    | none =>
      rw [hpacked] at h
      cases h
    | some c' =>
      rw [hpacked] at h
      simp only [Bool.and_eq_true, decide_eq_true_eq, Nat.cast_le] at h
      obtain ⟨⟨hchunks, hceiling⟩, hbytes⟩ := h
      have hroom : 0 < (chunking seq).room := Nat.succ_pos 1999
      have hhead : ∀ i j, i ≤ j → j ≤ c'.filled → (chunking seq).head i ≤ (chunking seq).head j := by
        intro i j hij hj
        have hmax : maxChunks = 32 := rfl
        exact chunkHeader_le hdecimal seq hij (by omega)
      obtain ⟨c, hc, hwithin⟩ := NextFit.putAll_of_left_out hroom hitems hpacked hhead
      have hsum : (first ++ rest).sum ≤ (first ++ (out ++ rest')).sum := by
        have hrest := List.Forall₂.sum_le_sum hitems
        simp only [List.sum_append]
        omega
      have hlonger : (first ++ rest).length ≤ (first ++ (out ++ rest')).length := by
        simp only [List.length_append]
        omega
      have htotal := NextFit.total_le_of_within (chunkHeader_pos seq) hc hpacked hempty hwithin hsum hlonger
      have hfilled := hwithin.filled_le
      rw [hc]
      simp only [Bool.and_eq_true, decide_eq_true_eq, Nat.cast_le]
      simp only [exceedsCheckpointCeiling, Bool.not_eq_true', decide_eq_false_iff_not] at hceiling ⊢
      exact ⟨⟨by omega, by omega⟩, by omega⟩

variable {args : ImportArgs}

/-- The clocks of a plan are exact. -/
def ExactClocks (args : ImportArgs) : Prop :=
  args.baseClock + (args.groups.flatMap Group.ops).length ≤ 2 ^ 53

omit [Platform] in
theorem ExactClocks.drop (h : ExactClocks args) (start : ℕ) :
    args.baseClock + ((args.groups.drop start).flatMap Group.ops).length ≤ 2 ^ 53 := by
  have hsub : ((args.groups.drop start).flatMap Group.ops).Sublist (args.groups.flatMap Group.ops) := by
    conv_rhs => rw [← List.take_append_drop start args.groups, List.flatMap_append]
    exact List.sublist_append_right _ _
  have := hsub.length_le
  unfold ExactClocks at h
  omega

/-- **If a suffix fits, so does every shorter one.** -/
theorem fitsFrom_mono (hdecimal : IntegersInDecimal) (hclocks : ExactClocks args) {start start' : ℕ}
    (hle : start ≤ start') (h : args.fitsFrom start = true) : args.fitsFrom start' = true := by
  have hsplit : (args.groups.drop start).flatMap Group.ops =
      ((args.groups.drop start).take (start' - start)).flatMap Group.ops ++
        (args.groups.drop start').flatMap Group.ops := by
    conv_lhs => rw [← List.take_append_drop (start' - start) (args.groups.drop start), List.flatMap_append,
      List.drop_drop]
    rw [Nat.add_sub_cancel' hle]
  have hlength := hclocks.drop start
  rw [hsplit, List.length_append] at hlength
  have hstamp : args.stamp start =
      stampFrom args.baseClock (((args.groups.drop start).take (start' - start)).flatMap Group.ops) ++
        stampFrom (args.baseClock + (((args.groups.drop start).take (start' - start)).flatMap Group.ops).length)
          ((args.groups.drop start').flatMap Group.ops) := by
    rw [ImportArgs.stamp, hsplit, stampFrom_append (by omega)]
  unfold ImportArgs.fitsFrom at h ⊢
  dsimp only at h ⊢
  rw [hstamp] at h
  split at h
  · cases h
  · rename_i hroom
    simp only [List.length_append, length_stampFrom, List.length_map] at hroom
    rw [if_neg]
    · rw [List.map_append] at h
      exact projection_le hdecimal (sizes_stampFrom_le hdecimal (Nat.le_add_right _ _) (by omega)) h
    · simp only [ImportArgs.stamp, length_stampFrom, List.length_map]
      omega

theorem keptFrom_spec (hdecimal : IntegersInDecimal) (hclocks : ExactClocks args) :
    args.keptFrom ≤ args.groups.length ∧ (∀ start < args.keptFrom, args.fitsFrom start = false) ∧
      (args.fitsFrom args.keptFrom = true ∨ args.keptFrom = args.groups.length) := by
  unfold ImportArgs.keptFrom
  split
  · rename_i h
    obtain ⟨-, hle, hbefore, hfits⟩ := searchStart_spec (Nat.sub_le args.groups.length 0) h.1 h.2
    refine ⟨hle, fun start hlt => ?_, hfits.symm⟩
    rw [← Bool.not_eq_true]
    intro hstart
    have hlater := fitsFrom_mono hdecimal hclocks (Nat.le_sub_one_of_lt hlt) hstart
    rw [hbefore] at hlater
    cases hlater
  · rename_i h
    refine ⟨Nat.zero_le _, fun start hlt => absurd hlt (Nat.not_lt_zero _), ?_⟩
    rw [not_and_or, Bool.not_eq_false, Nat.pos_iff_ne_zero, not_not] at h
    exact h.symm.imp id Eq.symm

end

end SignetApp.Follows
