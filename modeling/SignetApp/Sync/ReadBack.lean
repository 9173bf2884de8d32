import SignetApp.Sync.Split
import SignetApp.Sync.Wire

/-!
# Publishing

The publish leg of `contacts-v2-sync.ts`. A publish is a sequence of events, each of which replaces
the newest event under its tag; it stops at the first one that is not accepted.
-/

namespace SignetApp.Sync

open SignetApp.Js SignetApp.Contacts

/-! ## Decisions -/

/-- What the last fetch found at the checkpoint tag. -/
inductive CheckpointState where
  | absent | present | unusable
  deriving DecidableEq

/-- What the publish decision reads of the checkpoint. -/
structure RemoteCheckpointView where
  seq : ℕ
  createdAt : ℤ
  deviceIds : List JsString

def shouldPublishCheckpoint (remoteCheckpoint : Option RemoteCheckpointView)
    (checkpointState : CheckpointState) (selfDeviceId : JsString) (outboxOpCount : ℕ)
    (now : ℤ) : Bool :=
  -- Never compact over a checkpoint we could not read.
  if checkpointState = .unusable then false
  else
    match remoteCheckpoint with
    | none => true
    | some remote =>
      outboxCheckpointThreshold < outboxOpCount
        || (0 < outboxOpCount && checkpointMaxAgeMs + remote.createdAt < now)
        || !(remote.deviceIds.contains selfDeviceId)

/-- The operations this device owes the relay. -/
def selectOutboxOps (localOps : List RawOperation) (checkpointOpIds : List JsValue) :
    List RawOperation :=
  if checkpointOpIds = [] then localOps
  else localOps.filter fun o => o.operationId ∉ checkpointOpIds

/-- One more than the highest sequence the relay served or this device recorded. -/
def nextCheckpointSeq (remoteSeq persistedSeq : Option ℕ) : ℕ :=
  max (remoteSeq.getD 0) (persistedSeq.getD 0) + 1

/-- The remote list plus this device, capped at the newest. -/
def mergeDeviceIds (remote : List JsString) (own : JsString) : List JsString :=
  let out := remote.foldl (fun out id => if isHexOf 32 id then insertNew out id else out) []
  let out := insertNew out own
  out.drop (out.length - maxDeviceIds)

/-! ## Events -/

section
variable [Platform] [Sha256]

/-- The events `publishContactsV2Outbox` publishes; `none` when it refuses to. -/
def publishContactsV2Outbox (author deviceId : JsString) (ops : List RawOperation)
    (baseFrontierMaxClock : ℕ) : Option (List (Tag × JsString)) := do
  guard (isHexOf 32 deviceId)
  guard (isHexOf 64 author)
  -- An empty outbox carries nothing and can only destroy a real one.
  guard (ops ≠ [])
  guard (ops.length ≤ maxOpsPerPayload)
  let payload : OutboxPayload := { deviceId, baseFrontierMaxClock, ops }
  some [(tagFor author .outbox deviceId, jsonText payload.toJs)]

/-- The checkpoint `publishContactsV2Checkpoint` builds: the frontier is derived from the
operations. -/
def checkpointPayload (seq : ℕ) (deviceIds : List JsString) (ops : List RawOperation) (now : ℤ) :
    CheckpointPayload :=
  let derived := frontierOf ops
  { seq, createdAt := now, deviceIds
    frontier := { maxClock := derived.maxClock, opIds := derived.opIds }, ops }

/-- The tag of chunk `index` of the checkpoint `seq`. -/
def chunkTag (author : JsString) (seq index : ℕ) : Tag := tagFor author .chunk (chunkExtra seq index)

def checkpointTag (author : JsString) : Tag := tagFor author .checkpoint []

def chunkEvent (author : JsString) (seq : ℕ) (chunk : ChunkPayload) : Tag × JsString :=
  (chunkTag author seq chunk.index, jsonText chunk.toJs)

/-- The events `publishContactsV2Checkpoint` publishes, in order; `none` when it refuses to before
the first. Every chunk comes before the manifest. -/
def publishContactsV2Checkpoint (author : JsString) (seq : ℕ) (deviceIds : List JsString)
    (ops : List RawOperation) (now : ℤ) : Option (List (Tag × JsString)) := do
  guard (isHexOf 64 author)
  guard (ops ≠ [])
  guard (exceedsCheckpointCeiling ops.length = false)
  guard (deviceIds.length ≤ maxDeviceIds)
  guard (deviceIds.all (isHexOf 32))
  guard deviceIds.Nodup
  let payload := checkpointPayload seq deviceIds ops now
  let body := jsonText payload.toJs
  -- Decided by measuring: only what a reader takes back goes into a single envelope.
  if utf8Length body ≤ maxChunkBodyBytes ∧ ops.length ≤ maxOpsPerPayload then
    some [(checkpointTag author, body)]
  else do
    let (manifest, chunks) ←
      splitCheckpoint payload (chunkTag author seq) maxChunkBodyBytes maxOpsPerPayload
    some (chunks.map (chunkEvent author seq) ++ [(checkpointTag author, jsonText manifest.toJs)])

/-- What `publishContactsV2Checkpoint` was asked for passes its guards. -/
structure Publishable (author : JsString) (deviceIds : List JsString) (ops : List RawOperation) :
    Prop where
  author_hex : isHexOf 64 author = true
  ops_ne_nil : ops ≠ []
  ceiling : exceedsCheckpointCeiling ops.length = false
  devices_cap : deviceIds.length ≤ maxDeviceIds
  devices_hex : ∀ id ∈ deviceIds, isHexOf 32 id = true
  devices_nodup : deviceIds.Nodup

theorem publishContactsV2Checkpoint_cases {author : JsString} {seq : ℕ} {deviceIds : List JsString}
    {ops : List RawOperation} {now : ℤ} {events : List (Tag × JsString)}
    (h : publishContactsV2Checkpoint author seq deviceIds ops now = some events) :
    Publishable author deviceIds ops ∧
      (ops.length ≤ maxOpsPerPayload ∧
          events = [(checkpointTag author, jsonText (checkpointPayload seq deviceIds ops now).toJs)] ∨
        ∃ manifest chunks, splitCheckpoint (checkpointPayload seq deviceIds ops now)
            (chunkTag author seq) maxChunkBodyBytes maxOpsPerPayload = some (manifest, chunks) ∧
          events = chunks.map (chunkEvent author seq)
            ++ [(checkpointTag author, jsonText manifest.toJs)]) := by
  simp only [publishContactsV2Checkpoint, Option.bind_eq_bind, Option.bind_eq_some_iff,
    Option.guard_eq_some', List.all_eq_true] at h
  obtain ⟨_, hauthor, _, hops, _, hceiling, _, hcap, _, hhex, _, hnodup, h⟩ := h
  refine ⟨⟨hauthor, hops, hceiling, hcap, hhex, hnodup⟩, ?_⟩
  split at h
  · next hfits =>
    cases h
    exact .inl ⟨hfits.2, rfl⟩
  · rw [Option.bind_eq_some_iff] at h
    obtain ⟨⟨manifest, chunks⟩, hsplit, h⟩ := h
    cases h
    exact .inr ⟨manifest, chunks, hsplit, rfl⟩

end

/-!
## Publishing and reading are inverse

What `publishContactsV2Checkpoint` publishes is read back as the operations it was given, whichever
form it chose and in whichever order the chunks arrive; and no other set of chunks is taken for
them.
-/

/-! ## The derived frontier -/

theorem frontierOf_opIds (rows : List RawOperation) :
    (frontierOf rows).opIds = distinct (rows.map RawOperation.operationId) := by
  have hfold : ∀ (rows : List RawOperation) (f : OpFrontier),
      (rows.foldl (fun frontier (op : RawOperation) =>
        { maxClock := max frontier.maxClock (safeClock ((JsValue.obj op).get "logicalClock"))
          opIds := insertNew frontier.opIds op.operationId : OpFrontier }) f).opIds
        = (rows.map RawOperation.operationId).foldl insertNew f.opIds := by
    intro rows
    induction rows with
    | nil => intro f; rfl
    | cons row rows ih => intro f; exact ih _
  exact hfold rows ⟨0, []⟩

section
variable [Numerals]

theorem Stored.operationId_json {row : RawOperation} (h : Stored row) : IsJson row.operationId := by
  obtain ⟨op, hop⟩ := h.valid
  have haccepted : accepted (.obj row) = some op := by simp only [accepted, hop]
  rw [RawOperation.operationId, operationId_of_accepted haccepted]
  trivial

/-- What a checkpoint must satisfy to be sealed and read back. -/
structure Readable (p : CheckpointPayload) : Prop where
  stored : ∀ row ∈ p.ops, Stored row
  opIds_json : ∀ id ∈ p.frontier.opIds, IsJson id
  opIds_le : p.frontier.opIds.length ≤ p.ops.length
  devices_cap : p.deviceIds.length ≤ maxDeviceIds
  devices_hex : ∀ id ∈ p.deviceIds, isHexOf 32 id = true
  devices_nodup : p.deviceIds.Nodup

theorem readable_checkpointPayload {author : JsString} {seq : ℕ} {deviceIds : List JsString}
    {ops : List RawOperation} {now : ℤ} (h : Publishable author deviceIds ops)
    (hstored : ∀ row ∈ ops, Stored row) : Readable (checkpointPayload seq deviceIds ops now) where
  stored := hstored
  opIds_json id hid := by
    rw [checkpointPayload, frontierOf_opIds, mem_distinct] at hid
    obtain ⟨row, hrow, rfl⟩ := List.mem_map.mp hid
    exact (hstored row hrow).operationId_json
  opIds_le := by
    rw [checkpointPayload, frontierOf_opIds]
    exact (length_distinct_le _).trans (List.length_map _).le
  devices_cap := h.devices_cap
  devices_hex := h.devices_hex
  devices_nodup := h.devices_nodup

/-! ## What the reader refuses -/

theorem withOps_eq_some {α : Type} {head : Option (JsValue × (List RawOperation → α))} {a : α}
    (h : withOps head = .ok (some a)) : ∃ p payload ops, head = some (p, payload) ∧ payload ops = a := by
  unfold withOps at h
  cases head with
  | none => cases h
  | some pair =>
    obtain ⟨p, payload⟩ := pair
    dsimp only at h
    cases hops : parseOps (p.get "ops") with
    | error e => rw [hops] at h; cases h
    | ok ops =>
      rw [hops] at h
      cases ops with
      | none => cases h
      | some ops =>
        cases h
        exact ⟨p, payload, ops, rfl, rfl⟩

theorem createdAt_nonneg_of_checkpoint {raw : JsString} {p : CheckpointPayload}
    (h : parseCheckpointPayload raw = .ok (some p)) : 0 ≤ p.createdAt := by
  obtain ⟨v, payload, ops, hhead, rfl⟩ := withOps_eq_some h
  simp only [Option.bind_eq_bind, Option.bind_eq_some_iff] at hhead
  obtain ⟨_, -, _, -, createdAt, -, _, -, _, -, heq⟩ := hhead
  cases heq
  exact Int.natCast_nonneg createdAt

theorem createdAt_nonneg_of_manifest {raw : JsString} {m : CheckpointManifest}
    (h : parseManifest raw = some m) : 0 ≤ m.createdAt := by
  simp only [parseManifest, Option.bind_eq_bind, Option.bind_eq_some_iff] at h
  obtain ⟨_, -, _, -, createdAt, -, _, -, _, -, _, -, _, -, _, -, _, -, _, -, _, -, heq⟩ := h
  cases heq
  exact Int.natCast_nonneg createdAt

/-! ## One envelope -/

theorem parseCheckpointPayload_readable (hint : IntegersSurvive) {p : CheckpointPayload}
    (h : Readable p) (hops : p.ops.length ≤ maxOpsPerPayload) (htime : 0 ≤ p.createdAt) :
    ∃ f, parseCheckpointPayload (jsonText p.toJs) = .ok (some { p with frontier := f }) :=
  ⟨_, parseCheckpointPayload_jsonText hint h.stored h.opIds_json (h.opIds_le.trans hops) hops
    h.devices_cap h.devices_hex h.devices_nodup htime⟩

/-! ## Chunks and their manifest -/

/-- The chunks of these texts. -/
def chunksOf (texts : List JsString) (chunks : List ChunkPayload) : List ReceivedChunk :=
  List.zipWith (fun text c => { payload := c, plaintext := text }) texts chunks

theorem chunksOf_received (chunks : List ChunkPayload) :
    chunksOf (chunks.map fun c => jsonText c.toJs) chunks = received chunks := by
  rw [chunksOf, List.zipWith_map_left, List.zipWith_self]
  rfl

theorem mapM_parseChunkPayload {chunks : List ChunkPayload}
    (h : ∀ c ∈ chunks, parseChunkPayload (jsonText c.toJs) = .ok (some c)) :
    (chunks.map fun c => jsonText c.toJs).mapM parseChunkPayload = .ok (chunks.map some) := by
  induction chunks with
  | nil => rfl
  | cons c chunks ih =>
    rw [List.map_cons, List.mapM_cons, h c List.mem_cons_self,
      ih fun d hd => h d (List.mem_cons_of_mem _ hd)]
    rfl

variable [Sha256]

section
variable {checkpoint : CheckpointPayload} {tag : ℕ → Tag} {maxBodyBytes : ℕ}
  {manifest : CheckpointManifest} {chunks : List ChunkPayload}

theorem chunks_ne_nil (h : splitCheckpoint checkpoint tag maxBodyBytes maxOpsPerPayload
    = some (manifest, chunks)) : chunks ≠ [] := by
  have hops : checkpoint.ops ≠ [] := by
    simp only [splitCheckpoint, Option.bind_eq_bind, Option.bind_eq_some_iff,
      Option.guard_eq_some'] at h
    exact h.choose_spec.1
  rintro rfl
  exact hops (splitCheckpoint_eq_some h).1.ops_eq.symm

theorem parseManifest_split (hint : IntegersSurvive) (hread : Readable checkpoint)
    (htime : 0 ≤ checkpoint.createdAt)
    (h : splitCheckpoint checkpoint tag maxBodyBytes maxOpsPerPayload = some (manifest, chunks)) :
    parseManifest (jsonText manifest.toJs) = some manifest := by
  have hne := chunks_ne_nil h
  obtain ⟨hsplit, hlen, hceiling, rfl⟩ := splitCheckpoint_eq_some h
  have hcount : checkpoint.ops.length ≤ maxCheckpointOps := by
    simpa [exceedsCheckpointCeiling] using hceiling
  exact parseManifest_jsonText hint rfl (by simpa using hne) (by simpa using hlen) (by simp) hcount
    hread.devices_cap hread.devices_hex hread.devices_nodup htime

theorem parseChunkPayload_split (hint : IntegersSurvive) (hread : Readable checkpoint)
    (h : splitCheckpoint checkpoint tag maxBodyBytes maxOpsPerPayload = some (manifest, chunks))
    {c : ChunkPayload} (hc : c ∈ chunks) :
    parseChunkPayload (jsonText c.toJs) = .ok (some c) := by
  obtain ⟨hsplit, hlen, -, -⟩ := splitCheckpoint_eq_some h
  have hrows : ∀ row ∈ c.ops, Stored row := by
    intro row hrow
    refine hread.stored row ?_
    rw [← hsplit.ops_eq]
    exact List.mem_flatMap.mpr ⟨c, hc, hrow⟩
  have hops : c.ops.length ≤ maxOpsPerPayload := (hsplit.fits c hc).1.trans (min_le_right _ _)
  obtain ⟨i, hi⟩ := List.mem_iff_getElem?.mp hc
  have hindex : c.index < maxChunks := by
    rw [(hsplit.numbered i c hi).2]
    exact (List.getElem?_eq_some_iff.mp hi).1.trans_le hlen
  exact parseChunkPayload_jsonText hint hrows hops hindex

/-- The published chunks with the texts they arrive as. -/
theorem perm_of_reassembleChunks (hint : IntegersSurvive) (hread : Readable checkpoint)
    (h : splitCheckpoint checkpoint tag maxBodyBytes maxOpsPerPayload = some (manifest, chunks))
    {items : List ReceivedChunk}
    (hparsed : ∀ item ∈ items, parseChunkPayload item.plaintext = .ok (some item.payload))
    (hfree : ∀ item ∈ items, ∀ c ∈ chunks, chunkDigest item.plaintext = chunkDigest (jsonText c.toJs) →
      item.plaintext = jsonText c.toJs)
    {ops : List RawOperation} (hops : reassembleChunks manifest items = some ops) :
    items.Perm (received chunks) := by
  have hparse := fun c hc => parseChunkPayload_split hint hread h (c := c) hc
  obtain ⟨hsplit, -, -, rfl⟩ := splitCheckpoint_eq_some h
  simp only [reassembleChunks, Option.bind_eq_bind, Option.bind_eq_some_iff,
    Option.guard_eq_some', List.length_map] at hops
  obtain ⟨_, -, _, -, byIndex, hindex, _, hcount, -⟩ := hops
  obtain ⟨hpinned, hnodup, -, hkeys⟩ := of_indexChunks_eq_some hindex
  -- A pinned item is the published chunk of its index.
  have hitem : items ⊆ received chunks := by
    intro item hi
    obtain ⟨-, -, hdigest⟩ := hpinned item hi
    rw [List.getElem?_map, Option.map_eq_some_iff] at hdigest
    obtain ⟨c, hc, hdigest⟩ := hdigest
    have hmem : c ∈ chunks := List.mem_of_getElem? hc
    have htext := hfree item hi c hmem hdigest.symm
    have hpayload : item.payload = c := by
      have hboth := hparsed item hi
      rw [htext, hparse c hmem] at hboth
      exact (Option.some.inj (Except.ok.inj hboth)).symm
    have heq : item = { payload := c, plaintext := jsonText c.toJs } := by
      cases item
      rw [ReceivedChunk.mk.injEq]
      exact ⟨hpayload, htext⟩
    rw [heq]
    exact List.mem_map_of_mem hmem
  have hlen : (received chunks).length ≤ items.length := by
    rw [hcount, OrderedMap.keys_empty, List.length_nil, Nat.zero_add] at hkeys
    rw [received, List.length_map, hkeys]
  exact (List.subperm_of_subset (hnodup.of_map _) hitem).perm_of_length_le hlen

end

/-! ## The whole format -/

/-- No two of these texts share a digest. -/
def CollisionFree (texts : List JsString) : Prop :=
  ∀ s ∈ texts, ∀ t ∈ texts, chunkDigest s = chunkDigest t → s = t

/-- A chunk as the fetch leg hands it on. -/
def Received (item : ReceivedChunk) : Prop :=
  parseChunkPayload item.plaintext = .ok (some item.payload)

/-- The published texts are read back as the checkpoint: through `parseCheckpointPayload`, or
through `parseManifest`, `parseChunkPayload` and `reassembleChunks` in any order of the chunks, and
no other collection of chunks is put together. -/
def ReadsBack (seq : ℕ) (deviceIds : List JsString) (ops : List RawOperation) (now : ℤ)
    (texts : List JsString) : Prop :=
  (∃ body p, texts = [body] ∧ parseCheckpointPayload body = .ok (some p) ∧ p.ops = ops ∧
      p.seq = seq ∧ p.createdAt = now ∧ p.deviceIds = deviceIds) ∨
    ∃ chunkTexts manifestText manifest chunks, texts = chunkTexts ++ [manifestText] ∧
      parseManifest manifestText = some manifest ∧ manifest.seq = seq ∧
      manifest.createdAt = now ∧ manifest.deviceIds = deviceIds ∧
      chunkTexts.mapM parseChunkPayload = .ok (chunks.map some) ∧
      (∀ items : List ReceivedChunk, items.Perm (chunksOf chunkTexts chunks) →
        reassembleChunks manifest items = some ops) ∧
      ∀ items : List ReceivedChunk, (∀ item ∈ items, Received item) →
        CollisionFree (chunkTexts ++ items.map ReceivedChunk.plaintext) →
        ¬ items.Perm (chunksOf chunkTexts chunks) → reassembleChunks manifest items = none

/-- A checkpoint published at a time that is not negative is read back. -/
theorem readsBack_of_nonneg (hint : IntegersSurvive) {author : JsString} {seq : ℕ}
    {deviceIds : List JsString} {ops : List RawOperation} {now : ℤ} {events : List (Tag × JsString)}
    (hstored : ∀ row ∈ ops, Stored row) (htime : 0 ≤ now)
    (h : publishContactsV2Checkpoint author seq deviceIds ops now = some events) :
    ReadsBack seq deviceIds ops now (events.map Prod.snd) := by
  obtain ⟨hpub, hform⟩ := publishContactsV2Checkpoint_cases h
  have hread : Readable (checkpointPayload seq deviceIds ops now) :=
    readable_checkpointPayload hpub hstored
  rcases hform with ⟨hops, rfl⟩ | ⟨manifest, chunks, hsplit, rfl⟩
  · obtain ⟨f, hf⟩ := parseCheckpointPayload_readable hint hread hops htime
    exact .inl ⟨_, _, rfl, hf, rfl, rfl, rfl, rfl⟩
  · obtain ⟨hseq, hcreated, hdevices⟩ : manifest.seq = seq ∧ manifest.createdAt = now ∧
        manifest.deviceIds = deviceIds := by
      rw [(splitCheckpoint_eq_some hsplit).2.2.2]
      exact ⟨rfl, rfl, rfl⟩
    refine .inr ⟨chunks.map fun c => jsonText c.toJs, jsonText manifest.toJs, manifest, chunks, ?_,
      parseManifest_split hint hread htime hsplit, hseq, hcreated, hdevices, ?_,
      fun items hitems => ?_, fun items hreceived hfree hother => ?_⟩
    · rw [List.map_append, List.map_map]
      rfl
    · exact mapM_parseChunkPayload fun c hc => parseChunkPayload_split hint hread hsplit hc
    · rw [chunksOf_received] at hitems
      exact reassembleChunks_of_perm hsplit hitems
    · rw [chunksOf_received] at hother
      cases hops : reassembleChunks manifest items with
      | none => rfl
      | some ops' =>
        refine absurd (perm_of_reassembleChunks hint hread hsplit hreceived ?_ hops) hother
        intro item hi c hc hdigest
        refine hfree _ (List.mem_append_right _ (List.mem_map_of_mem hi)) _ ?_ hdigest
        exact List.mem_append_left _ (List.mem_map_of_mem hc)

theorem not_readsBack_of_neg {seq : ℕ} {deviceIds : List JsString} {ops : List RawOperation}
    {now : ℤ} (h : now < 0) (texts : List JsString) :
    ¬ ReadsBack seq deviceIds ops now texts := by
  rintro (⟨_, p, -, hp, -, -, htime, -⟩ | ⟨_, _, m, _, -, hm, -, htime, -⟩)
  · exact absurd (createdAt_nonneg_of_checkpoint hp) (by omega)
  · exact absurd (createdAt_nonneg_of_manifest hm) (by omega)

end

/-- A hash for examples: the last digits of the text. -/
@[reducible] def sampleSha256 : Sha256 where
  hex s := ⟨((s.reverse ++ List.replicate 64 0).take 64).map fun (u : CodeUnit) =>
      hexDigit (Fin.ofNat 16 u.val), by
    rw [isHexOf, Bool.and_eq_true, beq_iff_eq, List.all_eq_true]
    constructor
    · rw [List.length_map, List.length_take, List.length_append, List.length_replicate]
      omega
    · intro u hu
      obtain ⟨w, -, rfl⟩ := List.mem_map.mp hu
      exact isHexDigit_hexDigit _⟩

/-- A contact renamed. -/
def renameRow : RawOperation := [
  ("operationId", (Hex.repeated 32 10).toJs),
  ("directoryId", .ofLit "owner"),
  ("contactId", (Hex.repeated 32 1).toJs),
  ("actorPubkey", (Hex.repeated 64 2).toJs),
  ("actorRole", .ofLit "owner"),
  ("actorDeviceId", (Hex.repeated 32 3).toJs),
  ("logicalClock", .ofNat 1),
  ("action", .ofLit "rename"),
  ("value", .obj [("displayName", .ofLit "Ann")]),
  ("createdAt", .ofNat 1)]

theorem stored_renameRow : @Stored decimalNumerals renameRow := by
  have hint := integersSurvive_decimal
  refine @Stored.of_accepted decimalNumerals renameRow ?_ (by decide)
  simp only [renameRow, IsJson, HoldJson, and_true, List.map_cons, List.map_nil]
  exact ⟨by decide, trivial, trivial, trivial, trivial, trivial, trivial, hint 1, trivial,
    ⟨by decide, trivial⟩, hint 1⟩

theorem readsBack_of_nonneg_rename :
    ∃ events, @publishContactsV2Checkpoint decimalNumerals.toPlatform sampleSha256
        (Hex.repeated 64 2).val 1 [] [renameRow] 1 = some events ∧
      @ReadsBack decimalNumerals sampleSha256 1 [] [renameRow] 1 (events.map Prod.snd) := by
  have hsome : (@publishContactsV2Checkpoint decimalNumerals.toPlatform sampleSha256
      (Hex.repeated 64 2).val 1 [] [renameRow] 1).isSome = true := by decide +kernel
  obtain ⟨events, hevents⟩ := Option.isSome_iff_exists.mp hsome
  refine ⟨events, hevents, @readsBack_of_nonneg decimalNumerals sampleSha256 integersSurvive_decimal
    _ _ _ _ _ _ ?_ (by decide) hevents⟩
  intro row hrow
  rw [List.mem_singleton.mp hrow]
  exact stored_renameRow

/-- A checkpoint published before the epoch is not read back. -/
theorem published_before_epoch :
    ∃ events, @publishContactsV2Checkpoint decimalNumerals.toPlatform sampleSha256
        (Hex.repeated 64 2).val 1 [] [renameRow] (-1) = some events ∧
      ¬ @ReadsBack decimalNumerals sampleSha256 1 [] [renameRow] (-1) (events.map Prod.snd) := by
  have hsome : (@publishContactsV2Checkpoint decimalNumerals.toPlatform sampleSha256
      (Hex.repeated 64 2).val 1 [] [renameRow] (-1)).isSome = true := by decide +kernel
  obtain ⟨events, hevents⟩ := Option.isSome_iff_exists.mp hsome
  exact ⟨events, hevents, @not_readsBack_of_neg decimalNumerals sampleSha256 _ _ _ _ (by decide) _⟩

end SignetApp.Sync
