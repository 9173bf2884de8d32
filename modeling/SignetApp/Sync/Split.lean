import SignetApp.Sync.Payload

/-!
# Chunks

`splitCheckpoint` cuts a checkpoint that will not fit one envelope at operation boundaries, greedily
and in order; `reassembleChunks` puts it together again, whole or not at all.
-/

namespace SignetApp.Sync

open SignetApp.Js SignetApp.Contacts

section
variable [Platform]

/-- The size of a chunk's body. -/
def ChunkPayload.bytes (c : ChunkPayload) : ℕ := utf8Length (jsonText c.toJs)

/-- The loop of `splitCheckpoint`: the closed chunks, and the one being filled. -/
def splitLoop (seq maxBodyBytes opsPerChunk : ℕ) :
    List ChunkPayload → ChunkPayload → List RawOperation → Option (List ChunkPayload)
  | chunks, current, [] => some (chunks ++ [current])
  | chunks, current, operation :: rest =>
    let candidate := { current with ops := current.ops ++ [operation] }
    if candidate.ops.length ≤ opsPerChunk ∧ candidate.bytes ≤ maxBodyBytes then
      splitLoop seq maxBodyBytes opsPerChunk chunks candidate rest
    else if current.ops = [] then none -- one operation alone does not fit
    else
      let next : ChunkPayload := { seq, index := chunks.length + 1, ops := [operation] }
      if maxBodyBytes < next.bytes then none
      else splitLoop seq maxBodyBytes opsPerChunk (chunks ++ [current]) next rest

variable [Sha256]

def splitCheckpoint (checkpoint : CheckpointPayload) (chunkTag : ℕ → Tag)
    (maxBodyBytes maxOpsPerChunk : ℕ) : Option (CheckpointManifest × List ChunkPayload) := do
  guard (checkpoint.ops ≠ [])
  guard (1 ≤ maxOpsPerChunk)
  guard (exceedsCheckpointCeiling checkpoint.ops.length = false)
  let chunks ← splitLoop checkpoint.seq maxBodyBytes (min maxOpsPerChunk maxOpsPerPayload) []
    { seq := checkpoint.seq, index := 0, ops := [] } checkpoint.ops
  guard (chunks.length ≤ maxChunks)
  some ({
    seq := checkpoint.seq
    createdAt := checkpoint.createdAt
    chunkTags := chunks.map fun c => chunkTag c.index
    chunkDigests := chunks.map fun c => chunkDigest (jsonText c.toJs)
    opCount := checkpoint.ops.length
    -- Clock only: a reader derives the ids from the reassembled operations.
    frontier := { maxClock := checkpoint.frontier.maxClock, opIds := [] }
    deviceIds := checkpoint.deviceIds }, chunks)

/-- A chunk as it was received: the payload and the text it arrived as. -/
structure ReceivedChunk where
  payload : ChunkPayload
  plaintext : JsString

/-- The first loop of `reassembleChunks`: each chunk under its index. -/
def indexChunks (manifest : CheckpointManifest) :
    OrderedMap ℕ ReceivedChunk → List ReceivedChunk → Option (OrderedMap ℕ ReceivedChunk)
  | byIndex, [] => some byIndex
  | byIndex, item :: rest => do
    let c := item.payload
    guard (c.seq = manifest.seq)
    guard (c.index < manifest.chunkTags.length)
    guard ((byIndex.get c.index).isNone)
    guard (manifest.chunkDigests[c.index]? = some (chunkDigest item.plaintext))
    indexChunks manifest (byIndex.set c.index item) rest

/-- The second loop of `reassembleChunks`: the operations in the order of the chunks. -/
def joinChunks (byIndex : OrderedMap ℕ ReceivedChunk) :
    List ℕ → List RawOperation → Option (List RawOperation)
  | [], ops => some ops
  | i :: rest, ops => do
    let item ← byIndex.get i
    guard (exceedsCheckpointCeiling (ops.length + item.payload.ops.length) = false)
    joinChunks byIndex rest (ops ++ item.payload.ops)

def reassembleChunks (manifest : CheckpointManifest) (received : List ReceivedChunk) :
    Option (List RawOperation) := do
  guard (manifest.chunkDigests.length = manifest.chunkTags.length)
  guard (exceedsCheckpointCeiling manifest.opCount = false)
  let byIndex ← indexChunks manifest .empty received
  guard (byIndex.keys.length = manifest.chunkTags.length)
  let ops ← joinChunks byIndex (List.range manifest.chunkTags.length) []
  -- A chunk that lost an operation on the way in fails here.
  guard (ops.length = manifest.opCount)
  some ops

end

/-! ## What a split consists of -/

/-- Chunks of one sequence, numbered from zero. -/
def Numbered (seq : ℕ) (chunks : List ChunkPayload) : Prop :=
  ∀ (i : ℕ) (c : ChunkPayload), chunks[i]? = some c → c.seq = seq ∧ c.index = i

theorem Numbered.snoc {seq : ℕ} {chunks : List ChunkPayload} {current : ChunkPayload}
    (h : Numbered seq chunks) (hseq : current.seq = seq) (hindex : current.index = chunks.length) :
    Numbered seq (chunks ++ [current]) := by
  intro i c hc
  rw [List.getElem?_append] at hc
  split at hc
  · exact h i c hc
  · next hlen =>
    have hi : i = chunks.length := by
      have hlt := (List.getElem?_eq_some_iff.mp hc).1
      simp only [List.length_singleton] at hlt
      omega
    subst hi
    rw [Nat.sub_self] at hc
    cases hc
    exact ⟨hseq, hindex⟩

/-! ## Filing and joining chunks -/

/-- A chunk the first loop of `reassembleChunks` lets through. -/
structure Pinned [Sha256] (manifest : CheckpointManifest) (item : ReceivedChunk) : Prop where
  seq_eq : item.payload.seq = manifest.seq
  index_lt : item.payload.index < manifest.chunkTags.length
  digest_eq : manifest.chunkDigests[item.payload.index]? = some (chunkDigest item.plaintext)

/-- Pinned chunks with distinct indices are all filed. -/
theorem indexChunks_eq_some [Sha256] {manifest : CheckpointManifest} {received : List ReceivedChunk}
    (hpinned : ∀ item ∈ received, Pinned manifest item)
    (hnodup : (received.map fun item => item.payload.index).Nodup)
    (byIndex : OrderedMap ℕ ReceivedChunk)
    (hnew : ∀ item ∈ received, byIndex.get item.payload.index = none) :
    ∃ result, indexChunks manifest byIndex received = some result ∧
      result.keys.length = byIndex.keys.length + received.length ∧
      (∀ item ∈ received, result.get item.payload.index = some item) ∧
      ∀ i, (∀ item ∈ received, item.payload.index ≠ i) → result.get i = byIndex.get i := by
  induction received generalizing byIndex with
  | nil => exact ⟨byIndex, rfl, rfl, by simp, by simp⟩
  | cons item received ih =>
    obtain ⟨hseq, hlt, hdigest⟩ := hpinned item List.mem_cons_self
    rw [List.map_cons, List.nodup_cons] at hnodup
    have hfree : byIndex.get item.payload.index = none := hnew item List.mem_cons_self
    have hother : ∀ later ∈ received, later.payload.index ≠ item.payload.index :=
      fun later hl heq => hnodup.1 (List.mem_map.mpr ⟨later, hl, heq⟩)
    have hnew' : ∀ later ∈ received,
        (byIndex.set item.payload.index item).get later.payload.index = none := by
      intro later hl
      rw [OrderedMap.get_set_of_ne _ _ (hother later hl)]
      exact hnew later (List.mem_cons_of_mem _ hl)
    obtain ⟨result, hresult, hlen, hget, hkeep⟩ :=
      ih (fun later hl => hpinned later (List.mem_cons_of_mem _ hl)) hnodup.2 _ hnew'
    refine ⟨result, ?_, ?_, fun later hl => ?_, fun i hi => ?_⟩
    · simp only [indexChunks, Option.bind_eq_bind, Option.bind_eq_some_iff, Option.guard_eq_some']
      exact ⟨(), hseq, (), hlt, (), by rw [hfree]; rfl, (), hdigest, hresult⟩
    · have hkey : item.payload.index ∉ byIndex.keys := OrderedMap.get_eq_none_iff.mp hfree
      rw [hlen, OrderedMap.keys_set, if_neg hkey, List.length_append, List.length_singleton,
        List.length_cons]
      omega
    · cases hl with
      | head => rw [hkeep _ hother, OrderedMap.get_set_self]
      | tail _ hl => exact hget later hl
    · rw [hkeep i fun later hl => hi later (List.mem_cons_of_mem _ hl),
        OrderedMap.get_set_of_ne _ _ (hi item List.mem_cons_self).symm]

/-- What the first loop has let through is pinned, and no index comes twice. -/
theorem of_indexChunks_eq_some [Sha256] {manifest : CheckpointManifest}
    {received : List ReceivedChunk} {byIndex result : OrderedMap ℕ ReceivedChunk}
    (h : indexChunks manifest byIndex received = some result) :
    (∀ item ∈ received, Pinned manifest item) ∧
      (received.map fun item => item.payload.index).Nodup ∧
      (∀ item ∈ received, byIndex.get item.payload.index = none) ∧
      result.keys.length = byIndex.keys.length + received.length := by
  induction received generalizing byIndex with
  | nil =>
    cases h
    simp
  | cons item received ih =>
    simp only [indexChunks, Option.bind_eq_bind, Option.bind_eq_some_iff,
      Option.guard_eq_some'] at h
    obtain ⟨_, hseq, _, hlt, _, hfree, _, hdigest, h⟩ := h
    rw [Option.isNone_iff_eq_none] at hfree
    obtain ⟨hpinned, hnodup, hnew, hkeys⟩ := ih h
    have hother : ∀ later ∈ received, later.payload.index ≠ item.payload.index := by
      intro later hl heq
      have := hnew later hl
      rw [heq, OrderedMap.get_set_self] at this
      cases this
    refine ⟨List.forall_mem_cons.mpr ⟨⟨hseq, hlt, hdigest⟩, hpinned⟩, ?_, ?_, ?_⟩
    · rw [List.map_cons, List.nodup_cons]
      refine ⟨fun hmem => ?_, hnodup⟩
      obtain ⟨later, hl, heq⟩ := List.mem_map.mp hmem
      exact hother later hl heq
    · refine List.forall_mem_cons.mpr ⟨hfree, fun later hl => ?_⟩
      rw [← OrderedMap.get_set_of_ne byIndex item (hother later hl)]
      exact hnew later hl
    · have hkey : item.payload.index ∉ byIndex.keys := OrderedMap.get_eq_none_iff.mp hfree
      rw [hkeys, OrderedMap.keys_set, if_neg hkey, List.length_append, List.length_singleton,
        List.length_cons]
      omega

theorem joinChunks_eq_some {byIndex : OrderedMap ℕ ReceivedChunk} {indices : List ℕ}
    {items : List ReceivedChunk}
    (hitems : List.Forall₂ (fun i item => byIndex.get i = some item) indices items)
    (ops : List RawOperation) (hceiling : exceedsCheckpointCeiling
      (ops ++ items.flatMap fun item => item.payload.ops).length = false) :
    joinChunks byIndex indices ops = some (ops ++ items.flatMap fun item => item.payload.ops) := by
  induction hitems generalizing ops with
  | nil => simp [joinChunks]
  | @cons i item indices items hget _ ih =>
    rw [List.flatMap_cons, ← List.append_assoc] at hceiling ⊢
    have hshort : exceedsCheckpointCeiling (ops.length + item.payload.ops.length) = false := by
      simp only [exceedsCheckpointCeiling, decide_eq_false_iff_not, not_lt, List.length_append]
        at hceiling ⊢
      omega
    simp only [joinChunks, hget, Option.bind_eq_bind, Option.bind_some, hshort]
    exact ih _ hceiling

/-! ## A split comes back whole -/

section
variable [Platform]

/-- A chunk the reader takes back. -/
def ChunkPayload.Fits (maxBodyBytes opsPerChunk : ℕ) (c : ChunkPayload) : Prop :=
  c.ops.length ≤ opsPerChunk ∧ c.bytes ≤ maxBodyBytes

structure IsSplit (seq maxBodyBytes opsPerChunk : ℕ) (ops : List RawOperation)
    (chunks : List ChunkPayload) : Prop where
  ops_eq : chunks.flatMap ChunkPayload.ops = ops
  numbered : Numbered seq chunks
  fits : ∀ c ∈ chunks, c.Fits maxBodyBytes opsPerChunk

/-- The loop between two operations: the chunks closed so far hold the operations before those of
the current chunk. -/
structure Filling (seq maxBodyBytes opsPerChunk : ℕ) (done : List RawOperation)
    (chunks : List ChunkPayload) (current : ChunkPayload) : Prop where
  ops_eq : chunks.flatMap ChunkPayload.ops ++ current.ops = done
  numbered : Numbered seq chunks
  fits : ∀ c ∈ chunks, c.Fits maxBodyBytes opsPerChunk
  seq_eq : current.seq = seq
  index_eq : current.index = chunks.length
  current_fits : current.ops ≠ [] → current.Fits maxBodyBytes opsPerChunk

namespace Filling

variable {seq maxBodyBytes opsPerChunk : ℕ} {done : List RawOperation}
  {chunks : List ChunkPayload} {current : ChunkPayload} {operation : RawOperation}

theorem grow (h : Filling seq maxBodyBytes opsPerChunk done chunks current)
    (hfits : ({ current with ops := current.ops ++ [operation] } : ChunkPayload).Fits maxBodyBytes
      opsPerChunk) :
    Filling seq maxBodyBytes opsPerChunk (done ++ [operation]) chunks
      { current with ops := current.ops ++ [operation] } :=
  { ops_eq := by rw [← h.ops_eq, List.append_assoc]
    numbered := h.numbered
    fits := h.fits
    seq_eq := h.seq_eq
    index_eq := h.index_eq
    current_fits := fun _ => hfits }

theorem all_fit (h : Filling seq maxBodyBytes opsPerChunk done chunks current)
    (hsome : current.ops ≠ []) :
    ∀ c ∈ chunks ++ [current], c.Fits maxBodyBytes opsPerChunk := by
  intro c hc
  rcases List.mem_append.mp hc with hc | hc
  · exact h.fits c hc
  · rw [List.mem_singleton.mp hc]
    exact h.current_fits hsome

theorem close (h : Filling seq maxBodyBytes opsPerChunk done chunks current)
    (hsome : current.ops ≠ [])
    (hfits : ({ seq, index := chunks.length + 1, ops := [operation] } : ChunkPayload).Fits
      maxBodyBytes opsPerChunk) :
    Filling seq maxBodyBytes opsPerChunk (done ++ [operation]) (chunks ++ [current])
      { seq, index := chunks.length + 1, ops := [operation] } :=
  { ops_eq := by rw [← h.ops_eq, List.flatMap_append, List.flatMap_singleton]
    numbered := h.numbered.snoc h.seq_eq h.index_eq
    fits := h.all_fit hsome
    seq_eq := rfl
    index_eq := by rw [List.length_append]; rfl
    current_fits := fun _ => hfits }

theorem finish (h : Filling seq maxBodyBytes opsPerChunk done chunks current)
    (hsome : current.ops ≠ []) :
    IsSplit seq maxBodyBytes opsPerChunk done (chunks ++ [current]) :=
  { ops_eq := by rw [← h.ops_eq, List.flatMap_append, List.flatMap_singleton]
    numbered := h.numbered.snoc h.seq_eq h.index_eq
    fits := h.all_fit hsome }

end Filling

theorem isSplit_splitLoop {seq maxBodyBytes opsPerChunk : ℕ} (hcap : 1 ≤ opsPerChunk)
    {rest done : List RawOperation} {chunks : List ChunkPayload} {current : ChunkPayload}
    {result : List ChunkPayload} (hfill : Filling seq maxBodyBytes opsPerChunk done chunks current)
    (hsome : current.ops ≠ [] ∨ rest ≠ [])
    (h : splitLoop seq maxBodyBytes opsPerChunk chunks current rest = some result) :
    IsSplit seq maxBodyBytes opsPerChunk (done ++ rest) result := by
  induction rest generalizing done chunks current with
  | nil =>
    rw [splitLoop] at h
    cases h
    rw [List.append_nil]
    exact hfill.finish (hsome.resolve_right fun h => h rfl)
  | cons operation rest ih =>
    rw [List.append_cons]
    simp only [splitLoop] at h
    split at h
    · next hfits =>
      exact ih (hfill.grow hfits) (.inl (by simp)) h
    · split at h
      · cases h
      · next hcurrent =>
        split at h
        · cases h
        · next hnext =>
          exact ih (hfill.close hcurrent ⟨hcap, not_lt.mp hnext⟩) (.inl (by simp)) h

variable [Sha256]

/-- **What `splitCheckpoint` returns.** -/
theorem splitCheckpoint_eq_some {checkpoint : CheckpointPayload} {chunkTag : ℕ → Tag}
    {maxBodyBytes maxOpsPerChunk : ℕ} {manifest : CheckpointManifest} {chunks : List ChunkPayload}
    (h : splitCheckpoint checkpoint chunkTag maxBodyBytes maxOpsPerChunk
      = some (manifest, chunks)) :
    IsSplit checkpoint.seq maxBodyBytes (min maxOpsPerChunk maxOpsPerPayload) checkpoint.ops chunks
      ∧ chunks.length ≤ maxChunks ∧ exceedsCheckpointCeiling checkpoint.ops.length = false
      ∧ manifest = {
          seq := checkpoint.seq
          createdAt := checkpoint.createdAt
          chunkTags := chunks.map fun c => chunkTag c.index
          chunkDigests := chunks.map fun c => chunkDigest (jsonText c.toJs)
          opCount := checkpoint.ops.length
          frontier := { maxClock := checkpoint.frontier.maxClock, opIds := [] }
          deviceIds := checkpoint.deviceIds } := by
  simp only [splitCheckpoint, Option.bind_eq_bind, Option.bind_eq_some_iff,
    Option.guard_eq_some'] at h
  obtain ⟨_, hsome, _, hcap, _, hceiling, result, hloop, _, hlen, heq⟩ := h
  cases heq
  have hmin : 1 ≤ min maxOpsPerChunk maxOpsPerPayload := le_min hcap (by decide)
  have hfill : Filling checkpoint.seq maxBodyBytes (min maxOpsPerChunk maxOpsPerPayload) [] []
      { seq := checkpoint.seq, index := 0, ops := [] } :=
    { ops_eq := rfl
      numbered := fun i c hc => by cases hc
      fits := fun c hc => by cases hc
      seq_eq := rfl
      index_eq := rfl
      current_fits := fun h => absurd rfl h }
  exact ⟨isSplit_splitLoop hmin hfill (.inr hsome) hloop, hlen, hceiling, rfl⟩

/-- The chunks of a split as the reader receives them. -/
def received (chunks : List ChunkPayload) : List ReceivedChunk :=
  chunks.map fun c => { payload := c, plaintext := jsonText c.toJs }

/-- **A split is put together again**, whatever the order its chunks arrive in. -/
theorem reassembleChunks_of_perm {checkpoint : CheckpointPayload} {chunkTag : ℕ → Tag}
    {maxBodyBytes maxOpsPerChunk : ℕ} {manifest : CheckpointManifest} {chunks : List ChunkPayload}
    (h : splitCheckpoint checkpoint chunkTag maxBodyBytes maxOpsPerChunk = some (manifest, chunks))
    {items : List ReceivedChunk} (hperm : items.Perm (received chunks)) :
    reassembleChunks manifest items = some checkpoint.ops := by
  obtain ⟨hsplit, hlen, hceiling, hmanifest⟩ := splitCheckpoint_eq_some h
  have hindex : (received chunks).map (fun item => item.payload.index)
      = List.range chunks.length := by
    apply List.ext_getElem?
    intro i
    rw [received, List.map_map, List.getElem?_map]
    cases hc : chunks[i]? with
    | none =>
      have hi : chunks.length ≤ i := List.getElem?_eq_none_iff.mp hc
      simp [hi]
    | some c =>
      have hi := (List.getElem?_eq_some_iff.mp hc).1
      simp [(hsplit.numbered i c hc).2, hi]
  have hmem : ∀ item ∈ items, ∃ (i : ℕ) (c : ChunkPayload), chunks[i]? = some c ∧
      item = { payload := c, plaintext := jsonText c.toJs } := by
    intro item hitem
    obtain ⟨c, hc, rfl⟩ := List.mem_map.mp (hperm.mem_iff.mp hitem)
    obtain ⟨i, hi⟩ := List.mem_iff_getElem?.mp hc
    exact ⟨i, c, hi, rfl⟩
  have hpinned : ∀ item ∈ items, Pinned manifest item := by
    intro item hitem
    subst hmanifest
    obtain ⟨i, c, hc, rfl⟩ := hmem item hitem
    obtain ⟨hseq, hi⟩ := hsplit.numbered i c hc
    refine ⟨hseq, ?_, ?_⟩
    · rw [hi, List.length_map]
      exact (List.getElem?_eq_some_iff.mp hc).1
    · simp only [hi, List.getElem?_map, hc, Option.map_some]
  have hnodup : (items.map fun item => item.payload.index).Nodup := by
    rw [(hperm.map _).nodup_iff, hindex]
    exact List.nodup_range
  obtain ⟨byIndex, hbyIndex, hkeys, hget, -⟩ :=
    indexChunks_eq_some hpinned hnodup .empty fun _ _ => rfl
  have hitems : items.length = chunks.length := by
    rw [hperm.length_eq, received, List.length_map]
  have hjoin : List.Forall₂ (fun i item => byIndex.get i = some item) (List.range chunks.length)
      (received chunks) := by
    rw [← hindex, List.forall₂_map_left_iff, List.forall₂_same]
    exact fun item hitem => hget item (hperm.mem_iff.mpr hitem)
  have hops : ((received chunks).flatMap fun item => item.payload.ops) = checkpoint.ops := by
    rw [received, List.flatMap_map]
    exact hsplit.ops_eq
  have hjoined := joinChunks_eq_some hjoin [] (by rw [hops]; exact hceiling)
  rw [hops, List.nil_append] at hjoined
  subst hmanifest
  simp only [reassembleChunks, Option.bind_eq_bind, Option.bind_eq_some_iff,
    Option.guard_eq_some', List.length_map]
  have hcount : byIndex.keys.length = chunks.length := by
    rw [hkeys, hitems, OrderedMap.keys_empty, List.length_nil, Nat.zero_add]
  exact ⟨(), trivial, (), hceiling, byIndex, hbyIndex, (), hcount, checkpoint.ops, hjoined, (), rfl,
    rfl⟩

end

end SignetApp.Sync
