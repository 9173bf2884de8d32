import Mathlib.Data.ENat.Basic
import SignetApp.Collections.NextFit
import SignetApp.Sync.Split
import SignetApp.Sync.TextSize

/-!
# The size of a checkpoint before it is made

`projectCheckpointFromSizes`: the chunks that `splitCheckpoint` would make, and their bytes, from the sizes of
the operations alone.
-/

namespace SignetApp.Sync

open SignetApp.Js SignetApp.Contacts

section

variable [Platform]

/-- Bytes one operation takes inside a serialised chunk. -/
def operationWireBytes (operation : RawOperation) : ℕ := utf8Length (jsonText (.obj operation))

/-- `header`: the JSON of an empty chunk, which already counts the `[]`. -/
def chunkHeader (seq index : ℕ) : ℕ :=
  utf8Length (jsonText (.obj [("v", .ofNat 2), ("kind", .ofLit "chunk"), ("seq", .ofNat seq), ("index", .ofNat index),
    ("ops", .arr [])]))

/-- The variables of the loop. -/
structure Projecting where
  bytes : ℕ
  chunks : ℕ
  head : ℕ
  count : ℕ
  sum : ℕ

/-- One turn of the loop; `none` where it returns. -/
def projectStep (seq : ℕ) (p : Projecting) (size : ℕ) : Option Projecting :=
  let grown := p.head + p.sum + size + p.count
  if p.count + 1 ≤ maxOpsPerPayload ∧ grown ≤ maxChunkBodyBytes then
    some { p with count := p.count + 1, sum := p.sum + size }
  else if p.count = 0 then none -- one operation alone does not fit
  else
    let head := chunkHeader seq p.chunks
    if maxChunkBodyBytes < head + size then none
    else some {
      bytes := p.bytes + (p.head + p.sum + (p.count - 1))
      chunks := p.chunks + 1
      head
      count := 1
      sum := size }

/-- `Infinity` is `⊤`. -/
structure CheckpointProjection where
  bytes : ℕ∞
  chunks : ℕ∞
  fits : Bool

def projectCheckpointFromSizes (sizes : List ℕ) (seq : ℕ) : CheckpointProjection :=
  if sizes = [] then ⟨0, 0, true⟩
  else
    match sizes.foldlM (projectStep seq) ⟨0, 1, chunkHeader seq 0, 0, 0⟩ with
    | none => ⟨⊤, ⊤, false⟩
    | some p =>
      ⟨(p.bytes + (p.head + p.sum + (p.count - 1)) : ℕ), p.chunks,
        p.chunks ≤ maxChunks && !exceedsCheckpointCeiling sizes.length⟩

/-! ## A packing into bins -/

/-- Chunks as bins. -/
def chunking (seq : ℕ) : NextFit := ⟨chunkHeader seq, maxChunkBodyBytes, maxOpsPerPayload⟩

/-- The loop's variables, of what is packed. -/
def Projecting.ofBins (seq : ℕ) (b : Bins) : Projecting :=
  ⟨b.closed, b.filled + 1, chunkHeader seq b.filled, b.count, b.sum⟩

theorem projectStep_ofBins (seq : ℕ) (b : Bins) (size : ℕ) :
    projectStep seq (.ofBins seq b) size = ((chunking seq).put b size).map (.ofBins seq) := by
  by_cases hin : b.count + 1 ≤ maxOpsPerPayload ∧ chunkHeader seq b.filled + b.sum + size + b.count ≤ maxChunkBodyBytes
  · have hput : (chunking seq).put b size = some { b with count := b.count + 1, sum := b.sum + size } := if_pos hin
    have hstep : projectStep seq (.ofBins seq b) size = some _ := if_pos hin
    rw [hput, hstep]
    rfl
  · by_cases hzero : b.count = 0
    · have hput : (chunking seq).put b size = none := (if_neg hin).trans (if_pos hzero)
      have hstep : projectStep seq (.ofBins seq b) size = none := (if_neg hin).trans (if_pos hzero)
      rw [hput, hstep]
      rfl
    · by_cases hlarge : maxChunkBodyBytes < chunkHeader seq (b.filled + 1) + size
      · have hput : (chunking seq).put b size = none := (if_neg hin).trans ((if_neg hzero).trans (if_pos hlarge))
        have hstep : projectStep seq (.ofBins seq b) size = none :=
          (if_neg hin).trans ((if_neg hzero).trans (if_pos hlarge))
        rw [hput, hstep]
        rfl
      · have hput : (chunking seq).put b size = some _ := (if_neg hin).trans ((if_neg hzero).trans (if_neg hlarge))
        have hstep : projectStep seq (.ofBins seq b) size = some _ :=
          (if_neg hin).trans ((if_neg hzero).trans (if_neg hlarge))
        rw [hput, hstep]
        rfl

theorem foldlM_projectStep (seq : ℕ) (sizes : List ℕ) (b : Bins) :
    sizes.foldlM (projectStep seq) (.ofBins seq b) = ((chunking seq).putAll b sizes).map (.ofBins seq) := by
  induction sizes generalizing b with
  | nil => rfl
  | cons size sizes ih =>
    rw [List.foldlM_cons, projectStep_ofBins, NextFit.putAll_cons]
    cases (chunking seq).put b size with
    | none => rfl
    | some c => exact ih c

theorem projectCheckpoint_eq (seq : ℕ) {sizes : List ℕ} (hne : sizes ≠ []) :
    projectCheckpointFromSizes sizes seq =
      match (chunking seq).putAll NextFit.start sizes with
      | none => ⟨⊤, ⊤, false⟩
      | some b => ⟨((chunking seq).total b : ℕ), (b.filled + 1 : ℕ),
          b.filled + 1 ≤ maxChunks && !exceedsCheckpointCeiling sizes.length⟩ := by
  unfold projectCheckpointFromSizes
  rw [if_neg hne]
  have hrun := foldlM_projectStep seq sizes NextFit.start
  rw [show Projecting.ofBins seq NextFit.start = ⟨0, 1, chunkHeader seq 0, 0, 0⟩ from rfl] at hrun
  rw [hrun]
  cases (chunking seq).putAll NextFit.start sizes with
  | none => rfl
  | some b => rfl

/-! ## The bytes of a chunk -/

/-- **A chunk's bytes are its header, its operations, and a comma between each pair.** -/
theorem bytes_chunk (c : ChunkPayload) :
    c.bytes = chunkHeader c.seq c.index + (c.ops.map operationWireBytes).sum + (c.ops.length - 1) := by
  have hops : utf8Length (jsonText (opsToJs c.ops)) =
      (c.ops.map operationWireBytes).sum + (c.ops.length - 1) + 2 := by
    rw [opsToJs, utf8Length_jsonText_arr]
    · have hbytes : bytes ((c.ops.map JsValue.obj).map jsonText) =
          (c.ops.map operationWireBytes).sum + c.ops.length := by
        rw [bytes, List.map_map, List.map_map]
        induction c.ops with
        | nil => rfl
        | cons op ops ih =>
          simp only [List.map_cons, List.sum_cons, List.length_cons, ih]
          show operationWireBytes op + 1 + _ = _
          omega
      rw [hbytes]
      cases c.ops with
      | nil => rfl
      | cons op ops =>
        simp only [List.length_cons]
        omega
    · intro v hv
      obtain ⟨op, -, rfl⟩ := List.mem_map.1 hv
      exact written_obj op
  have hempty : utf8Length (jsonText (.arr [])) = 2 := utf8Length_jsonText_arr fun v hv => absurd hv List.not_mem_nil
  rw [ChunkPayload.bytes, ChunkPayload.toJs, chunkHeader, utf8Length_jsonText_obj, utf8Length_jsonText_obj]
  · simp only [memberBytes_cons, memberBytes_nil, hops, hempty]
    omega
  all_goals simp [JsValue.ofNat, JsValue.ofLit, opsToJs]

/-! ## The real splitter -/

/-- The splitter between two operations, and the bins as full. -/
structure Packed (seq : ℕ) (chunks : List ChunkPayload) (current : ChunkPayload) (b : Bins) : Prop where
  seq_eq : current.seq = seq
  index_eq : current.index = chunks.length
  filled : b.filled = chunks.length
  closed : b.closed = (chunks.map ChunkPayload.bytes).sum
  count : b.count = current.ops.length
  sum : b.sum = (current.ops.map operationWireBytes).sum

namespace Packed

variable {seq : ℕ} {chunks : List ChunkPayload} {current : ChunkPayload} {b : Bins} {operation : RawOperation}

theorem level_eq (h : Packed seq chunks current b) : (chunking seq).level b = current.bytes := by
  rw [bytes_chunk, NextFit.level, h.count, h.sum, h.filled, h.seq_eq, h.index_eq]
  rfl

theorem candidate_fits (h : Packed seq chunks current b) :
    ((current.ops ++ [operation]).length ≤ maxOpsPerPayload ∧
      ({ current with ops := current.ops ++ [operation] } : ChunkPayload).bytes ≤ maxChunkBodyBytes) ↔
    (b.count + 1 ≤ (chunking seq).room ∧
      (chunking seq).head b.filled + b.sum + operationWireBytes operation + b.count ≤ (chunking seq).capacity) := by
  have hbytes : ({ current with ops := current.ops ++ [operation] } : ChunkPayload).bytes =
      chunkHeader seq b.filled + b.sum + operationWireBytes operation + b.count := by
    rw [bytes_chunk, h.filled, h.sum, h.count, ← h.index_eq, ← h.seq_eq]
    simp only [List.map_append, List.map_cons, List.map_nil, List.sum_append, List.sum_cons, List.sum_nil,
      List.length_append, List.length_cons, List.length_nil]
    omega
  rw [hbytes, List.length_append, List.length_singleton, ← h.count]
  rfl

theorem grow (h : Packed seq chunks current b) :
    Packed seq chunks { current with ops := current.ops ++ [operation] }
      { b with count := b.count + 1, sum := b.sum + operationWireBytes operation } where
  seq_eq := h.seq_eq
  index_eq := h.index_eq
  filled := h.filled
  closed := h.closed
  count := by
    show b.count + 1 = (current.ops ++ [operation]).length
    rw [h.count, List.length_append, List.length_singleton]
  sum := by
    show b.sum + _ = ((current.ops ++ [operation]).map operationWireBytes).sum
    simp [h.sum]

theorem close (h : Packed seq chunks current b) :
    Packed seq (chunks ++ [current]) { seq, index := chunks.length + 1, ops := [operation] }
      ⟨b.filled + 1, b.closed + (chunking seq).level b, 1, operationWireBytes operation⟩ where
  seq_eq := rfl
  index_eq := by rw [List.length_append, List.length_singleton]
  filled := by
    show b.filled + 1 = (chunks ++ [current]).length
    rw [h.filled, List.length_append, List.length_singleton]
  closed := by
    show b.closed + _ = ((chunks ++ [current]).map ChunkPayload.bytes).sum
    rw [h.level_eq, h.closed]
    simp
  count := rfl
  sum := by simp

/-- **The loop packs as the bins do**, to the end. -/
theorem splitLoop_eq {rest : List RawOperation} (h : Packed seq chunks current b) :
    match (chunking seq).putAll b (rest.map operationWireBytes) with
    | none => splitLoop seq maxChunkBodyBytes maxOpsPerPayload chunks current rest = none
    | some b' => ∃ chunks' current', Packed seq chunks' current' b' ∧
        splitLoop seq maxChunkBodyBytes maxOpsPerPayload chunks current rest = some (chunks' ++ [current']) := by
  induction rest generalizing chunks current b with
  | nil => exact ⟨chunks, current, h, rfl⟩
  | cons operation rest ih =>
    rw [List.map_cons, NextFit.putAll_cons]
    have hfits : _ ↔ b.count + 1 ≤ (chunking seq).room ∧
        (chunking seq).head b.filled + b.sum + operationWireBytes operation + b.count ≤ (chunking seq).capacity :=
      h.candidate_fits
    have hnext : ({ seq, index := chunks.length + 1, ops := [operation] } : ChunkPayload).bytes =
        (chunking seq).head (b.filled + 1) + operationWireBytes operation := by
      rw [bytes_chunk, h.filled]
      simp [chunking]
    by_cases hin : b.count + 1 ≤ (chunking seq).room ∧
        (chunking seq).head b.filled + b.sum + operationWireBytes operation + b.count ≤ (chunking seq).capacity
    · -- it goes into the current chunk
      have hput : (chunking seq).put b (operationWireBytes operation) =
          some { b with count := b.count + 1, sum := b.sum + operationWireBytes operation } := if_pos hin
      have hloop : splitLoop seq maxChunkBodyBytes maxOpsPerPayload chunks current (operation :: rest) =
          splitLoop seq maxChunkBodyBytes maxOpsPerPayload chunks
            { current with ops := current.ops ++ [operation] } rest := if_pos (hfits.2 hin)
      rw [hput, Option.bind_some, hloop]
      exact ih h.grow
    · have hout := mt hfits.1 hin
      by_cases hempty : current.ops = []
      · have hzero : b.count = 0 := by rw [h.count, hempty]; rfl
        have hput : (chunking seq).put b (operationWireBytes operation) = none := by
          rw [NextFit.put, if_neg hin, if_pos hzero]
        have hloop : splitLoop seq maxChunkBodyBytes maxOpsPerPayload chunks current (operation :: rest) = none := by
          rw [splitLoop]
          dsimp only
          rw [if_neg hout, if_pos hempty]
        rw [hput, Option.bind_none]
        exact hloop
      · have hpos : b.count ≠ 0 := by
          rw [h.count]
          exact fun hlength => hempty (List.length_eq_zero_iff.1 hlength)
        by_cases hlarge : (chunking seq).capacity < (chunking seq).head (b.filled + 1) + operationWireBytes operation
        · have hput : (chunking seq).put b (operationWireBytes operation) = none := by
            rw [NextFit.put, if_neg hin, if_neg hpos, if_pos hlarge]
          have hloop : splitLoop seq maxChunkBodyBytes maxOpsPerPayload chunks current (operation :: rest) = none := by
            rw [splitLoop]
            dsimp only
            rw [if_neg hout, if_neg hempty, if_pos (by rw [hnext]; exact hlarge)]
          rw [hput, Option.bind_none]
          exact hloop
        · -- it opens the next chunk
          have hput : (chunking seq).put b (operationWireBytes operation) =
              some ⟨b.filled + 1, b.closed + (chunking seq).level b, 1, operationWireBytes operation⟩ := by
            rw [NextFit.put, if_neg hin, if_neg hpos, if_neg hlarge]
          have hloop : splitLoop seq maxChunkBodyBytes maxOpsPerPayload chunks current (operation :: rest) =
              splitLoop seq maxChunkBodyBytes maxOpsPerPayload (chunks ++ [current])
                { seq, index := chunks.length + 1, ops := [operation] } rest := by
            rw [splitLoop]
            dsimp only
            rw [if_neg hout, if_neg hempty, if_neg (by rw [hnext]; exact hlarge)]
          rw [hput, Option.bind_some, hloop]
          exact ih h.close

end Packed

variable [Sha256]

theorem map_snd_splitCheckpoint {checkpoint : CheckpointPayload} (hops : checkpoint.ops ≠ []) (chunkTag : ℕ → Tag) :
    (splitCheckpoint checkpoint chunkTag maxChunkBodyBytes maxOpsPerPayload).map Prod.snd =
      (splitLoop checkpoint.seq maxChunkBodyBytes maxOpsPerPayload []
        { seq := checkpoint.seq, index := 0, ops := [] } checkpoint.ops).filter fun chunks =>
          chunks.length ≤ maxChunks && !exceedsCheckpointCeiling checkpoint.ops.length := by
  have hsome : (guard (checkpoint.ops ≠ []) : Option Unit) = some () := if_pos hops
  have hone : (guard (1 ≤ maxOpsPerPayload) : Option Unit) = some () := if_pos (by decide)
  unfold splitCheckpoint
  rw [hsome, hone, Nat.min_self]
  simp only [Option.bind_eq_bind, Option.bind_some]
  cases exceedsCheckpointCeiling checkpoint.ops.length with
  | true =>
    show none = _
    cases splitLoop checkpoint.seq maxChunkBodyBytes maxOpsPerPayload []
      { seq := checkpoint.seq, index := 0, ops := [] } checkpoint.ops with
    | none => rfl
    | some chunks => simp [Option.filter]
  | false =>
    simp only [guard_true]
    cases splitLoop checkpoint.seq maxChunkBodyBytes maxOpsPerPayload []
      { seq := checkpoint.seq, index := 0, ops := [] } checkpoint.ops with
    | none => rfl
    | some chunks =>
      by_cases hlength : chunks.length ≤ maxChunks
      · simp [Option.filter, hlength]
      · simp [Option.filter, hlength]

/-- **The projection agrees with the splitter**: it fits where there is a split, with as many chunks and bytes. -/
theorem projection_agrees (checkpoint : CheckpointPayload) (hops : checkpoint.ops ≠ []) (chunkTag : ℕ → Tag) :
    let projection := projectCheckpointFromSizes (checkpoint.ops.map operationWireBytes) checkpoint.seq
    let split := splitCheckpoint checkpoint chunkTag maxChunkBodyBytes maxOpsPerPayload
    (projection.fits = true ↔ split ≠ none) ∧
    ∀ manifest chunks, split = some (manifest, chunks) →
      projection.chunks = (chunks.length : ℕ) ∧
      projection.bytes = ((chunks.map fun c => utf8Length (jsonText c.toJs)).sum : ℕ) := by
  intro projection split
  have hsizes : checkpoint.ops.map operationWireBytes ≠ [] := fun h => hops (List.map_eq_nil_iff.1 h)
  have hprojection : projection = _ := projectCheckpoint_eq checkpoint.seq hsizes
  have hsplit := map_snd_splitCheckpoint hops chunkTag
  have hstart : Packed checkpoint.seq [] { seq := checkpoint.seq, index := 0, ops := [] } NextFit.start :=
    ⟨rfl, rfl, rfl, rfl, rfl, rfl⟩
  have hloop := @Packed.splitLoop_eq _ _ _ _ _ checkpoint.ops hstart
  rw [hprojection]
  cases hpacked : (chunking checkpoint.seq).putAll NextFit.start (checkpoint.ops.map operationWireBytes) with
  | none =>
    rw [hpacked] at hloop
    rw [hloop] at hsplit
    have hnone : split = none := Option.map_eq_none_iff.1 hsplit
    rw [hnone]
    refine ⟨?_, fun manifest chunks h => by cases h⟩
    simp
  | some b =>
    rw [hpacked] at hloop
    obtain ⟨chunks', current', hpack, hresult⟩ := hloop
    have hlength : b.filled + 1 = (chunks' ++ [current']).length := by
      rw [hpack.filled, List.length_append, List.length_singleton]
    have htotal : (chunking checkpoint.seq).total b =
        ((chunks' ++ [current']).map fun c => utf8Length (jsonText c.toJs)).sum := by
      rw [NextFit.total, hpack.level_eq, hpack.closed, List.map_append, List.sum_append]
      show _ = (chunks'.map ChunkPayload.bytes).sum + (current'.bytes + 0)
      rfl
    rw [hresult] at hsplit
    rw [List.length_map]
    dsimp only
    rw [hlength, htotal]
    cases hfits : (decide ((chunks' ++ [current']).length ≤ maxChunks) &&
        !exceedsCheckpointCeiling checkpoint.ops.length) with
    | false =>
      rw [Option.filter, if_neg (by rw [hfits]; decide)] at hsplit
      have hnone : split = none := Option.map_eq_none_iff.1 hsplit
      rw [hnone]
      exact ⟨by simp, fun manifest chunks h => by cases h⟩
    | true =>
      rw [Option.filter, if_pos hfits] at hsplit
      obtain ⟨⟨manifest, chunks⟩, hsome, hchunks⟩ := Option.map_eq_some_iff.1 hsplit
      have hsome' : split = some (manifest, chunks) := hsome
      cases hchunks
      rw [hsome']
      refine ⟨by simp, fun manifest' chunks h => ?_⟩
      cases h
      exact ⟨rfl, rfl⟩

end

/-! ## Two operations -/

section

@[reducible] def zeroDigest : Sha256 := ⟨fun _ => Hex.repeated 64 0⟩

attribute [local instance] decimalNumerals zeroDigest

def sampleCheckpoint : CheckpointPayload where
  seq := 7
  createdAt := 0
  deviceIds := []
  frontier := ⟨2, []⟩
  ops := [[("logicalClock", .ofNat 1)], [("logicalClock", .ofNat 2), ("value", .str (lit "Ann"))]]

theorem projection_agrees_sample :
    sampleCheckpoint.ops ≠ [] ∧
    ((projectCheckpointFromSizes (sampleCheckpoint.ops.map operationWireBytes) 7).fits = true ↔
      splitCheckpoint sampleCheckpoint (fun _ => Hex.repeated 32 1) maxChunkBodyBytes maxOpsPerPayload ≠ none) :=
  ⟨List.cons_ne_nil _ _, (projection_agrees sampleCheckpoint (List.cons_ne_nil _ _) fun _ => Hex.repeated 32 1).1⟩

end

end SignetApp.Sync
