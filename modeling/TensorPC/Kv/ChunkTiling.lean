import TensorPC.Kv.ReceivedBytes

namespace TensorPC.Kv

/-!
# Tiling the arrays with chunks

The pieces of every array cover its bytes once and in order, whatever chunks they
are packed into.  The pieces of one chunk lie one after the other in the buffer of
the item, so that one copied region moves all of them.
-/

/-- Arrays that lie back to back at aligned offsets of a buffer. -/
structure ArrayLayout where
  offset : Nat
  offset_aligned : offset % alignSize = 0
  descs : List SharedArraySegmentDesc
  backToBack : BackToBack offset descs

/-- Where the last array of a layout ends. -/
def ArrayLayout.stop (layout : ArrayLayout) : Nat :=
  layout.offset + totalAlignedByteSize layout.descs

/-- A `max_size` of chunks: a positive multiple of `ALIGN_SIZE`. -/
structure ChunkSize where
  maxSize : Nat
  positive : 0 < maxSize
  aligned : maxSize % alignSize = 0

/-! ## The bytes that pieces carry -/

/-- The positions in its array of the bytes that a descriptor carries. -/
def carriedBytes (desc : SharedArraySegmentDesc) : List Nat :=
  match desc.partialInfo with
  | none => List.range desc.getByteSize
  | some info => List.range' info.start info.length

/-- Pieces of an array that carry each of its bytes once, in increasing order. -/
structure CoversOnce
    (desc : SharedArraySegmentDesc)
    (pieces : List SharedArraySegmentDesc) : Prop where
  arePieces :
    ∀ piece ∈ pieces, ∃ start length, piece = desc.withPartial start length
  bytes : pieces.flatMap carriedBytes = List.range desc.getByteSize

theorem IsPieces.carriedBytes_eq
    {info : SharedArraySegmentDesc}
    {start : Nat}
    {pieces : List SharedArraySegmentDesc}
    (isPieces : IsPieces info start pieces) :
    pieces.flatMap carriedBytes =
      List.range' start (info.getByteSize - start) := by
  induction isPieces with
  | @done start aligned covered =>
      rw [Nat.sub_eq_zero_of_le covered]
      rfl
  | @piece start length rest aligned nonempty inside boundary others inductionHypothesis =>
      have grown := le_alignUp length
      rw [List.flatMap_cons, inductionHypothesis]
      change List.range' start length ++ _ = _
      rcases boundary with last | cut
      · -- the last piece ends where the array ends, before its aligned size
        have nothing :
            info.getByteSize - (start + alignUp length alignSize) = 0 := by
          omega
        have whole : info.getByteSize - start = length := by
          omega
        rw [nothing, whole]
        exact List.append_nil _
      · -- the other pieces have an aligned length
        have split :
            info.getByteSize - start =
              length + (info.getByteSize - (start + length)) := by
          omega
        rw [(alignUp_eq_self_iff length).mpr cut, split]
        exact List.range'_append_1

theorem IsPieces.eq_withPartial
    {info piece : SharedArraySegmentDesc}
    {start : Nat}
    {pieces : List SharedArraySegmentDesc}
    (isPieces : IsPieces info start pieces)
    (member : piece ∈ pieces) :
    ∃ first length, piece = info.withPartial first length := by
  induction isPieces with
  | done aligned covered =>
      cases member
  | @piece start length rest aligned nonempty inside boundary others inductionHypothesis =>
      rcases List.mem_cons.mp member with rfl | later
      · exact ⟨start, length, rfl⟩
      · exact inductionHypothesis later

theorem IsPieces.coversOnce
    {info : SharedArraySegmentDesc}
    {pieces : List SharedArraySegmentDesc}
    (isPieces : IsPieces info 0 pieces) :
    CoversOnce info pieces where
  arePieces := fun _ member => isPieces.eq_withPartial member
  bytes := by
    rw [isPieces.carriedBytes_eq, List.range_eq_range']
    rfl

/-- The pieces of all arrays fall into one group for each array. -/
theorem IsPiecesOf.groups
    {infos pieces : List SharedArraySegmentDesc}
    (isPieces : IsPiecesOf infos pieces) :
    ∃ groups : List (List SharedArraySegmentDesc),
      groups.flatten = pieces ∧ List.Forall₂ CoversOnce infos groups := by
  induction isPieces with
  | nil =>
      exact ⟨[], rfl, .nil⟩
  | @cons info infos pieces rest first others inductionHypothesis =>
      obtain ⟨groups, flat, covers⟩ := inductionHypothesis
      refine ⟨pieces :: groups, ?_, .cons first.coversOnce covers⟩
      rw [List.flatten_cons, flat]

/-! ## The regions of the chunks -/

/-- Each chunk of contiguous pieces is a contiguous region inside theirs. -/
theorem contiguous_of_mem
    {offset : Nat}
    {chunks : List (List SharedArraySegmentDesc)}
    {chunk : List SharedArraySegmentDesc}
    (contiguous : Contiguous offset chunks.flatten)
    (member : chunk ∈ chunks) :
    ∃ start,
      Contiguous start chunk ∧
      start + totalPartialSizeAligned chunk ≤
        offset + totalPartialSizeAligned chunks.flatten := by
  induction chunks generalizing offset with
  | nil =>
      cases member
  | cons head rest inductionHypothesis =>
      rw [List.flatten_cons, contiguous_append] at contiguous
      rw [List.flatten_cons, totalPartialSizeAligned_append]
      rcases List.mem_cons.mp member with rfl | later
      · exact ⟨offset, contiguous.1, by omega⟩
      · obtain ⟨start, region, inside⟩ := inductionHypothesis contiguous.2 later
        exact ⟨start, region, by omega⟩

/-- `chunk[0].get_shm_offset_with_partial()`. -/
def firstOffset (chunk : List SharedArraySegmentDesc) : Nat :=
  match chunk with
  | [] => 0
  | head :: _ => head.getShmOffsetWithPartial

/-- The offset in shared memory that the server names for a piece of a chunk. -/
def relativeOffset (chunk : List SharedArraySegmentDesc) (piece : SharedArraySegmentDesc) : Nat :=
  piece.getShmOffsetWithPartial - firstOffset chunk

/-- The bytes of a piece at an offset of a memory. -/
def bytesAt
    (memory : List UInt8)
    (offset : Nat)
    (piece : SharedArraySegmentDesc) :
    List UInt8 :=
  slice memory offset (offset + piece.getPartialSize)

/-- A chunk that is copied as one region, of at most `maxSize` bytes below `stop`. -/
structure IsRegion
    (maxSize stop : Nat)
    (chunk : List SharedArraySegmentDesc) : Prop where
  nonempty : chunk ≠ []
  fits : totalPartialSizeAligned chunk ≤ maxSize
  contiguous : Contiguous (firstOffset chunk) chunk
  saves :
    ∀ shm buffer : List UInt8, maxSize ≤ shm.length → stop ≤ buffer.length →
      ∃ saved,
        saveChunkToShm shm chunk buffer = .ok saved ∧
        ∀ piece ∈ chunk,
          bytesAt saved (relativeOffset chunk piece) piece =
            bytesAt buffer piece.getShmOffsetWithPartial piece
  loads :
    ∀ shm buffer : List UInt8, maxSize ≤ shm.length → stop ≤ buffer.length →
      ∃ loaded,
        loadChunkFromShm shm chunk buffer = .ok loaded ∧
        ∀ piece ∈ chunk,
          bytesAt loaded piece.getShmOffsetWithPartial piece =
            bytesAt shm (relativeOffset chunk piece) piece

theorem Contiguous.eq_firstOffset
    {offset : Nat}
    {chunk : List SharedArraySegmentDesc}
    (contiguous : Contiguous offset chunk)
    (nonempty : chunk ≠ []) :
    firstOffset chunk = offset := by
  cases chunk with
  | nil =>
      exact absurd rfl nonempty
  | cons head rest =>
      exact contiguous.1

section Copies

variable {start : Nat} {chunk : List SharedArraySegmentDesc} {shm buffer : List UInt8}
variable (nonempty : chunk ≠ []) (contiguous : Contiguous start chunk)
variable (fits : totalPartialSizeAligned chunk ≤ shm.length)
variable (stored : start + totalPartialSizeAligned chunk ≤ buffer.length)

include nonempty contiguous fits stored

theorem saveChunkToShm_moves :
    ∃ saved,
      saveChunkToShm shm chunk buffer = .ok saved ∧
      ∀ piece ∈ chunk,
        bytesAt saved (relativeOffset chunk piece) piece =
          bytesAt buffer piece.getShmOffsetWithPartial piece := by
  refine ⟨_, saveChunkToShm_region nonempty contiguous stored fits, ?_⟩
  intro piece member
  obtain ⟨above, below⟩ := mem_contiguous contiguous member
  have width :
      (slice buffer start (start + totalPartialSizeAligned chunk)).length =
        totalPartialSizeAligned chunk := by
    rw [length_slice]
    omega
  have moved :
      start + (piece.getShmOffsetWithPartial - start) =
        piece.getShmOffsetWithPartial := by
    omega
  unfold bytesAt relativeOffset
  rw [contiguous.eq_firstOffset nonempty, slice_append_left (by omega),
    slice_slice (by omega), ← Nat.add_assoc, moved]

theorem loadChunkFromShm_moves :
    ∃ loaded,
      loadChunkFromShm shm chunk buffer = .ok loaded ∧
      ∀ piece ∈ chunk,
        bytesAt loaded piece.getShmOffsetWithPartial piece =
          bytesAt shm (relativeOffset chunk piece) piece := by
  obtain ⟨loaded, computed, _, moved⟩ :=
    loadChunkFromShm_region nonempty contiguous fits stored
  refine ⟨loaded, computed, ?_⟩
  intro piece member
  unfold bytesAt relativeOffset
  rw [contiguous.eq_firstOffset nonempty]
  exact moved piece member

end Copies

/-- Chunks tile their arrays: each is one region of the buffer, and together they
carry every byte of every array once. -/
theorem chunkizeArrDescs_tiles
    (layout : ArrayLayout)
    (size : ChunkSize) :
    ∃ chunks,
      chunkizeArrDescs layout.descs size.maxSize = .ok chunks ∧
      (∀ chunk ∈ chunks, IsRegion size.maxSize layout.stop chunk) ∧
      ∃ groups : List (List SharedArraySegmentDesc),
        groups.flatten = chunks.flatten ∧
        List.Forall₂ CoversOnce layout.descs groups := by
  obtain ⟨chunks, computed, nonempty, fits, isPieces⟩ :=
    chunkizeArrDescs_spec size.positive size.aligned layout.descs
  have contiguous := isPieces.contiguous_backToBack layout.backToBack
  refine ⟨chunks, computed, ?_, isPieces.groups⟩
  intro chunk member
  obtain ⟨start, region, inside⟩ := contiguous_of_mem contiguous member
  have notEmpty := nonempty chunk member
  have small := fits chunk member
  rw [isPieces.totalPartialSizeAligned_eq] at inside
  refine ⟨notEmpty, small, ?_, ?_, ?_⟩
  · rw [region.eq_firstOffset notEmpty]
    exact region
  · intro shm buffer enough stored
    exact saveChunkToShm_moves notEmpty region (Nat.le_trans small enough)
      (Nat.le_trans inside stored)
  · intro shm buffer enough stored
    exact loadChunkFromShm_moves notEmpty region (Nat.le_trans small enough)
      (Nat.le_trans inside stored)

end TensorPC.Kv
