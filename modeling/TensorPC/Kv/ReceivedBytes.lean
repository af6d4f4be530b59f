import TensorPC.Kv.ReceiveStream

namespace TensorPC.Kv

/-!
# The bytes that a stream stores

Every piece that the client copies into the shared memory of its chunk is loaded
to the place of the piece in the buffer, and later chunks leave it there.  In the
end each array of the buffer has the bytes of the client's array.
-/

/-! ## Pieces of the client's arrays -/

/-- A piece of an array that the client has. -/
def IsClientPiece
    (arrays : List ClientArray)
    (desc : SharedArraySegmentDesc) :
    Prop :=
  ∃ array info,
    itemAt arrays desc.varIdx = .ok array ∧
    desc.partialInfo = some info ∧
    info.start + info.length ≤ array.bytes.length

/-- The bytes of a piece. -/
def pieceBytes
    (arrays : List ClientArray)
    (desc : SharedArraySegmentDesc) :
    List UInt8 :=
  match itemAt arrays desc.varIdx, desc.partialInfo with
  | .ok array, some info => slice array.bytes info.start (info.start + info.length)
  | _, _ => []

/-- A memory whose first byte is at `base` holds the bytes of pieces. -/
def HoldsPieces
    (arrays : List ClientArray)
    (base : Nat)
    (memory : List UInt8)
    (pieces : List SharedArraySegmentDesc) :
    Prop :=
  ∀ desc ∈ pieces,
    slice memory (desc.getShmOffsetWithPartial - base)
        (desc.getShmOffsetWithPartial - base + desc.getPartialSize) =
      pieceBytes arrays desc

section Pieces

variable {arrays : List ClientArray} {desc : SharedArraySegmentDesc}

theorem length_pieceBytes (isPiece : IsClientPiece arrays desc) :
    (pieceBytes arrays desc).length = desc.getPartialSize := by
  obtain ⟨array, info, found, isPartial, inside⟩ := isPiece
  simp only [pieceBytes, found, isPartial, length_slice,
    SharedArraySegmentDesc.getPartialSize]
  omega

/-- Copying a piece through its relative descriptor. -/
theorem fillPiece_relative
    {shm : List UInt8}
    {base : Nat}
    (isPiece : IsClientPiece arrays desc)
    (inside :
      desc.getShmOffsetWithPartial - base + desc.getPartialSize ≤ shm.length) :
    fillPiece arrays shm
        { desc with shmOffset := desc.getShmOffsetWithPartial - base } =
      assignSlice shm (desc.getShmOffsetWithPartial - base)
        (desc.getShmOffsetWithPartial - base + desc.getPartialSize)
        (pieceBytes arrays desc) := by
  have view :=
    @getArrayViewRaw_ok shm
      { desc with shmOffset := desc.getShmOffsetWithPartial - base } inside
  rcases desc with ⟨tensorInfo, shmOffset, varIdx, partialInfo⟩
  obtain ⟨array, info, found, isPartial, _⟩ := isPiece
  simp only at found isPartial
  subst isPartial
  simp only [fillPiece, found, view, pieceBytes,
    SharedArraySegmentDesc.getPartialInfoChecked, bind, Except.bind]
  rfl

/-- Copying a piece succeeds, and leaves what lies before it. -/
theorem assignSlice_piece
    {shm : List UInt8}
    {place : Nat}
    (isPiece : IsClientPiece arrays desc)
    (inside : place + desc.getPartialSize ≤ shm.length) :
    ∃ content,
      assignSlice shm place (place + desc.getPartialSize)
          (pieceBytes arrays desc) = .ok content ∧
      slice content place (place + desc.getPartialSize) = pieceBytes arrays desc ∧
      ∀ first last, last ≤ place → slice content first last = slice shm first last := by
  have width := length_pieceBytes isPiece
  have room : (slice shm place (place + desc.getPartialSize)).length =
      desc.getPartialSize := by
    rw [length_slice]
    omega
  have assigned :
      assignSlice shm place (place + desc.getPartialSize)
          (pieceBytes arrays desc) =
        .ok (shm.take place ++ pieceBytes arrays desc ++
          shm.drop (place + desc.getPartialSize)) := by
    simp only [assignSlice, room, width, ↓reduceIte]
  refine ⟨_, assigned, ?_, ?_⟩
  · exact slice_assignSlice_same inside (by omega) (Nat.le_add_right _ _) assigned
  · intro first last before
    exact slice_assignSlice_before (by omega) before assigned

end Pieces

/-- Copying the pieces of a chunk. -/
theorem fillChunk_relative
    {arrays : List ClientArray}
    {base offset : Nat}
    {pieces : List SharedArraySegmentDesc}
    {shm : List UInt8}
    (arePieces : ∀ desc ∈ pieces, IsClientPiece arrays desc)
    (above : base ≤ offset)
    (contiguous : Contiguous offset pieces)
    (inside : offset + totalPartialSizeAligned pieces ≤ base + shm.length) :
    ∃ content,
      fillChunk arrays shm
          (pieces.map fun info =>
            { info with shmOffset := info.getShmOffsetWithPartial - base }) =
        .ok content ∧
      HoldsPieces arrays base content pieces ∧
      ∀ first last,
        last ≤ offset - base → slice content first last = slice shm first last := by
  induction pieces generalizing offset shm with
  | nil =>
      exact ⟨shm, rfl, nofun, fun _ _ _ => rfl⟩
  | cons desc rest inductionHypothesis =>
      obtain ⟨here, later⟩ := contiguous
      rw [totalPartialSizeAligned_cons] at inside
      have size := getPartialSize_le desc
      have isPiece := arePieces desc List.mem_cons_self
      have room :
          desc.getShmOffsetWithPartial - base + desc.getPartialSize ≤ shm.length := by
        omega
      obtain ⟨middle, assigned, holds, kept⟩ := assignSlice_piece isPiece room
      have sameLength := length_assignSlice assigned
      obtain ⟨content, filled, holdsRest, keptRest⟩ :=
        @inductionHypothesis _ middle
          (fun other member => arePieces other (List.mem_cons_of_mem desc member))
          (Nat.le_trans above (Nat.le_add_right _ _)) later (by omega)
      refine ⟨content, ?_, ?_, ?_⟩
      · unfold fillChunk at filled ⊢
        rw [List.map_cons, List.foldlM_cons, fillPiece_relative isPiece room,
          assigned]
        exact filled
      · intro other member
        rcases List.mem_cons.mp member with rfl | inRest
        · rw [keptRest _ _ (by omega)]
          exact holds
        · exact holdsRest other inRest
      · intro first last before
        rw [keptRest first last (by omega)]
        exact kept first last (by omega)

theorem mem_contiguous
    {offset : Nat}
    {pieces : List SharedArraySegmentDesc}
    {desc : SharedArraySegmentDesc}
    (contiguous : Contiguous offset pieces)
    (member : desc ∈ pieces) :
    offset ≤ desc.getShmOffsetWithPartial ∧
      desc.getShmOffsetWithPartial + desc.getPartialSize ≤
        offset + totalPartialSizeAligned pieces := by
  induction pieces generalizing offset with
  | nil =>
      cases member
  | cons head rest inductionHypothesis =>
      obtain ⟨here, later⟩ := contiguous
      rw [totalPartialSizeAligned_cons]
      rcases List.mem_cons.mp member with rfl | inRest
      · have size := getPartialSize_le desc
        omega
      · obtain ⟨above, below⟩ := inductionHypothesis later inRest
        omega

/-! ## Loading chunks -/

/-- Loading a chunk replaces its region of the buffer. -/
theorem loadChunkFromShm_region
    {offset : Nat}
    {chunk : List SharedArraySegmentDesc}
    {shm buffer : List UInt8}
    (nonempty : chunk ≠ [])
    (contiguous : Contiguous offset chunk)
    (fits : totalPartialSizeAligned chunk ≤ shm.length)
    (stored : offset + totalPartialSizeAligned chunk ≤ buffer.length) :
    ∃ loaded,
      loadChunkFromShm shm chunk buffer = .ok loaded ∧
      assignSlice buffer offset (offset + totalPartialSizeAligned chunk)
          (slice shm 0 (totalPartialSizeAligned chunk)) =
        .ok loaded ∧
      ∀ desc ∈ chunk,
        slice loaded desc.getShmOffsetWithPartial
            (desc.getShmOffsetWithPartial + desc.getPartialSize) =
          slice shm (desc.getShmOffsetWithPartial - offset)
            (desc.getShmOffsetWithPartial - offset + desc.getPartialSize) := by
  have width : (slice shm 0 (totalPartialSizeAligned chunk)).length =
      totalPartialSizeAligned chunk := by
    rw [length_slice]
    omega
  have room :
      (slice buffer offset (offset + totalPartialSizeAligned chunk)).length =
        totalPartialSizeAligned chunk := by
    rw [length_slice]
    omega
  have assigned :
      assignSlice buffer offset (offset + totalPartialSizeAligned chunk)
          (slice shm 0 (totalPartialSizeAligned chunk)) =
        .ok (buffer.take offset ++ slice shm 0 (totalPartialSizeAligned chunk) ++
          buffer.drop (offset + totalPartialSizeAligned chunk)) := by
    simp only [assignSlice, room, width, ↓reduceIte]
  have whole :=
    slice_assignSlice_same stored (by omega) (Nat.le_add_right _ _) assigned
  refine ⟨_, ?_, assigned, ?_⟩
  · cases chunk with
    | nil =>
        exact absurd rfl nonempty
    | cons head rest =>
        simp only [loadChunkFromShm, contiguous.1]
        exact assigned
  · intro desc member
    obtain ⟨above, below⟩ := mem_contiguous contiguous member
    have moved :
        offset + (desc.getShmOffsetWithPartial - offset) =
          desc.getShmOffsetWithPartial := by
      omega
    calc
      _ = slice (slice _ offset (offset + totalPartialSizeAligned chunk))
            (desc.getShmOffsetWithPartial - offset)
            (desc.getShmOffsetWithPartial - offset + desc.getPartialSize) := by
        rw [slice_slice (by omega), ← Nat.add_assoc, moved]
      _ = slice (slice shm 0 (totalPartialSizeAligned chunk))
            (desc.getShmOffsetWithPartial - offset)
            (desc.getShmOffsetWithPartial - offset + desc.getPartialSize) := by
        rw [whole]
      _ = _ := by
        rw [slice_slice (by omega), Nat.zero_add, Nat.zero_add]

/-- Loading a chunk moves its pieces to their places in the buffer. -/
theorem loadChunkFromShm_holds
    {arrays : List ClientArray}
    {offset : Nat}
    {chunk : List SharedArraySegmentDesc}
    {shm buffer : List UInt8}
    (nonempty : chunk ≠ [])
    (contiguous : Contiguous offset chunk)
    (fits : totalPartialSizeAligned chunk ≤ shm.length)
    (stored : offset + totalPartialSizeAligned chunk ≤ buffer.length)
    (holds : HoldsPieces arrays offset shm chunk) :
    ∃ loaded,
      loadChunkFromShm shm chunk buffer = .ok loaded ∧
      loaded.length = buffer.length ∧
      HoldsPieces arrays 0 loaded chunk ∧
      ∀ first last,
        last ≤ offset → slice loaded first last = slice buffer first last := by
  obtain ⟨loaded, computed, assigned, moved⟩ :=
    loadChunkFromShm_region nonempty contiguous fits stored
  refine ⟨loaded, computed, length_assignSlice assigned, ?_, ?_⟩
  · intro desc member
    rw [Nat.sub_zero, moved desc member]
    exact holds desc member
  · intro first last before
    exact slice_assignSlice_before (by omega) before assigned

/-- The client fills the buffer of a chunk through relative descriptors. -/
theorem fillChunkAt_holds
    {shmSize : Nat}
    {arrays : List ClientArray}
    {offset : Nat}
    {chunk : List SharedArraySegmentDesc}
    (buffers : DoubleBuffer shmSize)
    (chunkIdx : Nat)
    (nonempty : chunk ≠ [])
    (arePieces : ∀ desc ∈ chunk, IsClientPiece arrays desc)
    (contiguous : Contiguous offset chunk)
    (fits : totalPartialSizeAligned chunk ≤ shmSize) :
    ∃ filled,
      fillChunkAt arrays buffers chunkIdx (relativeDescs chunk) = .ok filled ∧
      HoldsPieces arrays offset (filled.get chunkIdx) chunk := by
  have length := buffers.length_get chunkIdx
  obtain ⟨content, computed, holds, _⟩ :=
    @fillChunk_relative arrays offset offset chunk (buffers.get chunkIdx)
      arePieces (Nat.le_refl _) contiguous (by omega)
  have relative :
      fillChunk arrays (buffers.get chunkIdx) (relativeDescs chunk) =
        .ok content := by
    cases chunk with
    | nil =>
        exact absurd rfl nonempty
    | cons head rest =>
        simp only [relativeDescs, contiguous.1]
        exact computed
  unfold fillChunkAt
  split
  · rename_i raised failed
    rw [relative] at failed
    cases failed
  · rename_i other filled
    rw [relative] at filled
    cases filled
    refine ⟨_, rfl, ?_⟩
    rw [DoubleBuffer.get_set_self]
    exact holds

/-- The rounds of a session load every piece. -/
theorem receiveChunks_holds
    {shmSize : Nat}
    {arrays : List ClientArray}
    {offset chunkIdx : Nat}
    {chunks : List (List SharedArraySegmentDesc)}
    {buffers : DoubleBuffer shmSize}
    {buffer : List UInt8}
    (nonempty : ∀ chunk ∈ chunks, chunk ≠ [])
    (fits : ∀ chunk ∈ chunks, totalPartialSizeAligned chunk ≤ shmSize)
    (arePieces : ∀ desc ∈ chunks.flatten, IsClientPiece arrays desc)
    (firstRelative :
      chunkIdx = 0 →
        ∀ first ∈ chunks.head?, firstDescs first = relativeDescs first)
    (contiguous : Contiguous offset chunks.flatten)
    (stored : offset + totalPartialSizeAligned chunks.flatten ≤ buffer.length) :
    ∃ received,
      receiveChunks arrays chunks chunkIdx buffers buffer = .ok received ∧
      HoldsPieces arrays 0 received chunks.flatten ∧
      ∀ first last,
        last ≤ offset → slice received first last = slice buffer first last := by
  induction chunks generalizing offset chunkIdx buffers buffer with
  | nil =>
      exact ⟨buffer, rfl, nofun, fun _ _ _ => rfl⟩
  | cons chunk rest inductionHypothesis =>
      rw [List.flatten_cons, contiguous_append] at contiguous
      rw [List.flatten_cons, totalPartialSizeAligned_append] at stored
      have sent : sentDescs chunkIdx chunk = relativeDescs chunk := by
        unfold sentDescs
        split
        · rename_i isFirst
          exact firstRelative isFirst chunk rfl
        · rfl
      obtain ⟨filled, fill, inShm⟩ :=
        fillChunkAt_holds buffers chunkIdx (nonempty chunk List.mem_cons_self)
          (fun desc member =>
            arePieces desc (List.mem_append_left _ member))
          contiguous.1 (fits chunk List.mem_cons_self)
      have room :
          totalPartialSizeAligned chunk ≤ (filled.get chunkIdx).length := by
        rw [filled.length_get chunkIdx]
        exact fits chunk List.mem_cons_self
      obtain ⟨loaded, load, sameLength, inBuffer, kept⟩ :=
        @loadChunkFromShm_holds arrays offset chunk (filled.get chunkIdx) buffer
          (nonempty chunk List.mem_cons_self) contiguous.1 room (by omega) inShm
      obtain ⟨received, computed, holds, keptRest⟩ :=
        @inductionHypothesis _ (chunkIdx + 1) filled loaded
          (fun other member => nonempty other (List.mem_cons_of_mem _ member))
          (fun other member => fits other (List.mem_cons_of_mem _ member))
          (fun desc member => arePieces desc (List.mem_append_right _ member))
          nofun contiguous.2 (by omega)
      refine ⟨received, ?_, ?_, ?_⟩
      · simp only [receiveChunks, sent, fill, load, computed, bind, Except.bind]
      · intro desc member
        rcases List.mem_append.mp member with inChunk | inRest
        · obtain ⟨above, below⟩ := mem_contiguous contiguous.1 inChunk
          rw [keptRest _ _ (by omega)]
          exact inBuffer desc inChunk
        · exact holds desc inRest
      · intro first last before
        rw [keptRest first last (by omega)]
        exact kept first last before

/-! ## The first chunk -/

/-- A piece that begins where its array begins. -/
def AtStart (piece : SharedArraySegmentDesc) : Prop :=
  piece.getShmOffsetWithPartial = piece.shmOffset

/-- No array is continued in the first chunk. -/
structure FirstChunkStarts (state : ChunkizeState) : Prop where
  current : state.chunks = [] → ∀ piece ∈ state.curChunk, AtStart piece
  first : ∀ chunk ∈ state.chunks.head?, ∀ piece ∈ chunk, AtStart piece

theorem FirstChunkStarts.start :
    FirstChunkStarts ⟨[], [], 0⟩ where
  current := by simp
  first := by simp

/-- Closing a chunk. -/
theorem FirstChunkStarts.closeChunk
    {state : ChunkizeState}
    (starts : FirstChunkStarts state) :
    FirstChunkStarts
      { chunks := state.chunks ++ [state.curChunk]
        curChunk := []
        curSize := 0 } where
  current := by
    intro noChunks
    simp at noChunks
  first := by
    intro chunk isFirst
    cases closed : state.chunks with
    | nil =>
        simp only [closed, List.nil_append, List.head?_cons, Option.mem_def,
          Option.some.injEq] at isFirst
        subst isFirst
        exact starts.current closed
    | cons head rest =>
        simp only [closed, List.cons_append, List.head?_cons, Option.mem_def,
          Option.some.injEq] at isFirst
        subst isFirst
        apply starts.first
        rw [closed]
        rfl

/-- An array is continued only after its chunk is full. -/
theorem chunkizeInfo_firstChunkStarts
    {maxSize fuel size offset : Nat}
    {info : SharedArraySegmentDesc}
    {state final : ChunkizeState}
    (starts : FirstChunkStarts state)
    (continued :
      state.chunks = [] → offset = 0 ∨ state.curSize = maxSize ∨ size = 0)
    (computed : chunkizeInfo maxSize info fuel size offset state = .ok final) :
    FirstChunkStarts final := by
  induction fuel generalizing size offset state with
  | zero =>
      cases computed
  | succ fuel inductionHypothesis =>
      unfold chunkizeInfo at computed
      by_cases remaining : 0 < size
      · rw [if_pos remaining] at computed
        by_cases room : state.curSize < maxSize
        · rw [if_pos room] at computed
          obtain ⟨_, inRoom, computed⟩ := PyResult.bind_eq_ok.mp computed
          have fitsRoom := pyAssert_eq_ok.mp inRoom
          simp only [decide_eq_true_eq] at fitsRoom
          have enlarged := le_alignUp (min (maxSize - state.curSize) size)
          refine @inductionHypothesis _ _ _ ⟨?_, ?_⟩ ?_ computed
          · intro noChunks piece member
            rcases List.mem_append.mp member with earlier | last
            · exact starts.current noChunks piece earlier
            · rw [List.mem_singleton.mp last]
              have begins : offset = 0 := by
                rcases continued noChunks with begins | full | done
                · exact begins
                · omega
                · omega
              rw [begins]
              rfl
          · exact starts.first
          · intro _
            right
            by_cases whole : size ≤ maxSize - state.curSize
            · right
              omega
            · left
              simp only
              omega
        · rw [if_neg room] at computed
          obtain ⟨_, _, computed⟩ := PyResult.bind_eq_ok.mp computed
          refine inductionHypothesis starts.closeChunk ?_ computed
          intro noChunks
          simp at noChunks
      · rw [if_neg remaining] at computed
        cases computed
        exact starts

theorem chunkizeInfos_firstChunkStarts
    {maxSize : Nat}
    {infos : List SharedArraySegmentDesc}
    {state final : ChunkizeState}
    (starts : FirstChunkStarts state)
    (computed : chunkizeInfos maxSize infos state = .ok final) :
    FirstChunkStarts final := by
  induction infos generalizing state with
  | nil =>
      cases computed
      exact starts
  | cons info rest inductionHypothesis =>
      obtain ⟨middle, first, computed⟩ := PyResult.bind_eq_ok.mp computed
      exact inductionHypothesis
        (chunkizeInfo_firstChunkStarts starts (fun _ => Or.inl rfl) first) computed

/-- The descriptors of the first chunk are relative to it. -/
theorem firstDescs_eq_relativeDescs
    {maxSize : Nat}
    {infos : List SharedArraySegmentDesc}
    {chunks : List (List SharedArraySegmentDesc)}
    (computed : chunkizeArrDescs infos maxSize = .ok chunks) :
    ∀ first ∈ chunks.head?, firstDescs first = relativeDescs first := by
  obtain ⟨final, computed, built⟩ := PyResult.bind_eq_ok.mp computed
  have starts :=
    chunkizeInfos_firstChunkStarts .start computed
  intro first isFirst
  have atStart : ∀ piece ∈ first, AtStart piece := by
    split at built
    · cases built
      exact starts.first first isFirst
    · cases built
      cases closed : final.chunks with
      | nil =>
          simp only [closed, List.nil_append, List.head?_cons, Option.mem_def,
            Option.some.injEq] at isFirst
          subst isFirst
          exact starts.current closed
      | cons head rest =>
          simp only [closed, List.cons_append, List.head?_cons, Option.mem_def,
            Option.some.injEq] at isFirst
          subst isFirst
          apply starts.first
          rw [closed]
          rfl
  cases first with
  | nil =>
      rfl
  | cons head rest =>
      simp only [firstDescs, relativeDescs]
      apply List.map_congr_left
      intro piece member
      rw [atStart piece member, atStart head List.mem_cons_self]

/-! ## From pieces to arrays -/

/-- The pieces of an array from `start` on hold the rest of its bytes. -/
theorem IsPieces.slice_eq
    {arrays : List ClientArray}
    {memory : List UInt8}
    {info : SharedArraySegmentDesc}
    {start : Nat}
    {pieces : List SharedArraySegmentDesc}
    {array : ClientArray}
    (isPieces : IsPieces info start pieces)
    (found : itemAt arrays info.varIdx = .ok array)
    (holds : HoldsPieces arrays 0 memory pieces) :
    slice memory (info.shmOffset + start) (info.shmOffset + info.getByteSize) =
      slice array.bytes start info.getByteSize := by
  induction isPieces with
  | @done start aligned covered =>
      have empty : ∀ (items : List UInt8) (first last : Nat),
          last ≤ first → slice items first last = [] := by
        intro items first last before
        apply List.eq_nil_of_length_eq_zero
        rw [length_slice]
        omega
      rw [empty _ _ _ (by omega), empty _ _ _ covered]
  | @piece start length rest aligned nonempty inside boundary others inductionHypothesis =>
      have later :=
        inductionHypothesis fun desc member =>
          holds desc (List.mem_cons_of_mem _ member)
      have here := holds _ List.mem_cons_self
      simp only [SharedArraySegmentDesc.withPartial_getShmOffsetWithPartial,
        SharedArraySegmentDesc.withPartial_getPartialSize, Nat.sub_zero] at here
      have bytes :
          pieceBytes arrays (info.withPartial start length) =
            slice array.bytes start (start + length) := by
        simp only [pieceBytes, SharedArraySegmentDesc.withPartial, found]
      rw [bytes] at here
      rcases boundary with isLast | whole
      · rw [← isLast, ← Nat.add_assoc]
        exact here
      · rw [(alignUp_eq_self_iff length).mpr whole] at later
        rw [← slice_append_slice memory (Nat.le_add_right _ length) (by omega),
          here, Nat.add_assoc, later,
          slice_append_slice array.bytes (Nat.le_add_right _ _) inside]

/-- A laid out array with the client's array that goes there. -/
def SentTo
    (arrays : List ClientArray)
    (desc : SharedArraySegmentDesc)
    (array : ClientArray) :
    Prop :=
  itemAt arrays desc.varIdx = .ok array ∧ desc.getByteSize = array.bytes.length

theorem itemAt_append_cons
    {α : Type}
    (before rest : List α)
    (item : α) :
    itemAt (before ++ item :: rest) before.length = .ok item := by
  have placed :
      position (before ++ item :: rest).length before.length =
        .ok before.length := by
    have inside : before.length < (before ++ item :: rest).length := by
      rw [List.length_append, List.length_cons]
      omega
    have notNegative : ¬ (before.length : Int) < 0 := by
      omega
    simp only [position, notNegative, ↓reduceIte]
    rw [if_pos ⟨by omega, by omega⟩, Int.toNat_natCast]
  simp only [itemAt, placed, bind, Except.bind]
  simp

/-- The arrays of the client are counted like the descriptors. -/
theorem sentTo_segmentDescs
    {infos : List TensorInfo}
    {before rest : List ClientArray}
    (offset : Nat)
    (fit :
      List.Forall₂ (fun info (array : ClientArray) =>
        info.getByteSize = array.info.getByteSize) infos rest) :
    List.Forall₂ (SentTo (before ++ rest))
      (segmentDescs offset before.length infos) rest := by
  induction fit generalizing offset before with
  | nil =>
      exact .nil
  | @cons info array infos rest same _ inductionHypothesis =>
      refine .cons ⟨itemAt_append_cons before rest array, ?_⟩ ?_
      · rw [array.bytes_length]
        exact same
      · have next :=
          @inductionHypothesis (before ++ [array])
            (offset + info.getAlignedByteSize)
        rw [List.append_assoc, List.length_append] at next
        exact next

theorem IsPieces.isClientPiece
    {arrays : List ClientArray}
    {info : SharedArraySegmentDesc}
    {start : Nat}
    {pieces : List SharedArraySegmentDesc}
    {array : ClientArray}
    (isPieces : IsPieces info start pieces)
    (sent : SentTo arrays info array) :
    ∀ piece ∈ pieces, IsClientPiece arrays piece := by
  induction isPieces with
  | done =>
      exact nofun
  | @piece start length rest aligned nonempty inside boundary others inductionHypothesis =>
      refine List.forall_mem_cons.mpr ⟨?_, inductionHypothesis⟩
      refine ⟨array, ⟨start, length⟩, sent.1, rfl, ?_⟩
      rw [← sent.2]
      exact inside

theorem IsPiecesOf.isClientPiece
    {arrays rest : List ClientArray}
    {descs pieces : List SharedArraySegmentDesc}
    (isPieces : IsPiecesOf descs pieces)
    (sent : List.Forall₂ (SentTo arrays) descs rest) :
    ∀ piece ∈ pieces, IsClientPiece arrays piece := by
  induction isPieces generalizing rest with
  | nil =>
      exact nofun
  | cons first _ inductionHypothesis =>
      cases sent with
      | cons sentFirst sentOthers =>
          intro piece member
          rcases List.mem_append.mp member with inFirst | inOthers
          · exact first.isClientPiece sentFirst piece inFirst
          · exact inductionHypothesis sentOthers piece inOthers

/-- A buffer that holds all pieces has the bytes of every array. -/
theorem IsPiecesOf.map_slice_eq
    {arrays rest : List ClientArray}
    {memory : List UInt8}
    {descs pieces : List SharedArraySegmentDesc}
    (isPieces : IsPiecesOf descs pieces)
    (sent : List.Forall₂ (SentTo arrays) descs rest)
    (holds : HoldsPieces arrays 0 memory pieces) :
    (descs.map fun desc =>
        slice memory desc.shmOffset (desc.shmOffset + desc.getByteSize)) =
      rest.map ClientArray.bytes := by
  induction isPieces generalizing rest with
  | nil =>
      cases sent
      rfl
  | @cons info infos pieces others first _ inductionHypothesis =>
      cases sent with
      | @cons _ array _ _ sentFirst sentOthers =>
          have here :=
            first.slice_eq sentFirst.1 fun desc member =>
              holds desc (List.mem_append_left _ member)
          have later :=
            inductionHypothesis sentOthers fun desc member =>
              holds desc (List.mem_append_right _ member)
          have whole : slice array.bytes 0 info.getByteSize = array.bytes := by
            rw [sentFirst.2]
            simp [slice]
          rw [Nat.add_zero, whole] at here
          simp only [List.map_cons, here, later]

/-- A session that returns has stored the bytes of the client's arrays. -/
theorem receiveInto_arrayBytes
    {shmSize : Nat}
    (positive : 0 < shmSize)
    (aligned : shmSize % alignSize = 0)
    {arrays : List ClientArray}
    {infos : List TensorInfo}
    {buffers : DoubleBuffer shmSize}
    {buffer received : List UInt8}
    (fit :
      List.Forall₂ (fun info (array : ClientArray) =>
        info.getByteSize = array.info.getByteSize) infos arrays)
    (stored : buffer.length = totalAlignedByteSize (segmentDescs 0 0 infos))
    (completed :
      receiveInto arrays (segmentDescs 0 0 infos) buffers buffer = .ok received) :
    ((segmentDescs 0 0 infos).map fun desc =>
        slice received desc.shmOffset (desc.shmOffset + desc.getByteSize)) =
      arrays.map ClientArray.bytes := by
  have sent := @sentTo_segmentDescs infos [] arrays 0 fit
  obtain ⟨chunks, chunkized, nonempty, fits, isPieces⟩ :=
    chunkizeArrDescs_spec positive aligned (segmentDescs 0 0 infos)
  have total := isPieces.totalPartialSizeAligned_eq
  obtain ⟨result, computed, holds, _⟩ :=
    @receiveChunks_holds shmSize arrays 0 0 chunks buffers buffer nonempty fits
      (isPieces.isClientPiece sent)
      (fun _ => firstDescs_eq_relativeDescs chunkized)
      isPieces.contiguous (by omega)
  simp only [receiveInto, chunkized, bind, Except.bind] at completed
  cases chunks with
  | nil =>
      cases completed
  | cons first rest =>
      have same : received = result :=
        Except.ok.inj (completed.symm.trans computed)
      rw [same]
      exact isPieces.map_slice_eq sent holds

end TensorPC.Kv
