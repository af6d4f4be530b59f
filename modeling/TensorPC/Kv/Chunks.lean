import TensorPC.Kv.ArrayTree

namespace TensorPC.Kv

/-!
# Cutting arrays into chunks

The transfer store cuts its arrays into pieces and packs the pieces into chunks
that fit the shared memory of one client.
-/

/-- The local variables of `_chunkize_arr_descs` between two rounds of its loops. -/
structure ChunkizeState where
  chunks : List (List SharedArraySegmentDesc)
  curChunk : List SharedArraySegmentDesc
  curSize : Nat
  deriving Repr, DecidableEq

/-- The pieces made so far, over all chunks. -/
def ChunkizeState.pieces (state : ChunkizeState) : List SharedArraySegmentDesc :=
  state.chunks.flatten ++ state.curChunk

/-- The `while size > 0` loop for one array. -/
def chunkizeInfo
    (maxSize : Nat)
    (info : SharedArraySegmentDesc) :
    Nat → (size offset : Nat) → ChunkizeState → PyResult ChunkizeState
  | 0, _, _, _ => .error .nonTermination
  | fuel + 1, size, offset, state =>
      if 0 < size then
        -- `remain_size > 0`
        if state.curSize < maxSize then do
          let remainSize := maxSize - state.curSize
          let storedSize := min remainSize size
          let storedSizeAligned := alignUp storedSize alignSize
          pyAssert (storedSizeAligned ≤ remainSize) ""
          chunkizeInfo maxSize info fuel
            (size - storedSizeAligned)
            (offset + storedSizeAligned)
            { state with
              curChunk := state.curChunk ++ [info.withPartial offset storedSize]
              curSize := state.curSize + storedSizeAligned }
        else do
          pyAssert (maxSize = state.curSize) ""
          chunkizeInfo maxSize info fuel size offset
            { chunks := state.chunks ++ [state.curChunk]
              curChunk := []
              curSize := 0 }
      else
        .ok state

/-- The loop over the arrays; the fuel allows a new chunk before every byte. -/
def chunkizeInfos
    (maxSize : Nat) :
    List SharedArraySegmentDesc → ChunkizeState → PyResult ChunkizeState
  | [], state => .ok state
  | info :: rest, state => do
      let size := info.getByteSize
      let state ← chunkizeInfo maxSize info (2 * size + 2) size 0 state
      chunkizeInfos maxSize rest state

/-- `_chunkize_arr_descs`. -/
def chunkizeArrDescs
    (arrDescs : List SharedArraySegmentDesc)
    (maxSize : Nat) :
    PyResult (List (List SharedArraySegmentDesc)) := do
  let state ← chunkizeInfos maxSize arrDescs ⟨[], [], 0⟩
  if state.curChunk = [] then
    .ok state.chunks
  else
    .ok (state.chunks ++ [state.curChunk])

/-! ## The pieces of one array -/

/-- The pieces that cover the bytes of an array from `start` to its end. -/
inductive IsPieces (info : SharedArraySegmentDesc) :
    Nat → List SharedArraySegmentDesc → Prop
  | done
      {start : Nat}
      (aligned : start % alignSize = 0)
      (covered : info.getByteSize ≤ start) :
      IsPieces info start []
  | piece
      {start length : Nat}
      {rest : List SharedArraySegmentDesc}
      (aligned : start % alignSize = 0)
      (nonempty : 0 < length)
      (inside : start + length ≤ info.getByteSize)
      (boundary :
        start + length = info.getByteSize ∨ length % alignSize = 0)
      (others : IsPieces info (start + alignUp length alignSize) rest) :
      IsPieces info start (info.withPartial start length :: rest)

/-- The pieces of a list of arrays. -/
inductive IsPiecesOf : List SharedArraySegmentDesc → List SharedArraySegmentDesc → Prop
  | nil : IsPiecesOf [] []
  | cons
      {info : SharedArraySegmentDesc}
      {infos pieces rest : List SharedArraySegmentDesc}
      (first : IsPieces info 0 pieces)
      (others : IsPiecesOf infos rest) :
      IsPiecesOf (info :: infos) (pieces ++ rest)

/-- What the loops keep true of the chunks made so far. -/
structure ChunksFit
    (maxSize : Nat)
    (state : ChunkizeState) : Prop where
  chunkNonempty : ∀ chunk ∈ state.chunks, chunk ≠ []
  chunkFits : ∀ chunk ∈ state.chunks, totalPartialSizeAligned chunk ≤ maxSize
  curSizeEq : state.curSize = totalPartialSizeAligned state.curChunk
  curSizeLe : state.curSize ≤ maxSize
  curSizeAligned : state.curSize % alignSize = 0

theorem ChunksFit.start (maxSize : Nat) :
    ChunksFit maxSize ⟨[], [], 0⟩ where
  chunkNonempty := by simp
  chunkFits := by simp
  curSizeEq := rfl
  curSizeLe := Nat.zero_le _
  curSizeAligned := rfl

theorem ChunksFit.addPiece
    {maxSize : Nat}
    {state : ChunkizeState}
    (fit : ChunksFit maxSize state)
    (info : SharedArraySegmentDesc)
    (offset : Nat)
    {storedSize : Nat}
    (small : state.curSize + alignUp storedSize alignSize ≤ maxSize) :
    ChunksFit maxSize
      { state with
        curChunk := state.curChunk ++ [info.withPartial offset storedSize]
        curSize := state.curSize + alignUp storedSize alignSize } where
  chunkNonempty := fit.chunkNonempty
  chunkFits := fit.chunkFits
  curSizeEq := by
    simp [fit.curSizeEq]
  curSizeLe := small
  curSizeAligned := by
    rw [Nat.add_mod, fit.curSizeAligned, alignUp_mod]
    rfl

/-- Closing a full chunk. -/
theorem ChunksFit.closeChunk
    {maxSize : Nat}
    {state : ChunkizeState}
    (fit : ChunksFit maxSize state)
    (positive : 0 < maxSize)
    (full : maxSize = state.curSize) :
    ChunksFit maxSize
      { chunks := state.chunks ++ [state.curChunk]
        curChunk := []
        curSize := 0 } where
  chunkNonempty := by
    intro chunk member
    rcases List.mem_append.mp member with earlier | last
    · exact fit.chunkNonempty chunk earlier
    · rw [List.mem_singleton.mp last]
      intro empty
      have size := fit.curSizeEq
      rw [empty, totalPartialSizeAligned_nil] at size
      omega
  chunkFits := by
    intro chunk member
    rcases List.mem_append.mp member with earlier | last
    · exact fit.chunkFits chunk earlier
    · rw [List.mem_singleton.mp last, ← fit.curSizeEq]
      exact fit.curSizeLe
  curSizeEq := rfl
  curSizeLe := Nat.zero_le _
  curSizeAligned := rfl

section Chunkize

variable {maxSize : Nat} (positive : 0 < maxSize) (maxAligned : maxSize % alignSize = 0)

include positive maxAligned

/-- One array: the loop ends and has added the pieces of the array. -/
theorem chunkizeInfo_spec
    {info : SharedArraySegmentDesc}
    {fuel offset : Nat}
    {state : ChunkizeState}
    (fit : ChunksFit maxSize state)
    (offsetAligned : offset % alignSize = 0)
    (enough :
      2 * (info.getByteSize - offset) +
        (if state.curSize < maxSize then 1 else 2) ≤ fuel) :
    ∃ final pieces,
      chunkizeInfo maxSize info fuel (info.getByteSize - offset) offset state =
        .ok final ∧
      ChunksFit maxSize final ∧
      final.pieces = state.pieces ++ pieces ∧
      IsPieces info offset pieces := by
  induction fuel generalizing offset state with
  | zero =>
      split at enough <;> omega
  | succ fuel inductionHypothesis =>
      by_cases remaining : 0 < info.getByteSize - offset
      · by_cases room : state.curSize < maxSize
        · -- a piece of the array goes into the current chunk
          have sizeAligned := fit.curSizeAligned
          have remainAligned : (maxSize - state.curSize) % alignSize = 0 := by
            simp only [alignSize] at *
            omega
          generalize storedEq :
            min (maxSize - state.curSize) (info.getByteSize - offset) =
              storedSize at *
          have storedFits : alignUp storedSize alignSize ≤ maxSize - state.curSize :=
            alignUp_le (by omega) remainAligned
          have storedLe := le_alignUp storedSize
          have nextAligned : (offset + alignUp storedSize alignSize) % alignSize = 0 := by
            rw [Nat.add_mod, offsetAligned, alignUp_mod]
            rfl
          rw [if_pos room] at enough
          obtain ⟨final, pieces, computed, finalFits, added, isPieces⟩ :=
            @inductionHypothesis (offset + alignUp storedSize alignSize) _
              (@ChunksFit.addPiece _ _ fit info offset storedSize (by omega))
              nextAligned (by
                split <;> omega)
          refine ⟨final, info.withPartial offset storedSize :: pieces, ?_,
            finalFits, ?_, ?_⟩
          · rw [Nat.sub_add_eq] at computed
            simp [chunkizeInfo, remaining, room, storedEq, pyAssert, storedFits,
              computed, bind, Except.bind]
          · rw [added]
            simp [ChunkizeState.pieces]
          · refine .piece offsetAligned (by omega) (by omega) ?_ isPieces
            by_cases isLast : storedSize = info.getByteSize - offset
            · left
              omega
            · right
              have filled : storedSize = maxSize - state.curSize := by
                omega
              rw [filled]
              exact remainAligned
        · -- the chunk is full: the same bytes go into a new one
          have full : maxSize = state.curSize := by
            have := fit.curSizeLe
            omega
          rw [if_neg room] at enough
          obtain ⟨final, pieces, computed, finalFits, added, isPieces⟩ :=
            inductionHypothesis (fit.closeChunk positive full) offsetAligned (by
              rw [if_pos positive]
              omega)
          refine ⟨final, pieces, ?_, finalFits, ?_, isPieces⟩
          · simp [chunkizeInfo, remaining, pyAssert, full.symm, computed, bind,
              Except.bind]
          · rw [added]
            simp [ChunkizeState.pieces]
      · refine ⟨state, [], ?_, fit, by simp, .done offsetAligned (by omega)⟩
        simp [chunkizeInfo, remaining]

/-- All arrays: the loops end and have added the pieces of every array. -/
theorem chunkizeInfos_spec
    {infos : List SharedArraySegmentDesc}
    {state : ChunkizeState}
    (fit : ChunksFit maxSize state) :
    ∃ final pieces,
      chunkizeInfos maxSize infos state = .ok final ∧
      ChunksFit maxSize final ∧
      final.pieces = state.pieces ++ pieces ∧
      IsPiecesOf infos pieces := by
  induction infos generalizing state with
  | nil =>
      exact ⟨state, [], rfl, fit, by simp, .nil⟩
  | cons info rest inductionHypothesis =>
      obtain ⟨middle, first, computedFirst, middleFits, addedFirst, isFirst⟩ :=
        @chunkizeInfo_spec _ positive maxAligned info
          (2 * info.getByteSize + 2) 0 state fit rfl (by split <;> omega)
      obtain ⟨final, others, computed, finalFits, added, isOthers⟩ :=
        inductionHypothesis middleFits
      refine ⟨final, first ++ others, ?_, finalFits, ?_, .cons isFirst isOthers⟩
      · rw [Nat.sub_zero] at computedFirst
        simp [chunkizeInfos, computedFirst, computed, bind, Except.bind]
      · rw [added, addedFirst, List.append_assoc]

/-- The chunks are nonempty, fit the shared memory and hold the pieces in order. -/
theorem chunkizeArrDescs_spec (infos : List SharedArraySegmentDesc) :
    ∃ chunks,
      chunkizeArrDescs infos maxSize = .ok chunks ∧
      (∀ chunk ∈ chunks, chunk ≠ []) ∧
      (∀ chunk ∈ chunks, totalPartialSizeAligned chunk ≤ maxSize) ∧
      IsPiecesOf infos chunks.flatten := by
  obtain ⟨final, pieces, computed, fit, added, isPieces⟩ :=
    @chunkizeInfos_spec maxSize positive maxAligned infos _ (.start maxSize)
  have addedPieces : final.pieces = pieces := by
    simpa [ChunkizeState.pieces] using added
  by_cases empty : final.curChunk = []
  · refine ⟨final.chunks, ?_, fit.chunkNonempty, fit.chunkFits, ?_⟩
    · simp [chunkizeArrDescs, computed, empty, bind, Except.bind]
    · rw [← addedPieces, ChunkizeState.pieces, empty, List.append_nil] at isPieces
      exact isPieces
  · refine ⟨final.chunks ++ [final.curChunk], ?_, ?_, ?_, ?_⟩
    · simp [chunkizeArrDescs, computed, empty, bind, Except.bind]
    · intro chunk member
      rcases List.mem_append.mp member with earlier | last
      · exact fit.chunkNonempty chunk earlier
      · rw [List.mem_singleton.mp last]
        exact empty
    · intro chunk member
      rcases List.mem_append.mp member with earlier | last
      · exact fit.chunkFits chunk earlier
      · rw [List.mem_singleton.mp last, ← fit.curSizeEq]
        exact fit.curSizeLe
    · rw [← addedPieces] at isPieces
      simpa [ChunkizeState.pieces] using isPieces

end Chunkize

/-! ## Where the pieces lie -/

/-- Descriptors that lie one directly after the other from an offset on. -/
def Contiguous : Nat → List SharedArraySegmentDesc → Prop
  | _, [] => True
  | offset, desc :: rest =>
      desc.getShmOffsetWithPartial = offset ∧
        Contiguous (offset + desc.getPartialSizeAligned) rest

theorem contiguous_append
    {offset : Nat}
    {first second : List SharedArraySegmentDesc} :
    Contiguous offset (first ++ second) ↔
      Contiguous offset first ∧
        Contiguous (offset + totalPartialSizeAligned first) second := by
  induction first generalizing offset with
  | nil =>
      simp [Contiguous]
  | cons desc rest inductionHypothesis =>
      simp [Contiguous, inductionHypothesis, and_assoc, Nat.add_assoc]

/-- The pieces of an array lie where the array lies. -/
theorem IsPieces.contiguous
    {info : SharedArraySegmentDesc}
    {start : Nat}
    {pieces : List SharedArraySegmentDesc}
    (isPieces : IsPieces info start pieces)
    (before : start ≤ info.getAlignedByteSize) :
    Contiguous (info.shmOffset + start) pieces ∧
      start + totalPartialSizeAligned pieces = info.getAlignedByteSize := by
  induction isPieces with
  | @done start aligned covered =>
      refine ⟨trivial, ?_⟩
      have reached : info.getAlignedByteSize ≤ start :=
        alignUp_le covered aligned
      simp only [totalPartialSizeAligned_nil]
      omega
  | @piece start length rest aligned nonempty inside boundary others inductionHypothesis =>
      have within : start + alignUp length alignSize ≤ info.getAlignedByteSize := by
        rw [← alignUp_add length aligned]
        exact alignUp_le (Nat.le_trans inside (le_alignUp _)) (alignUp_mod _)
      obtain ⟨contiguous, total⟩ := inductionHypothesis within
      constructor
      · refine ⟨rfl, ?_⟩
        rw [SharedArraySegmentDesc.withPartial_getPartialSizeAligned, Nat.add_assoc]
        exact contiguous
      · rw [totalPartialSizeAligned_cons,
          SharedArraySegmentDesc.withPartial_getPartialSizeAligned, ← Nat.add_assoc]
        exact total

/-- Descriptors whose arrays lie back to back from an offset on. -/
def BackToBack : Nat → List SharedArraySegmentDesc → Prop
  | _, [] => True
  | offset, desc :: rest =>
      desc.shmOffset = offset ∧
        BackToBack (offset + desc.getAlignedByteSize) rest

theorem backToBack_segmentDescs
    (offset varIdx : Nat)
    (infos : List TensorInfo) :
    BackToBack offset (segmentDescs offset varIdx infos) := by
  induction infos generalizing offset varIdx with
  | nil =>
      trivial
  | cons info rest inductionHypothesis =>
      exact ⟨rfl, inductionHypothesis _ _⟩

theorem IsPiecesOf.contiguous_backToBack
    {offset : Nat}
    {descs pieces : List SharedArraySegmentDesc}
    (isPieces : IsPiecesOf descs pieces)
    (backToBack : BackToBack offset descs) :
    Contiguous offset pieces := by
  induction isPieces generalizing offset with
  | nil =>
      trivial
  | @cons info infos pieces rest first others inductionHypothesis =>
      obtain ⟨here, later⟩ := backToBack
      obtain ⟨contiguous, total⟩ := first.contiguous (Nat.zero_le _)
      rw [Nat.zero_add] at total
      rw [Nat.add_zero, here] at contiguous
      rw [contiguous_append, total]
      exact ⟨contiguous, inductionHypothesis later⟩

theorem IsPiecesOf.contiguous
    {offset varIdx : Nat}
    {infos : List TensorInfo}
    {pieces : List SharedArraySegmentDesc}
    (isPieces : IsPiecesOf (segmentDescs offset varIdx infos) pieces) :
    Contiguous offset pieces :=
  isPieces.contiguous_backToBack (backToBack_segmentDescs offset varIdx infos)

end TensorPC.Kv
