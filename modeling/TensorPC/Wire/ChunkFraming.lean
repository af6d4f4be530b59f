import TensorPC.Wire.RoundTrip

namespace TensorPC.Wire

/-!
# Framing of chunks

The chunk loop copies the bytes of all arrays one after the other.  Between two copies
the chunks before the current one are yielded and the current one holds the bytes that
were copied behind its header, followed by zeros.
-/

/-! ## Slices of a buffer -/

theorem setSlice_append
    (before values : Bytes)
    {start stop room : Nat}
    (begins : start = before.length)
    (ends : stop = start + values.length) :
    setSlice (before ++ List.replicate room 0) start stop values =
      before ++ values ++ List.replicate (room - values.length) 0 := by
  subst begins ends
  simp [setSlice, List.drop_append, List.drop_replicate]

theorem slice_append_slice
    (data : Bytes)
    {start middle stop : Nat}
    (ordered : start ≤ middle)
    (later : middle ≤ stop) :
    slice data start middle ++ slice data middle stop = slice data start stop := by
  unfold slice
  have parts : stop - start = (middle - start) + (stop - middle) := by omega
  have further : data.drop middle = (data.drop start).drop (middle - start) := by
    rw [List.drop_drop]
    congr 1
    omega
  rw [parts, List.take_add, further]

theorem length_slice
    {data : Bytes}
    {start stop : Nat}
    (ordered : start ≤ stop)
    (inside : stop ≤ data.length) :
    (slice data start stop).length = stop - start := by
  simp only [slice, List.length_take, List.length_drop]
  omega

namespace ChunkConfig

/-- The configuration of a loop whose chunks all have headers of one size. -/
structure WellFormed (config : ChunkConfig) : Prop where
  sized :
    ∀ index : UInt32, index ≠ 0 →
      config.codec.byteSize { config.chunkHeader with chunkIndex := index } =
        config.headerMsgSize
  lengthFits : config.headerMsgSize < 2 ^ 31
  room : config.headerMsgSize + 5 < config.chunkSize
  countFits : config.numChunks < 2 ^ 32

/-- The bytes of the arrays that a chunk has room for. -/
def sizeForArr (config : ChunkConfig) : Nat :=
  config.chunkSize - (config.headerMsgSize + 5)

/-- The header of a chunk. -/
def header
    (config : ChunkConfig)
    (chunkIdx : Nat) : Header :=
  { config.chunkHeader with
    chunkIndex := UInt32.ofNat (encodeProtobufUint chunkIdx) }

/-- The type byte, the header length and the header of a chunk. -/
def chunkPrefix
    (config : ChunkConfig)
    (length : Bytes)
    (chunkIdx : Nat) : Bytes :=
  config.type.chunkType.value :: length ++
    config.codec.serializeToString (config.header chunkIdx)

section WellFormed

variable {config : ChunkConfig} {length : Bytes}

theorem WellFormed.length_header
    (wellFormed : config.WellFormed)
    {chunkIdx : Nat}
    (inside : chunkIdx < config.numChunks) :
    (config.codec.serializeToString (config.header chunkIdx)).length =
      config.headerMsgSize := by
  have counted := wellFormed.countFits
  apply wellFormed.sized
  intro zero
  have value := congrArg UInt32.toNat zero
  rw [UInt32.toNat_ofNat', encodeProtobufUint] at value
  simp only [UInt32.toNat_zero] at value
  omega

theorem WellFormed.length_chunkPrefix
    (wellFormed : config.WellFormed)
    (written : int32Bytes config.headerMsgSize = .ok length)
    {chunkIdx : Nat}
    (inside : chunkIdx < config.numChunks) :
    (config.chunkPrefix length chunkIdx).length = config.headerMsgSize + 5 := by
  have four := int32Bytes_length written
  have sized := wellFormed.length_header inside
  simp only [chunkPrefix, List.length_append, List.length_cons, four, sized]
  omega

/-- A new chunk has its prefix and zeros. -/
theorem WellFormed.newChunk_eq
    (wellFormed : config.WellFormed)
    (written : int32Bytes config.headerMsgSize = .ok length)
    {size chunkIdx : Nat}
    (inside : chunkIdx < config.numChunks)
    (large : config.headerMsgSize + 5 ≤ size) :
    config.newChunk size chunkIdx =
      .ok
        (config.chunkPrefix length chunkIdx ++
          List.replicate (size - (config.headerMsgSize + 5)) 0) := by
  have counted := wellFormed.countFits
  have four := int32Bytes_length written
  have sized := wellFormed.length_header inside
  have fits : fixed32 (encodeProtobufUint chunkIdx) =
      .ok (UInt32.ofNat (encodeProtobufUint chunkIdx)) := by
    rw [fixed32, if_pos]
    simp only [encodeProtobufUint]
    omega
  simp only [newChunk, written, fits, bind, Except.bind]
  have typed :=
    @setSlice_append [] [config.type.chunkType.value] 0 1 size rfl rfl
  rw [List.nil_append, List.nil_append] at typed
  have lengthWritten :=
    @setSlice_append [config.type.chunkType.value] length 1 5
      (size - 1) rfl (by rw [four])
  have headerWritten :=
    @setSlice_append ([config.type.chunkType.value] ++ length)
      (config.codec.serializeToString (config.header chunkIdx)) 5
      (config.headerMsgSize + 5) (size - 1 - length.length)
      (by simp [four]) (by rw [sized]; omega)
  rw [typed, List.length_singleton, lengthWritten]
  refine congrArg Except.ok (headerWritten.trans ?_)
  rw [sized, four, show size - 1 - 4 - config.headerMsgSize =
    size - (config.headerMsgSize + 5) by omega]
  rfl

end WellFormed

/-! ## The chunk loop -/

/-- The bytes behind the header of a chunk; a chunk that is not filled is the first. -/
def chunkPayload
    (config : ChunkConfig)
    (data : Bytes)
    (chunkIdx : Nat) : Bytes :=
  slice data (chunkIdx * config.sizeForArr) ((chunkIdx + 1) * config.sizeForArr) ++
    if chunkIdx = 0 then List.replicate (config.sizeForArr - data.length) 0 else []

/-- The binary of a chunk. -/
def chunkBinary
    (config : ChunkConfig)
    (length data : Bytes)
    (chunkIdx : Nat) : Bytes :=
  config.chunkPrefix length chunkIdx ++ config.chunkPayload data chunkIdx

/-- Where a chunk stops in the data. -/
def stopOf
    (config : ChunkConfig)
    (data : Bytes)
    (chunkIdx : Nat) : Nat :=
  min ((chunkIdx + 1) * config.sizeForArr) data.length

/-- The room for arrays that a chunk is allocated with. -/
def allocated
    (config : ChunkConfig)
    (data : Bytes)
    (chunkIdx : Nat) : Nat :=
  if chunkIdx = 0 then
    config.sizeForArr
  else
    config.stopOf data chunkIdx - chunkIdx * config.sizeForArr

/-- The loop has copied `written` bytes, and the current chunk has room left. -/
structure Writing
    (config : ChunkConfig)
    (length data : Bytes)
    (written : Nat)
    (state : ChunkState) : Prop where
  inside : state.chunkIdx < config.numChunks
  yielded : state.yielded = (List.range state.chunkIdx).map (config.chunkBinary length data)
  started : state.chunkIdx * config.sizeForArr ≤ written
  unfinished : written < config.stopOf data state.chunkIdx
  chunk :
    state.chunk =
      config.chunkPrefix length state.chunkIdx ++
        slice data (state.chunkIdx * config.sizeForArr) written ++
          List.replicate
            (config.allocated data state.chunkIdx -
              (written - state.chunkIdx * config.sizeForArr)) 0
  start :
    state.start =
      config.headerMsgSize + 5 + (written - state.chunkIdx * config.sizeForArr)
  remaining :
    state.remainMsgSize =
      (config.numChunks - state.chunkIdx) * (config.headerMsgSize + 5) +
        (data.length - state.chunkIdx * config.sizeForArr)
  room : state.chunkRemainSize = config.stopOf data state.chunkIdx - written

/-- The loop has copied all bytes and yielded all chunks. -/
structure Finished
    (config : ChunkConfig)
    (length data : Bytes)
    (written : Nat)
    (state : ChunkState) : Prop where
  all : written = data.length
  yielded : state.yielded = (List.range config.numChunks).map (config.chunkBinary length data)

/-- The invariant of the loop. -/
def Copied
    (config : ChunkConfig)
    (length data : Bytes)
    (written : Nat)
    (state : ChunkState) : Prop :=
  config.Writing length data written state ∨ config.Finished length data written state

section Loop

variable {config : ChunkConfig} {length data : Bytes} {written : Nat} {state : ChunkState}

theorem lt_divUp_iff
    {total size index : Nat}
    (positive : 0 < size) :
    index < divUp total size ↔ index * size < total := by
  unfold divUp
  rw [Nat.lt_div_iff_mul_lt positive]
  omega

theorem WellFormed.sizeForArr_pos (wellFormed : config.WellFormed) :
    0 < config.sizeForArr := by
  have room := wellFormed.room
  unfold sizeForArr
  omega

/-- A full chunk is the one that is announced. -/
theorem chunk_eq_chunkBinary
    (chunkIdx : Nat) :
    config.chunkPrefix length chunkIdx ++
        slice data (chunkIdx * config.sizeForArr) (config.stopOf data chunkIdx) ++
          List.replicate
            (config.allocated data chunkIdx -
              (config.stopOf data chunkIdx - chunkIdx * config.sizeForArr)) 0 =
      config.chunkBinary length data chunkIdx := by
  have sameSlice :
      slice data (chunkIdx * config.sizeForArr) (config.stopOf data chunkIdx) =
        slice data (chunkIdx * config.sizeForArr)
          ((chunkIdx + 1) * config.sizeForArr) := by
    unfold slice stopOf
    rcases Nat.le_total ((chunkIdx + 1) * config.sizeForArr) data.length with shorter | longer
    · rw [Nat.min_eq_left shorter]
    · rw [Nat.min_eq_right longer, List.take_of_length_le, List.take_of_length_le]
      · rw [List.length_drop]
        omega
      · exact Nat.le_of_eq (List.length_drop ..)
  have sameZeros :
      List.replicate
          (config.allocated data chunkIdx -
            (config.stopOf data chunkIdx - chunkIdx * config.sizeForArr)) (0 : UInt8) =
        if chunkIdx = 0 then List.replicate (config.sizeForArr - data.length) 0 else [] := by
    unfold allocated
    split
    · subst chunkIdx
      congr 1
      simp only [stopOf, Nat.zero_mul, Nat.zero_add, Nat.one_mul]
      omega
    · rw [Nat.sub_self, List.replicate_zero]
  rw [chunkBinary, chunkPayload, sameSlice, sameZeros, List.append_assoc]

/-- The next chunk is allocated with what is left, up to the size of a chunk. -/
theorem WellFormed.size_next
    (wellFormed : config.WellFormed)
    (counted : config.numChunks = divUp data.length config.sizeForArr)
    {chunkIdx : Nat}
    (inside : chunkIdx + 1 < config.numChunks) :
    let remaining :=
      (config.numChunks - chunkIdx) * (config.headerMsgSize + 5) +
        (data.length - chunkIdx * config.sizeForArr)
    remaining - config.chunkSize =
        (config.numChunks - (chunkIdx + 1)) * (config.headerMsgSize + 5) +
          (data.length - (chunkIdx + 1) * config.sizeForArr) ∧
      min (remaining - config.chunkSize) config.chunkSize =
        config.headerMsgSize + 5 +
          (config.stopOf data (chunkIdx + 1) - (chunkIdx + 1) * config.sizeForArr) := by
  intro remaining
  have positive := wellFormed.sizeForArr_pos
  have room := wellFormed.room
  have size : config.chunkSize = config.headerMsgSize + 5 + config.sizeForArr := by
    unfold sizeForArr
    omega
  have begins : (chunkIdx + 1) * config.sizeForArr < data.length :=
    (lt_divUp_iff positive).mp (counted ▸ inside)
  obtain ⟨others, count⟩ : ∃ others, config.numChunks = chunkIdx + 1 + (others + 1) :=
    ⟨config.numChunks - chunkIdx - 2, by omega⟩
  have next : (chunkIdx + 1) * config.sizeForArr =
      chunkIdx * config.sizeForArr + config.sizeForArr := Nat.succ_mul _ _
  have nextNext : (chunkIdx + 1 + 1) * config.sizeForArr =
      (chunkIdx + 1) * config.sizeForArr + config.sizeForArr := Nat.succ_mul _ _
  have left : config.numChunks - chunkIdx = others + 1 + 1 := by omega
  have leftLater : config.numChunks - (chunkIdx + 1) = others + 1 := by omega
  have headers : (others + 1 + 1) * (config.headerMsgSize + 5) =
      (others + 1) * (config.headerMsgSize + 5) + (config.headerMsgSize + 5) :=
    Nat.succ_mul _ _
  have lastHeader : (others + 1) * (config.headerMsgSize + 5) =
      others * (config.headerMsgSize + 5) + (config.headerMsgSize + 5) :=
    Nat.succ_mul _ _
  have first : remaining - config.chunkSize =
      (config.numChunks - (chunkIdx + 1)) * (config.headerMsgSize + 5) +
        (data.length - (chunkIdx + 1) * config.sizeForArr) := by
    simp only [remaining, left, leftLater]
    omega
  refine ⟨first, ?_⟩
  rw [first, leftLater]
  unfold stopOf
  rcases Nat.eq_zero_or_pos others with rfl | more
  · -- the last chunk holds the rest of the data
    have lastChunk : ¬ chunkIdx + 1 + 1 < divUp data.length config.sizeForArr := by omega
    rw [lt_divUp_iff positive] at lastChunk
    omega
  · have another : chunkIdx + 1 + 1 < divUp data.length config.sizeForArr := by omega
    rw [lt_divUp_iff positive] at another
    have headerLeft : config.headerMsgSize + 5 ≤ others * (config.headerMsgSize + 5) :=
      Nat.le_mul_of_pos_left _ more
    omega

/-- Copying as much as fits keeps the invariant. -/
theorem Writing.finishChunk_copied
    (wellFormed : config.WellFormed)
    (lengthWritten : int32Bytes config.headerMsgSize = .ok length)
    (counted : config.numChunks = divUp data.length config.sizeForArr)
    (writing : config.Writing length data written state)
    {serSize : Nat}
    (fits : serSize ≤ state.chunkRemainSize) :
    ∃ next,
      config.finishChunk
          { state with
            chunk :=
              setSlice state.chunk state.start (state.start + serSize)
                (slice data written (written + serSize))
            start := state.start + serSize
            chunkRemainSize := state.chunkRemainSize - serSize } =
        .ok next ∧
        config.Copied length data (written + serSize) next := by
  obtain ⟨inside, yielded, started, unfinished, chunk, start, remaining, room⟩ := writing
  have positive := wellFormed.sizeForArr_pos
  rw [room] at fits
  have stopInside : config.stopOf data state.chunkIdx ≤ data.length := Nat.min_le_right _ _
  have stopEnds :
      config.stopOf data state.chunkIdx ≤ (state.chunkIdx + 1) * config.sizeForArr :=
    Nat.min_le_left _ _
  have nextStart : (state.chunkIdx + 1) * config.sizeForArr =
      state.chunkIdx * config.sizeForArr + config.sizeForArr := Nat.succ_mul _ _
  have large :
      config.stopOf data state.chunkIdx - state.chunkIdx * config.sizeForArr ≤
        config.allocated data state.chunkIdx := by
    unfold allocated
    split
    · omega
    · exact Nat.le_refl _
  have copiedLength : (slice data written (written + serSize)).length = serSize := by
    rw [length_slice (Nat.le_add_right _ _) (by omega)]
    omega
  have doneLength :
      (slice data (state.chunkIdx * config.sizeForArr) written).length =
        written - state.chunkIdx * config.sizeForArr :=
    length_slice started (by omega)
  have copied :
      setSlice state.chunk state.start (state.start + serSize)
          (slice data written (written + serSize)) =
        config.chunkPrefix length state.chunkIdx ++
          slice data (state.chunkIdx * config.sizeForArr) (written + serSize) ++
            List.replicate
              (config.allocated data state.chunkIdx -
                (written + serSize - state.chunkIdx * config.sizeForArr)) 0 := by
    rw [chunk, start]
    rw [setSlice_append]
    · rw [List.append_assoc (config.chunkPrefix length state.chunkIdx),
        slice_append_slice data started (Nat.le_add_right _ _), copiedLength]
      congr 2
      omega
    · rw [List.length_append, wellFormed.length_chunkPrefix lengthWritten inside, doneLength]
    · rw [copiedLength]
  rw [copied]
  unfold finishChunk
  by_cases full : state.chunkRemainSize - serSize = 0
  · have stops : written + serSize = config.stopOf data state.chunkIdx := by omega
    simp only [full, if_true, stops]
    rw [chunk_eq_chunkBinary]
    have yieldedNext :
        state.yielded ++ [config.chunkBinary length data state.chunkIdx] =
          (List.range (state.chunkIdx + 1)).map (config.chunkBinary length data) := by
      rw [yielded, List.range_succ, List.map_append]
      rfl
    by_cases more : state.chunkIdx + 1 ≠ config.numChunks
    · have insideNext : state.chunkIdx + 1 < config.numChunks := by omega
      obtain ⟨remainingNext, sizeNext⟩ := wellFormed.size_next counted insideNext
      rw [← remaining] at remainingNext sizeNext
      have beginsNext : (state.chunkIdx + 1) * config.sizeForArr < data.length :=
        (lt_divUp_iff positive).mp (counted ▸ insideNext)
      have exactStop :
          config.stopOf data state.chunkIdx = (state.chunkIdx + 1) * config.sizeForArr :=
        Nat.min_eq_left (Nat.le_of_lt beginsNext)
      have newChunk :=
        @WellFormed.newChunk_eq config length wellFormed lengthWritten
          (min (state.remainMsgSize - config.chunkSize) config.chunkSize) _ insideNext
          (by omega)
      have after : (state.chunkIdx + 1) * config.sizeForArr <
          config.stopOf data (state.chunkIdx + 1) := by
        have further : (state.chunkIdx + 1 + 1) * config.sizeForArr =
            (state.chunkIdx + 1) * config.sizeForArr + config.sizeForArr := Nat.succ_mul _ _
        unfold stopOf
        omega
      simp only [if_pos more, newChunk, bind, Except.bind]
      refine ⟨_, rfl, .inl ⟨insideNext, yieldedNext, ?_, ?_, ?_, ?_, ?_, ?_⟩⟩
      · exact Nat.le_of_eq exactStop.symm
      · rw [exactStop]
        exact after
      · rw [exactStop, sizeNext]
        simp [slice, allocated]
      · rw [exactStop, Nat.sub_self]
      · exact remainingNext
      · change min (state.remainMsgSize - config.chunkSize) config.chunkSize -
          config.headerMsgSize - 5 =
            config.stopOf data (state.chunkIdx + 1) - config.stopOf data state.chunkIdx
        rw [sizeNext, exactStop]
        omega
    · have last : ¬ state.chunkIdx + 1 < divUp data.length config.sizeForArr := by omega
      rw [lt_divUp_iff positive] at last
      have wholeStop : config.stopOf data state.chunkIdx = data.length := by
        unfold stopOf
        omega
      rw [if_neg more]
      refine ⟨_, rfl, .inr ⟨wholeStop, ?_⟩⟩
      rw [not_not.mp more] at yieldedNext
      exact yieldedNext
  · rw [if_neg full]
    have unfinishedStill : written + serSize < config.stopOf data state.chunkIdx := by
      omega
    refine ⟨_, rfl, .inl ⟨inside, yielded, Nat.le_add_right_of_le started, unfinishedStill,
      rfl, ?_, remaining, ?_⟩⟩
    · change state.start + serSize =
        config.headerMsgSize + 5 +
          (written + serSize - state.chunkIdx * config.sizeForArr)
      rw [start]
      omega
    · change state.chunkRemainSize - serSize =
        config.stopOf data state.chunkIdx - (written + serSize)
      rw [room]
      omega

/-- Copying the bytes of an array keeps the invariant. -/
theorem Copied.copyArray
    (wellFormed : config.WellFormed)
    (lengthWritten : int32Bytes config.headerMsgSize = .ok length)
    (counted : config.numChunks = divUp data.length config.sizeForArr)
    {memview : Bytes}
    {fuel : Nat}
    (enough : memview.length ≤ fuel)
    (copied : config.Copied length data written state)
    (inside : written + memview.length ≤ data.length)
    (same : memview = slice data written (written + memview.length)) :
    ∃ next,
      config.copyArray fuel memview state = .ok next ∧
        config.Copied length data (written + memview.length) next := by
  induction fuel generalizing memview written state with
  | zero =>
      obtain rfl : memview = [] := List.length_eq_zero_iff.mp (by omega)
      exact ⟨state, rfl, copied⟩
  | succ fuel inductionHypothesis =>
      rcases memview with _ | ⟨byte, others⟩
      · exact ⟨state, rfl, copied⟩
      · have someByte : 0 < (byte :: others).length := Nat.succ_pos _
        generalize byte :: others = memview at *
        rcases copied with writing | finished
        · have someRoom : 0 < state.chunkRemainSize := by
            have unfinished := writing.unfinished
            rw [writing.room]
            omega
          obtain ⟨serSize, sized⟩ :
              ∃ serSize, serSize = min memview.length state.chunkRemainSize := ⟨_, rfl⟩
          obtain ⟨next, finishes, copiedNext⟩ :=
            @Writing.finishChunk_copied config length data written state wellFormed
              lengthWritten counted writing serSize (by omega)
          have taken : memview.take serSize = slice data written (written + serSize) := by
            rw [same]
            simp only [slice, List.take_take]
            congr 1
            omega
          have dropped :
              memview.drop serSize =
                slice data (written + serSize)
                  (written + serSize + (memview.drop serSize).length) := by
            rw [List.length_drop]
            conv_lhs => rw [same]
            simp only [slice, List.drop_take, List.drop_drop]
            congr 1
            omega
          obtain ⟨final, copies, copiedFinal⟩ :=
            @inductionHypothesis _ _ (memview.drop serSize)
              (by rw [List.length_drop]; omega) copiedNext
              (by rw [List.length_drop]; omega) dropped
          refine ⟨final, ?_, ?_⟩
          · obtain ⟨head, tail, rfl⟩ := List.exists_cons_of_length_pos someByte
            simp only [ChunkConfig.copyArray, ← sized, taken, finishes, bind, Except.bind]
            exact copies
          · rw [List.length_drop] at copiedFinal
            have total : written + serSize + (memview.length - serSize) =
                written + memview.length := by omega
            rwa [total] at copiedFinal
        · have all := finished.all
          omega

/-- Copying the bytes of the remaining arrays finishes the loop. -/
theorem Copied.copyArrays
    (wellFormed : config.WellFormed)
    (lengthWritten : int32Bytes config.headerMsgSize = .ok length)
    (counted : config.numChunks = divUp data.length config.sizeForArr)
    {arrays : List Binary}
    (copied : config.Copied length data written state)
    (before : written ≤ data.length)
    (same : data.drop written = arrays.flatMap Binary.data) :
    ∃ next,
      config.copyArrays arrays state = .ok next ∧
        config.Copied length data data.length next := by
  induction arrays generalizing written state with
  | nil =>
      have all : written = data.length := by
        have nothing := congrArg List.length same
        rw [List.length_drop, List.flatMap_nil, List.length_nil] at nothing
        omega
      exact ⟨state, rfl, all ▸ copied⟩
  | cons leaf rest inductionHypothesis =>
      rw [List.flatMap_cons] at same
      have inside : written + leaf.data.length ≤ data.length := by
        have total := congrArg List.length same
        rw [List.length_drop, List.length_append] at total
        omega
      have own : leaf.data = slice data written (written + leaf.data.length) := by
        rw [slice, same, Nat.add_sub_cancel_left, List.take_left]
      obtain ⟨next, copies, copiedNext⟩ :=
        copied.copyArray wellFormed lengthWritten counted
          (Nat.le_refl leaf.data.length) inside own
      have later : data.drop (written + leaf.data.length) = rest.flatMap Binary.data := by
        rw [← List.drop_drop, same, List.drop_left]
      obtain ⟨final, copiesRest, copiedFinal⟩ :=
        inductionHypothesis copiedNext inside later
      refine ⟨final, ?_, copiedFinal⟩
      rw [ChunkConfig.copyArrays]
      simp only [Binary.byteSize, copies, bind, Except.bind]
      exact copiesRest

/-- The loop starts before the first byte. -/
theorem copied_start
    (wellFormed : config.WellFormed)
    (lengthWritten : int32Bytes config.headerMsgSize = .ok length)
    (counted : config.numChunks = divUp data.length config.sizeForArr)
    {chunk : Bytes}
    (begun : config.newChunk config.chunkSize 0 = .ok chunk) :
    config.Copied length data 0
      { yielded := []
        chunk := chunk
        chunkIdx := 0
        start := config.headerMsgSize + 5
        remainMsgSize :=
          config.numChunks * (config.headerMsgSize + 5) + data.length
        chunkRemainSize :=
          min (config.numChunks * (config.headerMsgSize + 5) + data.length)
              config.chunkSize -
            config.headerMsgSize - 5 } := by
  have positive := wellFormed.sizeForArr_pos
  have room := wellFormed.room
  have size : config.chunkSize = config.headerMsgSize + 5 + config.sizeForArr := by
    unfold sizeForArr
    omega
  rcases Nat.eq_zero_or_pos config.numChunks with none | some
  · have empty : ¬ 0 < divUp data.length config.sizeForArr := by omega
    rw [lt_divUp_iff positive, Nat.zero_mul] at empty
    exact .inr ⟨by omega, by rw [none]; rfl⟩
  · have begins : 0 < divUp data.length config.sizeForArr := counted ▸ some
    rw [lt_divUp_iff positive, Nat.zero_mul] at begins
    have made := wellFormed.newChunk_eq lengthWritten some (Nat.le_of_lt room)
    rw [begun] at made
    have stop : config.stopOf data 0 = min config.sizeForArr data.length := by
      rw [stopOf, Nat.zero_add, Nat.one_mul]
    refine .inl ⟨some, rfl, Nat.le_of_eq (Nat.zero_mul _), ?_, ?_, ?_, ?_, ?_⟩
    · change 0 < config.stopOf data 0
      omega
    · rw [Except.ok.inj made]
      simp [slice, allocated, sizeForArr]
    · change config.headerMsgSize + 5 = config.headerMsgSize + 5 + (0 - 0 * config.sizeForArr)
      omega
    · change config.numChunks * (config.headerMsgSize + 5) + data.length =
        (config.numChunks - 0) * (config.headerMsgSize + 5) +
          (data.length - 0 * config.sizeForArr)
      rw [Nat.zero_mul, Nat.sub_zero, Nat.sub_zero]
    · change min (config.numChunks * (config.headerMsgSize + 5) + data.length)
          config.chunkSize - config.headerMsgSize - 5 = config.stopOf data 0 - 0
      rw [stop]
      rcases Nat.lt_or_ge 1 config.numChunks with several | single
      · have another : 1 < divUp data.length config.sizeForArr := counted ▸ several
        rw [lt_divUp_iff positive, Nat.one_mul] at another
        have headerLeft :
            config.headerMsgSize + 5 ≤ config.numChunks * (config.headerMsgSize + 5) :=
          Nat.le_mul_of_pos_left _ some
        omega
      · have one : config.numChunks = 1 := by omega
        have lastChunk : ¬ 1 < divUp data.length config.sizeForArr := by omega
        rw [lt_divUp_iff positive, Nat.one_mul] at lastChunk
        rw [one, Nat.one_mul]
        omega

/-! ## The payloads of all chunks -/

/-- The payloads of the first chunks hold the first bytes of the data. -/
theorem flatten_chunkPayload
    (wellFormed : config.WellFormed)
    {count : Nat}
    (inside : count < divUp data.length config.sizeForArr) :
    (List.range (count + 1)).flatMap (config.chunkPayload data) =
      data.take ((count + 1) * config.sizeForArr) ++
        List.replicate (config.sizeForArr - data.length) 0 := by
  have positive := wellFormed.sizeForArr_pos
  induction count with
  | zero =>
      simp [chunkPayload, slice]
  | succ count inductionHypothesis =>
      have begins := (lt_divUp_iff positive).mp inside
      have further : (count + 1) * config.sizeForArr =
          count * config.sizeForArr + config.sizeForArr := Nat.succ_mul _ _
      have unpadded : config.sizeForArr - data.length = 0 := by omega
      have before := inductionHypothesis (Nat.lt_of_succ_lt inside)
      rw [List.range_succ, List.flatMap_append, before, unpadded, List.replicate_zero,
        List.append_nil, List.append_nil, List.flatMap_singleton, chunkPayload,
        if_neg (Nat.succ_ne_zero count), List.append_nil]
      have prefixed :=
        slice_append_slice data (Nat.zero_le ((count + 1) * config.sizeForArr))
          (Nat.mul_le_mul_right config.sizeForArr (Nat.le_succ (count + 1)))
      simpa only [slice, List.drop_zero, Nat.sub_zero] using prefixed

theorem take_flatten_chunkPayload (wellFormed : config.WellFormed) :
    ((List.range (divUp data.length config.sizeForArr)).flatMap
        (config.chunkPayload data)).take data.length = data := by
  have positive := wellFormed.sizeForArr_pos
  cases count : divUp data.length config.sizeForArr with
  | zero =>
      have empty : ¬ 0 < divUp data.length config.sizeForArr := by omega
      rw [lt_divUp_iff positive, Nat.zero_mul] at empty
      obtain rfl : data = [] := List.length_eq_zero_iff.mp (by omega)
      rfl
  | succ last =>
      have lastChunk : ¬ last + 1 < divUp data.length config.sizeForArr := by omega
      rw [lt_divUp_iff positive] at lastChunk
      rw [flatten_chunkPayload wellFormed (by omega),
        List.take_of_length_le (Nat.not_lt.mp lastChunk), List.take_left]

theorem length_chunkPayload
    (chunkIdx : Nat) :
    (config.chunkPayload data chunkIdx).length ≤ config.sizeForArr := by
  have next : (chunkIdx + 1) * config.sizeForArr =
      chunkIdx * config.sizeForArr + config.sizeForArr := Nat.succ_mul _ _
  simp only [chunkPayload, slice, List.length_append, List.length_take, List.length_drop]
  split
  · subst chunkIdx
    rw [List.length_replicate]
    omega
  · rw [List.length_nil]
    omega

end Loop

end ChunkConfig

end TensorPC.Wire
