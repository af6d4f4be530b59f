import Mathlib.Data.Rat.Floor
import TensorPC.Wire.ChunkFraming

namespace TensorPC.Wire

/-!
# Messages in chunks

`get_message_chunks` sends one binary when it is small enough, and else a header with
the number of chunks and the chunks.  The header is measured before the number of chunks
is written into it.
-/

namespace SocketMessageEncoder

theorem totalSize_init
    (codec : WireCodec)
    (payload : Payload)
    (skeletonSizeLimit : Nat) :
    let encoder := init codec payload skeletonSizeLimit
    encoder.totalSize = (encoder.arrays.flatMap Binary.data).length := by
  have extracted :
      (extract payload).totalSize = ((extract payload).arrays.flatMap Binary.data).length := by
    rw [List.length_flatMap]
    rfl
  intro encoder
  simp only [encoder, init]
  split
  · simp only [List.flatMap_append, List.length_append, extracted, List.flatMap_cons,
      List.flatMap_nil, List.append_nil]
    rfl
  · exact extracted

variable (codec : WireCodec) (encoder : SocketMessageEncoder) (type : SocketMsgType)
variable (req : Header) (chunkSize : Nat)

/-- The request with the text of the skeleton. -/
def request : Header :=
  { req with data := encoder.serSkeleton codec }

/-- The header of chunks: all of its fields are shifted by one. -/
def chunkHeader (chunkIdx : Nat) : Header where
  serviceId := UInt32.ofNat (encodeProtobufUint req.serviceId.toNat)
  chunkIndex := UInt32.ofNat (encodeProtobufUint chunkIdx)
  rpcId := UInt64.ofNat (encodeProtobufUint req.rpcId.toNat)
  data := ""
  serviceKey := ""
  dynamicKey := ""

/-- The bytes of arrays in a chunk. -/
def chunkSizeForArr : Nat :=
  chunkSize - codec.byteSize (chunkHeader req 0) - 5

/-- The number of chunks. -/
def numChunks : Nat :=
  divUp encoder.totalSize (chunkSizeForArr codec req chunkSize)

/-- The chunked branch is taken, and its assertions hold. -/
structure Chunked : Prop where
  large : chunkSize ≤ 5 + codec.byteSize (encoder.request codec req) + encoder.totalSize
  headerRoom : codec.byteSize (encoder.request codec req) + 5 ≤ chunkSize
  arrRoom : 0 < chunkSizeForArr codec req chunkSize

/-- The shifted ids and the number of chunks fit their fields, as the header its length. -/
structure FieldsFit : Prop where
  serviceId : encodeProtobufUint req.serviceId.toNat < 2 ^ 32
  rpcId : encodeProtobufUint req.rpcId.toNat < 2 ^ 64
  count : encoder.numChunks codec req chunkSize < 2 ^ 32
  headerLength :
    codec.byteSize
      { encoder.request codec req with
        chunkIndex := UInt32.ofNat (encoder.numChunks codec req chunkSize) } < 2 ^ 31

/-- The configuration of the chunk loop. -/
def chunkConfig : ChunkConfig where
  codec := codec
  type := type
  chunkHeader := chunkHeader req 0
  headerMsgSize := codec.byteSize (chunkHeader req 0)
  numChunks := encoder.numChunks codec req chunkSize
  chunkSize := chunkSize

/-- The binary in front of the chunks. -/
def headerBinary : PyResult Bytes :=
  frame codec type
    { encoder.request codec req with
      chunkIndex := UInt32.ofNat (encoder.numChunks codec req chunkSize) } []

section Chunks

variable {codec encoder type req chunkSize}

theorem byteSize_chunkHeader
    (sizes : codec.HasProtobufSizes)
    (fits : FieldsFit codec encoder req chunkSize)
    {index : UInt32}
    (written : index ≠ 0) :
    codec.byteSize { chunkHeader req 0 with chunkIndex := index } = 19 := by
  rw [byteSize_chunkIndex sizes _ written]
  have service : (chunkHeader req 0).serviceId.toNat ≠ 0 := by
    rw [chunkHeader, UInt32.toNat_ofNat', Nat.mod_eq_of_lt fits.serviceId]
    exact Nat.succ_ne_zero _
  have rpc : (chunkHeader req 0).rpcId.toNat ≠ 0 := by
    rw [chunkHeader, UInt64.toNat_ofNat', Nat.mod_eq_of_lt fits.rpcId]
    exact Nat.succ_ne_zero _
  rw [Header.sizeWithoutIndex, fixedSize, if_neg service, fixedSize, if_neg rpc]
  rfl

theorem byteSize_chunkHeader_zero
    (sizes : codec.HasProtobufSizes)
    (fits : FieldsFit codec encoder req chunkSize) :
    codec.byteSize (chunkHeader req 0) = 19 :=
  @byteSize_chunkHeader codec encoder req chunkSize sizes fits
    (UInt32.ofNat (encodeProtobufUint 0)) (by decide)

theorem wellFormed_chunkConfig
    (sizes : codec.HasProtobufSizes)
    (chunked : Chunked codec encoder req chunkSize)
    (fits : FieldsFit codec encoder req chunkSize) :
    (chunkConfig codec encoder type req chunkSize).WellFormed where
  sized index written := by
    change codec.byteSize { chunkHeader req 0 with chunkIndex := index } =
      codec.byteSize (chunkHeader req 0)
    rw [byteSize_chunkHeader sizes fits written, byteSize_chunkHeader_zero sizes fits]
  lengthFits := by
    change codec.byteSize (chunkHeader req 0) < 2 ^ 31
    rw [byteSize_chunkHeader_zero sizes fits]
    decide
  room := by
    have room := chunked.arrRoom
    unfold chunkSizeForArr at room
    change codec.byteSize (chunkHeader req 0) + 5 < chunkSize
    omega
  countFits := fits.count

theorem chunkBinary_eq_frame
    {length data : Bytes}
    (sizes : codec.HasProtobufSizes)
    (chunked : Chunked codec encoder req chunkSize)
    (fits : FieldsFit codec encoder req chunkSize)
    (written : int32Bytes (codec.byteSize (chunkHeader req 0)) = .ok length)
    {chunkIdx : Nat}
    (inside : chunkIdx < encoder.numChunks codec req chunkSize) :
    let config := chunkConfig codec encoder type req chunkSize
    frame codec type.chunkType (chunkHeader req chunkIdx) (config.chunkPayload data chunkIdx) =
      .ok (config.chunkBinary length data chunkIdx) := by
  intro config
  have sized :=
    @ChunkConfig.WellFormed.length_header config
      (wellFormed_chunkConfig sizes chunked fits) chunkIdx inside
  have sameSize : codec.byteSize (chunkHeader req chunkIdx) =
      codec.byteSize (chunkHeader req 0) := sized
  simp only [frame, sameSize, written, bind, Except.bind]
  rfl

theorem int32Bytes_of_lt
    {size : Nat}
    (fits : size < 2 ^ 31) :
    ∃ length, int32Bytes size = .ok length := by
  rw [int32Bytes, if_pos fits]
  exact ⟨_, rfl⟩

/-- The loop yields all chunks. -/
theorem chunkBinaries_eq
    {length : Bytes}
    (sizes : codec.HasProtobufSizes)
    (measured : encoder.totalSize = (encoder.arrays.flatMap Binary.data).length)
    (chunked : Chunked codec encoder req chunkSize)
    (fits : FieldsFit codec encoder req chunkSize)
    (lengthWritten : int32Bytes (codec.byteSize (chunkHeader req 0)) = .ok length) :
    encoder.chunkBinaries codec type (chunkHeader req 0)
        (encoder.numChunks codec req chunkSize) chunkSize =
      .ok
        ((List.range (encoder.numChunks codec req chunkSize)).map
          ((chunkConfig codec encoder type req chunkSize).chunkBinary length
            (encoder.arrays.flatMap Binary.data))) := by
  have wellFormed :=
    @wellFormed_chunkConfig codec encoder type req chunkSize sizes chunked fits
  have counted :
      (chunkConfig codec encoder type req chunkSize).numChunks =
        divUp (encoder.arrays.flatMap Binary.data).length
          (chunkConfig codec encoder type req chunkSize).sizeForArr := by
    rw [← measured]
    change divUp _ (chunkSizeForArr codec req chunkSize) =
      divUp _ (chunkSize - (codec.byteSize (chunkHeader req 0) + 5))
    rw [chunkSizeForArr, Nat.sub_sub]
  obtain ⟨chunk, begun⟩ :
      ∃ chunk,
        (chunkConfig codec encoder type req chunkSize).newChunk chunkSize 0 = .ok chunk := by
    have first : fixed32 (encodeProtobufUint 0) =
        .ok (UInt32.ofNat (encodeProtobufUint 0)) := rfl
    simp only [ChunkConfig.newChunk, chunkConfig, lengthWritten, first, bind, Except.bind]
    exact ⟨_, rfl⟩
  have starts := ChunkConfig.copied_start wellFormed lengthWritten counted begun
  obtain ⟨final, copies, copied⟩ :=
    starts.copyArrays wellFormed lengthWritten counted (Nat.zero_le _)
      (show _ = encoder.arrays.flatMap Binary.data from rfl)
  have yielded : final.yielded =
      (List.range (encoder.numChunks codec req chunkSize)).map
        ((chunkConfig codec encoder type req chunkSize).chunkBinary length
          (encoder.arrays.flatMap Binary.data)) := by
    rcases copied with writing | finished
    · have unfinished := writing.unfinished
      exact absurd unfinished (Nat.not_lt.mpr (Nat.min_le_right _ _))
    · exact finished.yielded
  rw [← yielded]
  unfold chunkBinaries
  rw [measured]
  exact PyResult.bind_eq_ok.mpr
    ⟨chunk, begun, PyResult.bind_eq_ok.mpr ⟨final, copies, rfl⟩⟩

theorem fixed32_of_lt
    {value : Nat}
    (fits : value < 2 ^ 32) :
    fixed32 value = .ok (UInt32.ofNat value) := by
  rw [fixed32, if_pos fits]

/-- The call returns the header and the chunks of the loop. -/
theorem getMessageChunks_eq
    (sizes : codec.HasProtobufSizes)
    (measured : encoder.totalSize = (encoder.arrays.flatMap Binary.data).length)
    (chunked : Chunked codec encoder req chunkSize)
    (fits : FieldsFit codec encoder req chunkSize) :
    ∃ header length,
      int32Bytes (codec.byteSize (chunkHeader req 0)) = .ok length ∧
        encoder.headerBinary codec type req chunkSize = .ok header ∧
          encoder.getMessageChunks codec type req chunkSize =
            .ok
              (header ::
                (List.range (encoder.numChunks codec req chunkSize)).map
                  ((chunkConfig codec encoder type req chunkSize).chunkBinary length
                    (encoder.arrays.flatMap Binary.data))) := by
  obtain ⟨length, lengthWritten⟩ :=
    int32Bytes_of_lt
      (@wellFormed_chunkConfig codec encoder type req chunkSize sizes chunked fits).lengthFits
  obtain ⟨size, sizeWritten⟩ := int32Bytes_of_lt fits.headerLength
  have framed : encoder.headerBinary codec type req chunkSize = .ok _ :=
    PyResult.bind_eq_ok.mpr ⟨size, sizeWritten, rfl⟩
  have binaries :=
    @chunkBinaries_eq codec encoder type req chunkSize length sizes measured chunked fits
      lengthWritten
  have notSmall :
      ¬ 5 + codec.byteSize (encoder.request codec req) + encoder.totalSize < chunkSize :=
    Nat.not_lt.mpr chunked.large
  have rpcFits : fixed64 (encodeProtobufUint req.rpcId.toNat) =
      .ok (UInt64.ofNat (encodeProtobufUint req.rpcId.toNat)) := by
    rw [fixed64, if_pos fits.rpcId]
  refine ⟨_, length, lengthWritten, framed, ?_⟩
  refine (if_neg notSmall).trans ?_
  refine PyResult.bind_eq_ok.mpr ⟨(), pyAssert_eq_ok.mpr ?_, ?_⟩
  · exact decide_eq_true chunked.headerRoom
  refine PyResult.bind_eq_ok.mpr ⟨_, fixed32_of_lt fits.serviceId, ?_⟩
  refine PyResult.bind_eq_ok.mpr ⟨_, fixed32_of_lt (by decide), ?_⟩
  refine PyResult.bind_eq_ok.mpr ⟨_, rpcFits, ?_⟩
  refine PyResult.bind_eq_ok.mpr ⟨(), pyAssert_eq_ok.mpr ?_, ?_⟩
  · exact decide_eq_true chunked.arrRoom
  refine PyResult.bind_eq_ok.mpr ⟨_, fixed32_of_lt fits.count, ?_⟩
  refine PyResult.bind_eq_ok.mpr ⟨_, framed, ?_⟩
  exact PyResult.bind_eq_ok.mpr ⟨_, binaries, rfl⟩

theorem lt_of_int32Bytes
    {size : Nat}
    {length : Bytes}
    (written : int32Bytes size = .ok length) :
    size < 2 ^ 31 := by
  unfold int32Bytes at written
  split at written
  · assumption
  · cases written

theorem lt_of_fixed32
    {value : Nat}
    {field : UInt32}
    (assigned : fixed32 value = .ok field) :
    value < 2 ^ 32 ∧ field = UInt32.ofNat value := by
  unfold fixed32 at assigned
  split at assigned
  · exact ⟨‹_›, (Except.ok.inj assigned).symm⟩
  · cases assigned

theorem lt_of_fixed64
    {value : Nat}
    {field : UInt64}
    (assigned : fixed64 value = .ok field) :
    value < 2 ^ 64 ∧ field = UInt64.ofNat value := by
  unfold fixed64 at assigned
  split at assigned
  · exact ⟨‹_›, (Except.ok.inj assigned).symm⟩
  · cases assigned

/-- A call that returns took the first branch or passed all assertions and checks. -/
theorem getMessageChunks_cases
    {binaries : List Bytes}
    (returned : encoder.getMessageChunks codec type req chunkSize = .ok binaries) :
    (∃ binary,
      5 + codec.byteSize (encoder.request codec req) + encoder.totalSize < chunkSize ∧
        frame codec type (encoder.request codec req) (encoder.arrays.flatMap Binary.data) =
            .ok binary ∧
          binaries = [binary]) ∨
      Chunked codec encoder req chunkSize ∧ FieldsFit codec encoder req chunkSize := by
  by_cases small :
    5 + codec.byteSize (encoder.request codec req) + encoder.totalSize < chunkSize
  · have first := (if_pos small).symm.trans returned
    obtain ⟨binary, framed, same⟩ := PyResult.bind_eq_ok.mp first
    exact .inl ⟨binary, small, framed, (Except.ok.inj same).symm⟩
  · have rest := (if_neg small).symm.trans returned
    obtain ⟨_, headerRoom, rest⟩ := PyResult.bind_eq_ok.mp rest
    obtain ⟨serviceId, serviceAssigned, rest⟩ := PyResult.bind_eq_ok.mp rest
    obtain ⟨chunkIndex, indexAssigned, rest⟩ := PyResult.bind_eq_ok.mp rest
    obtain ⟨rpcId, rpcAssigned, rest⟩ := PyResult.bind_eq_ok.mp rest
    obtain ⟨_, arrRoom, rest⟩ := PyResult.bind_eq_ok.mp rest
    obtain ⟨index, countAssigned, rest⟩ := PyResult.bind_eq_ok.mp rest
    obtain ⟨header, framed, rest⟩ := PyResult.bind_eq_ok.mp rest
    obtain ⟨length, lengthWritten, -⟩ := PyResult.bind_eq_ok.mp framed
    obtain ⟨serviceFits, rfl⟩ := lt_of_fixed32 serviceAssigned
    obtain ⟨-, rfl⟩ := lt_of_fixed32 indexAssigned
    obtain ⟨rpcFits, rfl⟩ := lt_of_fixed64 rpcAssigned
    obtain ⟨countFits, rfl⟩ := lt_of_fixed32 countAssigned
    exact .inr
      ⟨⟨Nat.not_lt.mp small, of_decide_eq_true (pyAssert_eq_ok.mp headerRoom),
          of_decide_eq_true (pyAssert_eq_ok.mp arrRoom)⟩,
        ⟨serviceFits, rpcFits, countFits, lt_of_int32Bytes lengthWritten⟩⟩

theorem length_frame
    {header : Header}
    {rest binary : Bytes}
    (framed : frame codec type header rest = .ok binary) :
    binary.length = 5 + codec.byteSize header + rest.length := by
  obtain ⟨length, lengthWritten, same⟩ := PyResult.bind_eq_ok.mp framed
  rw [← Except.ok.inj same]
  simp only [List.length_append, List.length_cons, int32Bytes_length lengthWritten,
    WireCodec.byteSize]

end Chunks

/-! ## Framing -/

/--
The call yields a header that carries the number of chunks and then the chunks: chunk
`i` has a header with the number `i + 1` and the shifted ids, all of these headers have
one size, and the first payload bytes are those of the arrays in order.
-/
def FramesChunks
    (codec : WireCodec)
    (encoder : SocketMessageEncoder)
    (type : SocketMsgType)
    (req : Header)
    (chunkSize : Nat) : Prop :=
  ∃ (headerBinary : Bytes) (chunks payloads : List Bytes) (index : UInt32) (headerSize : Nat),
    encoder.getMessageChunks codec type req chunkSize = .ok (headerBinary :: chunks) ∧
      frame codec type { encoder.request codec req with chunkIndex := index } [] =
          .ok headerBinary ∧
        index.toNat = chunks.length ∧ payloads.length = chunks.length ∧
          headerSize = codec.byteSize (chunkHeader req 0) ∧
            chunks.length =
                ⌈((encoder.arrays.map Binary.byteSize).sum : ℚ) /
                  (chunkSize - headerSize - 5 : ℚ)⌉₊ ∧
              (∀ (i : Nat) (chunk payload : Bytes),
                chunks[i]? = some chunk → payloads[i]? = some payload →
                  ∃ header : Header,
                    header.chunkIndex.toNat = i + 1 ∧
                      header.serviceId.toNat = req.serviceId.toNat + 1 ∧
                        header.rpcId.toNat = req.rpcId.toNat + 1 ∧
                          codec.byteSize header = headerSize ∧
                            frame codec type.chunkType header payload = .ok chunk) ∧
                payloads.flatten.take (encoder.arrays.map Binary.byteSize).sum =
                  encoder.arrays.flatMap Binary.data

theorem divUp_eq_ceil
    (total : Nat)
    {size : Nat}
    (positive : 0 < size) :
    divUp total size = ⌈(total : ℚ) / (size : ℚ)⌉₊ := by
  have positiveRat : (0 : ℚ) < size := Nat.cast_pos.mpr positive
  apply eq_of_forall_ge_iff
  intro count
  rw [Nat.ceil_le, div_le_iff₀ positiveRat]
  have inside := @ChunkConfig.lt_divUp_iff total size count positive
  have cast : (total : ℚ) ≤ (count : ℚ) * (size : ℚ) ↔ total ≤ count * size := by
    rw [← Nat.cast_mul, Nat.cast_le]
  rw [cast]
  omega

section Framing

variable {codec encoder type req chunkSize}

/-- A chunked call frames its chunks. -/
theorem framesChunks_of_chunked
    (sizes : codec.HasProtobufSizes)
    (measured : encoder.totalSize = (encoder.arrays.flatMap Binary.data).length)
    (chunked : Chunked codec encoder req chunkSize)
    (fits : FieldsFit codec encoder req chunkSize) :
    encoder.FramesChunks codec type req chunkSize := by
  obtain ⟨header, length, lengthWritten, framed, returned⟩ :=
    @getMessageChunks_eq codec encoder type req chunkSize sizes measured chunked fits
  have wellFormed :=
    @wellFormed_chunkConfig codec encoder type req chunkSize sizes chunked fits
  have total : (encoder.arrays.map Binary.byteSize).sum = encoder.totalSize := by
    rw [measured, List.length_flatMap]
    rfl
  have sameSize :
      (chunkConfig codec encoder type req chunkSize).sizeForArr =
        chunkSizeForArr codec req chunkSize := by
    rw [chunkSizeForArr, Nat.sub_sub]
    rfl
  refine ⟨header, _,
    (List.range (encoder.numChunks codec req chunkSize)).map
      ((chunkConfig codec encoder type req chunkSize).chunkPayload
        (encoder.arrays.flatMap Binary.data)),
    UInt32.ofNat (encoder.numChunks codec req chunkSize), _, returned, framed, ?_, ?_, rfl,
    ?_, ?_, ?_⟩
  · rw [List.length_map, List.length_range, UInt32.toNat_ofNat', Nat.mod_eq_of_lt fits.count]
  · rw [List.length_map, List.length_map]
  · rw [List.length_map, List.length_range, total, numChunks,
      divUp_eq_ceil _ chunked.arrRoom]
    have room := wellFormed.room
    have cast : ((chunkSizeForArr codec req chunkSize : Nat) : ℚ) =
        (chunkSize - codec.byteSize (chunkHeader req 0) - 5 : ℚ) := by
      change codec.byteSize (chunkHeader req 0) + 5 < chunkSize at room
      rw [chunkSizeForArr, Nat.sub_sub, Nat.cast_sub (Nat.le_of_lt room)]
      push_cast
      ring
    rw [cast]
  · intro i chunk payload isChunk isPayload
    rw [List.getElem?_map, Option.map_eq_some_iff] at isChunk isPayload
    obtain ⟨chunkIdx, found, rfl⟩ := isChunk
    obtain ⟨payloadIdx, foundPayload, rfl⟩ := isPayload
    obtain ⟨inside, rfl⟩ := List.getElem?_eq_some_iff.mp found
    obtain ⟨insidePayload, rfl⟩ := List.getElem?_eq_some_iff.mp foundPayload
    rw [List.getElem_range]
    rw [List.length_range] at inside
    have counted := fits.count
    have shifted : encodeProtobufUint i < 2 ^ 32 := by
      unfold encodeProtobufUint
      omega
    refine ⟨chunkHeader req i, ?_, ?_, ?_, ?_, ?_⟩
    · change (UInt32.ofNat (encodeProtobufUint i)).toNat = i + 1
      rw [UInt32.toNat_ofNat', Nat.mod_eq_of_lt shifted]
      rfl
    · change (UInt32.ofNat (encodeProtobufUint req.serviceId.toNat)).toNat = _
      rw [UInt32.toNat_ofNat', Nat.mod_eq_of_lt fits.serviceId]
      rfl
    · change (UInt64.ofNat (encodeProtobufUint req.rpcId.toNat)).toNat = _
      rw [UInt64.toNat_ofNat', Nat.mod_eq_of_lt fits.rpcId]
      rfl
    · exact wellFormed.length_header inside
    · exact chunkBinary_eq_frame sizes chunked fits lengthWritten inside
  · rw [← List.flatMap_def, total, measured, numChunks, measured, ← sameSize]
    exact ChunkConfig.take_flatten_chunkPayload wellFormed

end Framing

/--
A call in the chunked branch whose assertions hold frames its chunks, when the shifted
ids, the number of chunks and the header length fit their fields.
-/
theorem framesChunks
    (codec : WireCodec)
    (payload : Payload)
    (skeletonSizeLimit : Nat)
    (type : SocketMsgType)
    (req : Header)
    (chunkSize : Nat)
    (sizes : codec.HasProtobufSizes)
    (chunked : Chunked codec (init codec payload skeletonSizeLimit) req chunkSize)
    (fits : FieldsFit codec (init codec payload skeletonSizeLimit) req chunkSize) :
    (init codec payload skeletonSizeLimit).FramesChunks codec type req chunkSize :=
  framesChunks_of_chunked sizes (totalSize_init codec payload skeletonSizeLimit) chunked fits

/-! ## The size of messages -/

/-- No binary of a call is longer than the chunk size; a call that raises yields none. -/
def MessagesFit
    (codec : WireCodec)
    (encoder : SocketMessageEncoder)
    (type : SocketMsgType)
    (req : Header)
    (chunkSize : Nat) : Prop :=
  ∀ binaries,
    encoder.getMessageChunks codec type req chunkSize = .ok binaries →
      ∀ binary ∈ binaries, binary.length ≤ chunkSize

/--
A chunked call with some bytes to send whose request has no chunk index yet and leaves
no room for the five bytes of one.
-/
structure HeaderOverflows
    (codec : WireCodec)
    (encoder : SocketMessageEncoder)
    (req : Header)
    (chunkSize : Nat) : Prop where
  chunked : Chunked codec encoder req chunkSize
  fits : FieldsFit codec encoder req chunkSize
  someBytes : 0 < encoder.totalSize
  unset : req.chunkIndex = 0
  close : chunkSize < codec.byteSize (encoder.request codec req) + 5 + 5

section Sizes

variable {codec encoder type req chunkSize}

theorem numChunks_pos_iff
    (chunked : Chunked codec encoder req chunkSize) :
    0 < encoder.numChunks codec req chunkSize ↔ 0 < encoder.totalSize := by
  rw [numChunks, ChunkConfig.lt_divUp_iff chunked.arrRoom, Nat.zero_mul]

/-- The header with the number of chunks has five bytes more when it had no index. -/
theorem byteSize_header
    (sizes : codec.HasProtobufSizes)
    (fits : FieldsFit codec encoder req chunkSize) :
    codec.byteSize
          { encoder.request codec req with
            chunkIndex := UInt32.ofNat (encoder.numChunks codec req chunkSize) } +
        fixedSize 4 req.chunkIndex.toNat =
      codec.byteSize (encoder.request codec req) +
        fixedSize 4 (encoder.numChunks codec req chunkSize) := by
  have sizeHeader := sizes
    { encoder.request codec req with
      chunkIndex := UInt32.ofNat (encoder.numChunks codec req chunkSize) }
  have sizeRequest := sizes (encoder.request codec req)
  have value : (UInt32.ofNat (encoder.numChunks codec req chunkSize)).toNat =
      encoder.numChunks codec req chunkSize := by
    rw [UInt32.toNat_ofNat', Nat.mod_eq_of_lt fits.count]
  rw [sizeHeader, sizeRequest]
  change (encoder.request codec req).sizeWithoutIndex +
        fixedSize 4 (UInt32.ofNat (encoder.numChunks codec req chunkSize)).toNat +
      fixedSize 4 req.chunkIndex.toNat =
    (encoder.request codec req).sizeWithoutIndex + fixedSize 4 req.chunkIndex.toNat +
      fixedSize 4 (encoder.numChunks codec req chunkSize)
  rw [value]
  exact Nat.add_right_comm _ _ _

/-- The chunks of a call have the chunk size at most. -/
theorem length_chunk_le
    {length data binary : Bytes}
    (sizes : codec.HasProtobufSizes)
    (chunked : Chunked codec encoder req chunkSize)
    (fits : FieldsFit codec encoder req chunkSize)
    (lengthWritten : int32Bytes (codec.byteSize (chunkHeader req 0)) = .ok length)
    (member :
      binary ∈
        (List.range (encoder.numChunks codec req chunkSize)).map
          ((chunkConfig codec encoder type req chunkSize).chunkBinary length data)) :
    binary.length ≤ chunkSize := by
  have wellFormed :=
    @wellFormed_chunkConfig codec encoder type req chunkSize sizes chunked fits
  obtain ⟨chunkIdx, inside, rfl⟩ := List.mem_map.mp member
  have prefixLength :=
    wellFormed.length_chunkPrefix lengthWritten (List.mem_range.mp inside)
  have payloadLength :=
    @ChunkConfig.length_chunkPayload (chunkConfig codec encoder type req chunkSize) data
      chunkIdx
  have room := wellFormed.room
  rw [ChunkConfig.chunkBinary, List.length_append, prefixLength]
  unfold ChunkConfig.sizeForArr at payloadLength
  have size : (chunkConfig codec encoder type req chunkSize).chunkSize = chunkSize := rfl
  omega

/-- The header of a chunked call fits unless its index is written into too little room. -/
theorem header_fits_iff
    (sizes : codec.HasProtobufSizes)
    (chunked : Chunked codec encoder req chunkSize)
    (fits : FieldsFit codec encoder req chunkSize) :
    5 + codec.byteSize
          { encoder.request codec req with
            chunkIndex := UInt32.ofNat (encoder.numChunks codec req chunkSize) } ≤
        chunkSize ↔
      ¬ HeaderOverflows codec encoder req chunkSize := by
  have size := byteSize_header sizes fits
  have headerRoom := chunked.headerRoom
  have count := numChunks_pos_iff chunked
  constructor
  · rintro small ⟨-, -, someBytes, unset, close⟩
    have some := count.mpr someBytes
    rw [unset, fixedSize, if_pos (by rfl), fixedSize, if_neg (by omega)] at size
    omega
  · intro fitting
    by_cases unset : req.chunkIndex = 0
    · by_cases someBytes : 0 < encoder.totalSize
      · have far :
            ¬ chunkSize < codec.byteSize (encoder.request codec req) + 5 + 5 :=
          fun close => fitting ⟨chunked, fits, someBytes, unset, close⟩
        have some := count.mpr someBytes
        rw [unset, fixedSize, if_pos (by rfl), fixedSize, if_neg (by omega)] at size
        omega
      · have none : encoder.numChunks codec req chunkSize = 0 := by omega
        rw [none] at size ⊢
        rw [fixedSize, fixedSize, if_pos rfl] at size
        split at size <;> omega
    · have nonzero : req.chunkIndex.toNat ≠ 0 :=
        fun zero => unset (UInt32.toNat_inj.mp zero)
      rw [fixedSize, if_neg nonzero, fixedSize] at size
      split at size <;> omega

end Sizes

/-- All binaries of a call fit exactly when the chunk index has room in the header. -/
theorem messagesFit_iff
    (codec : WireCodec)
    (payload : Payload)
    (skeletonSizeLimit : Nat)
    (type : SocketMsgType)
    (req : Header)
    (chunkSize : Nat)
    (sizes : codec.HasProtobufSizes) :
    (init codec payload skeletonSizeLimit).MessagesFit codec type req chunkSize ↔
      ¬ HeaderOverflows codec (init codec payload skeletonSizeLimit) req chunkSize := by
  have measured := totalSize_init codec payload skeletonSizeLimit
  generalize init codec payload skeletonSizeLimit = encoder at *
  constructor
  · intro messagesFit overflows
    obtain ⟨header, length, lengthWritten, framed, returned⟩ :=
      @getMessageChunks_eq codec encoder type req chunkSize sizes measured overflows.chunked
        overflows.fits
    have small := messagesFit _ returned header List.mem_cons_self
    rw [length_frame framed, List.length_nil, Nat.add_zero] at small
    exact (header_fits_iff sizes overflows.chunked overflows.fits).mp small overflows
  · intro fitting binaries returned binary member
    rcases getMessageChunks_cases returned with
      ⟨single, small, framed, rfl⟩ | ⟨chunked, fits⟩
    · obtain rfl := List.mem_singleton.mp member
      rw [length_frame framed, ← measured]
      omega
    · obtain ⟨header, length, lengthWritten, framed, returnedChunks⟩ :=
        @getMessageChunks_eq codec encoder type req chunkSize sizes measured chunked fits
      obtain rfl := Except.ok.inj (returned.symm.trans returnedChunks)
      rcases List.mem_cons.mp member with rfl | isChunk
      · rw [length_frame framed, List.length_nil, Nat.add_zero]
        exact (header_fits_iff sizes chunked fits).mpr fitting
      · exact length_chunk_le sizes chunked fits lengthWritten isChunk

/-! ## Calls with a hundred bytes -/

/-- A hundred bytes. -/
def hundredBytes : Payload :=
  .binary (.bytes (List.replicate 100 7))

/-- The skeleton text of `hundredBytes`. -/
def hundredText : String :=
  "[1, [[100, [100]]], \x7b\"__jsonarray_index\": [0, 1]\x7d]"

/-- The serializers as they act on `hundredBytes`. -/
def hundredCodec : WireCodec where
  dumps _ := hundredText
  loads _ := .error (.valueError "Expecting value")
  packb _ := []
  serializeToString := Header.protobuf
  parseFromString _ := .error (.valueError "Error parsing message")

/-- A request of a service. -/
def hundredRequest (serviceId : UInt32) : Header where
  serviceId := serviceId
  chunkIndex := 0
  rpcId := 0
  data := ""
  serviceKey := ""
  dynamicKey := ""

theorem hundredCodec_sizes : hundredCodec.HasProtobufSizes :=
  Header.length_protobuf

/-- A call in the chunked branch, with forty bytes of the array in a chunk. -/
theorem framesChunks_sample :
    (init hundredCodec hundredBytes 1000).FramesChunks hundredCodec .rpc (hundredRequest 3) 64 :=
  framesChunks hundredCodec hundredBytes 1000 .rpc (hundredRequest 3) 64 hundredCodec_sizes
    ⟨by decide +kernel, by decide +kernel, by decide +kernel⟩
    ⟨by decide +kernel, by decide +kernel, by decide +kernel, by decide +kernel⟩

/-- A service id that is the largest number of its field cannot be shifted. -/
theorem not_framesChunks :
    hundredCodec.HasProtobufSizes ∧
      Chunked hundredCodec (init hundredCodec hundredBytes 1000) (hundredRequest 0xffffffff)
          64 ∧
        ¬ (init hundredCodec hundredBytes 1000).FramesChunks hundredCodec .rpc
            (hundredRequest 0xffffffff) 64 := by
  refine ⟨hundredCodec_sizes,
    ⟨by decide +kernel, by decide +kernel, by decide +kernel⟩, ?_⟩
  rintro ⟨header, chunks, payloads, index, headerSize, returned, -⟩
  rcases getMessageChunks_cases returned with ⟨binary, small, -⟩ | ⟨-, fits⟩
  · exact absurd small (by decide +kernel)
  · exact absurd fits.serviceId (by decide +kernel)

/-- A chunk size with room for the header and its chunk index. -/
theorem messagesFit_iff_sample :
    (init hundredCodec hundredBytes 1000).MessagesFit hundredCodec .rpc (hundredRequest 3) 68 ↔
      ¬ HeaderOverflows hundredCodec (init hundredCodec hundredBytes 1000) (hundredRequest 3)
          68 :=
  messagesFit_iff hundredCodec hundredBytes 1000 .rpc (hundredRequest 3) 68 hundredCodec_sizes

/-- With a chunk size of sixty-four bytes, the header of sixty-seven bytes is too long. -/
theorem not_messagesFit :
    hundredCodec.HasProtobufSizes ∧
      ¬ (init hundredCodec hundredBytes 1000).MessagesFit hundredCodec .rpc (hundredRequest 3)
          64 := by
  refine ⟨hundredCodec_sizes, fun messagesFit => ?_⟩
  have chunked : Chunked hundredCodec (init hundredCodec hundredBytes 1000) (hundredRequest 3)
      64 :=
    ⟨by decide +kernel, by decide +kernel, by decide +kernel⟩
  have fits : FieldsFit hundredCodec (init hundredCodec hundredBytes 1000) (hundredRequest 3)
      64 :=
    ⟨by decide +kernel, by decide +kernel, by decide +kernel, by decide +kernel⟩
  obtain ⟨header, length, lengthWritten, framed, returned⟩ :=
    @getMessageChunks_eq hundredCodec (init hundredCodec hundredBytes 1000) .rpc
      (hundredRequest 3) 64 hundredCodec_sizes (totalSize_init _ _ _) chunked fits
  have small := messagesFit _ returned header List.mem_cons_self
  rw [length_frame framed] at small
  exact absurd small (by decide +kernel)

end SocketMessageEncoder

end TensorPC.Wire
