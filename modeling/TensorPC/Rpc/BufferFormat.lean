import TensorPC.Rpc.BufferRegion

namespace TensorPC.Rpc

/-!
# The buffer format

`dumps` lays out a payload in one buffer: two offsets, the bytes of all arrays with the
pickled skeleton behind them, and a protobuf message with the metadata.  `loads` finds
the pieces again from the offsets and the metadata.
-/

open Computation (bind_of_ok)
open Segments (Placement)
open Wire (Bytes)

/-- `RemoteCallReply(arrays=...)` and the arrays that protobuf can serialize. -/
structure ReplyCodec where
  serializeToString : List PbNdarray → PyResult Bytes
  parseFromString : Bytes → PyResult (List PbNdarray)
  accepts : List PbNdarray → Prop

/-- A message is parsed as it was serialized. -/
def ReplyCodec.RoundTrips (codec : ReplyCodec) : Prop :=
  ∀ arrays, codec.accepts arrays →
    ∃ bytes, codec.serializeToString arrays = .ok bytes ∧
      codec.parseFromString bytes = .ok arrays

/-- `np.array(offset, dtype=np.int64).tobytes()`; a larger offset does not fit. -/
def int64Bytes (offset : Nat) : PyResult Bytes :=
  if offset < 2 ^ 63 then
    .ok ((List.range 8).map fun position => UInt8.ofNat (offset / 2 ^ (8 * position)))
  else
    .error .overflowError

/-- `np.frombuffer(buffer_view[:8], dtype=np.int64).item()`, for an offset that was written. -/
def readInt64 : Bytes → PyResult Nat
  | [b0, b1, b2, b3, b4, b5, b6, b7] =>
      .ok
        (b0.toNat + b1.toNat * 2 ^ 8 + b2.toNat * 2 ^ 16 + b3.toNat * 2 ^ 24 +
          b4.toNat * 2 ^ 32 + b5.toNat * 2 ^ 40 + b6.toNat * 2 ^ 48 + b7.toNat * 2 ^ 56)
  | _ => .error (.valueError "can only convert an array of size 1 to a Python scalar")

/-- The two libraries that the format is built on. -/
structure BufferLibraries where
  pickle : Serializer
  reply : ReplyCodec

variable (libraries : BufferLibraries)

/-- The buffer of `dumps`: a new one, or one that has enough room. -/
def outputBuffer
    (size : Nat) :
    Option Bytes → PyResult Bytes
  | none => .ok (List.replicate size 0)
  | some buffer => do
      pyAssert (decide (buffer.length ≥ size)) ""
      .ok buffer

/-- The content region after `dumps` has written the buffers and the skeleton. -/
def writtenContent
    (multiThread : Bool)
    (arrayBuffers : List ArrayBuffer)
    (dataSkeletonBytes : Bytes)
    (content : Bytes) :
    PyResult Bytes :=
  match
    SharedMem.writeRegion multiThread 0 arrayBuffers dataSkeletonBytes
      { bytes := content, assigned := [] } with
  | .ok _ sharedMem => .ok sharedMem.bytes
  | .error raised _ => .error raised

/-- `dumps`; the shared memory is the part of the buffer between header and metadata. -/
def dumps
    (obj : PyData)
    (multiThread : Bool)
    (buffer : Option Bytes) :
    PyResult Bytes := do
  let (dataSkeletonBytes, dataToBeSend) ← prepareMetas libraries.pickle obj
  let protobufBytes ← libraries.reply.serializeToString dataToBeSend
  let arrayBuffers ← prepareBuffers obj
  let totalLength :=
    sumArrayNbytes arrayBuffers + dataSkeletonBytes.length + protobufBytes.length
  let buffer ← outputBuffer (totalLength + 16) buffer
  let contentEndOffset := 16 + sumArrayNbytes arrayBuffers + dataSkeletonBytes.length
  let metaEndOffset := contentEndOffset + protobufBytes.length
  let contentEndBytes ← int64Bytes contentEndOffset
  let buffer ← assignSlice buffer 0 8 contentEndBytes
  let metaEndBytes ← int64Bytes metaEndOffset
  let buffer ← assignSlice buffer 8 16 metaEndBytes
  let buffer ← assignSlice buffer contentEndOffset metaEndOffset protobufBytes
  let content ←
    writtenContent multiThread arrayBuffers dataSkeletonBytes
      (slice buffer 16 contentEndOffset)
  assignSlice buffer 16 contentEndOffset content

/-- `reduce(lambda x, y: x * y, shape)`. -/
def reduceShape : List Nat → PyResult Nat
  | [] => .error (.typeError "reduce() of empty iterable with no initial value")
  | first :: rest => .ok (rest.foldl (fun x y => x * y) first)

/-- `loads`. -/
def loads (binary : Bytes) : PyResult PyData := do
  let contentEndOffset ← readInt64 (slice binary 0 8)
  let metaEndOffset ← readInt64 (slice binary 8 16)
  let arrays ←
    libraries.reply.parseFromString (slice binary contentEndOffset metaEndOffset)
  readRegion libraries.pickle reduceShape 0 arrays (binary.drop 16)

/-! ## Round trips -/

/-- The documented behaviour of the libraries. -/
structure BufferLibraries.RoundTrip : Prop where
  pickle : libraries.pickle.RoundTrips id
  reply : libraries.reply.RoundTrips

/--
Objects made of containers over scalars, bytes and arrays of supported dtypes, without
the reserved key, whose skeleton and metadata the libraries accept.
-/
structure Dumpable (obj : PyData) : Prop where
  payload : obj.isPayload = true
  avoids : obj.avoidsKey (.str "__jsonarray_index") true = true
  skeleton : libraries.pickle.accepts (extractArraysFromData obj "").2
  metas :
    ∀ dataSkeletonBytes dataToBeSend,
      prepareMetas libraries.pickle obj = .ok (dataSkeletonBytes, dataToBeSend) →
      libraries.reply.accepts dataToBeSend

/-- What is dumped is loaded again. -/
def LoadsWhatIsDumped
    (obj : PyData)
    (multiThread : Bool) : Prop :=
  ∃ buffer,
    dumps libraries obj multiThread none = .ok buffer ∧ loads libraries buffer = .ok obj

/-- An array with at least one axis. -/
def Buffer.isArrayWithAxes : Buffer → Bool
  | .ndarray arr => arr.shape ≠ []
  | .bytes _ | .arrayBuffer _ => false

/-- The length of what is dumped: header, content and metadata. -/
def encodedLength (obj : PyData) : Nat :=
  match prepareMetas libraries.pickle obj with
  | .error _ => 0
  | .ok (dataSkeletonBytes, dataToBeSend) =>
      match libraries.reply.serializeToString dataToBeSend with
      | .error _ => 0
      | .ok protobufBytes =>
          16 + (obj.buffers.map Buffer.byteSize).sum + dataSkeletonBytes.length +
            protobufBytes.length

/-- No bytes and no array without axes, and offsets that fit their 64 bits. -/
structure ReadsBack (obj : PyData) : Prop where
  arrays : ∀ value ∈ obj.buffers, value.isArrayWithAxes = true
  offsets : encodedLength libraries obj < 2 ^ 63

/-! ## Offsets -/

theorem readInt64_int64Bytes
    {offset : Nat}
    {bytes : Bytes}
    (written : int64Bytes offset = .ok bytes) :
    readInt64 bytes = .ok offset ∧ bytes.length = 8 ∧ offset < 2 ^ 63 := by
  unfold int64Bytes at written
  split at written
  · rename_i small
    obtain rfl := Except.ok.inj written
    refine ⟨?_, rfl, small⟩
    simp only [List.range, List.range.loop, List.map_cons, List.map_nil, readInt64,
      UInt8.toNat_ofNat', Except.ok.injEq]
    omega
  · cases written

theorem int64Bytes_of_lt
    {offset : Nat}
    (fits : offset < 2 ^ 63) :
    ∃ bytes, int64Bytes offset = .ok bytes :=
  ⟨_, if_pos fits⟩

theorem reduceShape_of_ne_nil
    {shape : List Nat}
    (axes : shape ≠ []) :
    reduceShape shape = .ok shape.prod := by
  cases shape with
  | nil =>
      exact absurd rfl axes
  | cons first rest =>
      have folded : ∀ (rest : List Nat) (start : Nat),
          rest.foldl (fun x y => x * y) start = start * rest.prod := by
        intro rest
        induction rest with
        | nil =>
            simp
        | cons axis others inductionHypothesis =>
            intro start
            rw [List.foldl_cons, inductionHypothesis, List.prod_cons, Nat.mul_assoc]
      rw [reduceShape, folded, List.prod_cons]

/-! ## The layout of a buffer -/

/-- The parts of what is dumped. -/
structure Parts where
  contentEnd : Bytes
  metaEnd : Bytes
  content : Bytes
  protobuf : Bytes
  rest : Bytes

namespace Parts

/-- The parts one after the other. -/
def assembled (parts : Parts) : Bytes :=
  parts.contentEnd ++ (parts.metaEnd ++ (parts.content ++ (parts.protobuf ++ parts.rest)))

variable {parts : Parts}

theorem slice_middle
    (before middle after : Bytes)
    {start stop : Nat}
    (begins : start = before.length)
    (ends : stop = start + middle.length) :
    slice (before ++ (middle ++ after)) start stop = middle := by
  subst begins ends
  simp [slice, List.take_append]

theorem slice_contentEnd
    (eight : parts.contentEnd.length = 8) :
    slice parts.assembled 0 8 = parts.contentEnd :=
  slice_middle [] _ _ rfl (by omega)

theorem slice_metaEnd
    (eight : parts.contentEnd.length = 8)
    (again : parts.metaEnd.length = 8) :
    slice parts.assembled 8 16 = parts.metaEnd :=
  slice_middle parts.contentEnd _ _ eight.symm (by omega)

theorem slice_protobuf
    (eight : parts.contentEnd.length = 8)
    (again : parts.metaEnd.length = 8)
    {start stop : Nat}
    (begins : start = 16 + parts.content.length)
    (ends : stop = start + parts.protobuf.length) :
    slice parts.assembled start stop = parts.protobuf := by
  have regrouped :
      parts.assembled =
        (parts.contentEnd ++ parts.metaEnd ++ parts.content) ++
          (parts.protobuf ++ parts.rest) := by
    simp [assembled]
  rw [regrouped]
  refine slice_middle _ _ _ ?_ ends
  simp only [List.length_append, eight, again]
  omega

theorem drop_assembled
    (eight : parts.contentEnd.length = 8)
    (again : parts.metaEnd.length = 8) :
    parts.assembled.drop 16 = parts.content ++ (parts.protobuf ++ parts.rest) := by
  have regrouped :
      parts.assembled =
        (parts.contentEnd ++ parts.metaEnd) ++ (parts.content ++ (parts.protobuf ++ parts.rest)) := by
    simp [assembled]
  rw [regrouped]
  exact List.drop_left' (by rw [List.length_append, eight, again])

end Parts

theorem assignSlice_middle
    {before old new after : Bytes}
    {start stop : Nat}
    (begins : start = before.length)
    (ends : stop = start + old.length)
    (sameLength : new.length = old.length) :
    assignSlice (before ++ (old ++ after)) start stop new =
      .ok (before ++ (new ++ after)) := by
  subst begins ends
  have assigned :=
    @assignSlice_after _ before (old ++ after) new (by rw [List.length_append]; omega)
  rw [sameLength] at assigned
  rw [assigned, List.drop_left, List.append_assoc]

/-- Any bytes are a header, a content region, a place for the metadata and the rest. -/
theorem exists_parts
    {buffer : Bytes}
    {content protobuf : Nat}
    (room : 16 + content + protobuf ≤ buffer.length) :
    ∃ parts : Parts,
      parts.assembled = buffer ∧
        parts.contentEnd.length = 8 ∧
        parts.metaEnd.length = 8 ∧
        parts.content.length = content ∧
        parts.protobuf.length = protobuf := by
  refine ⟨{
    contentEnd := buffer.take 8
    metaEnd := (buffer.drop 8).take 8
    content := (buffer.drop 16).take content
    protobuf := (buffer.drop (16 + content)).take protobuf
    rest := buffer.drop (16 + content + protobuf) }, ?_, ?_, ?_, ?_, ?_⟩
  · have third :
        (buffer.drop (16 + content)).take protobuf ++ buffer.drop (16 + content + protobuf) =
          buffer.drop (16 + content) := by
      have parted := List.take_append_drop protobuf (buffer.drop (16 + content))
      rwa [List.drop_drop] at parted
    have second :
        (buffer.drop 16).take content ++ buffer.drop (16 + content) = buffer.drop 16 := by
      have parted := List.take_append_drop content (buffer.drop 16)
      rwa [List.drop_drop] at parted
    have first : (buffer.drop 8).take 8 ++ buffer.drop 16 = buffer.drop 8 := by
      have parted := List.take_append_drop 8 (buffer.drop 8)
      rwa [List.drop_drop] at parted
    simp only [Parts.assembled]
    rw [third, second, first]
    exact List.take_append_drop _ _
  all_goals
    simp only [List.length_take, List.length_drop]
    omega

/-- Writing the four parts of a buffer one after the other. -/
theorem assemble_eq
    {parts : Parts}
    {contentEndBytes metaEndBytes protobufBytes content : Bytes}
    {contentEndOffset metaEndOffset : Nat}
    {multiThread : Bool}
    {arrayBuffers : List ArrayBuffer}
    {dataSkeletonBytes : Bytes}
    (eight : parts.contentEnd.length = 8)
    (again : parts.metaEnd.length = 8)
    (firstOffset : contentEndBytes.length = 8)
    (secondOffset : metaEndBytes.length = 8)
    (contentEnds : contentEndOffset = 16 + parts.content.length)
    (metaEnds : metaEndOffset = contentEndOffset + parts.protobuf.length)
    (protobuf : protobufBytes.length = parts.protobuf.length)
    (written :
      writtenContent multiThread arrayBuffers dataSkeletonBytes parts.content = .ok content)
    (sameLength : content.length = parts.content.length) :
    (do
      let buffer ← assignSlice parts.assembled 0 8 contentEndBytes
      let buffer ← assignSlice buffer 8 16 metaEndBytes
      let buffer ← assignSlice buffer contentEndOffset metaEndOffset protobufBytes
      let content ←
        writtenContent multiThread arrayBuffers dataSkeletonBytes
          (slice buffer 16 contentEndOffset)
      assignSlice buffer 16 contentEndOffset content) =
      .ok {
        contentEnd := contentEndBytes
        metaEnd := metaEndBytes
        content := content
        protobuf := protobufBytes
        rest := parts.rest : Parts }.assembled := by
  have first :
      assignSlice parts.assembled 0 8 contentEndBytes =
        .ok { parts with contentEnd := contentEndBytes }.assembled :=
    @assignSlice_middle [] _ _ _ _ _ rfl (by omega) (by omega)
  have second :
      assignSlice { parts with contentEnd := contentEndBytes }.assembled 8 16 metaEndBytes =
        .ok { parts with contentEnd := contentEndBytes, metaEnd := metaEndBytes }.assembled :=
    @assignSlice_middle contentEndBytes parts.metaEnd metaEndBytes _ 8 16 firstOffset.symm
      (by omega) (by omega)
  have header : (contentEndBytes ++ metaEndBytes).length = 16 := by
    rw [List.length_append, firstOffset, secondOffset]
  have third :
      assignSlice
          { parts with contentEnd := contentEndBytes, metaEnd := metaEndBytes }.assembled
          contentEndOffset metaEndOffset protobufBytes =
        .ok {
          parts with
            contentEnd := contentEndBytes
            metaEnd := metaEndBytes
            protobuf := protobufBytes }.assembled := by
    have assigned :=
      @assignSlice_middle (contentEndBytes ++ metaEndBytes ++ parts.content) parts.protobuf
        protobufBytes parts.rest contentEndOffset metaEndOffset
        (by rw [List.length_append, header]; exact contentEnds) metaEnds protobuf
    simpa [Parts.assembled] using assigned
  have region :
      slice
          { parts with
            contentEnd := contentEndBytes
            metaEnd := metaEndBytes
            protobuf := protobufBytes }.assembled 16 contentEndOffset =
        parts.content := by
    have found :=
      @Parts.slice_middle (contentEndBytes ++ metaEndBytes) parts.content
        (protobufBytes ++ parts.rest) 16 contentEndOffset header.symm contentEnds
    simpa [Parts.assembled] using found
  have fourth :
      assignSlice
          { parts with
            contentEnd := contentEndBytes
            metaEnd := metaEndBytes
            protobuf := protobufBytes }.assembled 16 contentEndOffset content =
        .ok {
          contentEnd := contentEndBytes
          metaEnd := metaEndBytes
          content := content
          protobuf := protobufBytes
          rest := parts.rest : Parts }.assembled := by
    have assigned :=
      @assignSlice_middle (contentEndBytes ++ metaEndBytes) parts.content content
        (protobufBytes ++ parts.rest) 16 contentEndOffset header.symm contentEnds sameLength
    simpa [Parts.assembled] using assigned
  refine PyResult.bind_eq_ok.mpr ⟨_, first, ?_⟩
  refine PyResult.bind_eq_ok.mpr ⟨_, second, ?_⟩
  refine PyResult.bind_eq_ok.mpr ⟨_, third, ?_⟩
  refine PyResult.bind_eq_ok.mpr ⟨_, (congrArg _ region).trans written, ?_⟩
  exact fourth

/-! ## Dumping and loading -/

section RoundTrip

variable {libraries : BufferLibraries} {obj : PyData} {multiThread : Bool}
variable {dataSkeletonBytes protobufBytes : Bytes} {dataToBeSend : List PbNdarray}
variable {arrayBuffers : List ArrayBuffer}

/-- The content region has exactly the room for the buffers and the skeleton. -/
theorem writtenContent_eq
    {content : Bytes}
    (exact_ : content.length = sumArrayNbytes arrayBuffers + dataSkeletonBytes.length) :
    ∃ written,
      writtenContent multiThread arrayBuffers dataSkeletonBytes content = .ok written ∧
        written.length = content.length ∧
        (alignment 0).Holds written 0 (arrayBuffers.map ArrayBuffer.data) ∧
        slice written (SharedMem.regionEnd 0 arrayBuffers)
          (SharedMem.regionEnd 0 arrayBuffers + dataSkeletonBytes.length) =
            dataSkeletonBytes ∧
        SharedMem.regionEnd 0 arrayBuffers = sumArrayNbytes arrayBuffers := by
  have packed : SharedMem.regionEnd 0 arrayBuffers = sumArrayNbytes arrayBuffers := by
    rw [SharedMem.regionEnd, alignment_zero, Placement.packed_endOf, Nat.zero_add,
      sumArrayNbytes]
  have fits :
      SharedMem.regionEnd 0 arrayBuffers + dataSkeletonBytes.length ≤
        (SharedMem.mk content []).bytes.length := by
    rw [packed]
    exact Nat.le_of_eq exact_.symm
  obtain ⟨after, written, sameLength, holds, skeleton, -⟩ :=
    @SharedMem.writeRegion_of_fits (SharedMem.mk content []) multiThread 0 arrayBuffers
      dataSkeletonBytes fits
  exact ⟨after.bytes, by simp only [writtenContent, written], sameLength, holds, skeleton, packed⟩

/-- What is dumped into a buffer with enough room is read from its content region. -/
theorem dumps_eq_ok
    (metas : prepareMetas libraries.pickle obj = .ok (dataSkeletonBytes, dataToBeSend))
    (serialized : libraries.reply.serializeToString dataToBeSend = .ok protobufBytes)
    (parsed : libraries.reply.parseFromString protobufBytes = .ok dataToBeSend)
    (viewed : prepareBuffers obj = .ok arrayBuffers)
    (fits :
      16 + sumArrayNbytes arrayBuffers + dataSkeletonBytes.length + protobufBytes.length <
        2 ^ 63)
    {buffer : Option Bytes}
    {memory : Bytes}
    (made :
      outputBuffer
          (sumArrayNbytes arrayBuffers + dataSkeletonBytes.length + protobufBytes.length + 16)
          buffer =
        .ok memory)
    (room :
      sumArrayNbytes arrayBuffers + dataSkeletonBytes.length + protobufBytes.length + 16 ≤
        memory.length) :
    ∃ binary region,
      dumps libraries obj multiThread buffer = .ok binary ∧
        loads libraries binary =
          readRegion libraries.pickle reduceShape 0 dataToBeSend region ∧
        (alignment 0).Holds region 0 (arrayBuffers.map ArrayBuffer.data) ∧
        slice region (sumArrayNbytes arrayBuffers)
          (sumArrayNbytes arrayBuffers + dataSkeletonBytes.length) = dataSkeletonBytes := by
  obtain ⟨parts, rfl, eight, again, contentLength, protobufLength⟩ :=
    @exists_parts memory (sumArrayNbytes arrayBuffers + dataSkeletonBytes.length)
      protobufBytes.length (by omega)
  obtain ⟨content, written, sameLength, holds, skeleton, packed⟩ :=
    @writtenContent_eq multiThread dataSkeletonBytes arrayBuffers parts.content contentLength
  rw [packed] at skeleton
  obtain ⟨contentEndBytes, contentEndWritten⟩ :=
    @int64Bytes_of_lt (16 + sumArrayNbytes arrayBuffers + dataSkeletonBytes.length) (by omega)
  obtain ⟨metaEndBytes, metaEndWritten⟩ := int64Bytes_of_lt fits
  obtain ⟨contentEndRead, firstOffset, -⟩ := readInt64_int64Bytes contentEndWritten
  obtain ⟨metaEndRead, secondOffset, -⟩ := readInt64_int64Bytes metaEndWritten
  have assembled :=
    @assemble_eq parts contentEndBytes metaEndBytes protobufBytes content
      (16 + sumArrayNbytes arrayBuffers + dataSkeletonBytes.length) _ multiThread arrayBuffers
      dataSkeletonBytes eight again firstOffset secondOffset (by omega)
      (congrArg _ protobufLength.symm) protobufLength.symm written sameLength
  refine ⟨
    Parts.assembled ⟨contentEndBytes, metaEndBytes, content, protobufBytes, parts.rest⟩,
    content ++ (protobufBytes ++ parts.rest), ?_, ?_, ?_, ?_⟩
  · obtain ⟨first, firstAssigned, remaining⟩ := PyResult.bind_eq_ok.mp assembled
    refine PyResult.bind_eq_ok.mpr ⟨_, metas, ?_⟩
    refine PyResult.bind_eq_ok.mpr ⟨_, serialized, ?_⟩
    refine PyResult.bind_eq_ok.mpr ⟨_, viewed, ?_⟩
    refine PyResult.bind_eq_ok.mpr ⟨_, made, ?_⟩
    refine PyResult.bind_eq_ok.mpr ⟨_, contentEndWritten, ?_⟩
    refine PyResult.bind_eq_ok.mpr ⟨_, firstAssigned, ?_⟩
    exact PyResult.bind_eq_ok.mpr ⟨_, metaEndWritten, remaining⟩
  · have contentEndSlice :=
      @Parts.slice_contentEnd ⟨contentEndBytes, metaEndBytes, content, protobufBytes, parts.rest⟩
        firstOffset
    have metaEndSlice :=
      @Parts.slice_metaEnd ⟨contentEndBytes, metaEndBytes, content, protobufBytes, parts.rest⟩
        firstOffset secondOffset
    have protobufSlice :=
      @Parts.slice_protobuf ⟨contentEndBytes, metaEndBytes, content, protobufBytes, parts.rest⟩
        firstOffset secondOffset
        (16 + sumArrayNbytes arrayBuffers + dataSkeletonBytes.length) _
        (by simp only [sameLength, contentLength]; omega) rfl
    have region :=
      @Parts.drop_assembled ⟨contentEndBytes, metaEndBytes, content, protobufBytes, parts.rest⟩
        firstOffset secondOffset
    simp only [loads, contentEndSlice, contentEndRead, metaEndSlice, metaEndRead, bind,
      Except.bind, protobufSlice, parsed, region]
  · refine Placement.Holds.congr ?_ holds
    intro first last inside
    refine slice_append_left (Nat.le_trans inside ?_)
    have ends : (alignment 0).endOf 0 ((arrayBuffers.map ArrayBuffer.data).map List.length) =
        sumArrayNbytes arrayBuffers := by
      rw [List.map_map]
      exact packed
    omega
  · rw [slice_append_left (by omega)]
    exact skeleton

theorem sumArrayNbytes_eq
    (viewed : prepareBuffers obj = .ok arrayBuffers) :
    arrayBuffers.map ArrayBuffer.data = obj.buffers.map (fun value => value.asArray.data) ∧
      sumArrayNbytes arrayBuffers = (obj.buffers.map Buffer.byteSize).sum := by
  have extracted : (extractArraysFromData obj "").1 = obj.buffers :=
    extractArrays_fst "" obj []
  rw [prepareBuffers, extracted] at viewed
  have same := (mapM_toArrayBuffer_eq_ok viewed).2
  have size : ∀ value : Buffer, value.asArray.data.length = value.byteSize := by
    intro value
    cases value <;> rfl
  have lengths := congrArg (List.map List.length) same
  rw [List.map_map, List.map_map] at lengths
  refine ⟨same, congrArg List.sum (lengths.trans (List.map_congr_left ?_))⟩
  exact fun value _ => size value

theorem Dumpable.serialized
    (faithful : libraries.RoundTrip)
    (dumpable : Dumpable libraries obj) :
    ∃ dataSkeletonBytes dataToBeSend protobufBytes,
      prepareMetas libraries.pickle obj = .ok (dataSkeletonBytes, dataToBeSend) ∧
        libraries.pickle.loads dataSkeletonBytes = .ok (extractArraysFromData obj "").2 ∧
        dataToBeSend.mapM pb2meta =
          .ok ((obj.buffers.map Buffer.asArray).map NDArray.meta ++
            [(NDArray.ofBytes dataSkeletonBytes).meta]) ∧
        libraries.reply.serializeToString dataToBeSend = .ok protobufBytes ∧
        libraries.reply.parseFromString protobufBytes = .ok dataToBeSend := by
  obtain ⟨dataSkeletonBytes, pickled, unpickled⟩ := faithful.pickle _ dumpable.skeleton
  obtain ⟨dataToBeSend, metas, read⟩ :=
    prepareMetas_of_supported
      (PyData.isSupported_of_mem_buffers obj dumpable.payload) pickled
  obtain ⟨protobufBytes, serialized, parsed⟩ :=
    faithful.reply _ (dumpable.metas _ _ metas)
  exact ⟨dataSkeletonBytes, dataToBeSend, protobufBytes, metas, unpickled, read, serialized,
    parsed⟩

/-- An object of arrays comes back with every buffer as an array. -/
theorem loads_dumps
    (faithful : libraries.RoundTrip)
    (dumpable : Dumpable libraries obj)
    (axes : ∀ value ∈ obj.buffers, value.asArray.shape ≠ [])
    (viewed : prepareBuffers obj = .ok arrayBuffers)
    (offsets : encodedLength libraries obj < 2 ^ 63) :
    ∃ binary,
      dumps libraries obj multiThread none = .ok binary ∧
        loads libraries binary = .ok obj.asArrays := by
  obtain ⟨dataSkeletonBytes, dataToBeSend, protobufBytes, metas, unpickled, read, serialized,
    parsed⟩ := dumpable.serialized faithful
  obtain ⟨pieces, sums⟩ := sumArrayNbytes_eq viewed
  simp only [encodedLength, metas, serialized, ← sums] at offsets
  obtain ⟨binary, region, dumped, loaded, holds, skeleton⟩ :=
    @dumps_eq_ok libraries obj multiThread dataSkeletonBytes protobufBytes dataToBeSend
      arrayBuffers metas serialized parsed viewed offsets none _ rfl (by simp)
  refine ⟨binary, dumped, loaded.trans ?_⟩
  have ends :
      sumArrayNbytes arrayBuffers =
        (alignment 0).endOf 0 (obj.buffers.map fun value => value.asArray.data.length) := by
    have lengths := congrArg (fun data => (data.map List.length).sum) pieces
    simp only [List.map_map] at lengths
    rw [alignment_zero, Placement.packed_endOf, Nat.zero_add]
    exact lengths
  rw [pieces] at holds
  exact readRegion_of_holds dumpable.payload
    (PyData.avoidsKey_of_inside false dumpable.avoids) read unpickled
    (fun value member => reduceShape_of_ne_nil (axes value member)) ends holds skeleton

theorem viewed_of_dumps
    {binary : Bytes}
    {buffer : Option Bytes}
    (dumped : dumps libraries obj multiThread buffer = .ok binary) :
    ∃ arrayBuffers,
      prepareBuffers obj = .ok arrayBuffers ∧ encodedLength libraries obj < 2 ^ 63 := by
  obtain ⟨⟨dataSkeletonBytes, dataToBeSend⟩, metas, dumped⟩ := PyResult.bind_eq_ok.mp dumped
  obtain ⟨protobufBytes, serialized, dumped⟩ := PyResult.bind_eq_ok.mp dumped
  obtain ⟨arrayBuffers, viewed, dumped⟩ := PyResult.bind_eq_ok.mp dumped
  obtain ⟨memory, -, dumped⟩ := PyResult.bind_eq_ok.mp dumped
  obtain ⟨contentEndBytes, -, dumped⟩ := PyResult.bind_eq_ok.mp dumped
  obtain ⟨first, -, dumped⟩ := PyResult.bind_eq_ok.mp dumped
  obtain ⟨metaEndBytes, metaEndWritten, -⟩ := PyResult.bind_eq_ok.mp dumped
  obtain ⟨-, -, small⟩ := readInt64_int64Bytes metaEndWritten
  refine ⟨arrayBuffers, viewed, ?_⟩
  simp only [encodedLength, metas, serialized, ← (sumArrayNbytes_eq viewed).2]
  exact small

theorem isArrayWithAxes_iff
    {value : Buffer} :
    value.isArrayWithAxes = true ↔ value.asArray.shape ≠ [] ∧ Buffer.ndarray value.asArray = value := by
  cases value with
  | ndarray arr =>
      simp [Buffer.isArrayWithAxes, Buffer.asArray]
  | bytes data =>
      simp [Buffer.isArrayWithAxes]
  | arrayBuffer buffer =>
      simp [Buffer.isArrayWithAxes]

/-- Only arrays with axes come back as they were. -/
theorem readsBack_of_loadsWhatIsDumped
    (faithful : libraries.RoundTrip)
    (dumpable : Dumpable libraries obj)
    (returns : LoadsWhatIsDumped libraries obj multiThread) :
    ReadsBack libraries obj := by
  obtain ⟨binary, dumped, loaded⟩ := returns
  obtain ⟨arrayBuffers, viewed, offsets⟩ := viewed_of_dumps dumped
  obtain ⟨dataSkeletonBytes, dataToBeSend, protobufBytes, metas, unpickled, read, serialized,
    parsed⟩ := dumpable.serialized faithful
  have sums := (sumArrayNbytes_eq viewed).2
  have fits := offsets
  simp only [encodedLength, metas, serialized, ← sums] at fits
  obtain ⟨other, region, otherDumped, otherLoaded, -⟩ :=
    @dumps_eq_ok libraries obj multiThread dataSkeletonBytes protobufBytes dataToBeSend
      arrayBuffers metas serialized parsed viewed fits none _ rfl (by simp)
  obtain rfl : other = binary := Except.ok.inj (otherDumped.symm.trans dumped)
  have counted := counted_of_readRegion read (otherLoaded.symm.trans loaded)
  have axes : ∀ value ∈ obj.buffers, value.asArray.shape ≠ [] := by
    intro value member empty
    obtain ⟨items, product⟩ := counted value member
    rw [empty] at product
    cases product
  obtain ⟨again, againDumped, againLoaded⟩ :=
    @loads_dumps libraries obj multiThread arrayBuffers faithful dumpable axes viewed offsets
  obtain rfl : again = other := Except.ok.inj (againDumped.symm.trans dumped)
  have same : obj.asArrays = obj := Except.ok.inj (againLoaded.symm.trans loaded)
  refine ⟨?_, offsets⟩
  intro value member
  exact isArrayWithAxes_iff.mpr
    ⟨axes value member, (PyData.mapBuffers_eq_self_iff _ obj).mp same value member⟩

/-- Arrays with axes come back as they were. -/
theorem loadsWhatIsDumped_of_readsBack
    (faithful : libraries.RoundTrip)
    (dumpable : Dumpable libraries obj)
    (readsBack : ReadsBack libraries obj) :
    LoadsWhatIsDumped libraries obj multiThread := by
  have viewable : ∀ value ∈ obj.buffers, value.isViewable = true := by
    intro value member
    have axes := readsBack.arrays value member
    cases value with
    | ndarray arr =>
        have some_ : arr.shape ≠ [] := by
          simpa only [Buffer.isArrayWithAxes, decide_eq_true_eq] using axes
        simp [Buffer.isViewable, some_]
    | bytes data =>
        rfl
    | arrayBuffer buffer =>
        rfl
  obtain ⟨arrayBuffers, viewed⟩ := mapM_toArrayBuffer_of_isViewable viewable
  have extracted : (extractArraysFromData obj "").1 = obj.buffers :=
    extractArrays_fst "" obj []
  have prepared : prepareBuffers obj = .ok arrayBuffers := by
    rw [prepareBuffers, extracted]
    exact viewed
  obtain ⟨binary, dumped, loaded⟩ :=
    @loads_dumps libraries obj multiThread arrayBuffers faithful dumpable
      (fun value member => (isArrayWithAxes_iff.mp (readsBack.arrays value member)).1) prepared
      readsBack.offsets
  have same : obj.asArrays = obj :=
    (PyData.mapBuffers_eq_self_iff _ obj).mpr fun value member =>
      (isArrayWithAxes_iff.mp (readsBack.arrays value member)).2
  exact ⟨binary, dumped, loaded.trans (congrArg Except.ok same)⟩

end RoundTrip

/--
What is dumped is loaded again exactly when all buffers are arrays with axes and the
offsets fit their header.
-/
theorem loadsWhatIsDumped_iff
    (libraries : BufferLibraries)
    (obj : PyData)
    (multiThread : Bool)
    (faithful : libraries.RoundTrip)
    (dumpable : Dumpable libraries obj) :
    LoadsWhatIsDumped libraries obj multiThread ↔ ReadsBack libraries obj :=
  ⟨readsBack_of_loadsWhatIsDumped faithful dumpable,
    loadsWhatIsDumped_of_readsBack faithful dumpable⟩

/-! ## A byte in an array, and as bytes -/

/-- The pickled `[Placeholder(0, 1)]`. -/
def listedPlaceholderPickle : Bytes :=
  [128, 4, 149, 90, 0, 0, 0, 0, 0, 0, 0, 93, 148, 140, 21, 116, 101, 110, 115, 111, 114, 112,
    99, 46, 99, 111, 114, 101, 46, 99, 111, 114, 101, 95, 105, 111, 148, 140, 11, 80, 108, 97, 99,
    101, 104, 111, 108, 100, 101, 114, 148, 147, 148, 41, 129, 148, 125, 148, 40, 140, 5, 105,
    110, 100, 101, 120, 148, 75, 0, 140, 6, 110, 98, 121, 116, 101, 115, 148, 75, 1, 140, 4, 102,
    108, 97, 103, 148, 75, 1, 140, 4, 100, 97, 116, 97, 148, 78, 117, 98, 97, 46]

/-- The pickled `Placeholder(0, 1)`. -/
def rootPlaceholderPickle : Bytes :=
  [128, 4, 149, 87, 0, 0, 0, 0, 0, 0, 0, 140, 21, 116, 101, 110, 115, 111, 114, 112, 99, 46, 99,
    111, 114, 101, 46, 99, 111, 114, 101, 95, 105, 111, 148, 140, 11, 80, 108, 97, 99, 101, 104,
    111, 108, 100, 101, 114, 148, 147, 148, 41, 129, 148, 125, 148, 40, 140, 5, 105, 110, 100,
    101, 120, 148, 75, 0, 140, 6, 110, 98, 121, 116, 101, 115, 148, 75, 1, 140, 4, 102, 108, 97,
    103, 148, 75, 1, 140, 4, 100, 97, 116, 97, 148, 78, 117, 98, 46]

/-- Pickle on the two skeletons. -/
def byteSkeletonPickle : Serializer where
  dumps
    | .list [.placeholder 0 1 1 (.scalar .none)] => .ok listedPlaceholderPickle
    | .placeholder 0 1 1 (.scalar .none) => .ok rootPlaceholderPickle
    | _ => .error (.typeError "cannot pickle")
  loads bytes :=
    if bytes = listedPlaceholderPickle then
      .ok (.list [.placeholder 0 1 1 .none])
    else if bytes = rootPlaceholderPickle then
      .ok (.placeholder 0 1 1 .none)
    else
      .error (.valueError "could not unpickle")
  accepts data :=
    data = .list [.placeholder 0 1 1 .none] ∨ data = .placeholder 0 1 1 .none

/-- The metadata of an array of one byte and its skeleton. -/
def arrayMetas : List PbNdarray :=
  [{ shape := [1], dtype := { type := .uint8, byteOrder := .na }, data := [] },
    { shape := [101], dtype := { type := .customBytes }, data := [] }]

/-- The metadata of one byte and its skeleton. -/
def bytesMetas : List PbNdarray :=
  [{ shape := [1], dtype := { type := .customBytes }, data := [] },
    { shape := [98], dtype := { type := .customBytes }, data := [] }]

/-- The serialized `arrayMetas`. -/
def arrayMetasMessage : Bytes :=
  [10, 9, 10, 1, 1, 18, 4, 8, 6, 16, 3, 10, 7, 10, 1, 101, 18, 2, 8, 12]

/-- The serialized `bytesMetas`. -/
def bytesMetasMessage : Bytes :=
  [10, 7, 10, 1, 1, 18, 2, 8, 12, 10, 7, 10, 1, 98, 18, 2, 8, 12]

/-- Protobuf on the two lists. -/
def byteReplyCodec : ReplyCodec where
  serializeToString arrays :=
    if arrays = arrayMetas then
      .ok arrayMetasMessage
    else if arrays = bytesMetas then
      .ok bytesMetasMessage
    else
      .error (.valueError "Failed to serialize proto")
  parseFromString bytes :=
    if bytes = arrayMetasMessage then
      .ok arrayMetas
    else if bytes = bytesMetasMessage then
      .ok bytesMetas
    else
      .error (.valueError "Error parsing message")
  accepts arrays := arrays = arrayMetas ∨ arrays = bytesMetas

/-- Both libraries. -/
def byteLibraries : BufferLibraries where
  pickle := byteSkeletonPickle
  reply := byteReplyCodec

theorem byteLibraries_roundTrip : byteLibraries.RoundTrip where
  pickle := by
    have different : rootPlaceholderPickle ≠ listedPlaceholderPickle := by
      intro same
      exact absurd (congrArg List.length same) (by decide +kernel)
    rintro data (rfl | rfl)
    · refine ⟨listedPlaceholderPickle, rfl, ?_⟩
      simp [byteLibraries, byteSkeletonPickle]
    · refine ⟨rootPlaceholderPickle, rfl, ?_⟩
      simp [byteLibraries, byteSkeletonPickle, different]
  reply := by
    rintro arrays (rfl | rfl)
    · exact ⟨arrayMetasMessage, by decide, by decide⟩
    · exact ⟨bytesMetasMessage, by decide, by decide⟩

/-- A list of an array with one byte. -/
def listedByteArray : PyData :=
  .list [.buffer (.ndarray { dtype := .uint8, shape := [1], data := [7], size_eq := rfl })]

/-- One byte as bytes. -/
def oneByte : PyData :=
  .buffer (.bytes [7])

theorem prepareMetas_listedByteArray :
    prepareMetas byteLibraries.pickle listedByteArray =
      .ok (listedPlaceholderPickle, arrayMetas) := by
  have skeleton :
      (extractArraysFromData listedByteArray "").2 = .list [.placeholder 0 1 1 .none] := by
    simp [listedByteArray, extractArraysFromData, extractArrays, extractArraysList, arrayMarker,
      Buffer.byteSize, arrayFlag]
  have arrays : (extractArraysFromData listedByteArray "").1 = listedByteArray.buffers :=
    extractArrays_fst "" listedByteArray []
  simp only [prepareMetas, skeleton, arrays]
  simp [listedByteArray, PyData.buffers, PyData.buffersList]
  rfl

theorem prepareMetas_oneByte :
    prepareMetas byteLibraries.pickle oneByte = .ok (rootPlaceholderPickle, bytesMetas) := by
  have skeleton :
      (extractArraysFromData oneByte "").2 = .placeholder 0 1 1 .none := by
    simp [oneByte, extractArraysFromData, extractArrays, arrayMarker, Buffer.byteSize, arrayFlag]
  have arrays : (extractArraysFromData oneByte "").1 = oneByte.buffers :=
    extractArrays_fst "" oneByte []
  simp only [prepareMetas, skeleton, arrays]
  simp [oneByte, PyData.buffers]
  rfl

theorem dumpable_listedByteArray : Dumpable byteLibraries listedByteArray where
  payload := by
    simp [listedByteArray, PyData.isPayload, PyData.isPayloadList, Buffer.isSupported]
    rfl
  avoids := by
    simp [listedByteArray, PyData.avoidsKey, PyData.avoidsKeyList]
  skeleton := by
    refine .inl ?_
    simp [listedByteArray, extractArraysFromData, extractArrays, extractArraysList, arrayMarker,
      Buffer.byteSize, arrayFlag]
  metas := by
    intro dataSkeletonBytes dataToBeSend prepared
    rw [prepareMetas_listedByteArray] at prepared
    cases prepared
    exact .inl rfl

theorem dumpable_oneByte : Dumpable byteLibraries oneByte where
  payload := by
    simp [oneByte, PyData.isPayload, Buffer.isSupported]
  avoids := by
    simp [oneByte, PyData.avoidsKey]
  skeleton := by
    refine .inr ?_
    simp [oneByte, extractArraysFromData, extractArrays, arrayMarker, Buffer.byteSize, arrayFlag]
  metas := by
    intro dataSkeletonBytes dataToBeSend prepared
    rw [prepareMetas_oneByte] at prepared
    cases prepared
    exact .inr rfl

/-- An array of one byte comes back, as it has an axis. -/
theorem loadsWhatIsDumped_iff_sample :
    LoadsWhatIsDumped byteLibraries listedByteArray false ↔
      ReadsBack byteLibraries listedByteArray :=
  loadsWhatIsDumped_iff _ _ _ byteLibraries_roundTrip dumpable_listedByteArray

/-- Bytes come back as an array. -/
theorem not_loadsWhatIsDumped :
    byteLibraries.RoundTrip ∧
      Dumpable byteLibraries oneByte ∧
      ¬ LoadsWhatIsDumped byteLibraries oneByte false := by
  refine ⟨byteLibraries_roundTrip, dumpable_oneByte, fun returns => ?_⟩
  have readsBack :=
    readsBack_of_loadsWhatIsDumped byteLibraries_roundTrip dumpable_oneByte returns
  have axes := readsBack.arrays (.bytes [7]) (by simp [oneByte, PyData.buffers])
  cases axes

end TensorPC.Rpc
