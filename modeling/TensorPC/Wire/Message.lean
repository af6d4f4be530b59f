import TensorPC.Wire.Payload

namespace TensorPC.Wire

/-!
# WebSocket messages

A message is one binary when it fits into `chunk_size`, and otherwise a header
binary followed by chunk binaries that carry the array bytes back to back.
`SocketMessageEncoder` writes both layouts; `parse_message_chunks` and
`parse_array_of_chunked_message` read them.

JSON, msgpack and protobuf are third-party formats, so their functions are the
fields of `WireCodec`.
-/

/-- The protobuf message `Header` of `wsdef.proto`. -/
structure Header where
  serviceId : UInt32
  chunkIndex : UInt32
  rpcId : UInt64
  data : String
  serviceKey : String
  dynamicKey : String
  deriving Repr, DecidableEq

/-- The serializers the message code relies on. -/
structure WireCodec where
  /-- `json.dumps` -/
  dumps : Json → String
  /-- `json.loads` -/
  loads : String → PyResult Json
  /-- `msgpack.packb` -/
  packb : Json → Bytes
  /-- `Header.SerializeToString` -/
  serializeToString : Header → Bytes
  /-- `Header.ParseFromString` -/
  parseFromString : Bytes → PyResult Header

/-- `Header.ByteSize`. -/
def WireCodec.byteSize
    (codec : WireCodec)
    (header : Header) :
    Nat :=
  (codec.serializeToString header).length

/-- `SocketMsgType`. -/
inductive SocketMsgType where
  | subscribe
  | unSubscribe
  | rpc
  | event
  | chunk
  | queryServiceIds
  | notification
  | eventChunk
  | headerChunk
  | ping
  | pong
  | resetLargeDataClient
  | eventError
  | rpcError
  | userError
  | subscribeError
  | onConnectError
  | errorMask
  deriving Repr, DecidableEq

namespace SocketMsgType

/-- `SocketMsgType.value`, the first byte of every binary. -/
def value : SocketMsgType → UInt8
  | subscribe => 0x01
  | unSubscribe => 0x02
  | rpc => 0x03
  | event => 0x04
  | chunk => 0x05
  | queryServiceIds => 0x06
  | notification => 0x07
  | eventChunk => 0x08
  | headerChunk => 0x09
  | ping => 0x0a
  | pong => 0x0b
  | resetLargeDataClient => 0x0c
  | eventError => 0x10
  | rpcError => 0x20
  | userError => 0x30
  | subscribeError => 0x40
  | onConnectError => 0x50
  | errorMask => 0xF0

/-- `SocketMsgType(value)`. -/
def ofValue (byte : UInt8) : PyResult SocketMsgType :=
  match
    [subscribe, unSubscribe, rpc, event, chunk, queryServiceIds, notification,
      eventChunk, headerChunk, ping, pong, resetLargeDataClient, eventError,
      rpcError, userError, subscribeError, onConnectError,
      errorMask].find? (fun type => type.value = byte) with
  | some type =>
      .ok type
  | none =>
      .error (.valueError "not a valid SocketMsgType")

/-- Every message type is recovered from its byte. -/
@[simp] theorem ofValue_value
    (type : SocketMsgType) :
    ofValue type.value = .ok type := by
  cases type <;> rfl

/-- The type byte of the chunks that follow a chunked header. -/
def chunkType : SocketMsgType → SocketMsgType
  | event => eventChunk
  | _ => chunk

end SocketMsgType

/-! ## Bytes of a binary -/

/-- `np.array([size], np.int32).tobytes()`; a larger size does not fit. -/
def int32Bytes (size : Nat) : PyResult Bytes :=
  if size < 2 ^ 31 then
    .ok
      [UInt8.ofNat size, UInt8.ofNat (size / 2 ^ 8),
        UInt8.ofNat (size / 2 ^ 16), UInt8.ofNat (size / 2 ^ 24)]
  else
    .error .overflowError

/-- `np.frombuffer(binary[1:5], dtype=np.int32)[0]`, for a size that was written. -/
def readInt32 : Bytes → PyResult Nat
  | [first, second, third, fourth] =>
      .ok
        (first.toNat + second.toNat * 2 ^ 8 + third.toNat * 2 ^ 16 +
          fourth.toNat * 2 ^ 24)
  | _ => .error (.valueError "buffer size must be a multiple of element size")

/-- The slice `buffer[start:stop]`. -/
def slice
    (buffer : Bytes)
    (start stop : Nat) :
    Bytes :=
  (buffer.drop start).take (stop - start)

/-- The slice assignment `buffer[start:stop] = values` of a `bytearray`. -/
def setSlice
    (buffer : Bytes)
    (start stop : Nat)
    (values : Bytes) :
    Bytes :=
  buffer.take start ++ values ++ buffer.drop stop

theorem readInt32_int32Bytes
    {size : Nat}
    {bytes : Bytes}
    (written : int32Bytes size = .ok bytes) :
    readInt32 bytes = .ok size := by
  unfold int32Bytes at written
  split at written
  · rename_i small
    obtain rfl := Except.ok.inj written
    simp only [readInt32, UInt8.toNat_ofNat', Except.ok.injEq]
    omega
  · cases written

theorem int32Bytes_length
    {size : Nat}
    {bytes : Bytes}
    (written : int32Bytes size = .ok bytes) :
    bytes.length = 4 := by
  unfold int32Bytes at written
  split at written
  · obtain rfl := Except.ok.inj written
    rfl
  · cases written

/--
The first bytes of every binary: the type byte, the header length and the
serialized header, followed by the rest of the binary.
-/
def frame
    (codec : WireCodec)
    (type : SocketMsgType)
    (header : Header)
    (rest : Bytes) :
    PyResult Bytes := do
  let size ← int32Bytes (codec.byteSize header)
  .ok (type.value :: size ++ codec.serializeToString header ++ rest)

/-! ## Encoder -/

/-- The fields of a constructed `SocketMessageEncoder`. -/
structure SocketMessageEncoder where
  arrays : List Binary
  dataSkeleton : Json
  flags : Int
  totalSize : Nat
  arrMetadata : List (Int × List Nat)

namespace SocketMessageEncoder

/-- One `(dtype code, shape)` entry as JSON. -/
def metadataJson (entry : Int × List Nat) : Json :=
  .list [.int entry.1, .list (entry.2.map fun size : Nat => .int size)]

/-- `get_skeleton`: `[self._flags, self._arr_metadata, self.data_skeleton]`. -/
def getSkeleton (encoder : SocketMessageEncoder) : Json :=
  .list
    [.int encoder.flags,
      .list (encoder.arrMetadata.map metadataJson),
      encoder.dataSkeleton]

/-- `_ser_skeleton`: the JSON text of the skeleton. -/
def serSkeleton
    (codec : WireCodec)
    (encoder : SocketMessageEncoder) :
    String :=
  codec.dumps encoder.getSkeleton

/-- The encoder state after the arrays have been extracted and measured. -/
def extract (payload : Payload) : SocketMessageEncoder :=
  let (arrays, skeleton) := extractArrays payload []
  { arrays := arrays
    dataSkeleton := skeleton
    -- `NEED_SCAN` is set as soon as some array was extracted
    flags := if arrays.isEmpty then 0 else 1
    totalSize := (arrays.map Binary.byteSize).sum
    arrMetadata := arrays.map Binary.metadata }

/--
`SocketMessageEncoder.__init__`.  A skeleton whose text is longer than the
limit moves into one more array, packed by msgpack.
-/
def init
    (codec : WireCodec)
    (payload : Payload)
    (skeletonSizeLimit : Nat) :
    SocketMessageEncoder :=
  let encoder := extract payload
  if skeletonSizeLimit < (encoder.serSkeleton codec).length then
    let packed := codec.packb encoder.dataSkeleton
    { arrays := encoder.arrays ++ [.bytes packed]
      dataSkeleton := .obj []
      flags := encoder.flags
      totalSize := encoder.totalSize + packed.length
      arrMetadata :=
        encoder.arrMetadata ++ [(bytesSkeletonCode, [packed.length])] }
  else
    encoder

end SocketMessageEncoder

/-- Assigning a Python integer to a `fixed32` field. -/
def fixed32 (value : Nat) : PyResult UInt32 :=
  if value < 2 ^ 32 then
    .ok (UInt32.ofNat value)
  else
    .error (.valueError "Value out of range")

/-- Assigning a Python integer to a `fixed64` field. -/
def fixed64 (value : Nat) : PyResult UInt64 :=
  if value < 2 ^ 64 then
    .ok (UInt64.ofNat value)
  else
    .error (.valueError "Value out of range")

/-- `encode_protobuf_uint`: zero is not written by protobuf, so shift by one. -/
def encodeProtobufUint (value : Nat) : Nat :=
  value + 1

/-- `_div_up`. -/
def divUp (total size : Nat) : Nat :=
  (total + size - 1) / size

/-- The variables of the chunk loop of `get_message_chunks`. -/
structure ChunkState where
  yielded : List Bytes
  chunk : Bytes
  chunkIdx : Nat
  start : Nat
  remainMsgSize : Nat
  chunkRemainSize : Nat

/-- The fixed parameters of the chunk loop. -/
structure ChunkConfig where
  codec : WireCodec
  type : SocketMsgType
  chunkHeader : Header
  headerMsgSize : Nat
  numChunks : Nat
  chunkSize : Nat

namespace ChunkConfig

/-- A `bytearray(size)` with the type byte, header length and header filled in. -/
def newChunk
    (config : ChunkConfig)
    (size chunkIdx : Nat) :
    PyResult Bytes := do
  let length ← int32Bytes config.headerMsgSize
  let index ← fixed32 (encodeProtobufUint chunkIdx)
  let header := { config.chunkHeader with chunkIndex := index }
  let chunk := List.replicate size 0
  let chunk := setSlice chunk 0 1 [config.type.chunkType.value]
  let chunk := setSlice chunk 1 5 length
  .ok
    (setSlice chunk 5 (config.headerMsgSize + 5)
      (config.codec.serializeToString header))

/-- What follows a copy: a full chunk is yielded and the next one is begun. -/
def finishChunk
    (config : ChunkConfig)
    (state : ChunkState) :
    PyResult ChunkState :=
  if state.chunkRemainSize = 0 then
    let yielded := state.yielded ++ [state.chunk]
    let chunkIdx := state.chunkIdx + 1
    if chunkIdx ≠ config.numChunks then do
      let remainMsgSize := state.remainMsgSize - config.chunkSize
      let size := min remainMsgSize config.chunkSize
      let chunk ← config.newChunk size chunkIdx
      .ok
        { yielded := yielded
          chunk := chunk
          chunkIdx := chunkIdx
          start := config.headerMsgSize + 5
          remainMsgSize := remainMsgSize
          chunkRemainSize := size - config.headerMsgSize - 5 }
    else
      .ok { state with yielded := yielded, chunkIdx := chunkIdx }
  else
    .ok state

/--
`while size > 0` over the bytes of one array.  Every iteration with room left
in the chunk copies at least one byte, so the array's size bounds the loop; an
iteration without room repeats forever.
-/
def copyArray
    (config : ChunkConfig) :
    Nat → Bytes → ChunkState → PyResult ChunkState
  | _, [], state => .ok state
  | 0, _ :: _, _ => .error .nonTermination
  | fuel + 1, memview, state => do
      let serSize := min memview.length state.chunkRemainSize
      let state :=
        { state with
          chunk :=
            setSlice state.chunk state.start (state.start + serSize)
              (memview.take serSize)
          start := state.start + serSize
          chunkRemainSize := state.chunkRemainSize - serSize }
      let state ← config.finishChunk state
      config.copyArray fuel (memview.drop serSize) state

/-- `for arr in self.arrays` of the chunk loop. -/
def copyArrays
    (config : ChunkConfig) :
    List Binary → ChunkState → PyResult ChunkState
  | [], state => .ok state
  | leaf :: rest, state => do
      let state ← config.copyArray leaf.byteSize leaf.data state
      config.copyArrays rest state

end ChunkConfig

namespace SocketMessageEncoder

/-- The chunk binaries that follow a chunked header binary. -/
def chunkBinaries
    (codec : WireCodec)
    (encoder : SocketMessageEncoder)
    (type : SocketMsgType)
    (chunkHeader : Header)
    (numChunks chunkSize : Nat) :
    PyResult (List Bytes) := do
  let headerMsgSize := codec.byteSize chunkHeader
  let config : ChunkConfig :=
    { codec := codec
      type := type
      chunkHeader := chunkHeader
      headerMsgSize := headerMsgSize
      numChunks := numChunks
      chunkSize := chunkSize }
  let chunk ← config.newChunk chunkSize 0
  let remainMsgSize := numChunks * (headerMsgSize + 5) + encoder.totalSize
  let state ←
    config.copyArrays encoder.arrays
      { yielded := []
        chunk := chunk
        chunkIdx := 0
        start := headerMsgSize + 5
        remainMsgSize := remainMsgSize
        chunkRemainSize := min remainMsgSize chunkSize - headerMsgSize - 5 }
  .ok state.yielded

/-- `get_message_chunks`: the binaries it yields, in order. -/
def getMessageChunks
    (codec : WireCodec)
    (encoder : SocketMessageEncoder)
    (type : SocketMsgType)
    (req : Header)
    (chunkSize : Nat) :
    PyResult (List Bytes) := do
  let req := { req with data := encoder.serSkeleton codec }
  let reqMsgSize := codec.byteSize req
  if 5 + reqMsgSize + encoder.totalSize < chunkSize then
    let binary ←
      frame codec type req (encoder.arrays.flatMap Binary.data)
    .ok [binary]
  else
    pyAssert (decide (reqMsgSize + 5 ≤ chunkSize))
      "req size must smaller than chunk size"
    let serviceId ← fixed32 (encodeProtobufUint req.serviceId.toNat)
    let chunkIndex ← fixed32 (encodeProtobufUint 0)
    let rpcId ← fixed64 (encodeProtobufUint req.rpcId.toNat)
    let chunkHeader : Header :=
      { serviceId := serviceId
        chunkIndex := chunkIndex
        rpcId := rpcId
        data := ""
        serviceKey := ""
        dynamicKey := "" }
    let chunkSizeForArr := chunkSize - codec.byteSize chunkHeader - 5
    pyAssert (decide (0 < chunkSizeForArr)) ""
    let numChunks := divUp encoder.totalSize chunkSizeForArr
    let index ← fixed32 numChunks
    let headerBinary ← frame codec type { req with chunkIndex := index } []
    let chunks ←
      encoder.chunkBinaries codec type chunkHeader numChunks chunkSize
    .ok (headerBinary :: chunks)

end SocketMessageEncoder

/-! ## Decoder -/

/-- A parsed `TensoRPCHeader`. -/
structure TensoRPCHeader where
  reqLength : Nat
  type : SocketMsgType
  req : Header

/-- `TensoRPCHeader.__init__`. -/
def TensoRPCHeader.init
    (codec : WireCodec)
    (binary : Bytes) :
    PyResult TensoRPCHeader := do
  let reqLength ← readInt32 (slice binary 1 5)
  let req ← codec.parseFromString (slice binary 5 (reqLength + 5))
  match binary with
  | [] =>
      .error .indexError
  | byte :: _ => do
      let type ← SocketMsgType.ofValue byte
      .ok { reqLength := reqLength, type := type, req := req }

/-- The two-name unpacking `meta, skeleton = value` of a JSON value. -/
def unpackTwo : Json → PyResult (Json × Json)
  | .list [first, second] => .ok (first, second)
  | .list [] =>
      .error (.valueError "not enough values to unpack (expected 2, got 0)")
  | .list [_] =>
      .error (.valueError "not enough values to unpack (expected 2, got 1)")
  | .list _ =>
      .error (.valueError "too many values to unpack (expected 2)")
  | .obj [(first, _), (second, _)] => .ok (.str first, .str second)
  | .obj _ => .error (.valueError "wrong number of keys to unpack")
  | .str text =>
      match text.toList with
      | [first, second] => .ok (.str first.toString, .str second.toString)
      | _ => .error (.valueError "wrong number of characters to unpack")
  | _ => .error (.typeError "cannot unpack non-iterable object")

/-- Iterating over a decoded JSON list. -/
def jsonItems : Json → PyResult (List Json)
  | .list items => .ok items
  | _ => .error (.typeError "object is not iterable as a list")

/-- The sizes of a decoded shape. -/
def shapeSizes : List Json → PyResult (List Nat)
  | [] => .ok []
  | .int size :: rest => do
      let rest ← shapeSizes rest
      .ok (size.toNat :: rest)
  | _ => .error (.typeError "shape entries must be integers")

/-- One `dtype_jarr, shape` entry of the decoded metadata. -/
def metadataEntry (entry : Json) : PyResult (Int × List Nat) := do
  let (code, shape) ← unpackTwo entry
  let items ← jsonItems shape
  let sizes ← shapeSizes items
  match code with
  | .int code => .ok (code, sizes)
  | _ => .error (.typeError "unhashable or unknown dtype code")

/-- `dtype_jarr == BYTES_JSONARRAY_CODE or ... ARRAYBUFFER_CODE`. -/
def isBytesCode (code : Int) : Bool :=
  code = bytesJsonArrayCode || code = bytesJsonArrayArrayBufferCode

/-- The number of bytes the metadata announces; `shape[0]` must exist. -/
def announcedSize
    (code : Int)
    (shape : List Nat) :
    PyResult Nat :=
  match shape with
  | [] => .error .indexError
  | first :: rest =>
      if isBytesCode code then
        .ok first
      else do
        let dtype ← NpDtype.ofJsonCode code
        .ok (rest.foldl (· * ·) (first * dtype.itemsize))

/-- The leaf rebuilt from its metadata and its bytes. -/
def rebuildLeaf
    (code : Int)
    (shape : List Nat)
    (data : Bytes) :
    PyResult Binary :=
  if isBytesCode code then
    .ok (.bytes data)
  else do
    let dtype ← NpDtype.ofJsonCode code
    if sizes : data.length = dtype.itemsize * shape.prod then
      .ok (.ndarray ⟨dtype, shape, data, sizes⟩)
    else
      .error (.valueError "cannot reshape array")

/-- The array loop of `parse_message_chunks` for an unchunked message. -/
def parseArrays
    (dataArr : Bytes) :
    Nat → List Json → PyResult (List Binary)
  | _, [] => .ok []
  | start, entry :: rest => do
      let (code, shape) ← metadataEntry entry
      let size ← announcedSize code shape
      let leaf ← rebuildLeaf code shape (slice dataArr start (start + size))
      let leaves ← parseArrays dataArr (start + size) rest
      .ok (leaf :: leaves)

/-- The reader position in the chunk list. -/
structure ReadState where
  curChunk : Bytes
  curChunkStart : Nat
  chunkSize : Nat
  later : List Bytes

/-- Position the reader behind the header of a chunk. -/
def ReadState.enter
    (chunk : Bytes)
    (later : List Bytes) :
    PyResult ReadState := do
  let headerLength ← readInt32 (slice chunk 1 5)
  .ok
    { curChunk := chunk
      curChunkStart := 5 + headerLength
      chunkSize := chunk.length - 5 - headerLength
      later := later }

/-- `while size > 0` of `parse_array_of_chunked_message`: collect one array. -/
def readArray :
    Nat → Nat → ReadState → PyResult (Bytes × ReadState)
  | _, 0, state => .ok ([], state)
  | 0, _ + 1, _ => .error .nonTermination
  | fuel + 1, size, state => do
      let serSize := min size state.chunkSize
      let copied :=
        slice state.curChunk state.curChunkStart (state.curChunkStart + serSize)
      let state :=
        { state with
          chunkSize := state.chunkSize - serSize
          curChunkStart := state.curChunkStart + serSize }
      let state ←
        match state.chunkSize, state.later with
        | 0, next :: later => ReadState.enter next later
        | _, _ => .ok state
      let (rest, state) ← readArray fuel (size - serSize) state
      .ok (copied ++ rest, state)

/-- The array loop of `parse_array_of_chunked_message`. -/
def readArrays :
    List Json → ReadState → PyResult (List Binary)
  | [], _ => .ok []
  | entry :: rest, state => do
      let (code, shape) ← metadataEntry entry
      let size ← announcedSize code shape
      let (data, state) ← readArray size size state
      let leaf ← rebuildLeaf code shape data
      let leaves ← readArrays rest state
      .ok (leaf :: leaves)

/-- `parse_array_of_chunked_message`. -/
def parseArrayOfChunkedMessage
    (codec : WireCodec)
    (req : Header)
    (chunks : List Bytes) :
    PyResult Payload := do
  pyAssert (decide (0 < req.chunkIndex.toNat))
    "chunked message req must have chunk_index > 0"
  let decoded ← codec.loads req.data
  let (metadata, skeleton) ← unpackTwo decoded
  pyAssert (decide (req.chunkIndex.toNat = chunks.length)) ""
  match chunks with
  | [] => .error .indexError
  | first :: later => do
      let state ← ReadState.enter first later
      let entries ← jsonItems metadata
      let arrays ← readArrays entries state
      putArrays arrays skeleton

/-- `parse_message_chunks`. -/
def parseMessageChunks
    (codec : WireCodec)
    (header : TensoRPCHeader)
    (chunks : List Bytes) :
    PyResult Payload := do
  let decoded ← codec.loads header.req.data
  let (metadata, skeleton) ← unpackTwo decoded
  if header.req.chunkIndex = 0 then
    match chunks with
    | [] => .error .indexError
    | first :: _ => do
        let dataArr := first.drop (header.reqLength + 5)
        let entries ← jsonItems metadata
        let arrays ← parseArrays dataArr 0 entries
        putArrays arrays skeleton
  else
    parseArrayOfChunkedMessage codec header.req chunks

/--
The receiver: the first binary's header decides which decoder reads the
message, as `WebsocketClient._loop` does for events and replies.
-/
def decodeMessage
    (codec : WireCodec)
    (binaries : List Bytes) :
    PyResult Payload :=
  match binaries with
  | [] => .error .indexError
  | first :: rest => do
      let header ← TensoRPCHeader.init codec first
      if header.req.chunkIndex = 0 then
        parseMessageChunks codec header [first]
      else
        parseArrayOfChunkedMessage codec header.req rest

end TensorPC.Wire
