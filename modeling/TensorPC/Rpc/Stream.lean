import TensorPC.Py.Slice
import TensorPC.Rpc.ArrayBuf

namespace TensorPC.Rpc

/-!
# Chunked streams of arguments

`to_protobuf_stream_gen` cuts every argument of a message into chunks, and one
`FromBufferStream` on the other side puts them together again.
-/

open Wire (Bytes)

/-! ## The sender -/

/-- `rpc_message_pb2.RemoteCallStream`. -/
structure RemoteCallStream where
  numChunk : Nat
  chunkId : Nat
  numArgs : Nat
  argId : Nat
  flags : Int64
  dtype : PbDtype
  chunkedData : Bytes
  funcKey : String
  shape : List Nat
  deriving DecidableEq

/-- Values from here on do not fit an `int32` field. -/
def int32Bound : Nat :=
  2 ^ 31

/-- What a generator yields, and the exception that ends it, if any. -/
structure Generated (α : Type) where
  yielded : List α
  raised : Option PyError
  deriving DecidableEq

namespace Generated

variable {α : Type}

/-- A generator that ends without a value. -/
def empty : Generated α where
  yielded := []
  raised := none

/-- A generator that raises at once. -/
def raise (raised : PyError) : Generated α where
  yielded := []
  raised := some raised

/-- `yield value`. -/
def yield (value : α) : Generated α where
  yielded := [value]
  raised := none

/-- The rest of a generator runs only when its beginning has not raised. -/
def andThen (first next : Generated α) : Generated α :=
  match first.raised with
  | some _ => first
  | none => { next with yielded := first.yielded ++ next.yielded }

/-- A loop of a generator over a list. -/
def forEach
    {β : Type}
    (body : β → Generated α) :
    List β → Generated α
  | [] => empty
  | item :: rest => (body item).andThen (forEach body rest)

theorem forEach_yield
    {β : Type}
    {body : β → Generated α}
    {value : β → α}
    (items : List β)
    (yields : ∀ item ∈ items, body item = yield (value item)) :
    forEach body items = { yielded := items.map value, raised := none } := by
  induction items with
  | nil =>
      rfl
  | cons item rest inductionHypothesis =>
      have remaining :=
        inductionHypothesis fun other member =>
          yields other (List.mem_cons_of_mem _ member)
      simp [forEach, yields item List.mem_cons_self, remaining, andThen, yield]

theorem forEach_eq
    {β : Type}
    {body : β → Generated α}
    {values : β → List α}
    (items : List β)
    (yields :
      ∀ item ∈ items, body item = { yielded := values item, raised := none }) :
    forEach body items = { yielded := items.flatMap values, raised := none } := by
  induction items with
  | nil =>
      rfl
  | cons item rest inductionHypothesis =>
      have remaining :=
        inductionHypothesis fun other member =>
          yields other (List.mem_cons_of_mem _ member)
      simp [forEach, yields item List.mem_cons_self, remaining, andThen]

end Generated

/-- `_div_up`. -/
def divUp (a b : Nat) : Nat :=
  (a + b - 1) / b

/-- What the sender reads of an argument: dtype, shape and bytes. -/
structure ArgData where
  dataDtype : PbDtype
  shape : List Nat
  dataBytes : Bytes

/-- The branches of `to_protobuf_stream_gen` on the type of an argument. -/
def Buffer.argData : Buffer → PyResult ArgData
  | .ndarray array => do
      let dtype ← array.dtype.toPb
      .ok { dataDtype := dtype, shape := array.shape, dataBytes := array.data }
  | .bytes data =>
      .ok { dataDtype := { type := .customBytes }, shape := [], dataBytes := data }
  | .arrayBuffer buffer =>
      .ok { dataDtype := { type := .base64 }, shape := [], dataBytes := buffer.data }

/-- `arg.view(np.uint8)` refuses an array without axes, unless of single bytes. -/
def Buffer.viewUint8 : Buffer → PyResult Unit
  | .ndarray array =>
      if array.shape = [] ∧ array.dtype.itemsize ≠ 1 then
        .error (.valueError "Changing the dtype of a 0d array is only supported if the itemsize is unchanged")
      else
        .ok ()
  | .bytes _ | .arrayBuffer _ => .ok ()

/-- The number of chunks of an argument; an empty argument has one. -/
def numChunks (length chunkSize : Nat) : Nat :=
  let numChunk := divUp length chunkSize
  if numChunk = 0 then 1 else numChunk

/-- One message of the stream, before protobuf checks its fields. -/
def chunkMessage
    (funcKey : String)
    (flags : Int64)
    (chunkSize numArgs argIdx : Nat)
    (data : ArgData)
    (i : Nat) :
    RemoteCallStream where
  numChunk := numChunks data.dataBytes.length chunkSize
  chunkId := i
  numArgs := numArgs
  argId := argIdx
  flags := flags
  dtype := data.dataDtype
  chunkedData := slice data.dataBytes (i * chunkSize) ((i + 1) * chunkSize)
  funcKey := funcKey
  shape := if i = 0 then data.shape else []

/-- The protobuf constructor refuses numbers that do not fit their `int32` field. -/
def yieldMessage (buf : RemoteCallStream) : Generated RemoteCallStream :=
  if buf.numChunk < int32Bound ∧ buf.chunkId < int32Bound ∧
      buf.numArgs < int32Bound ∧ buf.argId < int32Bound then
    .yield buf
  else
    .raise (.valueError "Value out of range")

/-- The chunks of one argument. -/
def streamArg
    (funcKey : String)
    (flags : Int64)
    (chunkSize numArgs : Nat)
    (indexed : Buffer × Nat) :
    Generated RemoteCallStream :=
  match indexed.1.argData with
  | .error raised => .raise raised
  | .ok data =>
      if chunkSize = 0 then
        .raise .zeroDivisionError
      else
        match indexed.1.viewUint8 with
        | .error raised => .raise raised
        | .ok () =>
            Generated.forEach
              (fun i =>
                yieldMessage
                  (chunkMessage funcKey flags chunkSize numArgs indexed.2 data i))
              (List.range (numChunks data.dataBytes.length chunkSize))

/-- `to_protobuf_stream_gen`; `arg_ids[-1] = -1` raises for an empty list. -/
def toProtobufStreamGen
    (dataList : List Buffer)
    (funcKey : String)
    (flags : Int64)
    (chunkSize : Nat) :
    Generated RemoteCallStream :=
  if dataList = [] then
    .raise .indexError
  else
    Generated.forEach (streamArg funcKey flags chunkSize dataList.length)
      dataList.zipIdx

/-! ## The receiver -/

/-- `FromBufferStream`; attributes that `__init__` does not set are absent at first. -/
structure FromBufferStream where
  numArgs : Option Nat := none
  currentBufLength : Option Nat := none
  accumBufLength : Option Int := none
  currentBufShape : Option (List Nat) := none
  currentDtype : Option PbDtype := none
  currentIsNpArr : Option Bool := none
  funcKey : Option String := none
  currentDatas : List Bytes := []
  args : List Buffer := []

namespace FromBufferStream

/-- `FromBufferStream.clear`. -/
def clear (_self : FromBufferStream) : FromBufferStream where
  accumBufLength := some (-1)
  currentIsNpArr := some false

/-- An attribute of the object. -/
def getAttribute
    {α : Type}
    (name : String) :
    Option α → PyResult α
  | some value => .ok value
  | none => .error (.attributeError name)

/-- The fields that the first chunk of a message and of an argument sets. -/
def beginChunk
    (self : FromBufferStream)
    (buf : RemoteCallStream) :
    FromBufferStream :=
  let counted :=
    if buf.argId = 0 then { self with numArgs := some buf.numArgs } else self
  if buf.chunkId = 0 then
    { counted with
      currentBufShape := some buf.shape
      currentBufLength := some buf.numChunk
      currentDtype := some buf.dtype
      funcKey := some buf.funcKey
      currentIsNpArr :=
        some (decide (buf.dtype.type ≠ .customBytes ∧ buf.dtype.type ≠ .base64))
      currentDatas := []
      accumBufLength := some 0 }
  else
    counted

/-- `np.empty(shape, dtype)`, whose content is whatever the memory holds. -/
def npEmpty
    (memory : Nat → UInt8)
    (shape : List Nat)
    (dtype : NpDtype) :
    NDArray where
  dtype := dtype
  shape := shape
  data := (List.range (dtype.itemsize * shape.prod)).map memory
  size_eq := by simp

/-- The array that the chunks of an argument are written to. -/
def allocate
    (self : FromBufferStream)
    (memory : Nat → UInt8) :
    PyResult FromBufferStream := do
  match self.currentDtype, self.currentBufShape with
  | some pbDtype, some shape =>
      let dtype ← pbDtype.toNpDtype
      .ok { self with args := self.args ++ [.ndarray (npEmpty memory shape dtype)] }
  | _, _ => .error (.assertionError "")

/-- An array whose bytes are replaced by as many others. -/
def NDArray.withBytes
    (array : NDArray)
    (data : Bytes)
    (sameLength : data.length = array.data.length) :
    NDArray where
  dtype := array.dtype
  shape := array.shape
  data := data
  size_eq := sameLength.trans array.size_eq

/-- `res_u8_view[start:start + len(chunk)] = np.frombuffer(chunk, dtype=np.uint8)`. -/
def writeBytes
    (array : NDArray)
    (start : Nat)
    (chunk : Bytes) :
    PyResult NDArray :=
  match written : assignSlice array.data start (start + chunk.length) chunk with
  | .ok data => .ok (NDArray.withBytes array data (length_assignSlice written))
  | .error raised => .error raised

/--
Write a chunk to the last array.  An array is written only after its first chunk
has set `accum_buf_length` to zero, which is why the length is not negative here.
-/
def writeChunk
    (self : FromBufferStream)
    (chunk : Bytes) :
    PyResult FromBufferStream := do
  let accumulated ← getAttribute "accum_buf_length" self.accumBufLength
  match self.args.getLast? with
  | some (.ndarray array) =>
      let written ← writeBytes array accumulated.toNat chunk
      .ok { self with args := self.args.dropLast ++ [.ndarray written] }
  | some _ => .error (.attributeError "reshape")
  | none => .error .indexError

/-- Keep the bytes of a chunk: in the array of an array argument, else in a list. -/
def storeChunk
    (self : FromBufferStream)
    (memory : Nat → UInt8)
    (buf : RemoteCallStream) :
    PyResult FromBufferStream := do
  let isNpArr ← getAttribute "current_is_np_arr" self.currentIsNpArr
  if isNpArr then
    let allocated ← if buf.chunkId = 0 then self.allocate memory else .ok self
    allocated.writeChunk buf.chunkedData
  else
    .ok { self with currentDatas := self.currentDatas ++ [buf.chunkedData] }

/-- The end of an argument: bytes are joined, an array is complete already. -/
def endArg (self : FromBufferStream) : PyResult FromBufferStream := do
  let isNpArr ← getAttribute "current_is_np_arr" self.currentIsNpArr
  let done : FromBufferStream :=
    { self with
      currentDatas := []
      accumBufLength := some 0
      currentIsNpArr := some false }
  if isNpArr then
    .ok done
  else
    match self.currentDtype with
    | none => .error (.assertionError "")
    | some dtype =>
        let arg ← pb2data {
          shape := self.currentBufShape.getD []
          dtype := dtype
          data := self.currentDatas.flatten }
        .ok { done with args := self.args ++ [arg] }

/-- `self.accum_buf_length += len(buf.chunked_data)`. -/
def addLength
    (self : FromBufferStream)
    (chunk : Bytes) :
    PyResult FromBufferStream := do
  let accumulated ← getAttribute "accum_buf_length" self.accumBufLength
  .ok { self with accumBufLength := some (accumulated + chunk.length) }

/-- What `__call__` returns at the end of a message: the arguments and the key. -/
abbrev Received :=
  List Buffer × Option String

/-- The end of a chunk that does not end a message. -/
def continueMessage
    (self : FromBufferStream)
    (chunk : Bytes) :
    PyResult (Option Received × FromBufferStream) := do
  let counted ← self.addLength chunk
  .ok (none, counted)

/-- The end of the last chunk of an argument. -/
def endChunk
    (self : FromBufferStream)
    (buf : RemoteCallStream) :
    PyResult (Option Received × FromBufferStream) := do
  let ended ← self.endArg
  if buf.argId + 1 = buf.numArgs then
    if ended.args = [] then
      .error (.assertionError "")
    else
      .ok (some (ended.args, ended.funcKey), { ended with args := [] })
  else
    ended.continueMessage buf.chunkedData

/-- `FromBufferStream.__call__`. -/
def call
    (self : FromBufferStream)
    (memory : Nat → UInt8)
    (buf : RemoteCallStream) :
    PyResult (Option Received × FromBufferStream) := do
  let stored ← (self.beginChunk buf).storeChunk memory buf
  if buf.chunkId + 1 = buf.numChunk then
    stored.endChunk buf
  else
    stored.continueMessage buf.chunkedData

/-- A chunk that arrives, with the memory that an allocation would find. -/
structure Arrival where
  memory : Nat → UInt8
  buf : RemoteCallStream

/-- A round of `generator`: after a completed message the object is cleared. -/
def receive
    (self : FromBufferStream)
    (arrival : Arrival) :
    PyResult (Option Received × FromBufferStream) := do
  let (res, next) ← self.call arrival.memory arrival.buf
  .ok (res, if res.isSome then next.clear else next)

/-- The loop of `generator`: what every chunk of a stream returns. -/
def receiveAll :
    FromBufferStream → List Arrival → PyResult (List (Option Received) × FromBufferStream)
  | self, [] => .ok ([], self)
  | self, arrival :: rest => do
      let (res, next) ← self.receive arrival
      let (others, final) ← receiveAll next rest
      .ok (res :: others, final)

end FromBufferStream

end TensorPC.Rpc
