import TensorPC.Kv.Chunks

namespace TensorPC.Kv

/-!
# Streaming tensors to a client

The server copies its chunks in turn into two shared buffers and names the one
that is ready; the client copies the pieces out and puts its tensors together.
Here the client answers every chunk before the next one is named.
-/

/-- What the client's `_get_tensor_info_from_tensor` promises of a descriptor. -/
def TensorInfo.TorchTyped (info : TensorInfo) : Prop :=
  ∃ dtype, info.metaDtype = some dtype ∧ dtype.itemsize = info.dtype.itemsize

/-- `KVStoreItemWithArrDesc`: arrays that lie one after the other in a buffer. -/
structure StoredItem where
  buffer : List UInt8
  infos : List TensorInfo
  buffer_length : buffer.length = totalAlignedByteSize (segmentDescs 0 0 infos)
  torchTyped : ∀ info ∈ infos, info.TorchTyped

namespace StoredItem

/-- `item.descs`. -/
def descs (item : StoredItem) : List SharedArraySegmentDesc :=
  segmentDescs 0 0 item.infos

/-- The bytes of one stored array. -/
def arrayBytes
    (item : StoredItem)
    (desc : SharedArraySegmentDesc) :
    List UInt8 :=
  slice item.buffer desc.shmOffset (desc.shmOffset + desc.getByteSize)

end StoredItem

/-- The shared memory of one client: two buffers of the same size. -/
structure DoubleBuffer (shmSize : Nat) where
  first : List UInt8
  second : List UInt8
  first_length : first.length = shmSize
  second_length : second.length = shmSize

namespace DoubleBuffer

variable {shmSize : Nat}

/-- `shm_double_buffer[index % 2]`. -/
def get (buffers : DoubleBuffer shmSize) (index : Nat) : List UInt8 :=
  if index % 2 = 0 then
    buffers.first
  else
    buffers.second

theorem length_get
    (buffers : DoubleBuffer shmSize)
    (index : Nat) :
    (buffers.get index).length = shmSize := by
  unfold get
  split
  · exact buffers.first_length
  · exact buffers.second_length

/-- Replace the content of `shm_double_buffer[index % 2]`. -/
def set
    (buffers : DoubleBuffer shmSize)
    (index : Nat)
    (content : List UInt8)
    (sameLength : content.length = shmSize) :
    DoubleBuffer shmSize :=
  if index % 2 = 0 then
    { buffers with first := content, first_length := sameLength }
  else
    { buffers with second := content, second_length := sameLength }

@[simp] theorem get_set_self
    (buffers : DoubleBuffer shmSize)
    (index : Nat)
    (content : List UInt8)
    (sameLength : content.length = shmSize) :
    (buffers.set index content sameLength).get index = content := by
  unfold get set
  split <;> simp

end DoubleBuffer

/-- `_save_chunk_to_shm`. -/
def saveChunkToShm
    (shm : List UInt8)
    (chunk : List SharedArraySegmentDesc)
    (buffer : List UInt8) :
    PyResult (List UInt8) :=
  let chunkTotalAlignedSize := totalPartialSizeAligned chunk
  match chunk with
  | [] => .error .indexError
  | head :: _ =>
      let firstOffset := head.getShmOffsetWithPartial
      assignSlice shm 0 chunkTotalAlignedSize
        (slice buffer firstOffset (firstOffset + chunkTotalAlignedSize))

theorem length_saveChunkToShm
    {shm buffer content : List UInt8}
    {chunk : List SharedArraySegmentDesc}
    (saved : saveChunkToShm shm chunk buffer = .ok content) :
    content.length = shm.length := by
  cases chunk with
  | nil =>
      cases saved
  | cons head rest =>
      exact length_assignSlice saved

/-- `SharedArraySegmentsLimitedDesc`, with what the named shared memory holds. -/
structure StreamMessage where
  shm : List UInt8
  descs : List SharedArraySegmentDesc
  descStartIdx : Nat

/-- The descriptors of a chunk with offsets relative to its first one. -/
def relativeDescs (chunk : List SharedArraySegmentDesc) : List SharedArraySegmentDesc :=
  match chunk with
  | [] => []
  | head :: _ =>
      chunk.map fun info =>
        { info with
          shmOffset :=
            info.getShmOffsetWithPartial - head.getShmOffsetWithPartial }

/-- Save a chunk into the buffer of its index. -/
def saveChunkAt
    {shmSize : Nat}
    (buffer : List UInt8)
    (buffers : DoubleBuffer shmSize)
    (chunkIdx : Nat)
    (chunk : List SharedArraySegmentDesc) :
    PyResult (DoubleBuffer shmSize) :=
  match saved : saveChunkToShm (buffers.get chunkIdx) chunk buffer with
  | .error raised => .error raised
  | .ok content =>
      .ok (buffers.set chunkIdx content
        ((length_saveChunkToShm saved).trans (buffers.length_get chunkIdx)))

/-- The rounds of `send_stream` from the chunk `chunk_idx` on, which is already saved. -/
def sendStreamLoop
    {shmSize : Nat}
    (buffer : List UInt8) :
    List (List SharedArraySegmentDesc) →
      (chunkIdx sendCounts : Nat) →
      DoubleBuffer shmSize →
      PyResult (List StreamMessage)
  | [], _, _, _ => .ok []
  | [chunk], chunkIdx, sendCounts, buffers =>
      .ok [⟨buffers.get chunkIdx, relativeDescs chunk, sendCounts⟩]
  | chunk :: next :: rest, chunkIdx, sendCounts, buffers => do
      let message := ⟨buffers.get chunkIdx, relativeDescs chunk, sendCounts⟩
      let buffers ← saveChunkAt buffer buffers (chunkIdx + 1) next
      let later ←
        sendStreamLoop buffer (next :: rest) (chunkIdx + 1)
          (sendCounts + chunk.length) buffers
      .ok (message :: later)

/-- `send_stream`: the messages a client that answers all of them receives. -/
def sendStream
    {shmSize : Nat}
    (item : StoredItem)
    (buffers : DoubleBuffer shmSize) :
    PyResult (List StreamMessage) := do
  let chunks ← chunkizeArrDescs item.descs shmSize
  match chunks with
  | [] => .error .indexError
  | first :: rest => do
      let buffers ← saveChunkAt item.buffer buffers 0 first
      sendStreamLoop item.buffer (first :: rest) 0 0 buffers

/-- A tensor of the client; bytes it has not written yet are unknown. -/
structure Tensor where
  shape : List Nat
  dtype : DType
  bytes : List (Option UInt8)
  deriving Repr, DecidableEq

/-- `torch.empty(shape, dtype=dtype)`. -/
def Tensor.empty (shape : List Nat) (dtype : DType) : Tensor where
  shape := shape
  dtype := dtype
  bytes := List.replicate (shape.prod * dtype.itemsize) none

/-- The local variables of `get_tensor_tree`; `tensors` is its list `variables`. -/
structure ClientState where
  tensors : List Tensor
  curPartialTensor : Option Tensor
  deriving Repr, DecidableEq

/-- The tensor that a piece is copied into: the current one, or a new one. -/
def targetTensor
    (desc : SharedArraySegmentDesc)
    (dtype : DType)
    (start : Nat)
    (curPartialTensor : Option Tensor) :
    PyResult Tensor :=
  if start ≠ 0 then
    match curPartialTensor with
    | none => .error (.assertionError "")
    | some tensor => .ok tensor
  else
    .ok (.empty desc.shape dtype)

/-- Copy the bytes of a piece into its tensor, and keep the tensor when it is complete. -/
def receivePieceData
    (state : ClientState)
    (desc : SharedArraySegmentDesc)
    (dtype : DType)
    (dataRaw : List UInt8) :
    PyResult ClientState := do
  let partialInfo ← desc.getPartialInfoChecked
  let tensor ← targetTensor desc dtype partialInfo.start state.curPartialTensor
  let bytes ←
    assignSlice tensor.bytes partialInfo.start
      (partialInfo.start + partialInfo.length) (dataRaw.map some)
  let tensor := { tensor with bytes := bytes }
  if desc.isLastPartial then
    .ok ⟨state.tensors ++ [tensor], none⟩
  else
    .ok ⟨state.tensors, some tensor⟩

/-- One round of the loop of `get_tensor_tree` over the descriptors of a message. -/
def receivePiece
    (shm : List UInt8)
    (state : ClientState)
    (desc : SharedArraySegmentDesc) :
    PyResult ClientState :=
  match desc.metaDtype with
  | none => .error (.assertionError "")
  | some dtype => do
      let dataRaw ← getArrayViewRaw shm desc
      receivePieceData state desc dtype dataRaw

/-- The loop of `get_tensor_tree` over the descriptors of one message. -/
def receiveMessage
    (state : ClientState)
    (message : StreamMessage) :
    PyResult ClientState :=
  message.descs.foldlM (receivePiece message.shm) state

/-- `get_tensor_tree`: the tensors in the order in which they are appended. -/
def getTensorTree
    {shmSize : Nat}
    (item : StoredItem)
    (buffers : DoubleBuffer shmSize) :
    PyResult (List Tensor) := do
  let messages ← sendStream item buffers
  let final ← messages.foldlM receiveMessage ⟨[], none⟩
  .ok final.tensors

end TensorPC.Kv
