import TensorPC.Kv.Reassembly
import TensorPC.Py.Container
import TensorPC.Py.Dict

namespace TensorPC.Kv

/-!
# Receiving a stream

`ShmTrOnlyKVStore.receive_stream` stores the arrays of a client under a key.  It
takes over the entry of a removed key when the sizes fit, makes a new entry when
there is none, and loads the chunks that the client copies into two shared
buffers.  Here the client answers every chunk.
-/

/-! ## The arrays of the client -/

/-- A contiguous tensor of the client, as `_extract_tensor_descs` describes it. -/
structure ClientArray where
  info : TensorInfo
  bytes : List UInt8
  bytes_length : bytes.length = info.getByteSize

/-- The client copies one piece of its arrays into the shared memory. -/
def fillPiece
    (arrays : List ClientArray)
    (shm : List UInt8)
    (desc : SharedArraySegmentDesc) :
    PyResult (List UInt8) := do
  let array ← itemAt arrays desc.varIdx
  let partialInfo ← desc.getPartialInfoChecked
  let piece :=
    slice array.bytes partialInfo.start (partialInfo.start + partialInfo.length)
  let _ ← getArrayViewRaw shm desc
  assignSlice shm desc.shmOffset (desc.shmOffset + desc.getPartialSize) piece

/-- The pass of `store_tensor_tree` over the descriptors of one message. -/
def fillChunk
    (arrays : List ClientArray)
    (shm : List UInt8)
    (descs : List SharedArraySegmentDesc) :
    PyResult (List UInt8) :=
  descs.foldlM (fillPiece arrays) shm

theorem length_fillChunk
    {arrays : List ClientArray}
    {shm content : List UInt8}
    {descs : List SharedArraySegmentDesc}
    (filled : fillChunk arrays shm descs = .ok content) :
    content.length = shm.length := by
  unfold fillChunk at filled
  induction descs generalizing shm with
  | nil =>
      cases filled
      rfl
  | cons desc rest inductionHypothesis =>
      rw [List.foldlM_cons] at filled
      obtain ⟨middle, first, others⟩ := PyResult.bind_eq_ok.mp filled
      obtain ⟨array, _, first⟩ := PyResult.bind_eq_ok.mp first
      obtain ⟨info, _, first⟩ := PyResult.bind_eq_ok.mp first
      obtain ⟨view, _, assigned⟩ := PyResult.bind_eq_ok.mp first
      exact (inductionHypothesis others).trans (length_assignSlice assigned)

/-! ## The rounds of the server -/

/-- The descriptors of the first chunk, which are made without their pieces. -/
def firstDescs (chunk : List SharedArraySegmentDesc) : List SharedArraySegmentDesc :=
  match chunk with
  | [] => []
  | head :: _ =>
      chunk.map fun info =>
        { info with shmOffset := info.shmOffset - head.shmOffset }

/-- `_load_chunk_from_shm`. -/
def loadChunkFromShm
    (shm : List UInt8)
    (chunk : List SharedArraySegmentDesc)
    (buffer : List UInt8) :
    PyResult (List UInt8) :=
  let chunkTotalAlignedSize := totalPartialSizeAligned chunk
  match chunk with
  | [] => .error .indexError
  | head :: _ =>
      let firstOffset := head.getShmOffsetWithPartial
      assignSlice buffer firstOffset (firstOffset + chunkTotalAlignedSize)
        (slice shm 0 chunkTotalAlignedSize)

/-- The client fills the buffer of one chunk. -/
def fillChunkAt
    {shmSize : Nat}
    (arrays : List ClientArray)
    (buffers : DoubleBuffer shmSize)
    (chunkIdx : Nat)
    (descs : List SharedArraySegmentDesc) :
    PyResult (DoubleBuffer shmSize) :=
  match filled : fillChunk arrays (buffers.get chunkIdx) descs with
  | .error raised => .error raised
  | .ok content =>
      .ok (buffers.set chunkIdx content
        ((length_fillChunk filled).trans (buffers.length_get chunkIdx)))

/-- The descriptors that the message of a chunk carries. -/
def sentDescs
    (chunkIdx : Nat)
    (chunk : List SharedArraySegmentDesc) :
    List SharedArraySegmentDesc :=
  if chunkIdx = 0 then firstDescs chunk else relativeDescs chunk

/-- The chunks from `chunk_idx` on: each is sent, filled and loaded. -/
def receiveChunks
    {shmSize : Nat}
    (arrays : List ClientArray) :
    List (List SharedArraySegmentDesc) →
      (chunkIdx : Nat) →
      DoubleBuffer shmSize →
      (buffer : List UInt8) →
      PyResult (List UInt8)
  | [], _, _, buffer => .ok buffer
  | chunk :: rest, chunkIdx, buffers, buffer => do
      let buffers ← fillChunkAt arrays buffers chunkIdx (sentDescs chunkIdx chunk)
      let buffer ← loadChunkFromShm (buffers.get chunkIdx) chunk buffer
      receiveChunks arrays rest (chunkIdx + 1) buffers buffer

/-- The streaming part of `receive_stream`, into the buffer of an item. -/
def receiveInto
    {shmSize : Nat}
    (arrays : List ClientArray)
    (descs : List SharedArraySegmentDesc)
    (buffers : DoubleBuffer shmSize)
    (buffer : List UInt8) :
    PyResult (List UInt8) := do
  let chunks ← chunkizeArrDescs descs shmSize
  match chunks with
  | [] => .error .indexError
  | first :: rest => receiveChunks arrays (first :: rest) 0 buffers buffer

/-! ## The store -/

/-- `KVStoreItemWithArrDesc`; its descriptors lay the arrays out in the buffer. -/
structure TransferItem (Spec Meta : Type) where
  metadata : Option Meta
  data : Spec
  infos : List TensorInfo
  buffer : List UInt8
  buffer_length : buffer.length = totalAlignedByteSize (segmentDescs 0 0 infos)

namespace TransferItem

variable {Spec Meta : Type} (item : TransferItem Spec Meta)

/-- `item.descs`. -/
def descs : List SharedArraySegmentDesc :=
  segmentDescs 0 0 item.infos

/-- The bytes of the stored arrays. -/
def arrayBytes : List (List UInt8) :=
  item.descs.map fun desc =>
    slice item.buffer desc.shmOffset (desc.shmOffset + desc.getByteSize)

end TransferItem

/-- `removed_keys`, in the order in which the set and its copy are iterated. -/
structure RemovedKeys where
  keys : List String
  copied : List String
  nodup : keys.Nodup
  perm : copied.Perm keys

/-- The arguments of `receive_stream`, with the arrays that the client sends. -/
structure StreamRequest (Spec Meta : Type) where
  key : String
  treespec : Spec
  arrays : List ClientArray
  metadata : Option Meta
  removedKeys : Option RemovedKeys

namespace StreamRequest

variable {Spec Meta : Type} (request : StreamRequest Spec Meta)

/-- `client_arr_descs`. -/
def clientArrDescs : List TensorInfo :=
  request.arrays.map ClientArray.info

/-- The keys of `removed_keys`. -/
def removed : List String :=
  match request.removedKeys with
  | none => []
  | some removed => removed.keys

end StreamRequest

/-- `ShmTrOnlyKVStore._store`. -/
abbrev TransferStore (Spec Meta : Type) := Dict String (TransferItem Spec Meta)

/-- `_validate_arr_descs`. -/
def validateTransferDescs
    (key : String)
    (segmentDescs : List SharedArraySegmentDesc)
    (arrDescs : List TensorInfo)
    (raiseExc : Bool) :
    PyResult Bool :=
  if arrDescs.length = segmentDescs.length then
    if (arrDescs.zip segmentDescs).all
        fun (info, segDesc) => info.getByteSize == segDesc.getByteSize then
      .ok true
    else if raiseExc then
      .error (.valueError
        s!"{key} already allocated with different byte length.")
    else
      .ok false
  else if raiseExc then
    .error (.valueError
      s!"{key} already allocated with different number of segments.")
  else
    .ok false

namespace TransferStore

variable {Spec Meta : Type} (store : TransferStore Spec Meta)

/-- Whether the loop over `removed_keys` takes the entry of a key. -/
def canReuse
    (arrDescs : List TensorInfo)
    (reuseKey : String) :
    Bool :=
  match store.get? reuseKey with
  | none => false
  | some item =>
      match validateTransferDescs reuseKey item.descs arrDescs false with
      | .ok fits => fits
      | .error _ => false

/-- `_rename_key`. -/
def renameKey (oldKey newKey : String) : TransferStore Spec Meta :=
  if oldKey = newKey then
    store
  else
    match store.get? oldKey with
    | none => store
    | some item => (store.set newKey item).erase oldKey

variable (request : StreamRequest Spec Meta)

/-- The key whose entry is taken over, `reuse_key` at the `break`. -/
def reusedKey : Option String :=
  request.removed.find? (store.canReuse request.clientArrDescs)

/-- The store after the loop that looks for an entry to take over. -/
def afterReuse : TransferStore Spec Meta :=
  match store.reusedKey request with
  | none => store
  | some reuseKey => store.renameKey reuseKey request.key

/-- `removed_keys_copy` after that loop. -/
def keysToRemove : List String :=
  match request.removedKeys with
  | none => []
  | some removed =>
      match store.reusedKey request with
      | none => removed.copied
      | some reuseKey => removed.copied.erase reuseKey

/-- The store after `for key in removed_keys_copy: self._remove_item(key)`. -/
def afterRemoval : TransferStore Spec Meta :=
  (store.afterReuse request).eraseAll (store.keysToRemove request)

/-- The value of `key` after that loop, whose variable it is. -/
def keyAfterRemoval : String :=
  (store.keysToRemove request).getLastD request.key

end TransferStore

/-- `np.empty([total_size])`: what the new buffer holds is unknown. -/
structure EmptyBuffers where
  byteAt : Nat → UInt8

namespace EmptyBuffers

/-- A new buffer. -/
def alloc (empty : EmptyBuffers) (size : Nat) : List UInt8 :=
  (List.range size).map empty.byteAt

end EmptyBuffers

/-- A new item for the arrays of the client. -/
def newTransferItem
    {Spec Meta : Type}
    (empty : EmptyBuffers)
    (request : StreamRequest Spec Meta) :
    TransferItem Spec Meta where
  metadata := request.metadata
  data := request.treespec
  infos := request.clientArrDescs
  buffer :=
    empty.alloc (totalAlignedByteSize (segmentDescs 0 0 request.clientArrDescs))
  buffer_length := by
    simp [EmptyBuffers.alloc]

/-- The item under a key when its sizes fit, or a new one. -/
def existingOrNewItem
    {Spec Meta : Type}
    (empty : EmptyBuffers)
    (store : TransferStore Spec Meta)
    (key : String)
    (request : StreamRequest Spec Meta) :
    PyResult (TransferItem Spec Meta) :=
  match store.get? key with
  | some item => do
      let _ ← validateTransferDescs key item.descs request.clientArrDescs true
      .ok item
  | none => .ok (newTransferItem empty request)

/-- Loading chunks does not change the size of the buffer. -/
theorem length_receiveChunks
    {shmSize chunkIdx : Nat}
    {arrays : List ClientArray}
    {chunks : List (List SharedArraySegmentDesc)}
    {buffers : DoubleBuffer shmSize}
    {buffer received : List UInt8}
    (computed : receiveChunks arrays chunks chunkIdx buffers buffer = .ok received) :
    received.length = buffer.length := by
  induction chunks generalizing chunkIdx buffers buffer with
  | nil =>
      cases computed
      rfl
  | cons chunk rest inductionHypothesis =>
      obtain ⟨filled, _, computed⟩ := PyResult.bind_eq_ok.mp computed
      obtain ⟨loaded, load, computed⟩ := PyResult.bind_eq_ok.mp computed
      refine (inductionHypothesis computed).trans ?_
      unfold loadChunkFromShm at load
      cases chunk with
      | nil =>
          cases load
      | cons head others =>
          exact length_assignSlice load

theorem length_receiveInto
    {shmSize : Nat}
    {arrays : List ClientArray}
    {descs : List SharedArraySegmentDesc}
    {buffers : DoubleBuffer shmSize}
    {buffer received : List UInt8}
    (computed : receiveInto arrays descs buffers buffer = .ok received) :
    received.length = buffer.length := by
  obtain ⟨chunks, _, computed⟩ := PyResult.bind_eq_ok.mp computed
  cases chunks with
  | nil =>
      cases computed
  | cons first rest =>
      exact length_receiveChunks computed

/-- The bytes, the metadata and the tree spec of a session go into its item. -/
def streamInto
    {Spec Meta : Type}
    {shmSize : Nat}
    (request : StreamRequest Spec Meta)
    (buffers : DoubleBuffer shmSize)
    (item : TransferItem Spec Meta) :
    PyResult (TransferItem Spec Meta) :=
  match received : receiveInto request.arrays item.descs buffers item.buffer with
  | .error raised => .error raised
  | .ok buffer =>
      .ok { item with
        metadata := request.metadata
        data := request.treespec
        buffer := buffer
        buffer_length := (length_receiveInto received).trans item.buffer_length }

/-- `receive_stream`: the store after a session that returns. -/
def receiveStream
    {Spec Meta : Type}
    {shmSize : Nat}
    (empty : EmptyBuffers)
    (buffers : DoubleBuffer shmSize)
    (store : TransferStore Spec Meta)
    (request : StreamRequest Spec Meta) :
    PyResult (TransferStore Spec Meta) := do
  let key := store.keyAfterRemoval request
  let store := store.afterRemoval request
  let item ← existingOrNewItem empty store key request
  let _ ← validateTransferDescs key item.descs request.clientArrDescs true
  let item ← streamInto request buffers item
  .ok (store.set key item)

end TensorPC.Kv
