import TensorPC.Kv.ArrayTree
import TensorPC.Py.Dict

namespace TensorPC.Kv

/-!
# Arrays in a piece of shared memory

A store lays the arrays of a tree one aligned array after the other into one
piece of shared memory.  A client assigns to views of it, which follows the
rules of numpy: the values are broadcast to the shape of the view and cast to
its element type.
-/

/-! ## Broadcasting -/

section Broadcast

variable {α : Type}

/-- The first `count` blocks of `size` items. -/
def blocks
    (size : Nat) :
    Nat → List α → List (List α)
  | 0, _ => []
  | count + 1, items =>
      items.take size :: blocks size count (items.drop size)

theorem flatten_blocks
    {size count : Nat}
    {items : List α}
    (width : items.length = count * size) :
    (blocks size count items).flatten = items := by
  induction count generalizing items with
  | zero =>
      have empty : items = [] := by
        simpa using width
      simp [blocks, empty]
  | succ count inductionHypothesis =>
      have rest : (items.drop size).length = count * size := by
        rw [List.length_drop, width, Nat.succ_mul]
        omega
      simp [blocks, inductionHypothesis rest]

@[simp] theorem length_blocks
    (size count : Nat)
    (items : List α) :
    (blocks size count items).length = count := by
  induction count generalizing items with
  | zero =>
      simp [blocks]
  | succ count inductionHypothesis =>
      simp [blocks, inductionHypothesis]

theorem length_of_mem_blocks
    {size count : Nat}
    {items block : List α}
    (width : items.length = count * size)
    (member : block ∈ blocks size count items) :
    block.length = size := by
  induction count generalizing items with
  | zero =>
      simp [blocks] at member
  | succ count inductionHypothesis =>
      rw [Nat.succ_mul] at width
      simp only [blocks, List.mem_cons] at member
      rcases member with first | later
      · rw [first, List.length_take]
        omega
      · refine inductionHypothesis ?_ later
        rw [List.length_drop]
        omega

/-- Broadcast the items of an array, both shapes having the same rank. -/
def broadcastItems :
    List Nat → List Nat → List α → Option (List α)
  | [], [], items => some items
  | n :: source, m :: target, items =>
      if n = m then
        ((blocks source.prod n items).mapM
          (broadcastItems source target)).map List.flatten
      else if n = 1 then
        (broadcastItems source target items).map fun row =>
          (List.replicate m row).flatten
      else
        none
  | _, _, _ => none

/-- A shape with leading ones dropped or added, as far as the rank asks for it. -/
def alignShape (rank : Nat) : List Nat → List Nat
  | 1 :: shape =>
      if rank < shape.length + 1 then
        alignShape rank shape
      else
        List.replicate (rank - (shape.length + 1)) 1 ++ 1 :: shape
  | shape => List.replicate (rank - shape.length) 1 ++ shape

theorem alignShape_self (shape : List Nat) :
    alignShape shape.length shape = shape := by
  unfold alignShape
  split
  · simp
  · simp

theorem mapM_eq_self
    {f : α → Option α}
    {items : List α}
    (same : ∀ item ∈ items, f item = some item) :
    items.mapM f = some items := by
  induction items with
  | nil =>
      rfl
  | cons item rest inductionHypothesis =>
      have first := same item (by simp)
      have others :=
        inductionHypothesis fun other member => same other (by simp [member])
      simp [first, others]

theorem broadcastItems_self
    {shape : List Nat}
    {items : List α}
    (width : items.length = shape.prod) :
    broadcastItems shape shape items = some items := by
  induction shape generalizing items with
  | nil =>
      rfl
  | cons n shape inductionHypothesis =>
      rw [List.prod_cons] at width
      have rows :
          (blocks shape.prod n items).mapM (broadcastItems shape shape) =
            some (blocks shape.prod n items) := by
        refine mapM_eq_self ?_
        intro block member
        exact inductionHypothesis (length_of_mem_blocks width member)
      simp [broadcastItems, rows, flatten_blocks width]

end Broadcast

/-! ## Views -/

/-- `SharedArraySegments`, with the bytes of the shared memory. -/
structure SharedArraySegments where
  shm : List UInt8
  descs : List SharedArraySegmentDesc
  deriving Repr, DecidableEq

/--
numpy's unsafe cast of one element, given by its bytes.  An element of the
target type keeps its bytes.
-/
structure NumpyCast where
  cast : DType → DType → List UInt8 → PyResult (List UInt8)
  cast_self :
    ∀ (dtype : DType) (element : List UInt8),
      cast dtype dtype element = .ok element

/-- `np.ndarray(desc.shape, dtype=desc.dtype, buffer=memview)`. -/
def arrayInShm
    (shm : List UInt8)
    (desc : SharedArraySegmentDesc) :
    PyResult NDArray :=
  let memview := slice shm desc.shmOffset (desc.shmOffset + desc.getByteSize)
  if size_eq : memview.length = desc.getByteSize then
    .ok ⟨desc.shape, desc.dtype, memview, size_eq⟩
  else
    .error (.typeError "buffer is too small for requested array")

/-- `get_array_view`. -/
def SharedArraySegments.getArrayView
    (segments : SharedArraySegments)
    (index : Nat) :
    PyResult NDArray :=
  match segments.descs[index]? with
  | none => .error .indexError
  | some desc => do
      pyAssert (!desc.isPartial) ""
      arrayInShm segments.shm desc

/-- `view[:] = a`: the elements of `a` as they are written into a view. -/
def castToView
    (numpy : NumpyCast)
    (view a : NDArray) :
    PyResult (List UInt8) :=
  if view.shape = [] then
    .error .indexError
  else
    let items := blocks a.dtype.itemsize a.shape.prod a.data
    match broadcastItems
        (alignShape view.shape.length a.shape) view.shape items with
    | none => .error (.valueError "could not broadcast input array")
    | some items => do
        let elements ← items.mapM (numpy.cast a.dtype view.dtype)
        .ok elements.flatten

/-- `segments.get_array_view(index)[:] = a`. -/
def SharedArraySegments.assignArrayView
    (numpy : NumpyCast)
    (segments : SharedArraySegments)
    (index : Nat)
    (a : NDArray) :
    PyResult SharedArraySegments := do
  let view ← segments.getArrayView index
  let written ← castToView numpy view a
  match segments.descs[index]? with
  | none => .error .indexError
  | some desc =>
      let shm ← assignSlice segments.shm desc.shmOffset
        (desc.shmOffset + desc.getByteSize) written
      .ok { segments with shm := shm }

/-- `for i, a in enumerate(variables): segments.get_array_view(i)[:] = a`. -/
def copyArrays
    (numpy : NumpyCast) :
    Nat → List NDArray → SharedArraySegments → PyResult SharedArraySegments
  | _, [], segments => .ok segments
  | index, a :: rest, segments => do
      let segments ← segments.assignArrayView numpy index a
      copyArrays numpy (index + 1) rest segments

/-- An array of the shape and the element type of a view is written as it is. -/
theorem castToView_same
    {numpy : NumpyCast}
    {view a : NDArray}
    {written : List UInt8}
    (shape : view.shape = a.shape)
    (dtype : view.dtype = a.dtype)
    (cast : castToView numpy view a = .ok written) :
    written = a.data := by
  have width :
      (blocks a.dtype.itemsize a.shape.prod a.data).length = a.shape.prod :=
    length_blocks ..
  unfold castToView at cast
  dsimp only at cast
  rw [shape, dtype, alignShape_self, broadcastItems_self width] at cast
  split at cast
  · cases cast
  · obtain ⟨elements, each, written⟩ := PyResult.bind_eq_ok.mp cast
    cases written
    have same :
        elements = blocks a.dtype.itemsize a.shape.prod a.data := by
      have related := PyResult.mapM_eq_ok.mp each
      simp only [numpy.cast_self, Except.ok.injEq] at related
      exact (List.forall₂_eq_eq_eq ▸ related).symm
    rw [same, flatten_blocks a.size_eq]

/-! ## Layout -/

/-- The descriptors of new segments, one aligned array after the other. -/
def allocateDescs (offset : Nat) : List TensorInfo → List SharedArraySegmentDesc
  | [] => []
  | info :: rest =>
      let desc : SharedArraySegmentDesc := { info with shmOffset := offset }
      desc :: allocateDescs (offset + desc.getAlignedByteSize) rest

@[simp] theorem allocateDescs_map_toTensorInfo
    (offset : Nat)
    (infos : List TensorInfo) :
    (allocateDescs offset infos).map (·.toTensorInfo) = infos := by
  induction infos generalizing offset with
  | nil =>
      rfl
  | cons info rest inductionHypothesis =>
      simp [allocateDescs, inductionHypothesis]

/-- The views of the descriptors are the arrays. -/
def ViewsAre
    (shm : List UInt8)
    (descs : List SharedArraySegmentDesc)
    (arrays : List NDArray) :
    Prop :=
  List.Forall₂ (fun desc a => arrayInShm shm desc = .ok a) descs arrays

/-- Assigning an array to a view of its own shape and element type. -/
theorem assignArrayView_same
    {numpy : NumpyCast}
    {segments after : SharedArraySegments}
    {index : Nat}
    {desc : SharedArraySegmentDesc}
    {a : NDArray}
    (found : segments.descs[index]? = some desc)
    (layout : desc.toTensorInfo = a.tensorInfo)
    (room : desc.shmOffset + desc.getByteSize ≤ segments.shm.length)
    (assigned : segments.assignArrayView numpy index a = .ok after) :
    after.descs = segments.descs ∧
      after.shm.length = segments.shm.length ∧
      arrayInShm after.shm desc = .ok a ∧
      ∀ first last, last ≤ desc.shmOffset →
        slice after.shm first last = slice segments.shm first last := by
  have shape : desc.shape = a.shape :=
    congrArg TensorInfo.shape layout
  have dtype : desc.dtype = a.dtype :=
    congrArg TensorInfo.dtype layout
  have size : desc.getByteSize = a.data.length := by
    rw [layout, NDArray.getByteSize_tensorInfo]
  obtain ⟨view, viewed, assigned⟩ := PyResult.bind_eq_ok.mp assigned
  obtain ⟨written, cast, assigned⟩ := PyResult.bind_eq_ok.mp assigned
  simp only [found] at assigned
  obtain ⟨shm, stored, assigned⟩ := PyResult.bind_eq_ok.mp assigned
  cases assigned
  have viewFields : view.shape = desc.shape ∧ view.dtype = desc.dtype := by
    simp only [SharedArraySegments.getArrayView, found] at viewed
    obtain ⟨_, _, viewed⟩ := PyResult.bind_eq_ok.mp viewed
    simp only [arrayInShm] at viewed
    split at viewed
    · cases viewed
      exact ⟨rfl, rfl⟩
    · cases viewed
  have whole : written = a.data :=
    castToView_same (viewFields.1.trans shape) (viewFields.2.trans dtype) cast
  subst whole
  have content :=
    slice_assignSlice_same room (by omega) (by omega) stored
  refine ⟨rfl, length_assignSlice stored, ?_, ?_⟩
  · have width :
        (slice shm desc.shmOffset
          (desc.shmOffset + desc.getByteSize)).length = desc.getByteSize := by
      rw [content]
      exact size.symm
    simp only [arrayInShm, width, ↓reduceDIte]
    exact congrArg Except.ok (NDArray.eq_of_fields shape dtype content)
  · intro first last before
    exact slice_assignSlice_before (by omega) before stored

/-- Copying arrays into segments that were laid out for them. -/
theorem copyArrays_same
    {numpy : NumpyCast}
    {segments after : SharedArraySegments}
    {index offset : Nat}
    {arrays : List NDArray}
    (layout :
      segments.descs.drop index =
        allocateDescs offset (arrays.map NDArray.tensorInfo))
    (room :
      offset + totalAlignedByteSize (segments.descs.drop index) ≤
        segments.shm.length)
    (copied : copyArrays numpy index arrays segments = .ok after) :
    after.descs = segments.descs ∧
      after.shm.length = segments.shm.length ∧
      ViewsAre after.shm (segments.descs.drop index) arrays ∧
      ∀ first last, last ≤ offset →
        slice after.shm first last = slice segments.shm first last := by
  induction arrays generalizing index offset segments with
  | nil =>
      cases copied
      rw [layout]
      exact ⟨rfl, rfl, .nil, fun _ _ _ => rfl⟩
  | cons a rest inductionHypothesis =>
      obtain ⟨middle, assigned, copied⟩ := PyResult.bind_eq_ok.mp copied
      simp only [List.map_cons, allocateDescs] at layout
      generalize descEq :
        ({ a.tensorInfo with shmOffset := offset } : SharedArraySegmentDesc) =
          desc at layout
      have info : desc.toTensorInfo = a.tensorInfo := by
        rw [← descEq]
      have position : desc.shmOffset = offset := by
        rw [← descEq]
      rw [← info] at layout
      have found : segments.descs[index]? = some desc := by
        have head := congrArg List.head? layout
        simpa using head
      have tail :
          segments.descs.drop (index + 1) =
            allocateDescs (offset + desc.getAlignedByteSize)
              (rest.map NDArray.tensorInfo) := by
        have dropped := congrArg (List.drop 1) layout
        simpa using dropped
      rw [layout, totalAlignedByteSize_cons, ← tail] at room
      have aligned : desc.getByteSize ≤ desc.getAlignedByteSize :=
        le_alignUp _
      obtain ⟨sameDescs, sameLength, view, kept⟩ :=
        assignArrayView_same found info (by omega) assigned
      have next :=
        inductionHypothesis
          (by rw [sameDescs]; exact tail)
          (by rw [sameDescs, sameLength]; omega)
          copied
      obtain ⟨laterDescs, laterLength, laterViews, laterKept⟩ := next
      rw [sameDescs] at laterViews
      refine ⟨laterDescs.trans sameDescs, laterLength.trans sameLength, ?_, ?_⟩
      · rw [layout, ← tail]
        refine .cons ?_ laterViews
        have untouched :=
          laterKept desc.shmOffset (desc.shmOffset + desc.getByteSize)
            (by omega)
        simp only [arrayInShm, untouched]
        exact view
      · intro first last before
        rw [laterKept first last (by omega), kept first last (by omega)]

/-!
# The shared-memory key-value store

The server keeps the tree specs of stored values in one map and their shared
memory in another.  A client asks for segments of the right sizes, copies its
arrays into them and then sets the tree spec.  A call is one transition; the
result is absent where the call waits for the lock that it holds itself.
-/

/-- `ShmKVStore`, with the treespec of every `KVStoreItem`. -/
structure ShmKVStore where
  store : Dict String TreeSpec
  storeSharedSegments : Dict String SharedArraySegments

namespace ShmKVStore

/-- `__init__`. -/
def init : ShmKVStore where
  store := .empty
  storeSharedSegments := .empty

variable (state : ShmKVStore) (key : String)

/-- `has_item`. -/
def hasItem : Bool :=
  state.store.contains key

/-- `_validate_arr_descs`. -/
def validateArrDescs
    (arrDescs : List TensorInfo)
    (raiseExc : Bool) :
    PyResult Bool :=
  match state.storeSharedSegments.get? key with
  | none => .error (.keyError key)
  | some segments =>
      if arrDescs.length = segments.descs.length then
        if (arrDescs.zip segments.descs).all
            fun (info, segDesc) => info.getByteSize == segDesc.getByteSize then
          .ok true
        else if raiseExc then
          .error (.valueError
            s!"{key} already allocated with different byte length.")
        else
          .ok false
      else if raiseExc then
        .error (.valueError
          s!"{key} already allocated with different number of segments.")
      else
        .ok false

/-- Whether the loop over `removed_keys` takes the segments of a key. -/
def canReuse
    (arrDescs : List TensorInfo)
    (reuseKey : String) :
    Bool :=
  state.storeSharedSegments.contains reuseKey &&
    match state.validateArrDescs reuseKey arrDescs false with
    | .ok fits => fits
    | .error _ => false

/-- The entry of one key moves to another key. -/
def moveEntry
    {β : Type}
    (dict : Dict String β)
    (oldKey newKey : String) :
    Dict String β :=
  match dict.get? oldKey with
  | none => dict
  | some value => (dict.set newKey value).erase oldKey

/-- `_rename_key`. -/
def renameKey (oldKey newKey : String) : ShmKVStore :=
  if oldKey = newKey then
    state
  else
    { store := moveEntry state.store oldKey newKey
      storeSharedSegments :=
        moveEntry state.storeSharedSegments oldKey newKey }

/-- The segments of a key: the existing ones when they fit, or new ones. -/
def existingOrNewSegments
    (arrDescs : List TensorInfo) :
    PyResult (ShmKVStore × SharedArraySegments) :=
  match state.storeSharedSegments.get? key with
  | some segments => do
      let _ ← state.validateArrDescs key arrDescs true
      .ok (state, segments)
  | none =>
      let segmentDescs := allocateDescs 0 arrDescs
      let totalSize := totalAlignedByteSize segmentDescs
      -- `SharedMemory(create=True, size=0)` is refused
      if totalSize = 0 then
        .error (.valueError
          "'size' must be a positive number different from zero")
      else
        let segments : SharedArraySegments :=
          ⟨List.replicate totalSize 0, segmentDescs⟩
        .ok (
          { state with
            storeSharedSegments := state.storeSharedSegments.set key segments },
          segments)

/--
`get_or_create_shared_array_segments`, the set `removed_keys` being listed in
its iteration order.  A key that is left in the copy of the set would be removed
by `remove_item`, which waits for the lock that this call holds.
-/
def getOrCreateSharedArraySegments
    (arrDescs : List TensorInfo)
    (removedKeys : Option (List String)) :
    Option (PyResult (ShmKVStore × SharedArraySegments)) :=
  match removedKeys with
  | none => some (state.existingOrNewSegments key arrDescs)
  | some removedKeys =>
      match removedKeys.find? (state.canReuse arrDescs) with
      | some reuseKey =>
          if removedKeys.erase reuseKey = [] then
            some ((state.renameKey reuseKey key).existingOrNewSegments
              key arrDescs)
          else
            none
      | none =>
          if removedKeys = [] then
            some (state.existingOrNewSegments key arrDescs)
          else
            none

/-- `set_item_treespec`. -/
def setItemTreespec
    (treespec : TreeSpec)
    (arrDescs : List TensorInfo) :
    PyResult ShmKVStore :=
  if state.storeSharedSegments.contains key then do
    let _ ← state.validateArrDescs key arrDescs true
    .ok { state with store := state.store.set key treespec }
  else
    .error (.valueError
      s!"{key} not allocated. call `get_or_create_shared_array_segments` first.")

/-- A client has written to the shared memory of a key. -/
def writeSegments (segments : SharedArraySegments) : ShmKVStore :=
  { state with
    storeSharedSegments := state.storeSharedSegments.set key segments }

/-- `remove_item`. -/
def removeItem : PyResult ShmKVStore :=
  if state.store.contains key then
    if state.storeSharedSegments.contains key then
      .ok
        { store := state.store.erase key
          storeSharedSegments := state.storeSharedSegments.erase key }
    else
      .error (.keyError key)
  else
    .ok state

/-- `remove_items`. -/
def removeItems (keys : List String) : PyResult ShmKVStore :=
  keys.foldlM removeItem state

/-- `clear`. -/
def clear : PyResult ShmKVStore :=
  state.removeItems state.store.keys

/-- `ShmKVStoreClient.store_array_tree`, with a set of keys to remove. -/
def storeArrayTree
    (numpy : NumpyCast)
    (arrTree : ArrayTree)
    (removedKeys : Option (List String)) :
    Option (PyResult ShmKVStore) :=
  let (arrays, treespec) := extractArraysFromData arrTree
  let arrDescs := arrays.map NDArray.tensorInfo
  (state.getOrCreateSharedArraySegments key arrDescs removedKeys).map
    fun created => do
      let (state, segments) ← created
      let segments ← copyArrays numpy 0 arrays segments
      (state.writeSegments key segments).setItemTreespec key treespec arrDescs

/-- `ShmKVStoreClient.get_array_tree`. -/
def getArrayTree : PyResult DataTree :=
  match state.store.get? key with
  | none => .error (.keyError key)
  | some treespec =>
      match state.storeSharedSegments.get? key with
      | none => .error (.keyError key)
      | some segments => do
          let arrays ←
            (List.range segments.descs.length).mapM segments.getArrayView
          putArraysToData arrays treespec

end ShmKVStore

end TensorPC.Kv
