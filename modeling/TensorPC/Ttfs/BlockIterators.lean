import TensorPC.Ttfs.OffsetAll

namespace TensorPC.Ttfs

/-!
# Block iterators

An iterator over the blocks of several tensors along one dimension keeps the
addresses of the current blocks and moves them by strides.  The scatter iterator
keeps the addresses of the first blocks and a block number.  A tile is a function
of the lane in the block, one coordinate for each block axis.
-/

open TensorManager

/-- `BlockedTensorDesc`: a tensor of a manager with a pointer, and the names and
sizes of the block axes.  The manager has the internal offsets of dimensions and
the known divisors of dimensions whose sizes are not known. -/
structure BlockedTensorDesc where
  name : String
  mgr : TensorManager Int
  internalOffsets : List (String × Int)
  dimMultipleOf : List (String × Int)
  desc : TensorDesc Int
  ptr : Int
  block : List (String × Nat)

namespace BlockedTensorDesc

/-- `get_block_size_by_name`; the name is looked up as it is written. -/
def getBlockSizeByName
    (desc : BlockedTensorDesc)
    (name : String) :
    PyResult Int :=
  match desc.block.lookup name with
  | some size => .ok size
  | none => .error (.assertionError name)

/-- `get_dim_size_by_name`. -/
def getDimSizeByName
    (desc : BlockedTensorDesc)
    (name : String) :
    PyResult Int := do
  let unified ← desc.desc.localNameToGlobal name
  return (desc.mgr.sizes unified).number

/-- `_get_dim_by_block_dim_name`. -/
def getDimByBlockDimName
    (desc : BlockedTensorDesc)
    (name : String) :
    PyResult Nat := do
  let unified ← desc.desc.localNameToGlobal name
  let blockUnified ← desc.block.mapM fun axis => desc.desc.localNameToGlobal axis.1
  pyAssert (blockUnified.contains unified) unified
  return blockUnified.idxOf unified

/-- What `get_blocked_offset_by_idx` adds to the lanes of an axis. -/
def getInternalOffset
    (desc : BlockedTensorDesc)
    (name : String) :
    PyResult Int := do
  let unified ← desc.desc.localNameToGlobal name
  return (desc.internalOffsets.lookup unified).getD 0

/-- `get_stride_by_name`. -/
def getStrideByName
    (desc : BlockedTensorDesc)
    (name : String) :
    PyResult Int := do
  let stride ← desc.mgr.getTensorStrideByName desc.desc name
  return stride.number

/-- `get_blocked_offset_by_idx` for one block axis, expanded to the block.  The axis
of the tile is looked up by name once more. -/
def getBlockedOffset
    (desc : BlockedTensorDesc)
    (axis : String × Nat) :
    PyResult (List Int → Int) := do
  let internal ← desc.getInternalOffset axis.1
  let place ← desc.getDimByBlockDimName axis.1
  return fun lanes => lanes.getD place 0 + internal

/-- `get_blocked_ptrs`.  From five axes on the first offset has no stride. -/
def getBlockedPtrs
    (desc : BlockedTensorDesc) :
    PyResult (List Int → Int) := do
  let strides ← desc.block.mapM fun axis => desc.getStrideByName axis.1
  let blocked ← desc.block.mapM desc.getBlockedOffset
  return fun lanes =>
    let offsets := blocked.map fun offset => offset lanes
    if strides.length ≤ 4 then
      desc.ptr + dot offsets strides
    else
      desc.ptr + (offsets.headD 0 + dot offsets.tail strides.tail)

/-- `get_blocked_offsets`.  The first offset has no stride for any number of axes. -/
def getBlockedOffsets
    (desc : BlockedTensorDesc) :
    PyResult (List Int → Int) := do
  let strides ← desc.block.mapM fun axis => desc.getStrideByName axis.1
  let blocked ← desc.block.mapM desc.getBlockedOffset
  return fun lanes =>
    let offsets := blocked.map fun offset => offset lanes
    offsets.headD 0 + dot offsets.tail strides.tail

/-- `_get_block_dim_is_divisible`. -/
def getBlockDimIsDivisible
    (desc : BlockedTensorDesc)
    (axis : String × Nat) :
    PyResult Bool := do
  let unified ← desc.desc.localNameToGlobal axis.1
  match desc.mgr.sizes unified with
  | .constexpr size => return size % axis.2 = 0
  | .value _ => return ((desc.dimMultipleOf.lookup axis.1).getD 1) % axis.2 = 0

/-- `_get_block_axes_is_divisible`, which gives the axes that are not. -/
def getBlockAxesIsDivisible
    (desc : BlockedTensorDesc)
    (exceptAxis : Option Nat) :
    PyResult (List Nat) := do
  let divisible ← desc.block.mapM desc.getBlockDimIsDivisible
  pyAssert (exceptAxis.all fun axis => axis < desc.block.length) ""
  return (List.range desc.block.length).filter fun axis =>
    !divisible.getD axis true && some axis != exceptAxis

/-- `is_need_block_mask`. -/
def isNeedBlockMask
    (desc : BlockedTensorDesc)
    (exceptAxis : Option Nat) :
    PyResult Bool := do
  let axes ← desc.getBlockAxesIsDivisible exceptAxis
  return !axes.isEmpty

/-- The part of `get_blocked_masks` for one axis. -/
def blockedMask
    (desc : BlockedTensorDesc)
    (axis : String × Nat) :
    PyResult (List Int → Bool) := do
  let offset ← desc.getBlockedOffset axis
  let size ← desc.getDimSizeByName axis.1
  return fun lanes => offset lanes < size

/-- `get_blocked_masks`. -/
def getBlockedMasks
    (desc : BlockedTensorDesc)
    (exceptAxis : Option Nat) :
    PyResult (List Int → Bool) := do
  let axes ← desc.getBlockAxesIsDivisible exceptAxis
  pyAssert (!axes.isEmpty) "use `is_need_block_mask` to check before get mask."
  let masks ← desc.block.mapM desc.blockedMask
  return fun lanes => axes.all fun axis => (masks.getD axis fun _ => true) lanes

/-- `get_blocked_masks_except_dim_name`. -/
def getBlockedMasksExceptDimName
    (desc : BlockedTensorDesc)
    (name : String) :
    PyResult (List Int → Bool) := do
  let _ ← desc.getBlockSizeByName name
  desc.getBlockedMasks (some ((desc.block.map Prod.fst).idxOf name))

end BlockedTensorDesc

/-! ## Grouped iterators -/

/-- The iterator classes: `GroupedPointerIO`, `GroupedPointerWithSingleMaskIO` and
`GroupedPointerWithFullMaskIO`. -/
inductive IoKind where
  | pointer
  | singleMask
  | fullMask

structure GroupedIo where
  kind : IoKind
  pointers : List (List Int → Int)
  blockedDescs : List BlockedTensorDesc
  mainAxisName : String
  incStrides : List Int
  offsetsMain : Int → Int
  remainMask : List Int → Bool

/-- The addresses and, if there is one, the mask of a load or a store. -/
structure Access where
  address : List Int → Int
  mask : Option (List Int → Bool)

/-- `names.index`. -/
def getTensorIdx
    (descs : List BlockedTensorDesc)
    (name : String) :
    PyResult Nat :=
  if name ∈ descs.map BlockedTensorDesc.name then
    .ok ((descs.map BlockedTensorDesc.name).idxOf name)
  else
    .error (.valueError name)

/-- `create_grouped_io_iter`. -/
def createGroupedIoIter
    (descs : List BlockedTensorDesc)
    (mainAxisName : String)
    (kind : IoKind) :
    PyResult GroupedIo := do
  let pointers ← descs.mapM BlockedTensorDesc.getBlockedPtrs
  let strides ← descs.mapM fun desc => desc.getStrideByName mainAxisName
  match kind with
  | .pointer => do
      let sizes ← descs.mapM fun desc => desc.getBlockSizeByName mainAxisName
      return ⟨.pointer, pointers, descs, mainAxisName, List.zipWith (· * ·) strides sizes,
        fun lane => lane, fun _ => true⟩
  | .singleMask =>
      match descs with
      | [] => .error .indexError
      | first :: _ => do
          let internal ← first.getInternalOffset mainAxisName
          return ⟨.singleMask, pointers, descs, mainAxisName, strides,
            fun lane => lane + internal, fun _ => true⟩
  | .fullMask =>
      match descs with
      | [] => .error .indexError
      | first :: rest => do
          let internal ← first.getInternalOffset mainAxisName
          pyAssert rest.isEmpty "Currently only support single blocked desc for full_mask=True"
          let remain ← first.getBlockedMasksExceptDimName mainAxisName
          return ⟨.fullMask, pointers, descs, mainAxisName, strides,
            fun lane => lane + internal, remain⟩

/-- `increment` of the three classes. -/
def GroupedIo.increment
    (io : GroupedIo)
    (incBlock : Int) :
    PyResult GroupedIo :=
  match io.kind with
  | .pointer =>
      .ok { io with
        pointers := List.zipWith (fun pointer stride => fun lanes =>
          pointer lanes + incBlock * stride) io.pointers io.incStrides }
  | _ => do
      let sizes ← io.blockedDescs.mapM fun desc => desc.getBlockSizeByName io.mainAxisName
      return { io with
        pointers := List.zipWith (fun pointer moved => fun lanes => pointer lanes + moved)
          io.pointers (List.zipWith (fun size stride => incBlock * size * stride)
            sizes io.incStrides)
        offsetsMain := fun lane => io.offsetsMain lane + incBlock * sizes.headD 0 }

/-- Calls of `increment`, one after the other. -/
def GroupedIo.increments
    (io : GroupedIo) :
    List Int → PyResult GroupedIo
  | [] => .ok io
  | incBlock :: rest => do
      let next ← io.increment incBlock
      next.increments rest

/-- What `load` and `store` use for a tensor. -/
def GroupedIo.access
    (io : GroupedIo)
    (name : String) :
    PyResult Access := do
  let idx ← getTensorIdx io.blockedDescs name
  match io.pointers[idx]?, io.blockedDescs[idx]? with
  | some pointer, some desc =>
      match io.kind with
      | .pointer => return ⟨pointer, none⟩
      | kind => do
          let boundary ← desc.getDimSizeByName io.mainAxisName
          let blockIdx ← desc.getDimByBlockDimName io.mainAxisName
          let main : List Int → Bool := fun lanes =>
            io.offsetsMain (lanes.getD blockIdx 0) < boundary
          match kind with
          | .fullMask => return ⟨pointer, some fun lanes => main lanes && io.remainMask lanes⟩
          | _ => return ⟨pointer, some main⟩
  | _, _ => .error .indexError

/-- `GroupedScatterIO`. -/
structure GroupedScatterIo where
  pointers : List (List Int → Int)
  blockedDescs : List BlockedTensorDesc
  mainAxisName : String
  applyMask : Bool
  idxMain : Int

/-- `create_grouped_scatter_io_iter`, which reads the block sizes as well. -/
def createGroupedScatterIoIter
    (descs : List BlockedTensorDesc)
    (mainAxisName : String)
    (mainMask : Bool) :
    PyResult GroupedScatterIo := do
  let pointers ← descs.mapM BlockedTensorDesc.getBlockedPtrs
  let _ ← descs.mapM fun desc => desc.getStrideByName mainAxisName
  let _ ← descs.mapM fun desc => desc.getBlockSizeByName mainAxisName
  return ⟨pointers, descs, mainAxisName, mainMask, 0⟩

def GroupedScatterIo.replaceOffset
    (io : GroupedScatterIo)
    (newIdx : Int) :
    GroupedScatterIo :=
  { io with idxMain := newIdx }

def GroupedScatterIo.access
    (io : GroupedScatterIo)
    (name : String) :
    PyResult Access := do
  let idx ← getTensorIdx io.blockedDescs name
  match io.pointers[idx]?, io.blockedDescs[idx]? with
  | some pointer, some desc => do
      let blockSize ← desc.getBlockSizeByName io.mainAxisName
      let stride ← desc.getStrideByName io.mainAxisName
      let address : List Int → Int := fun lanes =>
        pointer lanes + io.idxMain * blockSize * stride
      if io.applyMask then do
        let internal ← desc.getInternalOffset io.mainAxisName
        let blockIdx ← desc.getDimByBlockDimName io.mainAxisName
        let boundary ← desc.getDimSizeByName io.mainAxisName
        return ⟨address, some fun lanes =>
          lanes.getD blockIdx 0 + internal + io.idxMain * blockSize < boundary⟩
      else
        return ⟨address, none⟩
  | _, _ => .error .indexError

end TensorPC.Ttfs
