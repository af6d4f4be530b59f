import TensorPC.Lib.Scatter
import TensorPC.Tsim.BoundsCheck

namespace TensorPC.Tsim

/-!
# Loading and storing

`load` and `store` map the pointers into one block and then index its data with
an array of positions.  What numpy does with single elements is a parameter.
`store` changes the block, and one of its branches may write to the tensor of
values that was passed in.
-/

open Wire (NpDtype)
open Scatter

/-- The operators of `atomic_op` that combine a cell with a value. -/
inductive UpdateOp
  | add
  | and
  | max
  | min
  | or
  | xor
  deriving DecidableEq, Repr

/-- `atomic_op`. -/
inductive AtomicOp
  | update (op : UpdateOp)
  | cas
  | xchg
  deriving DecidableEq, Repr

/-- What is compared with a cell: a scalar, or an element of a tensor. -/
inductive Compared (α : Type)
  | scalar (value : PyScalar)
  | element (dtype : NpDtype) (value : α)

/-- What numpy does with single elements. -/
structure ElementOps (α : Type) where
  /-- The elements of `np.zeros`. -/
  zero : NpDtype → α
  /-- The elements that `np.full` makes of a scalar. -/
  full : NpDtype → PyScalar → PyResult α
  /-- An element of the second dtype assigned to an array of the first. -/
  assign : NpDtype → NpDtype → α → α
  /-- The operators on a memory of the first dtype and values of the second. -/
  update : UpdateOp → NpDtype → NpDtype → PyResult (α → α → α)
  /-- `==`. -/
  equal : NpDtype → α → Compared α → Bool
  /-- `np.where(flag, value, old)`, assigned to the memory. -/
  choose : NpDtype → NpDtype → Bool → α → α → α

variable {α : Type}

/-! ## Created memory -/

/-- A memory as `create_sim_memory` makes it: the dtypes are those of the arrays, and the bytes
can be addressed with 64 bits. -/
structure Created (blocks : List (String × MemoryBlockDesc α)) : Prop where
  laidOut : LaidOut blocks
  distinct : (blocks.map Prod.fst).Nodup
  sameDtype : ∀ entry ∈ blocks, entry.2.dtype = .fromNumpyDtype entry.2.viewDtype
  addressable :
    ∀ entry ∈ blocks, entry.2.byteOffsetWithHole + entry.2.getByteSize ≤ 2 ^ 63

/-- A change of the elements of an array. -/
structure CellsUpdate (α : Type) where
  run : List α → List α
  length_run : ∀ cells, (run cells).length = cells.length

/-- `data_raw[...] = ...`: the block with changed data. -/
def BlockData.write (desc : BlockData α) (update : CellsUpdate α) : BlockData α :=
  { desc with
    dataView := update.run desc.dataView
    sized := (update.length_run desc.dataView).trans desc.sized }

/-- The placed block with changed data. -/
def MemoryBlockDesc.write
    (desc : MemoryBlockDesc α)
    (update : CellsUpdate α) :
    MemoryBlockDesc α :=
  { desc with toBlockData := desc.toBlockData.write update }

/-- The memory with changed data in one block. -/
def writeBlock
    (name : String)
    (update : CellsUpdate α)
    (blocks : List (String × MemoryBlockDesc α)) :
    List (String × MemoryBlockDesc α) :=
  blocks.map fun entry => if entry.1 = name then (entry.1, entry.2.write update) else entry

/-! ## Arguments -/

/-- The `mask` argument. -/
inductive MaskArg
  | flag (value : Bool)
  | tensor (mask : NdArray Bool)

/-- The mask with the shape of the pointer.  A flag is written with `[:]` into an array without
axes, which has no such index. -/
def maskTensor (shape : List Nat) : Option MaskArg → PyResult (Option (NdArray Bool))
  | none => .ok none
  | some (.flag _) => .error .indexError
  | some (.tensor mask) => (mask.broadcastTo shape).map some

/-- The `other` argument. -/
inductive OtherArg (α : Type)
  | scalar (value : PyScalar)
  | tensor (dtype : NpDtype) (data : NdArray α)

/-- An index of an axis with `size` places. -/
def placeOf (size : Nat) (index : Int) : PyResult Nat :=
  match normalizeAxis size index with
  | some place => .ok place
  | none => .error .indexError

/-- `self.memory_blocks[block_name]`. -/
def blockNamed
    (blocks : List (String × MemoryBlockDesc α))
    (name : String) :
    PyResult (MemoryBlockDesc α) :=
  match blocks.lookup name with
  | some desc => .ok desc
  | none => .error (.keyError name)

/-- The check of `load` and `store` that the pointer has the dtype of the data. -/
def checkDtype (dtype : DTypeEnum) (desc : MemoryBlockDesc α) : PyResult Unit := do
  let numpyDtype ← dtype.toNumpyDtype
  if numpyDtype ≠ desc.viewDtype then
    throw .notImplementedError

/-! ## Loading -/

/-- What `load` returns: the elements, nothing where they are not initialised; and for each of
them the place of the block that was read. -/
structure Loaded (α : Type) where
  data : List (Option α)
  touched : List (Option Nat)
  deriving DecidableEq

/-- The shape of a value without the leading axes of size 1 that an assignment ignores. -/
def assignedShape : Nat → List Nat → List Nat
  | ndim, 1 :: shape => if ndim ≤ shape.length then assignedShape ndim shape else 1 :: shape
  | _, shape => shape

theorem prod_assignedShape (ndim : Nat) (shape : List Nat) :
    (assignedShape ndim shape).prod = shape.prod := by
  induction shape with
  | nil =>
      rfl
  | cons size shape inductionHypothesis =>
      unfold assignedShape
      split
      · next same =>
          obtain ⟨rfl, rfl⟩ := List.cons.inj same
          split
          · rw [List.prod_cons, Nat.one_mul]
            exact inductionHypothesis
          · rfl
      · rfl

/-- `output_data[:] = other`, on an array with the given shape. -/
def assignAll
    (ops : ElementOps α)
    (dtype : NpDtype)
    (shape : List Nat) :
    Option (OtherArg α) → PyResult (List (Option α))
  | none => .ok (List.replicate shape.prod none)
  | some other =>
      if shape = [] then
        .error .indexError
      else
        match other with
        | .scalar value =>
            (ops.full dtype value).map fun item => List.replicate shape.prod (some item)
        | .tensor otherDtype other =>
            let stripped : NdArray α := {
              shape := assignedShape shape.length other.shape
              data := other.data
              sized := other.sized.trans (prod_assignedShape _ _).symm }
            (stripped.broadcastTo shape).map fun filled =>
              filled.data.map fun item => some (ops.assign dtype otherDtype item)

/-- What `[~mask_view] = other` puts at the masked positions of `count` elements. -/
def otherItems
    (ops : ElementOps α)
    (dtype : NpDtype)
    (count : Nat) :
    Option (OtherArg α) → PyResult (List (Option α))
  | none => .ok (List.replicate count none)
  | some (.scalar value) =>
      (ops.full dtype value).map fun item => List.replicate count (some item)
  | some (.tensor otherDtype other) =>
      if other.data.length = count then
        .ok (other.data.map fun item => some (ops.assign dtype otherDtype item))
      else
        .error .indexError

/-- The place that is read for one position, if it is not masked. -/
def touchedPlace (size : Nat) (position : Bool × Int) : PyResult (Option Nat) :=
  if position.1 then (placeOf size position.2).map some else .ok none

/-- The bits of a mask, all of them without one. -/
def maskBits (count : Nat) : Option (NdArray Bool) → List Bool
  | some mask => mask.data
  | none => List.replicate count true

/-- `SimMemoryStorage.load`, of single elements. -/
def load
    (ops : ElementOps α)
    (blocks : List (String × MemoryBlockDesc α))
    (pointer : PointerTensor)
    (mask : Option MaskArg)
    (other : Option (OtherArg α)) :
    PyResult (Loaded α) := do
  let mask ← maskTensor pointer.data.shape mask
  let mapResult ← boundryCheckAndMapPointers blocks pointer mask
  if mapResult.allMasked then
    let dtype ← pointer.dtype.toNumpyDtype
    let data ← assignAll ops dtype pointer.data.shape other
    return { data, touched := List.replicate pointer.data.shape.prod none }
  else
    let desc ← blockNamed blocks mapResult.blockName
    checkDtype pointer.dtype desc
    let touched ←
      ((maskBits pointer.data.shape.prod mask).zip mapResult.mapped).mapM (touchedPlace desc.size)
    -- Without a mask `other` is not looked at.
    let others ← otherItems ops desc.viewDtype touched.length (if mask.isSome then other else none)
    return {
      data := (touched.zip others).map fun item =>
        match item.1 with
        | some place => desc.dataView[place]?
        | none => item.2
      touched }

/-! ## Storing -/

/-- The `value` argument.  A tensor is data that belongs to the caller; whether `reshape(-1)` is a
view of it, and of its broadcast to another shape, depends on how it lies in memory. -/
inductive StoreValue
  | scalar (value : PyScalar)
  | tensor (dtype : NpDtype) (isView broadcastIsView : Bool)
  deriving DecidableEq, Repr

/-- What `store` may change: the memory, and the data of the tensor of values. -/
structure StoreState (α : Type) where
  blocks : List (String × MemoryBlockDesc α)
  value : NdArray α
  deriving DecidableEq

/-- What `store` returns. -/
inductive Stored (α : Type)
  | nothing
  | undefined
  | old (data : List α)
  deriving DecidableEq

/-- What `store` works on once the arguments are checked: the place of each unmasked position, and
the lanes that carry values of a dtype to these places of a block. -/
structure Prepared (α : Type) where
  name : String
  desc : MemoryBlockDesc α
  valueDtype : NpDtype
  touched : List (Option Nat)
  lanes : List (Nat × α)
  old : List α

/-- The dtype and the elements that are stored: a scalar is spread in the dtype of the pointer, a
tensor is broadcast to its shape. -/
def storedItems
    (ops : ElementOps α)
    (state : StoreState α)
    (dtype : NpDtype)
    (shape : List Nat) :
    StoreValue → PyResult (NpDtype × List α)
  | .scalar value =>
      (ops.full dtype value).map fun item => (dtype, List.replicate shape.prod item)
  | .tensor valueDtype _ _ =>
      if state.value.shape ≠ shape then
        (state.value.broadcastTo shape).map fun value => (valueDtype, value.data)
      else
        .ok (valueDtype, state.value.data)

/-- The elements of `old`: what the unmasked positions hold, zero elsewhere. -/
def oldItems
    (ops : ElementOps α)
    (desc : MemoryBlockDesc α)
    (touched : List (Option Nat)) :
    List α :=
  touched.map fun place => (place.bind (desc.dataView[·]?)).getD (ops.zero desc.viewDtype)

/-- `store` up to the atomic section; nothing when all positions are masked. -/
def prepareStore
    (ops : ElementOps α)
    (state : StoreState α)
    (pointer : PointerTensor)
    (value : StoreValue)
    (mask : Option (NdArray Bool)) :
    PyResult (Option (Prepared α)) := do
  let mapResult ← boundryCheckAndMapPointers state.blocks pointer mask
  if mapResult.allMasked then
    return none
  else
    let desc ← blockNamed state.blocks mapResult.blockName
    checkDtype pointer.dtype desc
    let stored ← storedItems ops state desc.viewDtype pointer.data.shape value
    let touched ←
      ((maskBits pointer.data.shape.prod mask).zip mapResult.mapped).mapM (touchedPlace desc.size)
    -- Without a mask `old` is written with `[:]`, which an array without axes does not have.
    if mask.isNone && pointer.data.shape.isEmpty then
      throw .indexError
    return some {
      name := mapResult.blockName
      desc
      valueDtype := stored.1
      touched
      lanes := (touched.zip stored.2).filterMap fun lane => lane.1.map fun place => (place, lane.2)
      old := oldItems ops desc touched }

/-- The `atomic_cas_cmp` argument. -/
abbrev CompareArg (α : Type) := OtherArg α

/-- What the cells are compared with, lane by lane: the comparison broadcasts the tensor with
the flat lanes, and the result must fit into the lanes again. -/
def comparedLanes
    (count : Nat) :
    Option (CompareArg α) → PyResult (List (Compared α))
  | none => .error (.assertionError "CAS operation requires atomic_cas_cmp")
  | some (.scalar value) => .ok (List.replicate count (.scalar value))
  | some (.tensor dtype data) =>
      match broadcastRule [count] data.shape with
      | none => .error (.valueError "operands could not be broadcast together")
      | some shape =>
          if shape.dropLast.all (· = 1) && shape.getLast? = some count then
            (data.broadcastTo shape).map fun data => data.data.map (.element dtype)
          else
            .error (.valueError "shape mismatch: value array could not be broadcast")

/-- Assigning the values of the lanes. -/
def assignLanes (ops : ElementOps α) (prepared : Prepared α) : CellsUpdate α where
  run cells := writeLanes cells (prepared.lanes.map fun lane =>
    (lane.1, ops.assign prepared.desc.viewDtype prepared.valueDtype lane.2))
  length_run _ := length_writeLanes _ _

/-- Updating the cells of all lanes at once. -/
def updateLanes {β : Type} (update : α → β → α) (lanes : List (Nat × β)) : CellsUpdate α where
  run cells := updateAtOnce update cells lanes
  length_run _ := length_updateAtOnce update _ lanes

/-- What the atomic section does to the data of the block. -/
def atomicSection
    (ops : ElementOps α)
    (prepared : Prepared α)
    (cmp : Option (CompareArg α)) :
    Option AtomicOp → PyResult (CellsUpdate α)
  | none => .ok (assignLanes ops prepared)
  | some (.update op) => do
      let update ← ops.update op prepared.desc.viewDtype prepared.valueDtype
      return updateLanes update prepared.lanes
  | some .cas => do
      let compared ← comparedLanes prepared.lanes.length cmp
      return updateLanes
        (fun old lane =>
          ops.choose prepared.desc.viewDtype prepared.valueDtype
            (ops.equal prepared.desc.viewDtype old lane.2) lane.1 old)
        ((prepared.lanes.zip compared).map fun lane => (lane.1.1, lane.1.2, lane.2))
  | some .xchg => .ok (assignLanes ops prepared)

/-- `stored_data_raw_masked[:] = tmp` without a mask: the old elements, converted. -/
def exchangedValue
    (ops : ElementOps α)
    (prepared : Prepared α)
    (value : NdArray α)
    (sameLength : prepared.old.length = value.data.length) :
    NdArray α where
  shape := value.shape
  data := prepared.old.map (ops.assign prepared.valueDtype prepared.desc.viewDtype)
  sized := by
    rw [List.length_map, sameLength]
    exact value.sized

/-- What `xchg` does to the tensor of values: with a mask the selected values are a copy, and so
may be the flattened ones; a view of a broadcast tensor cannot be written. -/
def exchange
    (ops : ElementOps α)
    (prepared : Prepared α)
    (shape : List Nat)
    (value : StoreValue) :
    EStateM PyError (StoreState α) PUnit := do
  let state ← get
  match value with
  | .scalar _ => return
  | .tensor _ isView broadcastIsView =>
      if state.value.shape ≠ shape then
        if broadcastIsView then
          throw (.valueError "assignment destination is read-only")
        else
          return
      else if isView then
        if sameLength : prepared.old.length = state.value.data.length then
          set { state with value := exchangedValue ops prepared state.value sameLength }
        else
          return
      else
        return

/-- `SimMemoryStorage.store`. -/
def store
    (ops : ElementOps α)
    (pointer : PointerTensor)
    (value : StoreValue)
    (mask : Option MaskArg)
    (atomicOp : Option AtomicOp)
    (cmp : Option (CompareArg α)) :
    EStateM PyError (StoreState α) (Stored α) := do
  let state ← get
  match maskTensor pointer.data.shape mask with
  | .error raised => throw raised
  | .ok mask =>
      match prepareStore ops state pointer value mask with
      | .error raised => throw raised
      | .ok none => return if atomicOp.isSome then .undefined else .nothing
      | .ok (some prepared) =>
          match atomicSection ops prepared cmp atomicOp with
          | .error raised => throw raised
          | .ok update => do
              set { state with blocks := writeBlock prepared.name update state.blocks }
              if atomicOp = some .xchg && mask.isNone then
                exchange ops prepared pointer.data.shape value
              return .old prepared.old

end TensorPC.Tsim
