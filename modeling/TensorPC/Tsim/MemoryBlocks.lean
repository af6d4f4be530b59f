import TensorPC.Tsim.Numpy
import Mathlib

namespace TensorPC.Tsim

/-!
# Arrays with their elements

Where the simulator reads and writes memory the elements of an array matter.
An array is its shape with its elements in C order.  Integers of 64 bits are
integers; what numpy computes with them wraps around.
-/

/-- An array: its shape, and its elements with the last axis running first. -/
@[ext]
structure NdArray (α : Type) where
  shape : List Nat
  data : List α
  sized : data.length = shape.prod
  deriving DecidableEq

variable {α β : Type}

namespace NdArray

/-- `ndim`. -/
def ndim (array : NdArray α) : Nat :=
  array.shape.length

/-- `np.full(shape, value)`. -/
def full (shape : List Nat) (value : α) : NdArray α where
  shape := shape
  data := List.replicate shape.prod value
  sized := List.length_replicate

end NdArray

/-! ## Indexing with a mask -/

/-- The chunks of some length whose bit is set. -/
def selectChunks (length : Nat) : List Bool → List α → List α
  | [], _ => []
  | bit :: bits, data =>
      (if bit then data.take length else []) ++ selectChunks length bits (data.drop length)

/-- `array[mask]`: the mask has the first axes of the array. -/
def NdArray.booleanIndex (array : NdArray α) (mask : NdArray Bool) : PyResult (List α) :=
  if mask.shape <+: array.shape then
    .ok (selectChunks (array.shape.drop mask.ndim).prod mask.data array.data)
  else
    .error .indexError

/-- The elements whose bit is set. -/
def unmasked (mask : List Bool) (data : List α) : List α :=
  ((data.zip mask).filter Prod.snd).map Prod.fst

@[simp] theorem unmasked_nil (data : List α) : unmasked [] data = [] := by
  simp [unmasked]

@[simp] theorem unmasked_cons
    (bit : Bool)
    (mask : List Bool)
    (item : α)
    (data : List α) :
    unmasked (bit :: mask) (item :: data) =
      if bit then item :: unmasked mask data else unmasked mask data := by
  cases bit <;> rfl

theorem selectChunks_one
    {mask : List Bool}
    {data : List α}
    (sameLength : data.length = mask.length) :
    selectChunks 1 mask data = unmasked mask data := by
  induction mask generalizing data with
  | nil =>
      simp [selectChunks]
  | cons bit mask inductionHypothesis =>
      cases data with
      | nil =>
          cases sameLength
      | cons item data =>
          rw [selectChunks, unmasked_cons, List.drop_succ_cons, List.drop_zero,
            inductionHypothesis (Nat.succ.inj sameLength)]
          cases bit <;> rfl

theorem NdArray.booleanIndex_eq
    {array : NdArray α}
    {mask : NdArray Bool}
    (sameShape : mask.shape = array.shape) :
    array.booleanIndex mask = .ok (unmasked mask.data array.data) := by
  have sameLength : array.data.length = mask.data.length := by
    rw [array.sized, mask.sized, sameShape]
  have noAxis : array.shape.drop mask.ndim = [] := by
    rw [NdArray.ndim, sameShape]
    exact List.drop_length
  have isStart : mask.shape <+: array.shape := by
    simp only [sameShape, List.prefix_rfl]
  rw [NdArray.booleanIndex, if_pos isStart, noAxis, List.prod_nil, selectChunks_one sameLength]

/-! ## Broadcasting -/

theorem broadcastRule_self (shape : List Nat) :
    broadcastRule shape shape = some shape := by
  have reversed : ∀ sizes : List Nat, broadcastReversed sizes sizes = some sizes := by
    intro sizes
    induction sizes with
    | nil =>
        rfl
    | cons size sizes inductionHypothesis =>
        simp [broadcastReversed, broadcastSize, inductionHypothesis]
  simp [broadcastRule, reversed]

/-- The elements of an array repeated along the axes that have size 1; both shapes have as
many axes, and the array is read in parts of the given size. -/
def broadcastData : List (Nat × Nat) → List α → List α
  | [], data => data
  | (size, newSize) :: axes, data =>
      if size = newSize then
        (List.range size).flatMap fun index =>
          broadcastData axes
            ((data.drop (index * (axes.map Prod.fst).prod)).take (axes.map Prod.fst).prod)
      else
        (List.replicate newSize (broadcastData axes (data.take (axes.map Prod.fst).prod))).flatten

/-- What broadcasting axis by axis gives has as many elements as the new shape says. -/
theorem length_broadcastData
    {axes : List (Nat × Nat)}
    {data : List α}
    (fits : ∀ axis ∈ axes, axis.1 = axis.2 ∨ axis.1 = 1)
    (sized : data.length = (axes.map Prod.fst).prod) :
    (broadcastData axes data).length = (axes.map Prod.snd).prod := by
  induction axes generalizing data with
  | nil =>
      simpa [broadcastData] using sized
  | cons axis axes inductionHypothesis =>
      obtain ⟨size, newSize⟩ := axis
      obtain ⟨fitsFirst, fitsRest⟩ := List.forall_mem_cons.mp fits
      rw [List.map_cons, List.prod_cons] at sized
      unfold broadcastData
      split
      · next same =>
          subst same
          have part :
              ∀ index ∈ List.range size,
                (broadcastData axes
                  ((data.drop (index * (axes.map Prod.fst).prod)).take
                    (axes.map Prod.fst).prod)).length = (axes.map Prod.snd).prod := by
            intro index inRange
            refine inductionHypothesis fitsRest ?_
            have before : (index + 1) * (axes.map Prod.fst).prod ≤ data.length := by
              rw [sized]
              exact Nat.mul_le_mul_right _ (List.mem_range.mp inRange)
            rw [Nat.succ_mul] at before
            rw [List.length_take, List.length_drop]
            exact Nat.min_eq_left (Nat.le_sub_of_add_le' before)
          rw [List.length_flatMap, List.map_congr_left part]
          simp
      · next different =>
          have one : size = 1 :=
            fitsFirst.resolve_left different
          subst one
          rw [Nat.one_mul] at sized
          have all : data.take (axes.map Prod.fst).prod = data :=
            List.take_of_length_le (Nat.le_of_eq sized)
          rw [all, List.length_flatten, List.map_replicate, inductionHypothesis fitsRest sized]
          simp

/-- The axes of a shape beside those of a longer one, with axes of size 1 in front. -/
def alignedAxes (shape newShape : List Nat) : List (Nat × Nat) :=
  (List.replicate (newShape.length - shape.length) 1 ++ shape).zip newShape

/-- Whether a shape can be broadcast to another one: no longer, and each axis the same or 1. -/
def canBroadcast (shape newShape : List Nat) : Bool :=
  decide (shape.length ≤ newShape.length) &&
    (alignedAxes shape newShape).all fun axis => axis.1 = axis.2 || axis.1 = 1

theorem length_alignedAxes
    {shape newShape : List Nat}
    (short : shape.length ≤ newShape.length) :
    (List.replicate (newShape.length - shape.length) 1 ++ shape).length = newShape.length := by
  rw [List.length_append, List.length_replicate, Nat.sub_add_cancel short]

/-- `np.broadcast_to`. -/
def NdArray.broadcastTo (array : NdArray α) (newShape : List Nat) : PyResult (NdArray α) :=
  if fits : canBroadcast array.shape newShape = true then
    .ok {
      shape := newShape
      data := broadcastData (alignedAxes array.shape newShape) array.data
      sized := by
        obtain ⟨short, axes⟩ := Bool.and_eq_true_iff.mp fits
        have lengths := length_alignedAxes (of_decide_eq_true short)
        rw [length_broadcastData]
        · rw [alignedAxes, List.map_snd_zip (Nat.le_of_eq lengths.symm)]
        · intro axis member
          simpa using List.all_eq_true.mp axes axis member
        · rw [alignedAxes, List.map_fst_zip (Nat.le_of_eq lengths), List.prod_append, List.prod_replicate,
            Nat.one_pow, Nat.one_mul]
          exact array.sized }
  else
    .error (.valueError "operands could not be broadcast together with remapped shapes")

theorem flatMap_parts
    (part : Nat)
    (data : List α)
    (count : Nat) :
    ((List.range count).flatMap fun index => (data.drop (index * part)).take part) =
      data.take (count * part) := by
  induction count with
  | zero =>
      simp
  | succ count inductionHypothesis =>
      rw [List.range_succ, List.flatMap_append, inductionHypothesis, List.flatMap_singleton,
        Nat.succ_mul, List.take_add]

/-- Nothing is repeated when no axis is enlarged. -/
theorem broadcastData_same
    {axes : List (Nat × Nat)}
    {data : List α}
    (same : ∀ axis ∈ axes, axis.1 = axis.2)
    (sized : data.length = (axes.map Prod.fst).prod) :
    broadcastData axes data = data := by
  induction axes generalizing data with
  | nil =>
      rfl
  | cons axis axes inductionHypothesis =>
      obtain ⟨size, newSize⟩ := axis
      obtain ⟨first, rest⟩ := List.forall_mem_cons.mp same
      rw [List.map_cons, List.prod_cons] at sized
      rw [broadcastData, if_pos first]
      have parts :
          ((List.range size).flatMap fun index =>
              broadcastData axes
                ((data.drop (index * (axes.map Prod.fst).prod)).take (axes.map Prod.fst).prod)) =
            (List.range size).flatMap fun index =>
              (data.drop (index * (axes.map Prod.fst).prod)).take (axes.map Prod.fst).prod := by
        refine List.flatMap_congr fun index inRange => inductionHypothesis rest ?_
        have before : (index + 1) * (axes.map Prod.fst).prod ≤ data.length := by
          rw [sized]
          exact Nat.mul_le_mul_right _ (List.mem_range.mp inRange)
        rw [Nat.succ_mul] at before
        rw [List.length_take, List.length_drop]
        exact Nat.min_eq_left (Nat.le_sub_of_add_le' before)
      rw [parts, flatMap_parts]
      exact List.take_of_length_le (Nat.le_of_eq sized)

/-- An array is broadcast to its own shape by leaving it as it is. -/
theorem NdArray.broadcastTo_self
    {array : NdArray α}
    {shape : List Nat}
    (sameShape : array.shape = shape) :
    array.broadcastTo shape = .ok array := by
  subst sameShape
  have aligned : alignedAxes array.shape array.shape = array.shape.zip array.shape := by
    simp [alignedAxes]
  have same : ∀ axis ∈ array.shape.zip array.shape, axis.1 = axis.2 := by
    intro axis member
    obtain ⟨index, inRange, rfl⟩ := List.mem_iff_getElem.mp member
    simp
  have fits : canBroadcast array.shape array.shape = true := by
    rw [canBroadcast, aligned, decide_eq_true (Nat.le_refl _), Bool.true_and, List.all_eq_true]
    intro axis member
    simp [same axis member]
  rw [NdArray.broadcastTo, dif_pos fits]
  refine congrArg Except.ok (NdArray.ext rfl ?_)
  change broadcastData (alignedAxes array.shape array.shape) array.data = array.data
  rw [aligned]
  refine broadcastData_same same ?_
  rw [List.map_fst_zip (Nat.le_refl _)]
  exact array.sized

theorem NdArray.shape_of_broadcastTo
    {array result : NdArray α}
    {newShape : List Nat}
    (broadcast : array.broadcastTo newShape = .ok result) :
    result.shape = newShape := by
  unfold NdArray.broadcastTo at broadcast
  split at broadcast
  · obtain rfl := Except.ok.inj broadcast
    rfl
  · cases broadcast

/-! ## Integers of 64 bits -/

/-- What a 64-bit integer keeps of an integer. -/
def wrapInt64 (value : Int) : Int :=
  value.bmod (2 ^ 64)

/-- The values of a 64-bit integer. -/
def IsInt64 (value : Int) : Prop :=
  -2 ^ 63 ≤ value ∧ value < 2 ^ 63

instance (value : Int) : Decidable (IsInt64 value) :=
  inferInstanceAs (Decidable (_ ∧ _))

theorem wrapInt64_of_isInt64
    {value : Int}
    (fits : IsInt64 value) :
    wrapInt64 value = value := by
  obtain ⟨low, high⟩ := fits
  unfold wrapInt64
  exact Int.bmod_eq_of_le (by omega) (by omega)

theorem wrapInt64_of_lt
    (value : Int)
    (low : -2 ^ 64 < value)
    (high : value < 2 ^ 63) :
    wrapInt64 value = value ∨ value < -2 ^ 63 ∧ wrapInt64 value = value + 2 ^ 64 := by
  by_cases fits : -2 ^ 63 ≤ value
  · exact .inl (wrapInt64_of_isInt64 ⟨fits, high⟩)
  · refine .inr ⟨by omega, ?_⟩
    have moved : wrapInt64 value = wrapInt64 (value + 2 ^ 64) :=
      (Int.add_bmod_right value (2 ^ 64)).symm
    rw [moved]
    exact wrapInt64_of_isInt64 ⟨by omega, by omega⟩

theorem isInt64_wrapInt64 (value : Int) : IsInt64 (wrapInt64 value) := by
  unfold wrapInt64 IsInt64
  have low := @Int.le_bmod value (2 ^ 64) (by decide)
  have high := @Int.bmod_lt value (2 ^ 64) (by decide)
  omega

/-- It makes no difference whether a part wraps around before. -/
@[simp] theorem wrapInt64_add_wrapInt64 (first second : Int) :
    wrapInt64 (first + wrapInt64 second) = wrapInt64 (first + second) :=
  Int.add_bmod_bmod

@[simp] theorem wrapInt64_wrapInt64_mul (first second : Int) :
    wrapInt64 (wrapInt64 first * second) = wrapInt64 (first * second) :=
  Int.bmod_mul_bmod

end TensorPC.Tsim

namespace TensorPC.Tsim

/-!
# Blocks of simulated memory

The blocks are laid out twice: one after another in one buffer, and with holes
of random sizes between them.  Pointers are positions in the second layout, in
elements; a pointer is looked up by the byte it stands for.
-/

open Wire (NpDtype)

/-- `DTypeEnum`. -/
inductive DTypeEnum
  | float32
  | float64
  | int8
  | int16
  | int32
  | int64
  | uint8
  | uint16
  | uint32
  | uint64
  | bool_
  | float16
  | bfloat16
  | float8e5
  | float8e5b16
  | float8e4nv
  | float8e4b8
  | float8e4b15
  deriving DecidableEq, Repr

namespace DTypeEnum

/-- `DTypeEnum.from_numpy_dtype`. -/
def fromNumpyDtype : NpDtype → DTypeEnum
  | .float32 => float32
  | .float64 => float64
  | .int8 => int8
  | .int16 => int16
  | .int32 => int32
  | .int64 => int64
  | .float16 => float16
  | .uint8 => uint8
  | .uint16 => uint16
  | .uint32 => uint32
  | .uint64 => uint64
  | .bool => bool_

/-- `_DTYPE_TO_NUM_BITS`. -/
def bitSize : DTypeEnum → Nat
  | float64 | int64 | uint64 => 64
  | float32 | int32 | uint32 => 32
  | float16 | bfloat16 | int16 | uint16 => 16
  | float8e5 | float8e5b16 | float8e4nv | float8e4b8 | float8e4b15 => 8
  | int8 | uint8 | bool_ => 8

/-- `byte_size`. -/
def byteSize (dtype : DTypeEnum) : Nat :=
  dtype.bitSize / 8

/-- `to_numpy_dtype` outside of a simulation context. -/
def toNumpyDtype : DTypeEnum → PyResult NpDtype
  | float32 => .ok .float32
  | float64 => .ok .float64
  | int8 => .ok .int8
  | int16 => .ok .int16
  | int32 => .ok .int32
  | int64 => .ok .int64
  | float16 => .ok .float16
  | uint8 => .ok .uint8
  | uint16 => .ok .uint16
  | uint32 => .ok .uint32
  | uint64 => .ok .uint64
  | bool_ => .ok .bool
  | bfloat16 | float8e5 | float8e5b16 | float8e4nv | float8e4b8 | float8e4b15 =>
      .error (.valueError "Unsupported DTypeEnum")

/-- The numpy dtype of a dtype that came from one. -/
@[simp] theorem toNumpyDtype_fromNumpyDtype (dtype : NpDtype) :
    (fromNumpyDtype dtype).toNumpyDtype = .ok dtype := by
  cases dtype <;> rfl

theorem byteSize_pos (dtype : DTypeEnum) : 0 < dtype.byteSize := by
  cases dtype <;> decide

theorem bitSize_eq (dtype : DTypeEnum) : dtype.bitSize = dtype.byteSize * 8 := by
  cases dtype <;> rfl

theorem byteSize_dvd (dtype : DTypeEnum) : dtype.byteSize ∣ 128 := by
  cases dtype <;> decide

end DTypeEnum

/-- `_align_up`. -/
def alignUp (a b : Nat) : Nat :=
  (a + b - 1) / b * b

theorem le_alignUp (a : Nat) : a ≤ alignUp a 128 := by
  unfold alignUp
  omega

theorem dvd_alignUp (a b : Nat) : b ∣ alignUp a b :=
  Nat.dvd_mul_left b _

variable {α : Type}

/-- What `create_sim_memory` knows of a block before it is placed: its data, with the name
that the simulator has for the dtype. -/
structure BlockData (α : Type) where
  size : Nat
  dtype : DTypeEnum
  /-- The dtype of the numpy array. -/
  viewDtype : NpDtype
  dataView : List α
  sized : dataView.length = size
  deriving DecidableEq

/-- `get_byte_size`. -/
def BlockData.getByteSize (desc : BlockData α) : Nat :=
  desc.size * desc.dtype.bitSize / 8

theorem BlockData.getByteSize_eq (desc : BlockData α) :
    desc.getByteSize = desc.size * desc.dtype.byteSize := by
  rw [BlockData.getByteSize, DTypeEnum.bitSize_eq, ← Nat.mul_assoc,
    Nat.mul_div_cancel _ (by decide)]

/-- `MemoryBlockDesc`, placed. -/
structure MemoryBlockDesc (α : Type) extends BlockData α where
  byteOffset : Nat
  byteOffsetWithHole : Nat
  deriving DecidableEq

/-- The bytes of a block without holes. -/
def MemoryBlockDesc.bytes (desc : MemoryBlockDesc α) : Set Int :=
  Set.Ico (desc.byteOffset : Int) (desc.byteOffset + desc.getByteSize)

/-- The bytes of a block with holes. -/
def MemoryBlockDesc.bytesWithHole (desc : MemoryBlockDesc α) : Set Int :=
  Set.Ico (desc.byteOffsetWithHole : Int) (desc.byteOffsetWithHole + desc.getByteSize)

instance (desc : MemoryBlockDesc α) (byte : Int) : Decidable (byte ∈ desc.bytesWithHole) :=
  inferInstanceAs (Decidable (_ ∧ _))

/-- `byte_offset_with_hole // dtype.byte_size()`. -/
def MemoryBlockDesc.offsetWithHole (desc : MemoryBlockDesc α) : Nat :=
  desc.byteOffsetWithHole / desc.dtype.byteSize

/-- The loop of `assign_random_memory_block_offset`, with the size of the hole drawn for each
block; the result is returned with the final `start`. -/
def assignOffsets (holeSize : Nat → Nat) :
    Nat → Nat → Nat → List (String × BlockData α) →
      List (String × MemoryBlockDesc α) × Nat
  | _, start, _, [] => ([], start)
  | index, start, startWithHole, (name, v) :: rest =>
      let placed := assignOffsets holeSize (index + 1)
        (alignUp (start + v.getByteSize) 128)
        (alignUp (startWithHole + (v.getByteSize + holeSize index)) 128) rest
      ((name, { v with byteOffset := start, byteOffsetWithHole := startWithHole }) :: placed.1,
        placed.2)

/-- `assign_random_memory_block_offset`. -/
def assignRandomMemoryBlockOffset
    (descs : List (String × BlockData α))
    (holeSize : Nat → Nat) :
    List (String × MemoryBlockDesc α) × Nat :=
  assignOffsets holeSize 0 0 0 descs

/-- Blocks as `assign_random_memory_block_offset` places them. -/
def LaidOut (blocks : List (String × MemoryBlockDesc α)) : Prop :=
  ∃ descs holeSize, blocks = (assignRandomMemoryBlockOffset descs holeSize).1

/-! ## The blocks are apart -/

/-- Where the blocks placed from a position on lie. -/
structure PlacedFrom
    (start startWithHole : Nat)
    (desc : MemoryBlockDesc α) :
    Prop where
  after : start ≤ desc.byteOffset
  afterWithHole : startWithHole ≤ desc.byteOffsetWithHole
  aligned : 128 ∣ startWithHole → 128 ∣ desc.byteOffsetWithHole

theorem placedFrom_assignOffsets
    {holeSize : Nat → Nat}
    {index start startWithHole : Nat}
    {descs : List (String × BlockData α)} :
    ∀ entry ∈ (assignOffsets holeSize index start startWithHole descs).1,
      PlacedFrom start startWithHole entry.2 := by
  induction descs generalizing index start startWithHole with
  | nil =>
      intro entry member
      cases member
  | cons first rest inductionHypothesis =>
      obtain ⟨name, v⟩ := first
      intro entry member
      rcases List.mem_cons.mp member with isFirst | inRest
      · subst isFirst
        exact ⟨Nat.le_refl _, Nat.le_refl _, id⟩
      · have placed := inductionHypothesis entry inRest
        refine ⟨?_, ?_, fun _ => placed.aligned (dvd_alignUp _ _)⟩
        · exact (Nat.le_add_right _ _).trans ((le_alignUp _).trans placed.after)
        · exact (Nat.le_add_right _ _).trans ((le_alignUp _).trans placed.afterWithHole)

theorem pairwise_assignOffsets
    {holeSize : Nat → Nat}
    {index start startWithHole : Nat}
    {descs : List (String × BlockData α)} :
    (assignOffsets holeSize index start startWithHole descs).1.Pairwise fun first second =>
      first.2.byteOffset + first.2.getByteSize ≤ second.2.byteOffset ∧
        first.2.byteOffsetWithHole + first.2.getByteSize ≤ second.2.byteOffsetWithHole := by
  induction descs generalizing index start startWithHole with
  | nil =>
      exact .nil
  | cons first rest inductionHypothesis =>
      obtain ⟨name, v⟩ := first
      refine .cons (fun entry member => ?_) inductionHypothesis
      have placed := placedFrom_assignOffsets entry member
      constructor
      · exact (le_alignUp _).trans placed.after
      · refine Nat.le_trans ?_ ((le_alignUp _).trans placed.afterWithHole)
        exact Nat.add_le_add_left (Nat.le_add_right _ _) _

theorem LaidOut.disjoint
    {blocks : List (String × MemoryBlockDesc α)}
    (laidOut : LaidOut blocks) :
    blocks.Pairwise fun first second =>
      Disjoint first.2.bytes second.2.bytes ∧
        Disjoint first.2.bytesWithHole second.2.bytesWithHole := by
  obtain ⟨descs, holeSize, rfl⟩ := laidOut
  refine pairwise_assignOffsets.imp fun {first second} apart => ?_
  have separate :
      ∀ {a b c d : Int}, b ≤ c → Disjoint (Set.Ico a b) (Set.Ico c d) := by
    intro a b c d before
    rw [Set.disjoint_left]
    rintro byte ⟨_, below⟩ ⟨above, _⟩
    exact absurd (below.trans_le before) (Int.not_lt.mpr above)
  exact ⟨separate (mod_cast apart.1), separate (mod_cast apart.2)⟩

/-- A byte belongs to at most one block. -/
theorem LaidOut.unique
    {blocks : List (String × MemoryBlockDesc α)}
    (laidOut : LaidOut blocks)
    {first second : String × MemoryBlockDesc α}
    {byte : Int}
    (isFirst : first ∈ blocks)
    (isSecond : second ∈ blocks)
    (inFirst : byte ∈ first.2.bytesWithHole)
    (inSecond : byte ∈ second.2.bytesWithHole) :
    first = second := by
  have oneBlock :
      blocks.Pairwise fun first second =>
        byte ∈ first.2.bytesWithHole → byte ∈ second.2.bytesWithHole → first = second :=
    laidOut.disjoint.imp fun {first second} apart inFirst inSecond =>
      absurd inSecond (Set.disjoint_left.mp apart.2 inFirst)
  have oneBlockBack :
      blocks.Pairwise fun first second =>
        byte ∈ second.2.bytesWithHole → byte ∈ first.2.bytesWithHole → second = first :=
    oneBlock.imp fun same inSecond inFirst => (same inFirst inSecond).symm
  exact oneBlock.forall_of_forall_of_flip (fun _ _ _ _ => rfl) oneBlockBack
    isFirst isSecond inFirst inSecond

theorem LaidOut.offsetWithHole_mul
    {blocks : List (String × MemoryBlockDesc α)}
    (laidOut : LaidOut blocks)
    {entry : String × MemoryBlockDesc α}
    (member : entry ∈ blocks) :
    entry.2.offsetWithHole * entry.2.dtype.byteSize = entry.2.byteOffsetWithHole := by
  obtain ⟨descs, holeSize, rfl⟩ := laidOut
  have aligned := (placedFrom_assignOffsets entry member).aligned (Nat.dvd_zero 128)
  exact Nat.div_mul_cancel (entry.2.dtype.byteSize_dvd.trans aligned)

end TensorPC.Tsim
