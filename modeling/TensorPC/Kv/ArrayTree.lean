import TensorPC.Py.Slice
import Mathlib.Algebra.GroupWithZero.Nat

namespace TensorPC.Kv

/-!
# Array descriptors

The descriptors with which the key-value stores and their clients agree on
where the bytes of an array lie in a piece of shared memory.  Shapes, sizes and
offsets are natural numbers.
-/

/-- `ALIGN_SIZE`. -/
def alignSize : Nat :=
  128

/-- `_align_up`. -/
def alignUp (size align : Nat) : Nat :=
  (size + align - 1) / align * align

theorem le_alignUp (size : Nat) :
    size ≤ alignUp size alignSize := by
  simp only [alignUp, alignSize]
  omega

theorem alignUp_mod (size : Nat) :
    alignUp size alignSize % alignSize = 0 := by
  simp [alignUp]

theorem alignUp_le
    {size bound : Nat}
    (small : size ≤ bound)
    (aligned : bound % alignSize = 0) :
    alignUp size alignSize ≤ bound := by
  simp only [alignUp, alignSize] at *
  omega

theorem alignUp_eq_self_iff (size : Nat) :
    alignUp size alignSize = size ↔ size % alignSize = 0 := by
  simp only [alignUp, alignSize]
  omega

theorem alignUp_add
    {offset : Nat}
    (size : Nat)
    (aligned : offset % alignSize = 0) :
    alignUp (offset + size) alignSize = offset + alignUp size alignSize := by
  simp only [alignUp, alignSize] at *
  omega

@[simp] theorem alignUp_zero :
    alignUp 0 alignSize = 0 :=
  rfl

/-- An element type of numpy or torch. -/
structure DType where
  name : String
  itemsize : Nat
  deriving Repr, DecidableEq

/-- `TensorInfo`: the stored element type, and the client's own one as `meta`. -/
structure TensorInfo where
  shape : List Nat
  dtype : DType
  metaDtype : Option DType
  deriving Repr, DecidableEq

/-- `TensorInfo.get_byte_size`. -/
def TensorInfo.getByteSize (info : TensorInfo) : Nat :=
  info.shape.prod * info.dtype.itemsize

/-- `TensorInfo.get_aligned_byte_size`. -/
def TensorInfo.getAlignedByteSize (info : TensorInfo) : Nat :=
  alignUp info.getByteSize alignSize

/-- `PartialArrayInfo`: the bytes of an array that one piece of it carries. -/
structure PartialArrayInfo where
  start : Nat
  length : Nat
  deriving Repr, DecidableEq

/-- `PartialArrayInfo.get_aligned_byte_size`. -/
def PartialArrayInfo.getAlignedByteSize (info : PartialArrayInfo) : Nat :=
  alignUp info.length alignSize

/-- `SharedArraySegmentDesc`. -/
structure SharedArraySegmentDesc extends TensorInfo where
  shmOffset : Nat := 0
  varIdx : Int := -1
  partialInfo : Option PartialArrayInfo := none
  deriving Repr, DecidableEq

namespace SharedArraySegmentDesc

/-- `get_partial_info_checked`. -/
def getPartialInfoChecked (desc : SharedArraySegmentDesc) : PyResult PartialArrayInfo :=
  match desc.partialInfo with
  | none => .error (.assertionError "")
  | some info => .ok info

/-- `is_partial`. -/
def isPartial (desc : SharedArraySegmentDesc) : Bool :=
  match desc.partialInfo with
  | none => false
  | some info => info.length < desc.getAlignedByteSize

/-- `get_partial_size`. -/
def getPartialSize (desc : SharedArraySegmentDesc) : Nat :=
  match desc.partialInfo with
  | none => desc.getByteSize
  | some info => info.length

/-- `get_partial_size_aligned`. -/
def getPartialSizeAligned (desc : SharedArraySegmentDesc) : Nat :=
  match desc.partialInfo with
  | none => desc.getAlignedByteSize
  | some info => info.getAlignedByteSize

/-- `get_shm_offset_with_partial`. -/
def getShmOffsetWithPartial (desc : SharedArraySegmentDesc) : Nat :=
  match desc.partialInfo with
  | none => desc.shmOffset
  | some info => desc.shmOffset + info.start

/-- `is_last_partial`. -/
def isLastPartial (desc : SharedArraySegmentDesc) : Bool :=
  match desc.partialInfo with
  | none => true
  | some info => info.start + info.length == desc.getAlignedByteSize

/-- `dataclasses.replace(info, partial_info=PartialArrayInfo(start, length))`. -/
def withPartial
    (desc : SharedArraySegmentDesc)
    (start length : Nat) :
    SharedArraySegmentDesc :=
  { desc with partialInfo := some ⟨start, length⟩ }

section WithPartial

variable (desc : SharedArraySegmentDesc) (start length : Nat)

@[simp] theorem withPartial_toTensorInfo :
    (desc.withPartial start length).toTensorInfo = desc.toTensorInfo :=
  rfl

@[simp] theorem withPartial_getPartialSize :
    (desc.withPartial start length).getPartialSize = length :=
  rfl

@[simp] theorem withPartial_getPartialSizeAligned :
    (desc.withPartial start length).getPartialSizeAligned =
      alignUp length alignSize :=
  rfl

@[simp] theorem withPartial_getShmOffsetWithPartial :
    (desc.withPartial start length).getShmOffsetWithPartial =
      desc.shmOffset + start :=
  rfl

@[simp] theorem withPartial_getPartialInfoChecked :
    (desc.withPartial start length).getPartialInfoChecked =
      .ok ⟨start, length⟩ :=
  rfl

@[simp] theorem withPartial_isLastPartial :
    (desc.withPartial start length).isLastPartial =
      (start + length == desc.getAlignedByteSize) :=
  rfl

end WithPartial

end SharedArraySegmentDesc

/-- `sum(seg.get_aligned_byte_size() for seg in descs)`. -/
def totalAlignedByteSize (descs : List SharedArraySegmentDesc) : Nat :=
  (descs.map (·.getAlignedByteSize)).sum

/-- `sum(info.get_partial_size_aligned() for info in chunk)`. -/
def totalPartialSizeAligned (chunk : List SharedArraySegmentDesc) : Nat :=
  (chunk.map (·.getPartialSizeAligned)).sum

@[simp] theorem totalPartialSizeAligned_nil :
    totalPartialSizeAligned [] = 0 :=
  rfl

@[simp] theorem totalPartialSizeAligned_cons
    (desc : SharedArraySegmentDesc)
    (rest : List SharedArraySegmentDesc) :
    totalPartialSizeAligned (desc :: rest) =
      desc.getPartialSizeAligned + totalPartialSizeAligned rest := by
  simp [totalPartialSizeAligned]

@[simp] theorem totalPartialSizeAligned_append
    (first second : List SharedArraySegmentDesc) :
    totalPartialSizeAligned (first ++ second) =
      totalPartialSizeAligned first + totalPartialSizeAligned second := by
  simp [totalPartialSizeAligned]

@[simp] theorem totalAlignedByteSize_cons
    (desc : SharedArraySegmentDesc)
    (rest : List SharedArraySegmentDesc) :
    totalAlignedByteSize (desc :: rest) =
      desc.getAlignedByteSize + totalAlignedByteSize rest := by
  simp [totalAlignedByteSize]

/-- The descriptors a store makes for new arrays, one aligned array after the other. -/
def segmentDescs
    (offset varIdx : Nat) :
    List TensorInfo → List SharedArraySegmentDesc
  | [] => []
  | info :: rest =>
      let desc : SharedArraySegmentDesc :=
        { info with shmOffset := offset, varIdx := varIdx }
      desc :: segmentDescs (offset + desc.getAlignedByteSize) (varIdx + 1) rest

@[simp] theorem segmentDescs_map_toTensorInfo
    (offset varIdx : Nat)
    (infos : List TensorInfo) :
    (segmentDescs offset varIdx infos).map (·.toTensorInfo) = infos := by
  induction infos generalizing offset varIdx with
  | nil =>
      rfl
  | cons info rest inductionHypothesis =>
      simp [segmentDescs, inductionHypothesis]

/-- `get_array_view_raw`: the bytes of shared memory that a descriptor names. -/
def getArrayViewRaw
    (shm : List UInt8)
    (desc : SharedArraySegmentDesc) :
    PyResult (List UInt8) :=
  let byteSize := desc.getPartialSize
  let memview := slice shm desc.shmOffset (desc.shmOffset + byteSize)
  if byteSize ≤ memview.length then
    .ok memview
  else
    .error (.typeError "buffer is too small for requested array")

theorem getArrayViewRaw_ok
    {shm : List UInt8}
    {desc : SharedArraySegmentDesc}
    (inside : desc.shmOffset + desc.getPartialSize ≤ shm.length) :
    getArrayViewRaw shm desc =
      .ok (slice shm desc.shmOffset (desc.shmOffset + desc.getPartialSize)) := by
  have width : desc.getPartialSize ≤
      (slice shm desc.shmOffset (desc.shmOffset + desc.getPartialSize)).length := by
    rw [length_slice]
    omega
  simp [getArrayViewRaw, width]

/-!
# Array trees

A client splits a tree of containers into the arrays at its leaves and a tree
spec, in which every array is replaced by a placeholder with its index, and
puts the arrays it reads back into the spec.  A dictionary below the root that
has the reserved key `JSON_INDEX_KEY` is taken for a placeholder.
-/

/-- A C-contiguous numpy array: its bytes fill its shape exactly. -/
structure NDArray where
  shape : List Nat
  dtype : DType
  data : List UInt8
  size_eq : data.length = shape.prod * dtype.itemsize
  deriving DecidableEq

/-- `TensorInfo(a.shape, a.dtype, None)`. -/
def NDArray.tensorInfo (array : NDArray) : TensorInfo where
  shape := array.shape
  dtype := array.dtype
  metaDtype := none

@[simp] theorem NDArray.getByteSize_tensorInfo (array : NDArray) :
    array.tensorInfo.getByteSize = array.data.length :=
  array.size_eq.symm

theorem NDArray.eq_of_fields
    {first second : NDArray}
    (shape : first.shape = second.shape)
    (dtype : first.dtype = second.dtype)
    (data : first.data = second.data) :
    first = second := by
  cases first
  cases second
  simp_all

/-- The leaves that are not arrays, and the keys of dictionaries. -/
inductive Scalar where
  | none
  | bool (value : Bool)
  | int (value : Int)
  | str (value : String)
  /-- Any other object, such as a float, by its text. -/
  | opaqueObject (text : String)
  deriving Repr, DecidableEq

/-- Containers with leaves of one type. -/
inductive Tree (α : Type) where
  | leaf (value : α)
  | list (items : List (Tree α))
  | tuple (items : List (Tree α))
  | dict (entries : List (Scalar × Tree α))

/-- A leaf of a tree spec: a scalar, or `Placeholder(index, nbytes)`. -/
inductive SpecLeaf where
  | scalar (value : Scalar)
  | placeholder (index nbytes : Nat)
  deriving Repr, DecidableEq

/-- What `extract_arrays_from_data` leaves of a tree. -/
abbrev TreeSpec := Tree SpecLeaf

/-- A leaf of a tree of a client; `special` is a `JsonSpecialData(data, flag)`. -/
inductive TreeLeaf where
  | scalar (value : Scalar)
  | array (value : NDArray)
  | special (data : TreeSpec) (flag : Int)

/-- The trees that `put_arrays_to_data` can return. -/
abbrev DataTree := Tree TreeLeaf

/-- A leaf of a tree that a client stores. -/
inductive ArrayLeaf where
  | scalar (value : Scalar)
  | array (value : NDArray)
  deriving DecidableEq

/-- The trees that a client stores. -/
abbrev ArrayTree := Tree ArrayLeaf

/-- A stored leaf among the leaves of read trees. -/
def ArrayLeaf.toTreeLeaf : ArrayLeaf → TreeLeaf
  | scalar value => .scalar value
  | array value => .array value

/-- `JSON_INDEX_KEY`. -/
def jsonIndexKey : Scalar :=
  .str "__jsonarray_index"

/-! ## Taking a tree apart -/

mutual

/--
`_extract_arrays_from_data_no_unique_id` for `object_classes=(np.ndarray,)` and
no JSON index: the arrays found so far grow at the end.
-/
def extractArrays :
    ArrayTree → List NDArray → List NDArray × TreeSpec
  | .leaf (.scalar value), arrays => (arrays, .leaf (.scalar value))
  | .leaf (.array value), arrays =>
      (arrays ++ [value],
        .leaf (.placeholder arrays.length value.data.length))
  | .list items, arrays =>
      let (arrays, skeleton) := extractArraysList items arrays
      (arrays, .list skeleton)
  | .tuple items, arrays =>
      let (arrays, skeleton) := extractArraysList items arrays
      (arrays, .tuple skeleton)
  | .dict entries, arrays =>
      let (arrays, skeleton) := extractArraysDict entries arrays
      (arrays, .dict skeleton)

/-- The list and tuple case of `extractArrays`. -/
def extractArraysList :
    List ArrayTree → List NDArray → List NDArray × List TreeSpec
  | [], arrays => (arrays, [])
  | item :: rest, arrays =>
      let (arrays, skeleton) := extractArrays item arrays
      let (arrays, skeletons) := extractArraysList rest arrays
      (arrays, skeleton :: skeletons)

/-- The mapping case of `extractArrays`. -/
def extractArraysDict :
    List (Scalar × ArrayTree) → List NDArray →
      List NDArray × List (Scalar × TreeSpec)
  | [], arrays => (arrays, [])
  | (key, value) :: rest, arrays =>
      let (arrays, skeleton) := extractArrays value arrays
      let (arrays, skeletons) := extractArraysDict rest arrays
      (arrays, (key, skeleton) :: skeletons)

end

/-- `extract_arrays_from_data(arr_tree, (np.ndarray,))`. -/
def extractArraysFromData (tree : ArrayTree) : List NDArray × TreeSpec :=
  extractArrays tree []

/-! ## Putting a tree together -/

/-- `arrays[index]`, also for a negative index. -/
def arrayAt
    (arrays : List NDArray)
    (index : Int) :
    PyResult DataTree :=
  let position := if index < 0 then index + arrays.length else index
  if position < 0 then
    .error .indexError
  else
    match arrays[position.toNat]? with
    | some array => .ok (.leaf (.array array))
    | none => .error .indexError

/-- A scalar used as an integer. -/
def Scalar.asInt : Scalar → PyResult Int
  | int value => .ok value
  | bool value => .ok (if value then 1 else 0)
  | _ => .error (.typeError "an integer is required")

/-- `flag & JsonNodeSpecialFlags.ARRAY`. -/
def hasArrayFlag (flag : Int) : Bool :=
  flag % 2 == 1

/-- `flag & FREEZE or flag & JSON_ONLY`. -/
def hasSpecialFlag (flag : Int) : Bool :=
  flag / 2 % 2 == 1 || flag / 4 % 2 == 1

/-- The index or the flag of a marker `{JSON_INDEX_KEY: [index, flag]}`. -/
def markerInt : TreeSpec → PyResult Int
  | .leaf (.scalar value) => value.asInt
  | _ => .error (.typeError "an integer is required")

mutual

/-- `_put_arrays_to_data` on an element that is no placeholder of either kind. -/
def putArrays
    (arrays : List NDArray) :
    TreeSpec → PyResult DataTree
  | .leaf (.scalar value) => .ok (.leaf (.scalar value))
  | .leaf (.placeholder index _) => arrayAt arrays index
  | .list items => do
      let items ← putArraysList arrays items
      .ok (.list items)
  | .tuple items => do
      let items ← putArraysList arrays items
      .ok (.tuple items)
  | .dict entries => do
      let entries ← putArraysDict arrays entries
      .ok (.dict entries)

/-- An element of a list or a value of a dictionary, which may be a marker. -/
def putElement
    (arrays : List NDArray) :
    TreeSpec → PyResult DataTree
  | .leaf (.scalar value) => .ok (.leaf (.scalar value))
  | .leaf (.placeholder index _) => arrayAt arrays index
  | .list items => do
      let items ← putArraysList arrays items
      .ok (.list items)
  | .tuple items => do
      let items ← putArraysList arrays items
      .ok (.tuple items)
  | .dict entries =>
      match putMarkerOf arrays entries with
      | some marked => marked
      | none => do
          let entries ← putArraysDict arrays entries
          .ok (.dict entries)

/-- The list and tuple case of `putArrays`. -/
def putArraysList
    (arrays : List NDArray) :
    List TreeSpec → PyResult (List DataTree)
  | [] => .ok []
  | item :: rest => do
      let item ← putElement arrays item
      let rest ← putArraysList arrays rest
      .ok (item :: rest)

/-- The mapping case of `putArrays`. -/
def putArraysDict
    (arrays : List NDArray) :
    List (Scalar × TreeSpec) → PyResult (List (Scalar × DataTree))
  | [] => .ok []
  | (key, value) :: rest => do
      let value ← putElement arrays value
      let rest ← putArraysDict arrays rest
      .ok ((key, value) :: rest)

/-- `is_json_index`: the value of the reserved key is taken for a marker. -/
def putMarkerOf
    (arrays : List NDArray) :
    List (Scalar × TreeSpec) → Option (PyResult DataTree)
  | [] => none
  | (key, value) :: rest =>
      if key = jsonIndexKey then
        some (putMarker arrays value)
      else
        putMarkerOf arrays rest

/-- The element that the value of a marker stands for. -/
def putMarker
    (arrays : List NDArray) :
    TreeSpec → PyResult DataTree
  | .list items => putMarkerItems arrays items
  | .tuple items => putMarkerItems arrays items
  | .dict _ => .error (.keyError "1")
  | .leaf (.scalar (.str text)) =>
      if text.length < 2 then
        .error .indexError
      else
        .error (.typeError "unsupported operand type(s) for &")
  | .leaf _ => .error (.typeError "object is not subscriptable")

/-- `[index, flag]` of a marker, or the value that it wraps. -/
def putMarkerItems
    (arrays : List NDArray) :
    List TreeSpec → PyResult DataTree
  | [] => .error .indexError
  | value :: rest =>
      match rest with
      | [] => .error .indexError
      | flag :: _ => do
          let flag ← markerInt flag
          if hasArrayFlag flag then
            let index ← markerInt value
            arrayAt arrays index
          else if hasSpecialFlag flag then
            .ok (.leaf (.special value flag))
          else
            putArrays arrays value

end

/-- `put_arrays_to_data(variables, treespec)`. -/
def putArraysToData
    (arrays : List NDArray)
    (spec : TreeSpec) :
    PyResult DataTree :=
  putArrays arrays spec

/-! ## Round trip -/

mutual

/-- A stored tree as a tree that a client reads. -/
def toDataTree : ArrayTree → DataTree
  | .leaf value => .leaf value.toTreeLeaf
  | .list items => .list (toDataTreeList items)
  | .tuple items => .tuple (toDataTreeList items)
  | .dict entries => .dict (toDataTreeDict entries)

/-- The list and tuple case of `toDataTree`. -/
def toDataTreeList : List ArrayTree → List DataTree
  | [] => []
  | item :: rest => toDataTree item :: toDataTreeList rest

/-- The mapping case of `toDataTree`. -/
def toDataTreeDict :
    List (Scalar × ArrayTree) → List (Scalar × DataTree)
  | [] => []
  | (key, value) :: rest => (key, toDataTree value) :: toDataTreeDict rest

end

mutual

/-- No dictionary in a tree has the reserved key. -/
def avoidsIndexKey : ArrayTree → Bool
  | .leaf _ => true
  | .list items => avoidsIndexKeyList items
  | .tuple items => avoidsIndexKeyList items
  | .dict entries =>
      !(entries.map Prod.fst).contains jsonIndexKey &&
        avoidsIndexKeyDict entries

/-- The list and tuple case of `avoidsIndexKey`. -/
def avoidsIndexKeyList : List ArrayTree → Bool
  | [] => true
  | item :: rest => avoidsIndexKey item && avoidsIndexKeyList rest

/-- The mapping case of `avoidsIndexKey`. -/
def avoidsIndexKeyDict : List (Scalar × ArrayTree) → Bool
  | [] => true
  | (_, value) :: rest => avoidsIndexKey value && avoidsIndexKeyDict rest

end

/-- No dictionary below the root of a tree has the reserved key. -/
def ArrayTree.isPlain : ArrayTree → Bool
  | .leaf _ => true
  | .list items => avoidsIndexKeyList items
  | .tuple items => avoidsIndexKeyList items
  | .dict entries => avoidsIndexKeyDict entries

mutual

theorem prefix_extractArrays :
    ∀ (tree : ArrayTree) (arrays : List NDArray),
      arrays <+: (extractArrays tree arrays).1
  | .leaf (.scalar _), _ => List.prefix_rfl
  | .leaf (.array _), _ => List.prefix_append ..
  | .list items, arrays => prefix_extractArraysList items arrays
  | .tuple items, arrays => prefix_extractArraysList items arrays
  | .dict entries, arrays => prefix_extractArraysDict entries arrays

theorem prefix_extractArraysList :
    ∀ (items : List ArrayTree) (arrays : List NDArray),
      arrays <+: (extractArraysList items arrays).1
  | [], _ => List.prefix_rfl
  | item :: rest, arrays =>
      (prefix_extractArrays item arrays).trans
        (prefix_extractArraysList rest (extractArrays item arrays).1)

theorem prefix_extractArraysDict :
    ∀ (entries : List (Scalar × ArrayTree)) (arrays : List NDArray),
      arrays <+: (extractArraysDict entries arrays).1
  | [], _ => List.prefix_rfl
  | (_, value) :: rest, arrays =>
      (prefix_extractArrays value arrays).trans
        (prefix_extractArraysDict rest (extractArrays value arrays).1)

end

theorem map_fst_extractArraysDict
    (entries : List (Scalar × ArrayTree))
    (arrays : List NDArray) :
    (extractArraysDict entries arrays).2.map Prod.fst =
      entries.map Prod.fst := by
  induction entries generalizing arrays with
  | nil =>
      rfl
  | cons head rest inductionHypothesis =>
      rcases head with ⟨key, value⟩
      simp [extractArraysDict, inductionHypothesis]

theorem putMarkerOf_eq_none
    {arrays : List NDArray}
    {entries : List (Scalar × TreeSpec)}
    (absent : jsonIndexKey ∉ entries.map Prod.fst) :
    putMarkerOf arrays entries = none := by
  induction entries with
  | nil =>
      simp [putMarkerOf]
  | cons head rest inductionHypothesis =>
      rcases head with ⟨key, value⟩
      simp only [List.map_cons, List.mem_cons, not_or] at absent
      simp [putMarkerOf, Ne.symm absent.1, inductionHypothesis absent.2]

theorem arrayAt_of_prefix
    {arrays all : List NDArray}
    {array : NDArray}
    (extracted : arrays ++ [array] <+: all) :
    arrayAt all arrays.length = .ok (.leaf (.array array)) := by
  obtain ⟨rest, rfl⟩ := extracted
  have found : (arrays ++ [array] ++ rest)[arrays.length]? = some array := by
    simp
  have position : ¬ ((arrays.length : Int) < 0) := by
    omega
  simp [arrayAt, position]

mutual

/-- Putting the arrays of a part of a tree back into its spec. -/
theorem putElement_extractArrays :
    ∀ (tree : ArrayTree) (arrays all : List NDArray),
      avoidsIndexKey tree = true →
      (extractArrays tree arrays).1 <+: all →
      putElement all (extractArrays tree arrays).2 = .ok (toDataTree tree)
  | .leaf (.scalar value), arrays, all, _, _ => by
      simp [extractArrays, putElement, toDataTree, ArrayLeaf.toTreeLeaf]
  | .leaf (.array value), arrays, all, _, extracted => by
      simp only [extractArrays] at extracted ⊢
      simp [putElement, toDataTree, ArrayLeaf.toTreeLeaf,
        arrayAt_of_prefix extracted]
  | .list items, arrays, all, plain, extracted => by
      have put := putArraysList_extractArraysList items arrays all plain extracted
      simp [extractArrays, putElement, toDataTree, put, bind, Except.bind]
  | .tuple items, arrays, all, plain, extracted => by
      have put := putArraysList_extractArraysList items arrays all plain extracted
      simp [extractArrays, putElement, toDataTree, put, bind, Except.bind]
  | .dict entries, arrays, all, plain, extracted => by
      simp only [avoidsIndexKey, Bool.and_eq_true, Bool.not_eq_true',
        List.contains_eq_mem, decide_eq_false_iff_not] at plain
      have put :=
        putArraysDict_extractArraysDict entries arrays all plain.2 extracted
      have unmarked :
          putMarkerOf all (extractArraysDict entries arrays).2 = none := by
        refine putMarkerOf_eq_none ?_
        rw [map_fst_extractArraysDict]
        exact plain.1
      simp [extractArrays, putElement, toDataTree, unmarked, put, bind,
        Except.bind]

theorem putArraysList_extractArraysList :
    ∀ (items : List ArrayTree) (arrays all : List NDArray),
      avoidsIndexKeyList items = true →
      (extractArraysList items arrays).1 <+: all →
      putArraysList all (extractArraysList items arrays).2 =
        .ok (toDataTreeList items)
  | [], arrays, all, _, _ => by
      simp [extractArraysList, putArraysList, toDataTreeList]
  | item :: rest, arrays, all, plain, extracted => by
      simp only [avoidsIndexKeyList, Bool.and_eq_true] at plain
      simp only [extractArraysList] at extracted ⊢
      have first :=
        putElement_extractArrays item arrays all plain.1
          ((prefix_extractArraysList rest _).trans extracted)
      have others :=
        putArraysList_extractArraysList rest _ all plain.2 extracted
      simp [putArraysList, toDataTreeList, first, others, bind, Except.bind]

theorem putArraysDict_extractArraysDict :
    ∀ (entries : List (Scalar × ArrayTree)) (arrays all : List NDArray),
      avoidsIndexKeyDict entries = true →
      (extractArraysDict entries arrays).1 <+: all →
      putArraysDict all (extractArraysDict entries arrays).2 =
        .ok (toDataTreeDict entries)
  | [], arrays, all, _, _ => by
      simp [extractArraysDict, putArraysDict, toDataTreeDict]
  | (key, value) :: rest, arrays, all, plain, extracted => by
      simp only [avoidsIndexKeyDict, Bool.and_eq_true] at plain
      simp only [extractArraysDict] at extracted ⊢
      have first :=
        putElement_extractArrays value arrays all plain.1
          ((prefix_extractArraysDict rest _).trans extracted)
      have others :=
        putArraysDict_extractArraysDict rest _ all plain.2 extracted
      simp [putArraysDict, toDataTreeDict, first, others, bind, Except.bind]

end

/-- A plain tree comes back from its arrays and its spec. -/
theorem putArraysToData_extract
    {tree : ArrayTree}
    (plain : tree.isPlain = true) :
    putArraysToData (extractArraysFromData tree).1
        (extractArraysFromData tree).2 =
      .ok (toDataTree tree) := by
  unfold extractArraysFromData
  cases tree with
  | leaf value =>
      have put :=
        putElement_extractArrays (.leaf value) [] _ rfl List.prefix_rfl
      cases value with
      | scalar value =>
          exact put
      | array value =>
          exact put
  | list items =>
      exact putElement_extractArrays (.list items) [] _ plain List.prefix_rfl
  | tuple items =>
      exact putElement_extractArrays (.tuple items) [] _ plain List.prefix_rfl
  | dict entries =>
      have put :=
        putArraysDict_extractArraysDict entries [] _ plain List.prefix_rfl
      simp [extractArrays, putArraysToData, putArrays, toDataTree, put, bind,
        Except.bind]

end TensorPC.Kv
