import TensorPC.Tsim.StoreSpec

namespace TensorPC.Tsim

/-!
# Block pointers

A block pointer describes a window into a tensor: the window has a shape and an
offset, and moves by changing the offset.  Addresses and mask of the window are
computed from one grid of indices for each axis.
-/

open Wire (NpDtype)
open Scatter

variable {α : Type}

/-- `SimTensorBlockPointer` with storage; `__post_init__` checks the ranks. -/
structure SimTensorBlockPointer where
  dtype : DTypeEnum
  base : Int
  shape : List Int
  strides : List Int
  blockShape : List Int
  offset : List Int
  isInt64 : IsInt64 base
  strideRank : strides.length = shape.length
  blockRank : blockShape.length = shape.length
  offsetRank : offset.length = shape.length

namespace SimTensorBlockPointer

/-- Offsets added to the current one. -/
def addOffsets (offset offsets : List Int) : List Int :=
  offset.zipWith (· + ·) offsets

/-- The shape of the arrays that `np.meshgrid` makes. -/
def gridShape (blockShape : List Int) : List Nat :=
  blockShape.map Int.toNat

/-- The indices of a block, the last axis running first: the elements of the grids. -/
def blockIndices : List Int → List (List Int)
  | [] => [[]]
  | size :: sizes =>
      (List.range size.toNat).flatMap fun index =>
        (blockIndices sizes).map (Int.ofNat index :: ·)

/-- A Python int used with an array of 64-bit integers. -/
def checkInt64 (value : Int) : PyResult Unit :=
  if IsInt64 value then .ok () else .error .overflowError

/-- `(ob + o) * s` at one place of the grid. -/
def axisOffset (offset index stride : Int) : Int :=
  wrapInt64 (wrapInt64 (offset + index) * stride)

/-- `sum((ob + o) * s for ob, o, s in zip(offsets, offsets_blocks, self.strides))` at one place of
the grid. -/
def offsetAt : List Int → List Int → List Int → Int
  | offset :: offsets, index :: indices, stride :: strides =>
      wrapInt64 (axisOffset offset index stride + offsetAt offsets indices strides)
  | _, _, _ => 0

/-- `np.logical_and(o >= 0, o < s)` for all axes, at one place of the grid. -/
def maskAt (shape index : List Int) : Bool :=
  (index.zip shape).all fun axis => decide (0 ≤ axis.1) && decide (axis.1 < axis.2)

theorem length_blockIndices (blockShape : List Int) :
    (blockIndices blockShape).length = (gridShape blockShape).prod := by
  induction blockShape with
  | nil =>
      rfl
  | cons size sizes inductionHypothesis =>
      rw [blockIndices, List.length_flatMap, gridShape, List.map_cons, List.prod_cons]
      have each : ∀ index ∈ List.range size.toNat,
          ((blockIndices sizes).map (Int.ofNat index :: ·)).length = (gridShape sizes).prod := by
        intro index _
        rw [List.length_map, inductionHypothesis]
      rw [List.map_congr_left each]
      simp [gridShape]

theorem length_of_mem_blockIndices
    {blockShape index : List Int}
    (member : index ∈ blockIndices blockShape) :
    index.length = blockShape.length := by
  induction blockShape generalizing index with
  | nil =>
      rw [List.mem_singleton.mp member]
  | cons size sizes inductionHypothesis =>
      obtain ⟨first, _, below⟩ := List.mem_flatMap.mp member
      obtain ⟨rest, isIndex, rfl⟩ := List.mem_map.mp below
      rw [List.length_cons, List.length_cons, inductionHypothesis isIndex]

/-- The tensor of pointers. -/
def pointerTensor (pointer : SimTensorBlockPointer) (offsets : List Int) : PointerTensor where
  dtype := pointer.dtype
  data := {
    shape := gridShape pointer.blockShape
    data := (blockIndices pointer.blockShape).map fun index =>
      wrapInt64 (pointer.base + offsetAt offsets index pointer.strides)
    sized := by
      rw [List.length_map]
      exact length_blockIndices pointer.blockShape }
  isInt64 := by
    intro item member
    obtain ⟨index, _, rfl⟩ := List.mem_map.mp member
    exact isInt64_wrapInt64 _

/-- The mask. -/
def maskTensor (pointer : SimTensorBlockPointer) : NdArray Bool where
  shape := gridShape pointer.blockShape
  data := (blockIndices pointer.blockShape).map (maskAt pointer.shape)
  sized := by
    rw [List.length_map]
    exact length_blockIndices pointer.blockShape

/-- `get_current_pointer_tensor_and_mask`, with the offsets of a call.  Without axes the sum is
the number 0, which is no array. -/
def getCurrentPointerTensorAndMask
    (pointer : SimTensorBlockPointer)
    (offsets : List Int) :
    PyResult (PointerTensor × NdArray Bool) := do
  pyAssert (decide (offsets.length = pointer.offset.length))
    "Offsets length must match current offset length"
  let offsets := addOffsets pointer.offset offsets
  (offsets.zip pointer.strides).forM fun axis => do
    checkInt64 axis.1
    checkInt64 axis.2
  if pointer.shape.isEmpty then
    throw (.attributeError "dtype")
  return (pointer.pointerTensor offsets, pointer.maskTensor)

/-- `load`. -/
def load
    (ops : ElementOps α)
    (blocks : List (String × MemoryBlockDesc α))
    (pointer : SimTensorBlockPointer)
    (offsets : List Int)
    (other : Option (OtherArg α)) :
    PyResult (Loaded α) := do
  let current ← pointer.getCurrentPointerTensorAndMask offsets
  Tsim.load ops blocks current.1 (some (.tensor current.2)) other

/-- `store`. -/
def store
    (ops : ElementOps α)
    (pointer : SimTensorBlockPointer)
    (offsets : List Int)
    (value : StoreValue)
    (atomicOp : Option AtomicOp)
    (cmp : Option (CompareArg α)) :
    EStateM PyError (StoreState α) (Stored α) :=
  match pointer.getCurrentPointerTensorAndMask offsets with
  | .error raised => throw raised
  | .ok current =>
      Tsim.store ops current.1 value (some (.tensor current.2)) atomicOp cmp

/-- The places that a store writes, for each position of the block. -/
def storeTouches
    (ops : ElementOps α)
    (pointer : SimTensorBlockPointer)
    (offsets : List Int)
    (value : StoreValue)
    (state : StoreState α) :
    PyResult (List (Option Nat)) := do
  let current ← pointer.getCurrentPointerTensorAndMask offsets
  let prepared ← prepareStore ops state current.1 value (some current.2)
  return match prepared with
    | some prepared => prepared.touched
    | none => List.replicate current.1.data.shape.prod none

/-! ## The tensor -/

/-- The position of the tensor that an index of the block stands for. -/
def position
    (pointer : SimTensorBlockPointer)
    (offsets index : List Int) :
    List Int :=
  addOffsets (addOffsets pointer.offset offsets) index

/-- The element of the memory at a position. -/
def element (pointer : SimTensorBlockPointer) (position : List Int) : Int :=
  pointer.base + (position.zipWith (· * ·) pointer.strides).sum

/-- A position inside a tensor of the given shape. -/
def InTensor (shape position : List Int) : Prop :=
  ∀ axis ∈ position.zip shape, 0 ≤ axis.1 ∧ axis.1 < axis.2

instance (shape position : List Int) : Decidable (InTensor shape position) :=
  inferInstanceAs (Decidable (∀ axis ∈ _, _))

/-- The whole tensor lies inside one block of the memory, which has its dtype. -/
structure TensorInside
    (blocks : List (String × MemoryBlockDesc α))
    (pointer : SimTensorBlockPointer)
    (name : String)
    (desc : MemoryBlockDesc α) :
    Prop where
  member : (name, desc) ∈ blocks
  sameDtype : pointer.dtype = desc.dtype
  inside :
    ∀ position : List Int,
      position.length = pointer.shape.length →
        InTensor pointer.shape position →
          pointer.element position * pointer.dtype.byteSize ∈ desc.bytesWithHole

/-- The sum of an address is the exact one, up to wrapping around. -/
theorem wrapInt64_offsetAt
    (base : Int)
    (offsets index strides : List Int) :
    wrapInt64 (base + offsetAt offsets index strides) =
      wrapInt64 (base + ((addOffsets offsets index).zipWith (· * ·) strides).sum) := by
  induction offsets generalizing base index strides with
  | nil =>
      simp [offsetAt, addOffsets]
  | cons offset offsets inductionHypothesis =>
      cases index with
      | nil =>
          simp [offsetAt, addOffsets]
      | cons first index =>
          cases strides with
          | nil =>
              simp [offsetAt, addOffsets]
          | cons stride strides =>
              have further := inductionHypothesis (base + (offset + first) * stride) index strides
              simp only [addOffsets, List.zipWith_cons_cons, List.sum_cons, ← Int.add_assoc]
                at further ⊢
              rw [← further, offsetAt, axisOffset, wrapInt64_wrapInt64_mul,
                wrapInt64_add_wrapInt64, Int.add_comm (wrapInt64 _), ← Int.add_assoc,
                wrapInt64_add_wrapInt64, Int.add_assoc, Int.add_comm (offsetAt _ _ _),
                ← Int.add_assoc]

end SimTensorBlockPointer

/-!
# What a block pointer touches

The addresses of a block follow the offset, the mask does not: it compares the
index inside of the block with the shape of the tensor.  So a block is read and
written as its position says exactly when moving it by the offset does not change
which of its indices are inside the tensor.
-/

variable {β : Type}

/-! ## Masks and positions given by a function -/

/-- The elements that a computed mask leaves. -/
theorem mem_unmasked_map
    {indices : List β}
    {bit : β → Bool}
    {f : β → α}
    {item : α} :
    item ∈ unmasked (indices.map bit) (indices.map f) ↔
      ∃ index ∈ indices, bit index = true ∧ f index = item := by
  induction indices with
  | nil =>
      simp
  | cons index indices inductionHypothesis =>
      rw [List.map_cons, List.map_cons, unmasked_cons]
      cases set : bit index with
      | false =>
          simp [set, inductionHypothesis]
      | true =>
          rw [if_pos rfl, List.mem_cons, inductionHypothesis]
          constructor
          · rintro (rfl | ⟨found, member, isSet, rfl⟩)
            · exact ⟨index, List.mem_cons_self, set, rfl⟩
            · exact ⟨found, List.mem_cons_of_mem _ member, isSet, rfl⟩
          · rintro ⟨found, member, isSet, rfl⟩
            rcases List.mem_cons.mp member with rfl | inRest
            · exact .inl rfl
            · exact .inr ⟨found, inRest, isSet, rfl⟩

theorem placesOf_map
    (place : Int → Nat)
    (indices : List β)
    (bit : β → Bool)
    (f : β → Int) :
    placesOf place (indices.map bit) (indices.map f) =
      indices.map fun index => if bit index then some (place (f index)) else none := by
  induction indices with
  | nil =>
      rfl
  | cons index indices inductionHypothesis =>
      exact congrArg (_ :: ·) inductionHypothesis

/-- The lanes of computed positions. -/
theorem filterMap_unmasked_map
    (indices : List β)
    (bit : β → Bool)
    (f : β → Int)
    (values : List α)
    (chosen : Int → Prop)
    [DecidablePred chosen] :
    ((unmasked (indices.map bit) ((indices.map f).zip values)).filterMap fun lane =>
        if chosen lane.1 then some lane.2 else none) =
      (indices.zip values).filterMap fun lane =>
        if bit lane.1 = true ∧ chosen (f lane.1) then some lane.2 else none := by
  induction indices generalizing values with
  | nil =>
      simp
  | cons index indices inductionHypothesis =>
      cases values with
      | nil =>
          simp [unmasked]
      | cons value values =>
          rw [List.map_cons, List.map_cons, List.zip_cons_cons, List.zip_cons_cons, unmasked_cons,
            List.filterMap_cons, ← inductionHypothesis]
          cases set : bit index with
          | false =>
              simp
          | true =>
              by_cases isChosen : chosen (f index)
              · simp [isChosen]
              · simp [isChosen]

/-! ## Loads -/

/-- The elements that masked positions receive. -/
def Spread
    (ops : ElementOps α)
    (dtype : NpDtype)
    (shape : List Nat)
    (others : List (Option α)) :
    Option (OtherArg α) → Prop
  | none => others = List.replicate shape.prod none
  | some (.scalar value) =>
      ∃ item, ops.full dtype value = .ok item ∧ others = List.replicate shape.prod (some item)
  | some (.tensor otherDtype other) =>
      other.shape = shape ∧ others = other.data.map fun item => some (ops.assign dtype otherDtype item)

section Load

variable {ops : ElementOps α} {dtype : NpDtype} {shape : List Nat}
variable {others : List (Option α)} {other : Option (OtherArg α)}

theorem Spread.length
    (spread : Spread ops dtype shape others other) :
    others.length = shape.prod := by
  cases other with
  | none =>
      obtain rfl := spread
      exact List.length_replicate
  | some other =>
      cases other with
      | scalar value =>
          obtain ⟨item, _, rfl⟩ := spread
          exact List.length_replicate
      | tensor otherDtype other =>
          obtain ⟨rfl, rfl⟩ := spread
          rw [List.length_map]
          exact other.sized

theorem Spread.otherItems
    (spread : Spread ops dtype shape others other) :
    Tsim.otherItems ops dtype shape.prod other = .ok others := by
  cases other with
  | none =>
      obtain rfl := spread
      rfl
  | some other =>
      cases other with
      | scalar value =>
          obtain ⟨item, filled, rfl⟩ := spread
          rw [Tsim.otherItems, filled]
          rfl
      | tensor otherDtype other =>
          obtain ⟨rfl, rfl⟩ := spread
          rw [Tsim.otherItems, if_pos other.sized]

theorem assignedShape_self
    {ndim : Nat}
    {shape : List Nat}
    (short : shape.length ≤ ndim) :
    assignedShape ndim shape = shape := by
  unfold assignedShape
  split
  · next rest =>
      rw [List.length_cons] at short
      rw [if_neg (Nat.not_le.mpr (Nat.lt_of_succ_le short))]
  · rfl

theorem Spread.assignAll
    (spread : Spread ops dtype shape others other)
    (hasAxes : shape ≠ []) :
    Tsim.assignAll ops dtype shape other = .ok others := by
  cases other with
  | none =>
      obtain rfl := spread
      rfl
  | some other =>
      cases other with
      | scalar value =>
          obtain ⟨item, filled, rfl⟩ := spread
          simp only [Tsim.assignAll, if_neg hasAxes, filled]
          rfl
      | tensor otherDtype other =>
          obtain ⟨rfl, rfl⟩ := spread
          simp only [Tsim.assignAll, if_neg hasAxes]
          rw [NdArray.broadcastTo_self (assignedShape_self (Nat.le_refl _))]
          rfl

variable {blocks : List (String × MemoryBlockDesc α)} {pointer : PointerTensor}
variable {mask : NdArray Bool} {name : String} {desc : MemoryBlockDesc α}

/-- What a load gives for each position: the element at its place, or what masked positions
receive. -/
def loadedItems
    (desc : MemoryBlockDesc α)
    (touched : List (Option Nat))
    (others : List (Option α)) :
    List (Option α) :=
  (touched.zip others).map fun item =>
    match item.1 with
    | some place => desc.dataView[place]?
    | none => item.2

/-- Without unmasked positions there are no places. -/
theorem placesOf_of_masked
    {place : Int → Nat}
    (sameShape : mask.shape = pointer.data.shape)
    (nothing : unmaskedBy (some mask) pointer.data.data = []) :
    placesOf place mask.data pointer.data.data =
      List.replicate pointer.data.shape.prod none := by
  have allFalse : ∀ found ∈ placesOf place mask.data pointer.data.data, found = none := by
    intro found member
    obtain ⟨⟨bit, item⟩, isPosition, rfl⟩ := List.mem_map.mp member
    cases bit with
    | false =>
        rfl
    | true =>
        have isUnmasked : item ∈ unmaskedBy (some mask) pointer.data.data := by
          refine List.mem_map.mpr ⟨(item, true), List.mem_filter.mpr ⟨?_, rfl⟩, rfl⟩
          obtain ⟨index, inRange, same⟩ := List.mem_iff_getElem.mp isPosition
          rw [List.getElem_zip] at same
          obtain ⟨isBit, isItem⟩ := Prod.mk.inj same
          refine List.mem_iff_getElem.mpr ⟨index, ?_, ?_⟩
          · simpa [Nat.min_comm] using inRange
          · rw [List.getElem_zip, isBit, isItem]
        rw [nothing] at isUnmasked
        cases isUnmasked
  have length :
      (placesOf place mask.data pointer.data.data).length = pointer.data.shape.prod := by
    rw [placesOf, List.length_map, List.length_zip, mask.sized, pointer.data.sized, sameShape,
      Nat.min_self]
  rw [← length]
  exact List.eq_replicate_of_mem allFalse

/-- A load whose unmasked addresses lie in a block of the pointer's dtype. -/
theorem load_of_reached
    (created : Created blocks)
    (sameShape : mask.shape = pointer.data.shape)
    (hasAxes : pointer.data.shape ≠ [])
    (reached : Reached blocks pointer (unmaskedBy (some mask) pointer.data.data) name desc)
    (spread : Spread ops desc.viewDtype pointer.data.shape others other) :
    load ops blocks pointer (some (.tensor mask)) other =
      .ok {
        data := loadedItems desc (placesOf desc.placeIn mask.data pointer.data.data) others
        touched := placesOf desc.placeIn mask.data pointer.data.data } := by
  have shapes : ∀ bits ∈ some mask, bits.shape = pointer.data.shape := by
    intro bits same
    obtain rfl := Option.some.inj same
    exact sameShape
  have used : maskTensor pointer.data.shape (some (.tensor mask)) = .ok (some mask) := by
    rw [maskTensor, NdArray.broadcastTo_self sameShape]
    rfl
  unfold load
  rw [used]
  change (boundryCheckAndMapPointers blocks pointer (some mask) >>= _) = _
  by_cases nothing : unmaskedBy (some mask) pointer.data.data = []
  · have checked := @mapPointer_eq α blocks pointer (some mask) shapes
    rw [if_pos nothing] at checked
    rw [checked]
    have numpyDtype : pointer.dtype.toNumpyDtype = .ok desc.viewDtype := by
      rw [reached.sameDtype, created.sameDtype _ reached.member,
        DTypeEnum.toNumpyDtype_fromNumpyDtype]
    change (pointer.dtype.toNumpyDtype >>= _) = _
    rw [numpyDtype]
    change (assignAll ops desc.viewDtype pointer.data.shape other >>= _) = _
    rw [spread.assignAll hasAxes]
    have noPlace := @placesOf_of_masked pointer mask desc.placeIn sameShape nothing
    have sameData :
        loadedItems desc (List.replicate pointer.data.shape.prod none) others = others := by
      rw [← spread.length]
      unfold loadedItems
      generalize others = items
      induction items with
      | nil =>
          rfl
      | cons item items inductionHypothesis =>
          exact congrArg (item :: ·) inductionHypothesis
    rw [noPlace, sameData]
    rfl
  · obtain ⟨result, checked, notMasked, isName, named, sameDtype, found⟩ :=
      access_of_reached created shapes nothing reached
    rw [checked]
    change (if result.allMasked = true then _ else _) = _
    rw [notMasked, if_neg Bool.false_ne_true, isName, named]
    change (checkDtype pointer.dtype desc >>= _) = _
    rw [sameDtype]
    change ((List.mapM (touchedPlace desc.size) _ : PyResult _) >>= _) = _
    rw [found]
    have count :
        (placesOf desc.placeIn (maskBits pointer.data.shape.prod (some mask))
          pointer.data.data).length = pointer.data.shape.prod := by
      change (placesOf desc.placeIn mask.data pointer.data.data).length = _
      rw [placesOf, List.length_map, List.length_zip, mask.sized, pointer.data.sized, sameShape,
        Nat.min_self]
    change (otherItems ops desc.viewDtype (placesOf desc.placeIn
      (maskBits pointer.data.shape.prod (some mask)) pointer.data.data).length other >>= _) = _
    rw [count, spread.otherItems]
    rfl

/-- Positions have a place where their bit is set. -/
theorem isSome_of_touchedPlaces
    {size : Nat}
    {positions : List (Bool × Int)}
    {touched : List (Option Nat)}
    (found :
      List.Forall₂ (fun position place => touchedPlace size position = .ok place) positions
        touched) :
    touched.map Option.isSome = positions.map Prod.fst := by
  induction found with
  | nil =>
      rfl
  | @cons position place positions touched looked _ inductionHypothesis =>
      have isSome : place.isSome = position.1 := by
        unfold touchedPlace at looked
        split at looked
        · next set =>
            obtain ⟨found, _, rfl⟩ := PyResult.map_eq_ok looked
            exact set.symm
        · next masked =>
            obtain rfl := Except.ok.inj looked
            exact (Bool.eq_false_iff.mpr masked).symm
      rw [List.map_cons, List.map_cons, isSome, inductionHypothesis]

/-- A load touches a place exactly for the unmasked positions. -/
theorem isSome_touched
    {loaded : Loaded α}
    (sameShape : mask.shape = pointer.data.shape)
    (ran : load ops blocks pointer (some (.tensor mask)) other = .ok loaded) :
    loaded.touched.map Option.isSome = mask.data := by
  have shapes : ∀ bits ∈ some mask, bits.shape = pointer.data.shape := by
    intro bits same
    obtain rfl := Option.some.inj same
    exact sameShape
  have used : maskTensor pointer.data.shape (some (.tensor mask)) = .ok (some mask) := by
    rw [maskTensor, NdArray.broadcastTo_self sameShape]
    rfl
  have sameLength : mask.data.length = pointer.data.data.length := by
    rw [mask.sized, pointer.data.sized, sameShape]
  unfold load at ran
  rw [used] at ran
  change (boundryCheckAndMapPointers blocks pointer (some mask) >>= _) = _ at ran
  obtain ⟨result, checked, ran⟩ := PyResult.bind_eq_ok.mp ran
  cases masked : result.allMasked with
  | true =>
      have nothing := (allMasked_iff shapes checked).mp masked
      rw [masked, if_pos rfl] at ran
      obtain ⟨dtype, _, ran⟩ := PyResult.bind_eq_ok.mp ran
      obtain ⟨data, _, ran⟩ := PyResult.bind_eq_ok.mp ran
      obtain rfl := Except.ok.inj ran
      rw [List.map_replicate, ← sameShape, ← mask.sized]
      refine (List.eq_replicate_of_mem fun bit member => ?_).symm
      obtain ⟨index, inRange, rfl⟩ := List.mem_iff_getElem.mp member
      by_contra set
      have isUnmasked :
          pointer.data.data.get ⟨index, sameLength ▸ inRange⟩ ∈
            unmaskedBy (some mask) pointer.data.data := by
        refine List.mem_map.mpr ⟨(_, mask.data[index]), List.mem_filter.mpr ⟨?_, ?_⟩, rfl⟩
        · refine List.mem_iff_getElem.mpr ⟨index, ?_, List.getElem_zip⟩
          rw [List.length_zip, ← sameLength, Nat.min_self]
          exact inRange
        · simpa using set
      rw [nothing] at isUnmasked
      cases isUnmasked
  | false =>
      obtain ⟨_, offset, _, mapped⟩ := mapped_of_checked shapes checked masked
      rw [masked, if_neg Bool.false_ne_true] at ran
      obtain ⟨desc, _, ran⟩ := PyResult.bind_eq_ok.mp ran
      obtain ⟨⟨⟩, _, ran⟩ := PyResult.bind_eq_ok.mp ran
      obtain ⟨touched, found, ran⟩ := PyResult.bind_eq_ok.mp ran
      obtain ⟨items, _, ran⟩ := PyResult.bind_eq_ok.mp ran
      obtain rfl := Except.ok.inj ran
      have length : mask.data.length = result.mapped.length := by
        rw [mapped, List.length_map, sameLength]
      have bits := isSome_of_touchedPlaces (PyResult.mapM_eq_ok.mp found)
      change touched.map Option.isSome = mask.data
      rw [bits]
      exact List.map_fst_zip (Nat.le_of_eq length)

end Load

end TensorPC.Tsim
