import TensorPC.Tsim.AtomicStore
import TensorPC.Tsim.BlockAccess

namespace TensorPC.Tsim

/-!
# The contract of block pointers

An index of a block is touched exactly when its position lies inside of the
tensor, and then at the address of that position.  Both `load` and `store` keep
this contract under one condition on shape, block shape and offsets.
-/

open Wire (NpDtype)
open Scatter

variable {α : Type}

/-! ## Stores with a mask -/

section Store

variable {ops : ElementOps α} {state : StoreState α} {pointer : PointerTensor}
variable {value : StoreValue} {mask : NdArray Bool} {name : String}
variable {desc : MemoryBlockDesc α} {valueDtype : NpDtype} {values : List α}

theorem maskTensor_tensor
    {shape : List Nat}
    (sameShape : mask.shape = shape) :
    maskTensor shape (some (.tensor mask)) = .ok (some mask) := by
  rw [maskTensor, NdArray.broadcastTo_self sameShape]
  rfl

theorem prepareStore_of_masked
    (sameShape : mask.shape = pointer.data.shape)
    (nothing : unmaskedBy (some mask) pointer.data.data = []) :
    prepareStore ops state pointer value (some mask) = .ok none := by
  have shapes : ∀ bits ∈ some mask, bits.shape = pointer.data.shape := by
    intro bits same
    obtain rfl := Option.some.inj same
    exact sameShape
  have checked := @mapPointer_eq α state.blocks pointer (some mask) shapes
  rw [if_pos nothing] at checked
  unfold prepareStore
  rw [checked]
  rfl

/-- What a masked store to a block works on. -/
def maskedLanes
    (ops : ElementOps α)
    (pointer : PointerTensor)
    (mask : NdArray Bool)
    (name : String)
    (desc : MemoryBlockDesc α)
    (valueDtype : NpDtype)
    (values : List α) :
    Prepared α where
  name
  desc
  valueDtype
  touched := placesOf desc.placeIn mask.data pointer.data.data
  lanes :=
    ((placesOf desc.placeIn mask.data pointer.data.data).zip values).filterMap fun lane =>
      lane.1.map fun place => (place, lane.2)
  old := oldItems ops desc (placesOf desc.placeIn mask.data pointer.data.data)

/-- What a store prepares whose unmasked addresses lie in a block of the pointer's dtype. -/
theorem prepareStore_of_reached
    (created : Created state.blocks)
    (sameShape : mask.shape = pointer.data.shape)
    (nonempty : unmaskedBy (some mask) pointer.data.data ≠ [])
    (reached : Reached state.blocks pointer (unmaskedBy (some mask) pointer.data.data) name desc)
    (stored :
      storedItems ops state desc.viewDtype pointer.data.shape value = .ok (valueDtype, values)) :
    prepareStore ops state pointer value (some mask) =
      .ok (some (maskedLanes ops pointer mask name desc valueDtype values)) := by
  have shapes : ∀ bits ∈ some mask, bits.shape = pointer.data.shape := by
    intro bits same
    obtain rfl := Option.some.inj same
    exact sameShape
  obtain ⟨result, checked, notMasked, isName, named, sameDtype, found⟩ :=
    access_of_reached created shapes nonempty reached
  unfold prepareStore
  rw [checked]
  change (if result.allMasked = true then _ else _) = _
  rw [notMasked, if_neg Bool.false_ne_true, isName, named]
  change (checkDtype pointer.dtype desc >>= _) = _
  rw [sameDtype]
  change (storedItems ops state desc.viewDtype pointer.data.shape value >>= _) = _
  rw [stored]
  change ((List.mapM (touchedPlace desc.size) _ : PyResult _) >>= _) = _
  rw [found]
  rfl

theorem store_of_nothing
    {mask : Option MaskArg}
    {bits : Option (NdArray Bool)}
    {atomicOp : Option AtomicOp}
    {cmp : Option (CompareArg α)}
    (used : maskTensor pointer.data.shape mask = .ok bits)
    (prepare : prepareStore ops state pointer value bits = .ok none) :
    store ops pointer value mask atomicOp cmp state =
      .ok (if atomicOp.isSome then .undefined else .nothing) state := by
  have start :
      (get : EStateM PyError (StoreState α) (StoreState α)) state = .ok state state := rfl
  unfold store
  rw [Computation.bind_of_ok start, used]
  simp only [prepare]
  rfl

theorem store_of_prepared
    {mask : Option MaskArg}
    {bits : Option (NdArray Bool)}
    {cmp : Option (CompareArg α)}
    {prepared : Prepared α}
    (used : maskTensor pointer.data.shape mask = .ok bits)
    (prepare : prepareStore ops state pointer value bits = .ok (some prepared)) :
    store ops pointer value mask none cmp state =
      .ok (.old prepared.old)
        { state with
          blocks := writeBlock prepared.name (assignLanes ops prepared) state.blocks } := by
  have start :
      (get : EStateM PyError (StoreState α) (StoreState α)) state = .ok state state := rfl
  unfold store
  rw [Computation.bind_of_ok start, used]
  simp only [prepare, atomicSection]
  rfl

/-- What a cell holds after the lanes were assigned. -/
theorem cell_of_assignLanes
    {blocks : List (String × MemoryBlockDesc α)}
    {prepared : Prepared α}
    (created : Created blocks)
    (reached :
      Reached blocks pointer (unmaskedBy (some mask) pointer.data.data) prepared.name
        prepared.desc)
    (sized : values.length = pointer.data.data.length)
    (lanes :
      prepared.lanes =
        ((placesOf prepared.desc.placeIn mask.data pointer.data.data).zip values).filterMap
          fun lane => lane.1.map fun place => (place, lane.2))
    {entry : String × MemoryBlockDesc α}
    (member : entry ∈ blocks)
    {place : Nat}
    {old : α}
    (holds : entry.2.dataView[place]? = some old) :
    (if entry.1 = prepared.name then entry.2.write (assignLanes ops prepared)
      else entry.2).dataView[place]? =
      some (((lanesTo pointer (some mask) values entry.2 place).getLast?.map
        (ops.assign prepared.desc.viewDtype prepared.valueDtype)).getD old) := by
  by_cases here : entry.1 = prepared.name
  · have same : entry.2 = prepared.desc := by
      have first := (Dict.lookup_eq_some_iff created.distinct).mpr member
      have second := (Dict.lookup_eq_some_iff created.distinct).mpr reached.member
      rw [here] at first
      exact Option.some.inj (first.symm.trans second)
    have carried := lanesAt_eq created reached sized place
    have assigned :
        lanesAt place (prepared.lanes.map fun lane =>
            (lane.1, ops.assign prepared.desc.viewDtype prepared.valueDtype lane.2)) =
          (lanesTo pointer (some mask) values prepared.desc place).map
            (ops.assign prepared.desc.viewDtype prepared.valueDtype) := by
      rw [← carried, lanes]
      exact lanesAt_map _ _ _
    rw [if_pos here]
    change (writeLanes entry.2.dataView _)[place]? = _
    rw [getElem?_writeLanes, holds, assigned, List.getLast?_map, same]
    rfl
  · have inRange : place < entry.2.size := by
      rw [← entry.2.sized]
      exact (List.getElem?_eq_some_iff.mp holds).1
    rw [if_neg here, holds, lanesTo_of_other created reached member here inRange]
    rfl

/-- A plain store whose unmasked addresses lie in a block of the pointer's dtype returns, and
every cell holds what the last lane to it carried. -/
theorem store_of_reached
    (cmp : Option (CompareArg α))
    (created : Created state.blocks)
    (sameShape : mask.shape = pointer.data.shape)
    (reached : Reached state.blocks pointer (unmaskedBy (some mask) pointer.data.data) name desc)
    (stored :
      storedItems ops state desc.viewDtype pointer.data.shape value = .ok (valueDtype, values)) :
    ∃ result after,
      store ops pointer value (some (.tensor mask)) none cmp state = .ok result after ∧
        ∀ entry ∈ state.blocks, ∀ place old,
          entry.2.dataView[place]? = some old →
            ∃ other,
              (entry.1, other) ∈ after.blocks ∧
                other.dataView[place]? =
                  some (((lanesTo pointer (some mask) values entry.2 place).getLast?.map
                    (ops.assign desc.viewDtype valueDtype)).getD old) := by
  have used := @maskTensor_tensor mask pointer.data.shape sameShape
  by_cases nothing : unmaskedBy (some mask) pointer.data.data = []
  · refine ⟨_, state, store_of_nothing used (prepareStore_of_masked sameShape nothing), ?_⟩
    intro entry member place old held
    refine ⟨entry.2, member, ?_⟩
    rw [lanesTo_of_masked nothing, held]
    rfl
  · have prepare := prepareStore_of_reached created sameShape nothing reached stored
    refine ⟨_, _, store_of_prepared used prepare, ?_⟩
    intro entry member place old held
    have sized : values.length = pointer.data.data.length :=
      (length_storedItems stored).trans pointer.data.sized.symm
    have written := mem_writeBlock_iff created name
      (assignLanes ops (maskedLanes ops pointer mask name desc valueDtype values)) member
    refine ⟨_, (written _).mpr rfl, ?_⟩
    exact @cell_of_assignLanes α ops pointer mask values state.blocks
      (maskedLanes ops pointer mask name desc valueDtype values) created reached sized rfl entry
      member place old held

end Store

namespace SimTensorBlockPointer

/-! ## The contract -/

/-- What is touched for an index of a block: the cell at the address of its position, if that
lies inside of the tensor. -/
def TouchesAt
    (pointer : SimTensorBlockPointer)
    (offsets : List Int)
    (desc : MemoryBlockDesc α)
    (index : List Int)
    (touched : Option Nat) :
    Prop :=
  if InTensor pointer.shape (pointer.position offsets index) then
    ∃ place,
      touched = some place ∧
        place < desc.size ∧
        desc.cellAddress place =
          pointer.element (pointer.position offsets index) * pointer.dtype.byteSize
  else
    touched = none

/-- A load returns, touches what it should, and gives the elements there; the other indices
receive `other`. -/
def LoadContract
    (ops : ElementOps α)
    (blocks : List (String × MemoryBlockDesc α))
    (pointer : SimTensorBlockPointer)
    (offsets : List Int)
    (desc : MemoryBlockDesc α)
    (other : Option (OtherArg α))
    (others : List (Option α)) :
    Prop :=
  ∃ loaded,
    pointer.load ops blocks offsets other = .ok loaded ∧
      List.Forall₂ (pointer.TouchesAt offsets desc) (blockIndices pointer.blockShape)
        loaded.touched ∧
      loaded.data = loadedItems desc loaded.touched others

/-- The values for a cell: those of the indices whose position is inside of the tensor, at the
address of the cell. -/
def valuesFor
    (pointer : SimTensorBlockPointer)
    (offsets : List Int)
    (values : List α)
    (desc : MemoryBlockDesc α)
    (place : Nat) :
    List α :=
  ((blockIndices pointer.blockShape).zip values).filterMap fun lane =>
    if InTensor pointer.shape (pointer.position offsets lane.1) ∧
        pointer.element (pointer.position offsets lane.1) * pointer.dtype.byteSize =
          desc.cellAddress place then
      some lane.2
    else
      none

/-- A store returns, touches what it should, and changes no other cell. -/
def StoreContract
    (ops : ElementOps α)
    (before : StoreState α)
    (pointer : SimTensorBlockPointer)
    (offsets : List Int)
    (desc : MemoryBlockDesc α)
    (value : StoreValue)
    (valueDtype : NpDtype)
    (values : List α) :
    Prop :=
  ∃ result after touched,
    pointer.store ops offsets value none none before = .ok result after ∧
      pointer.storeTouches ops offsets value before = .ok touched ∧
      List.Forall₂ (pointer.TouchesAt offsets desc) (blockIndices pointer.blockShape) touched ∧
      ∀ entry ∈ before.blocks, ∀ place old,
        entry.2.dataView[place]? = some old →
          ∃ other,
            (entry.1, other) ∈ after.blocks ∧
              other.dataView[place]? =
                some (((pointer.valuesFor offsets values entry.2 place).getLast?.map
                  (ops.assign desc.viewDtype valueDtype)).getD old)

/-- Moving the block by its offset does not change which of its indices are inside of the
tensor. -/
structure OffsetKeepsMask
    (pointer : SimTensorBlockPointer)
    (offsets : List Int) :
    Prop where
  hasAxes : pointer.shape ≠ []
  areInt64 :
    ∀ axis ∈ (addOffsets pointer.offset offsets).zip pointer.strides,
      IsInt64 axis.1 ∧ IsInt64 axis.2
  sameMask :
    ∀ index ∈ blockIndices pointer.blockShape,
      InTensor pointer.shape (pointer.position offsets index) ↔ InTensor pointer.shape index

section Contract

variable {ops : ElementOps α} {blocks : List (String × MemoryBlockDesc α)}
variable {pointer : SimTensorBlockPointer} {offsets : List Int} {name : String}
variable {desc : MemoryBlockDesc α}

theorem maskAt_iff (shape index : List Int) :
    maskAt shape index = true ↔ InTensor shape index := by
  simp [maskAt, InTensor, List.all_eq_true]

theorem checkInt64_eq_ok {number : Int} :
    checkInt64 number = .ok () ↔ IsInt64 number := by
  unfold checkInt64
  by_cases small : IsInt64 number
  · simp [small]
  · simp [small]

/-- The numbers of a call fit into 64 bits, or it raises. -/
theorem forM_checkInt64
    {axes : List (Int × Int)} :
    axes.forM (fun axis => do
        checkInt64 axis.1
        checkInt64 axis.2) = (.ok () : PyResult Unit) ↔
      ∀ axis ∈ axes, IsInt64 axis.1 ∧ IsInt64 axis.2 := by
  induction axes with
  | nil =>
      simp [pure, Except.pure]
  | cons axis axes inductionHypothesis =>
      rw [List.forall_mem_cons, ← inductionHypothesis]
      change ((checkInt64 axis.1 >>= fun _ => checkInt64 axis.2) >>= fun _ =>
        List.forM axes _ : PyResult Unit) = _ ↔ _
      constructor
      · intro checked
        obtain ⟨⟨⟩, first, rest⟩ := PyResult.bind_eq_ok.mp checked
        obtain ⟨⟨⟩, offset, stride⟩ := PyResult.bind_eq_ok.mp first
        exact ⟨⟨checkInt64_eq_ok.mp offset, checkInt64_eq_ok.mp stride⟩, rest⟩
      · rintro ⟨⟨offset, stride⟩, rest⟩
        rw [checkInt64_eq_ok.mpr offset, checkInt64_eq_ok.mpr stride]
        exact rest

/-- When pointers and mask are computed. -/
theorem current_eq_ok
    {current : PointerTensor × NdArray Bool}
    (callRank : offsets.length = pointer.shape.length) :
    pointer.getCurrentPointerTensorAndMask offsets = .ok current ↔
      (pointer.shape ≠ [] ∧
        ∀ axis ∈ (addOffsets pointer.offset offsets).zip pointer.strides,
          IsInt64 axis.1 ∧ IsInt64 axis.2) ∧
        current = (pointer.pointerTensor (addOffsets pointer.offset offsets),
          pointer.maskTensor) := by
  have sameRank : decide (offsets.length = pointer.offset.length) = true := by
    rw [callRank, pointer.offsetRank]
    exact decide_eq_true rfl
  unfold getCurrentPointerTensorAndMask
  rw [sameRank]
  constructor
  · intro computed
    obtain ⟨⟨⟩, _, computed⟩ := PyResult.bind_eq_ok.mp computed
    obtain ⟨⟨⟩, checked, computed⟩ := PyResult.bind_eq_ok.mp computed
    by_cases scalar : pointer.shape.isEmpty
    · rw [if_pos scalar] at computed
      cases computed
    · rw [if_neg scalar] at computed
      obtain rfl := Except.ok.inj computed
      exact ⟨⟨fun noAxes => scalar (List.isEmpty_iff.mpr noAxes), forM_checkInt64.mp checked⟩, rfl⟩
  · rintro ⟨⟨hasAxes, areInt64⟩, rfl⟩
    have checked := forM_checkInt64.mpr areInt64
    have notScalar : ¬ pointer.shape.isEmpty = true := fun scalar =>
      hasAxes (List.isEmpty_iff.mp scalar)
    change (List.forM _ _ >>= _ : PyResult _) = _
    rw [checked]
    change (if pointer.shape.isEmpty = true then _ else _) = _
    rw [if_neg notScalar]
    rfl

/-- An element inside of the tensor is a 64-bit integer. -/
theorem isInt64_element
    (created : Created blocks)
    (tensorInside : TensorInside blocks pointer name desc)
    {position : List Int}
    (rank : position.length = pointer.shape.length)
    (inTensor : InTensor pointer.shape position) :
    IsInt64 (pointer.element position) := by
  obtain ⟨low, high⟩ := tensorInside.inside position rank inTensor
  have bound : desc.byteOffsetWithHole + desc.getByteSize ≤ 2 ^ 63 :=
    created.addressable _ tensorInside.member
  have unit : (1 : Int) ≤ pointer.dtype.byteSize := by
    exact_mod_cast pointer.dtype.byteSize_pos
  have start := Int.natCast_nonneg desc.byteOffsetWithHole
  have nonnegative : 0 ≤ pointer.element position := by
    apply Int.le_of_not_gt
    intro negative
    have product := Int.mul_neg_of_neg_of_pos negative (Int.lt_of_lt_of_le Int.zero_lt_one unit)
    omega
  have scaled : pointer.element position * 1 ≤ pointer.element position * pointer.dtype.byteSize :=
    Int.mul_le_mul_of_nonneg_left unit nonnegative
  exact ⟨by omega, by omega⟩

theorem length_position
    (callRank : offsets.length = pointer.shape.length)
    {index : List Int}
    (isIndex : index ∈ blockIndices pointer.blockShape) :
    (pointer.position offsets index).length = pointer.shape.length := by
  rw [position, addOffsets, addOffsets, List.length_zipWith, List.length_zipWith,
    pointer.offsetRank, callRank, length_of_mem_blockIndices isIndex, pointer.blockRank,
    Nat.min_self, Nat.min_self]

theorem item_of_inTensor
    (created : Created blocks)
    (tensorInside : TensorInside blocks pointer name desc)
    (callRank : offsets.length = pointer.shape.length)
    {index : List Int}
    (isIndex : index ∈ blockIndices pointer.blockShape)
    (inTensor : InTensor pointer.shape (pointer.position offsets index)) :
    wrapInt64 (pointer.base +
        offsetAt (addOffsets pointer.offset offsets) index pointer.strides) =
      pointer.element (pointer.position offsets index) := by
  rw [wrapInt64_offsetAt]
  exact wrapInt64_of_isInt64
    (isInt64_element created tensorInside (length_position callRank isIndex) inTensor)

theorem reached_of_offsetKeepsMask
    (created : Created blocks)
    (tensorInside : TensorInside blocks pointer name desc)
    (callRank : offsets.length = pointer.shape.length)
    (keeps : OffsetKeepsMask pointer offsets) :
    Reached blocks (pointer.pointerTensor (addOffsets pointer.offset offsets))
      (unmaskedBy (some pointer.maskTensor)
        (pointer.pointerTensor (addOffsets pointer.offset offsets)).data.data) name desc where
  member := tensorInside.member
  sameDtype := tensorInside.sameDtype
  inside := by
    intro item isItem
    obtain ⟨index, isIndex, unmaskedIndex, rfl⟩ := mem_unmasked_map.mp isItem
    have inTensor :=
      (keeps.sameMask index isIndex).mpr ((maskAt_iff _ _).mp unmaskedIndex)
    rw [item_of_inTensor created tensorInside callRank isIndex inTensor]
    exact tensorInside.inside _ (length_position callRank isIndex) inTensor

/-- The places of the unmasked addresses are the ones of the positions. -/
theorem touchesAt_of_offsetKeepsMask
    (created : Created blocks)
    (tensorInside : TensorInside blocks pointer name desc)
    (callRank : offsets.length = pointer.shape.length)
    (keeps : OffsetKeepsMask pointer offsets) :
    List.Forall₂ (pointer.TouchesAt offsets desc) (blockIndices pointer.blockShape)
      (placesOf desc.placeIn pointer.maskTensor.data
        (pointer.pointerTensor (addOffsets pointer.offset offsets)).data.data) := by
  have reached := reached_of_offsetKeepsMask created tensorInside callRank keeps
  change List.Forall₂ _ _ (placesOf _ (List.map _ _) (List.map _ _))
  rw [placesOf_map, List.forall₂_map_right_iff, List.forall₂_same]
  intro index isIndex
  by_cases inTensor : InTensor pointer.shape (pointer.position offsets index)
  · have unmaskedIndex := (maskAt_iff _ _).mpr ((keeps.sameMask index isIndex).mp inTensor)
    have isItem :
        wrapInt64 (pointer.base +
            offsetAt (addOffsets pointer.offset offsets) index pointer.strides) ∈
          unmaskedBy (some pointer.maskTensor)
            (pointer.pointerTensor (addOffsets pointer.offset offsets)).data.data :=
      mem_unmasked_map.mpr ⟨index, isIndex, unmaskedIndex, rfl⟩
    obtain ⟨_, below, address⟩ := reached.placeOf created isItem (isInt64_wrapInt64 _)
    rw [TouchesAt, if_pos inTensor, if_pos unmaskedIndex]
    refine ⟨_, rfl, below, address.trans ?_⟩
    rw [item_of_inTensor created tensorInside callRank isIndex inTensor]
    rfl
  · have maskedIndex : ¬ maskAt pointer.shape index = true := fun set =>
      inTensor ((keeps.sameMask index isIndex).mpr ((maskAt_iff _ _).mp set))
    rw [TouchesAt, if_neg inTensor, if_neg maskedIndex]

/-- The values that are stored to a cell are the ones of the positions there. -/
theorem lanesTo_of_offsetKeepsMask
    (created : Created blocks)
    (tensorInside : TensorInside blocks pointer name desc)
    (callRank : offsets.length = pointer.shape.length)
    (keeps : OffsetKeepsMask pointer offsets)
    (values : List α)
    (target : MemoryBlockDesc α)
    (place : Nat) :
    lanesTo (pointer.pointerTensor (addOffsets pointer.offset offsets))
        (some pointer.maskTensor) values target place =
      pointer.valuesFor offsets values target place := by
  have lanes := filterMap_unmasked_map (blockIndices pointer.blockShape)
    (maskAt pointer.shape)
    (fun index => wrapInt64 (pointer.base +
      offsetAt (addOffsets pointer.offset offsets) index pointer.strides))
    values fun item => item * pointer.dtype.byteSize = target.cellAddress place
  refine lanes.trans (List.filterMap_congr ?_)
  rintro ⟨index, value⟩ isLane
  have isIndex := (List.of_mem_zip isLane).1
  by_cases inTensor : InTensor pointer.shape (pointer.position offsets index)
  · have unmaskedIndex := (maskAt_iff _ _).mpr ((keeps.sameMask index isIndex).mp inTensor)
    simp only [inTensor, unmaskedIndex, true_and,
      item_of_inTensor created tensorInside callRank isIndex inTensor]
  · have maskedIndex : ¬ maskAt pointer.shape index = true := fun set =>
      inTensor ((keeps.sameMask index isIndex).mpr ((maskAt_iff _ _).mp set))
    simp [inTensor, maskedIndex]

/-! ## When the contract is kept -/

theorem gridShape_ne_nil
    (hasAxes : pointer.shape ≠ []) :
    gridShape pointer.blockShape ≠ [] := by
  intro noAxes
  apply hasAxes
  rw [← List.length_eq_zero_iff, ← pointer.blockRank]
  rw [List.map_eq_nil_iff.mp noAxes]
  rfl

theorem loadContract_of_offsetKeepsMask
    {other : Option (OtherArg α)}
    {others : List (Option α)}
    (created : Created blocks)
    (tensorInside : TensorInside blocks pointer name desc)
    (callRank : offsets.length = pointer.shape.length)
    (spread : Spread ops desc.viewDtype (gridShape pointer.blockShape) others other)
    (keeps : OffsetKeepsMask pointer offsets) :
    LoadContract ops blocks pointer offsets desc other others := by
  have reached := reached_of_offsetKeepsMask created tensorInside callRank keeps
  have current := (current_eq_ok callRank).mpr ⟨⟨keeps.hasAxes, keeps.areInt64⟩, rfl⟩
  have ran :
      pointer.load ops blocks offsets other =
        Tsim.load ops blocks (pointer.pointerTensor (addOffsets pointer.offset offsets))
          (some (.tensor pointer.maskTensor)) other := by
    unfold load
    rw [current]
    rfl
  have loads := load_of_reached created rfl (gridShape_ne_nil keeps.hasAxes) reached spread
  exact ⟨_, ran.trans loads, touchesAt_of_offsetKeepsMask created tensorInside callRank keeps, rfl⟩

/-- Only with an offset that keeps the mask are the right elements loaded. -/
theorem offsetKeepsMask_of_loadContract
    {other : Option (OtherArg α)}
    {others : List (Option α)}
    (callRank : offsets.length = pointer.shape.length)
    (contract : LoadContract ops blocks pointer offsets desc other others) :
    OffsetKeepsMask pointer offsets := by
  obtain ⟨loaded, ran, touches, _⟩ := contract
  obtain ⟨current, computed, ran⟩ := PyResult.bind_eq_ok.mp ran
  obtain ⟨⟨hasAxes, areInt64⟩, rfl⟩ := (current_eq_ok callRank).mp computed
  refine ⟨hasAxes, areInt64, ?_⟩
  have byMask : loaded.touched.map Option.isSome =
      (blockIndices pointer.blockShape).map (maskAt pointer.shape) :=
    isSome_touched rfl ran
  have byPosition : List.Forall₂ (fun index touched =>
      decide (InTensor pointer.shape (pointer.position offsets index)) =
        Option.isSome touched) (blockIndices pointer.blockShape) loaded.touched := by
    refine touches.imp ?_
    intro index touched touchesAt
    unfold TouchesAt at touchesAt
    split at touchesAt
    · next inTensor =>
        obtain ⟨place, rfl, _⟩ := touchesAt
        exact decide_eq_true inTensor
    · next outside =>
        rw [touchesAt]
        exact decide_eq_false outside
  have sameBits :
      (blockIndices pointer.blockShape).map (fun index =>
          decide (InTensor pointer.shape (pointer.position offsets index))) =
        (blockIndices pointer.blockShape).map (maskAt pointer.shape) := by
    rw [← byMask, ← List.forall₂_eq_eq_eq, List.forall₂_map_left_iff, List.forall₂_map_right_iff]
    exact byPosition
  intro index isIndex
  have sameBit := List.map_inj_left.mp sameBits index isIndex
  rw [← maskAt_iff pointer.shape index, ← sameBit, decide_eq_true_iff]

theorem storeContract_of_offsetKeepsMask
    {before : StoreState α}
    {value : StoreValue}
    {valueDtype : NpDtype}
    {values : List α}
    (created : Created before.blocks)
    (tensorInside : TensorInside before.blocks pointer name desc)
    (callRank : offsets.length = pointer.shape.length)
    (stored :
      storedItems ops before desc.viewDtype (gridShape pointer.blockShape) value =
        .ok (valueDtype, values))
    (keeps : OffsetKeepsMask pointer offsets) :
    StoreContract ops before pointer offsets desc value valueDtype values := by
  have reached := reached_of_offsetKeepsMask created tensorInside callRank keeps
  have current := (current_eq_ok callRank).mpr ⟨⟨keeps.hasAxes, keeps.areInt64⟩, rfl⟩
  obtain ⟨result, after, ran, written⟩ :=
    @store_of_reached α ops before (pointer.pointerTensor (addOffsets pointer.offset offsets))
      value pointer.maskTensor name desc valueDtype values none created rfl reached stored
  refine ⟨result, after, _, ?_, ?_,
    touchesAt_of_offsetKeepsMask created tensorInside callRank keeps, ?_⟩
  · unfold store
    rw [current]
    exact ran
  · unfold storeTouches
    rw [current]
    change (prepareStore ops before (pointer.pointerTensor _) value (some pointer.maskTensor) >>=
      _) = _
    by_cases nothing : unmaskedBy (some pointer.maskTensor)
        (pointer.pointerTensor (addOffsets pointer.offset offsets)).data.data = []
    · rw [@prepareStore_of_masked α ops before (pointer.pointerTensor _) value pointer.maskTensor
        rfl nothing]
      exact congrArg Except.ok (@placesOf_of_masked (pointer.pointerTensor _) pointer.maskTensor
        desc.placeIn rfl nothing).symm
    · rw [@prepareStore_of_reached α ops before (pointer.pointerTensor _) value pointer.maskTensor
        name desc valueDtype values created rfl nothing reached stored]
      rfl
  · intro entry member place old held
    obtain ⟨other, isOther, holds⟩ := written entry member place old held
    refine ⟨other, isOther, ?_⟩
    rw [← lanesTo_of_offsetKeepsMask created tensorInside callRank keeps]
    exact holds

end Contract

/-- Loads and plain stores of a block keep the contract exactly when the offset keeps the mask. -/
theorem keepsContract_iff
    {ops : ElementOps α}
    {before : StoreState α}
    {pointer : SimTensorBlockPointer}
    {offsets : List Int}
    {name : String}
    {desc : MemoryBlockDesc α}
    {other : Option (OtherArg α)}
    {others : List (Option α)}
    {value : StoreValue}
    {valueDtype : NpDtype}
    {values : List α}
    (created : Created before.blocks)
    (tensorInside : TensorInside before.blocks pointer name desc)
    (callRank : offsets.length = pointer.shape.length)
    (spread : Spread ops desc.viewDtype (gridShape pointer.blockShape) others other)
    (stored :
      storedItems ops before desc.viewDtype (gridShape pointer.blockShape) value =
        .ok (valueDtype, values)) :
    LoadContract ops before.blocks pointer offsets desc other others ∧
        StoreContract ops before pointer offsets desc value valueDtype values ↔
      OffsetKeepsMask pointer offsets := by
  constructor
  · rintro ⟨loads, _⟩
    exact offsetKeepsMask_of_loadContract callRank loads
  · intro keeps
    exact ⟨loadContract_of_offsetKeepsMask created tensorInside callRank spread keeps,
      storeContract_of_offsetKeepsMask created tensorInside callRank stored keeps⟩

/-! ## Examples -/

/-- A block of a tensor at the start of the memory, both with one axis. -/
def sampleBlock (size blockSize offset : Int) : SimTensorBlockPointer where
  dtype := .int32
  base := 0
  shape := [size]
  strides := [1]
  blockShape := [blockSize]
  offset := [offset]
  isInt64 := by decide
  strideRank := rfl
  blockRank := rfl
  offsetRank := rfl

/-- The block of the memory. -/
def sampleDesc : MemoryBlockDesc Int where
  toBlockData := {
    size := 2
    dtype := .int32
    viewDtype := .int32
    dataView := [10, 20]
    sized := rfl }
  byteOffset := 0
  byteOffsetWithHole := 0

theorem tensorInside_sample
    {size blockSize offset : Int}
    (small : size ≤ 2) :
    TensorInside (sampleMemory 10 20) (sampleBlock size blockSize offset) "a" sampleDesc where
  member := List.mem_singleton.mpr rfl
  sameDtype := rfl
  inside := by
    intro position rank inTensor
    obtain ⟨place, rfl⟩ := List.length_eq_one_iff.mp rank
    obtain ⟨low, high⟩ := inTensor (place, size) (List.mem_singleton.mpr rfl)
    change 0 ≤ place at low
    change place < size at high
    have width : (DTypeEnum.int32.byteSize : Int) = 4 := by decide
    have bytes : (sampleDesc.getByteSize : Int) = 8 := by decide
    change 0 ≤ (0 + ([place].zipWith (· * ·) [1]).sum) * (DTypeEnum.int32.byteSize : Int) ∧
      (0 + ([place].zipWith (· * ·) [1]).sum) * (DTypeEnum.int32.byteSize : Int) <
        0 + (sampleDesc.getByteSize : Int)
    rw [width, bytes, List.zipWith_cons_cons, List.zipWith_nil_left, List.sum_singleton]
    omega

/-- A block that is not moved: its last index is outside of the tensor. -/
theorem keepsContract_iff_sample :
    LoadContract (withIntegers sampleElements) (sampleMemory 10 20) (sampleBlock 2 3 0) [0]
        sampleDesc none [none, none, none] ∧
      StoreContract (withIntegers sampleElements)
        { blocks := sampleMemory 10 20, value := { shape := [3], data := [1, 2, 3], sized := rfl } }
        (sampleBlock 2 3 0) [0] sampleDesc (.tensor .int32 true false) .int32 [1, 2, 3] := by
  refine (@keepsContract_iff Int (withIntegers sampleElements)
    { blocks := sampleMemory 10 20, value := { shape := [3], data := [1, 2, 3], sized := rfl } }
    (sampleBlock 2 3 0) [0] "a" sampleDesc none [none, none, none] (.tensor .int32 true false)
    .int32 [1, 2, 3] created_sampleMemory (tensorInside_sample (Int.le_refl 2)) rfl rfl
    rfl).mpr ?_
  exact {
    hasAxes := List.cons_ne_nil _ _
    areInt64 := by decide
    sameMask := by decide }

/-- After an advance a block reads behind the tensor. -/
theorem not_keepsContract :
    ¬ ∀ (pointer : SimTensorBlockPointer) (offsets : List Int)
        (blocks : List (String × MemoryBlockDesc Int)) (name : String)
        (desc : MemoryBlockDesc Int),
      Created blocks →
        TensorInside blocks pointer name desc →
          offsets.length = pointer.shape.length →
            LoadContract (withIntegers sampleElements) blocks pointer offsets desc none
              (List.replicate (gridShape pointer.blockShape).prod none) := by
  intro keeps
  obtain ⟨loaded, ran, touches, _⟩ := keeps (sampleBlock 1 1 1) [0] (sampleMemory 10 20) "a"
    sampleDesc created_sampleMemory (tensorInside_sample (by decide)) rfl
  have neighbour :
      (sampleBlock 1 1 1).load (withIntegers sampleElements) (sampleMemory 10 20) [0] none =
        .ok { data := [some 20], touched := [some 1] } := by
    decide +kernel
  obtain rfl := Except.ok.inj (neighbour.symm.trans ran)
  obtain ⟨nothing, _⟩ := List.forall₂_cons.mp touches
  cases nothing

end SimTensorBlockPointer

end TensorPC.Tsim
