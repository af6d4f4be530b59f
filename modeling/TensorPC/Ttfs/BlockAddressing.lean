import TensorPC.Ttfs.IteratorAgreement

namespace TensorPC.Ttfs

/-!
# Addresses and masks of a block

The element of a block at a lane should lie at the sum of the products of the
coordinates and the strides of the dimensions that the block names, and loads and
stores should reach no element outside the tensor.  The addresses depend on the axis
that a name leads to, and on the stride that the first offset is multiplied by.
-/

namespace TensorManager

/-- The stride of an axis: the given one, or the product of the later sizes. -/
def strideOfAxis
    (manager : TensorManager Int)
    (desc : TensorDesc Int)
    (axis : Nat) :
    Int :=
  let contiguous := ((desc.shapeNames.drop (axis + 1)).map fun name =>
    (manager.sizes name).number).prod
  match desc.dims[axis]? with
  | none => 0
  | some dim =>
      match dim.stride with
      | .constexpr stride => if stride < 0 then contiguous else stride
      | .value stride => stride

end TensorManager

namespace BlockedTensorDesc

/-- The axis that a name stands for; aliases come before names. -/
def axisOf
    (desc : BlockedTensorDesc)
    (name : String) :
    Nat :=
  if name ∈ desc.desc.aliasNames then
    desc.desc.aliasNames.idxOf name
  else
    desc.desc.shapeNames.idxOf name

/-- The stride of the dimension that a name stands for. -/
def dimStride
    (desc : BlockedTensorDesc)
    (name : String) :
    Int :=
  desc.mgr.strideOfAxis desc.desc (desc.axisOf name)

/-- The distance of the element at a lane from the start of the tensor. -/
def displacement
    (desc : BlockedTensorDesc)
    (lanes : List Int) :
    Int :=
  dot (List.zipWith (· + ·) lanes (desc.block.map fun axis => desc.offsetOf axis.1))
    (desc.block.map fun axis => desc.dimStride axis.1)

/-- The lane lies inside the dimension of a block axis. -/
def Inside
    (desc : BlockedTensorDesc)
    (lanes : List Int)
    (place : Nat)
    (axis : String × Nat) :
    Prop :=
  lanes.getD place 0 + desc.offsetOf axis.1 < desc.sizeOf axis.1

/-- What `simple_load` and `simple_store` use with `apply_mask`. -/
def simpleAccess
    (desc : BlockedTensorDesc)
    (applyMask : Bool) :
    PyResult Access := do
  let needsMask ← if applyMask then desc.isNeedBlockMask none else .ok false
  let mask ← if needsMask then (desc.getBlockedMasks none).map some else .ok none
  let pointers ← desc.getBlockedPtrs
  return ⟨pointers, mask⟩

end BlockedTensorDesc

/-- An access without a mask reads or writes all lanes. -/
def Access.Touches
    (access : Access)
    (lanes : List Int) :
    Prop :=
  (access.mask.all fun mask => mask lanes) = true

/-- A block of a tensor: its names are dimensions of the tensor, no dimension twice,
its offsets are multiples of the block sizes inside the dimensions, and the declared
divisors are right. -/
structure PlacedBlock where
  desc : BlockedTensorDesc
  nonempty : desc.block ≠ []
  hasAxes : ∀ axis ∈ desc.block, desc.HasName axis.1
  distinct : (desc.block.map fun axis => desc.globalName axis.1).Nodup
  positive : ∀ axis ∈ desc.block, 0 < axis.2
  multiple : ∀ axis ∈ desc.block, (axis.2 : Int) ∣ desc.offsetOf axis.1
  starts : ∀ axis ∈ desc.block, 0 ≤ desc.offsetOf axis.1
  inside : ∀ axis ∈ desc.block, desc.offsetOf axis.1 < desc.sizeOf axis.1
  declared :
    ∀ name divisor, desc.dimMultipleOf.lookup name = some divisor →
      divisor ∣ (desc.mgr.sizes name).number

/-- Addresses, offsets, masks and accesses of the block are as they should be. -/
structure BlockRight
    (block : PlacedBlock) :
    Prop where
  pointers :
    ∃ pointers, block.desc.getBlockedPtrs = .ok pointers ∧
      ∀ lanes, block.desc.InTile lanes →
        pointers lanes = block.desc.ptr + block.desc.displacement lanes
  offsets :
    ∃ offsets, block.desc.getBlockedOffsets = .ok offsets ∧
      ∀ lanes, block.desc.InTile lanes → offsets lanes = block.desc.displacement lanes
  masks :
    ∀ exceptAxis, block.desc.isNeedBlockMask exceptAxis = .ok true →
      ∃ masks, block.desc.getBlockedMasks exceptAxis = .ok masks ∧
        ∀ lanes, block.desc.InTile lanes →
          (masks lanes = true ↔
            ∀ place axis, block.desc.block[place]? = some axis →
              place ∈ block.desc.maskedAxes exceptAxis → block.desc.Inside lanes place axis)
  accesses :
    ∃ access, block.desc.simpleAccess true = .ok access ∧
      ∀ lanes, block.desc.InTile lanes → access.Touches lanes →
        ∀ place axis, block.desc.block[place]? = some axis →
          block.desc.Inside lanes place axis

/-! ## The condition -/

namespace BlockedTensorDesc

/-- Strides for the block axes that give the right sums: the right ones where the block
has more than one lane, and the right sum for its first element. -/
structure StridesAgree
    (desc : BlockedTensorDesc)
    (strides : List Int) :
    Prop where
  first :
    dot (desc.block.map fun axis => desc.offsetOf axis.1) strides =
      dot (desc.block.map fun axis => desc.offsetOf axis.1)
        (desc.block.map fun axis => desc.dimStride axis.1)
  others :
    ∀ place axis, desc.block[place]? = some axis → 1 < axis.2 →
      strides.getD place 0 = desc.dimStride axis.1

/-- The strides read through the global names of the block axes, the first one replaced
by one. -/
def generalStrides
    (desc : BlockedTensorDesc) :
    List Int :=
  1 :: (desc.block.map fun axis => desc.strideOf axis.1).tail

/-- The strides of the written-out sums for up to four axes. -/
def pointerStrides
    (desc : BlockedTensorDesc) :
    List Int :=
  if desc.block.length ≤ 4 then
    desc.block.map fun axis => desc.strideOf axis.1
  else
    desc.generalStrides

end BlockedTensorDesc

/-- The strides agree with and without the first one, and the block ends inside every
dimension with a size of run time for which a divisor is declared under the alias that
the block uses. -/
structure BlockFits
    (block : PlacedBlock) :
    Prop where
  pointers : block.desc.StridesAgree block.desc.pointerStrides
  offsets : block.desc.StridesAgree block.desc.generalStrides
  unmasked :
    ∀ axis ∈ block.desc.block,
      axis.1 ≠ block.desc.globalName axis.1 →
      (block.desc.mgr.sizes (block.desc.globalName axis.1)).isConstexpr = false →
      ∀ divisor, block.desc.dimMultipleOf.lookup axis.1 = some divisor →
        (axis.2 : Int) ∣ divisor →
          block.desc.offsetOf axis.1 + axis.2 ≤ block.desc.sizeOf axis.1

/-! ## Strides -/

namespace BlockedTensorDesc

section Strides

variable {desc : BlockedTensorDesc}

theorem inTile_iff
    {lanes : List Int} :
    desc.InTile lanes ↔
      lanes.length = desc.block.length ∧
        ∀ place axis, desc.block[place]? = some axis →
          0 ≤ lanes.getD place 0 ∧ lanes.getD place 0 < axis.2 := by
  rw [InTile, List.forall₂_iff_get]
  refine and_congr_right fun sameLength => ?_
  constructor
  · intro bounds place axis placed
    obtain ⟨inside, rfl⟩ := List.getElem?_eq_some_iff.mp placed
    have within : place < lanes.length := sameLength ▸ inside
    rw [List.getD_eq_getElem _ _ within]
    exact bounds place within inside
  · intro bounds place within inside
    have here := bounds place _ (List.getElem?_eq_getElem inside)
    rwa [List.getD_eq_getElem _ _ within] at here

/-- The lane at the start of all axes but one. -/
theorem inTile_single
    (positive : ∀ axis ∈ desc.block, 0 < axis.2)
    {place : Nat}
    {axis : String × Nat}
    (placed : desc.block[place]? = some axis)
    (lane : Int)
    (least : 0 ≤ lane)
    (inside : lane < axis.2) :
    desc.InTile (singleCoefficient lane desc.block.length place) := by
  rw [inTile_iff]
  refine ⟨by simp [singleCoefficient], ?_⟩
  intro other otherAxis otherPlaced
  rw [getD_singleCoefficient]
  split
  next same =>
    obtain ⟨-, rfl⟩ := same
    obtain rfl := Option.some.inj (placed.symm.trans otherPlaced)
    exact ⟨least, inside⟩
  next =>
    exact ⟨le_refl _,
      Int.natCast_pos.mpr (positive otherAxis (List.mem_of_getElem? otherPlaced))⟩

theorem exists_axis
    (nonempty : desc.block ≠ []) :
    ∃ axis, desc.block[0]? = some axis := by
  obtain ⟨axis, rest, shape⟩ := List.exists_cons_of_ne_nil nonempty
  exact ⟨axis, by rw [shape]; rfl⟩

/-- The sums are right for all lanes of the block exactly if the strides agree. -/
theorem stridesAgree_iff
    (nonempty : desc.block ≠ [])
    (distinct : (desc.block.map fun axis => desc.globalName axis.1).Nodup)
    (positive : ∀ axis ∈ desc.block, 0 < axis.2)
    {strides : List Int}
    (sameLength : strides.length = desc.block.length) :
    (∀ lanes, desc.InTile lanes →
      dot (desc.laneOffsets lanes) strides = desc.displacement lanes) ↔
      desc.StridesAgree strides := by
  have apart :
      ∀ lanes, desc.InTile lanes →
        (dot (desc.laneOffsets lanes) strides = desc.displacement lanes ↔
          dot lanes strides +
              dot (desc.block.map fun axis => desc.offsetOf axis.1) strides =
            dot lanes (desc.block.map fun axis => desc.dimStride axis.1) +
              dot (desc.block.map fun axis => desc.offsetOf axis.1)
                (desc.block.map fun axis => desc.dimStride axis.1)) := by
    intro lanes inside
    have lengths : lanes.length = (desc.block.map fun axis => desc.offsetOf axis.1).length := by
      rw [List.length_map]
      exact (inTile_iff.mp inside).1
    rw [laneOffsets_eq distinct inside, displacement, dot_add lengths, dot_add lengths]
  have single :
      ∀ (place : Nat) (lane : Int),
        dot (singleCoefficient lane desc.block.length place) strides =
            lane * strides.getD place 0 ∧
          dot (singleCoefficient lane desc.block.length place)
              (desc.block.map fun axis => desc.dimStride axis.1) =
            lane * (desc.block.map fun axis => desc.dimStride axis.1).getD place 0 := by
    intro place lane
    constructor
    · rw [← sameLength, dot_singleCoefficient]
    · rw [← dot_singleCoefficient, List.length_map]
  constructor
  · intro right
    have first :
        dot (desc.block.map fun axis => desc.offsetOf axis.1) strides =
          dot (desc.block.map fun axis => desc.offsetOf axis.1)
            (desc.block.map fun axis => desc.dimStride axis.1) := by
      obtain ⟨axis, placed⟩ := exists_axis nonempty
      have size := positive axis (List.mem_of_getElem? placed)
      have inside := inTile_single positive placed 0 (le_refl 0) (Int.natCast_pos.mpr size)
      have sums := (apart _ inside).mp (right _ inside)
      rw [(single 0 0).1, (single 0 0).2] at sums
      linarith
    refine ⟨first, ?_⟩
    intro place axis placed several
    have inside := inTile_single positive placed 1 zero_le_one (by exact_mod_cast several)
    have sums := (apart _ inside).mp (right _ inside)
    rw [(single place 1).1, (single place 1).2, first, add_left_inj, one_mul, one_mul] at sums
    rw [sums, List.getD_eq_getElem?_getD, List.getElem?_map, placed]
    rfl
  · intro agree lanes inside
    rw [apart lanes inside, agree.first, add_left_inj]
    apply dot_congr_factors
    · rw [sameLength, List.length_map]
    · intro place
      cases placed : desc.block[place]? with
      | none =>
          have outside := List.getElem?_eq_none_iff.mp placed
          right
          rw [List.getD_eq_default _ _ (sameLength ▸ outside),
            List.getD_eq_default _ _ (by simpa using outside)]
      | some axis =>
          obtain ⟨least, bound⟩ := (inTile_iff.mp inside).2 place axis placed
          by_cases several : 1 < axis.2
          · right
            rw [agree.others place axis placed several, List.getD_eq_getElem?_getD,
              List.getElem?_map, placed]
            rfl
          · left
            have one : axis.2 ≤ 1 := not_lt.mp several
            omega

theorem length_generalStrides
    (nonempty : desc.block ≠ []) :
    desc.generalStrides.length = desc.block.length := by
  have some := List.length_pos_iff.mpr nonempty
  rw [generalStrides, List.length_cons, List.length_tail, List.length_map]
  omega

theorem length_pointerStrides
    (nonempty : desc.block ≠ []) :
    desc.pointerStrides.length = desc.block.length := by
  unfold pointerStrides
  split
  · rw [List.length_map]
  · exact length_generalStrides nonempty

theorem dot_generalStrides
    (offsets : List Int) :
    dot offsets desc.generalStrides =
      offsets.headD 0 +
        dot offsets.tail (desc.block.map fun axis => desc.strideOf axis.1).tail := by
  rw [generalStrides, dot_cons, mul_one]

theorem basePointers_eq
    (lanes : List Int) :
    desc.basePointers lanes = desc.ptr + dot (desc.laneOffsets lanes) desc.pointerStrides := by
  unfold basePointers pointerStrides
  dsimp only
  split
  · rfl
  · rw [dot_generalStrides]

theorem getBlockedOffsets_eq
    (hasAxes : ∀ axis ∈ desc.block, desc.HasName axis.1) :
    desc.getBlockedOffsets =
      .ok fun lanes => dot (desc.laneOffsets lanes) desc.generalStrides := by
  have strides :=
    PyResult.mapM_of_forall fun axis listed => getStrideByName_eq (hasAxes axis listed)
  have blocked :=
    PyResult.mapM_of_forall fun axis listed => getBlockedOffset_eq hasAxes listed
  rw [getBlockedOffsets, strides, blocked]
  change Except.ok _ = _
  congr 1
  funext lanes
  rw [dot_generalStrides]
  simp only [laneOffsets, List.map_map, Function.comp_def]

end Strides

/-! ## Masks -/

section Masks

variable {desc : BlockedTensorDesc} (hasAxes : ∀ axis ∈ desc.block, desc.HasName axis.1)

include hasAxes

theorem isNeedBlockMask_none :
    desc.isNeedBlockMask none = .ok (!(desc.maskedAxes none).isEmpty) := by
  rw [isNeedBlockMask, getBlockAxesIsDivisible_eq hasAxes (by simp)]
  rfl

/-- A mask is needed for some axis, and the excepted axis is one of the block. -/
theorem masked_of_isNeedBlockMask
    {exceptAxis : Option Nat}
    (needed : desc.isNeedBlockMask exceptAxis = .ok true) :
    (∀ axis ∈ exceptAxis, axis < desc.block.length) ∧ desc.maskedAxes exceptAxis ≠ [] := by
  have inside : ∀ axis ∈ exceptAxis, axis < desc.block.length := by
    obtain ⟨axes, read, -⟩ := PyResult.bind_eq_ok.mp needed
    have divisible :=
      PyResult.mapM_of_forall fun axis listed =>
        getBlockDimIsDivisible_eq (hasAxes axis listed)
    rw [getBlockAxesIsDivisible, divisible] at read
    obtain ⟨_, -, read⟩ := PyResult.bind_eq_ok.mp read
    obtain ⟨_, asserted, -⟩ := PyResult.bind_eq_ok.mp read
    intro axis excepted
    by_contra outside
    subst excepted
    simp [pyAssert, outside] at asserted
  refine ⟨inside, ?_⟩
  rw [isNeedBlockMask, getBlockAxesIsDivisible_eq hasAxes inside] at needed
  intro none
  rw [none] at needed
  cases needed

variable (distinct : (desc.block.map fun axis => desc.globalName axis.1).Nodup)

include distinct

/-- The masks look at the lanes along their own axes. -/
theorem exists_getBlockedMasks
    {exceptAxis : Option Nat}
    (inside : ∀ axis ∈ exceptAxis, axis < desc.block.length)
    (masked : desc.maskedAxes exceptAxis ≠ []) :
    ∃ masks, desc.getBlockedMasks exceptAxis = .ok masks ∧
      ∀ lanes, masks lanes = true ↔
        ∀ place axis, desc.block[place]? = some axis →
          place ∈ desc.maskedAxes exceptAxis → desc.Inside lanes place axis := by
  refine ⟨_, (getBlockedMasks_eq hasAxes inside).trans (if_neg masked), ?_⟩
  intro lanes
  rw [List.all_eq_true]
  have atPlace : ∀ place axis, desc.block[place]? = some axis →
      (((desc.block.map fun axis => fun lanes : List Int =>
          decide (lanes.getD (desc.blockAxis axis.1) 0 + desc.offsetOf axis.1 <
            desc.sizeOf axis.1)).getD place fun _ => true) lanes = true ↔
        desc.Inside lanes place axis) := by
    intro place axis placed
    obtain ⟨within, rfl⟩ := List.getElem?_eq_some_iff.mp placed
    rw [List.getD_eq_getElem _ _ (by simpa using within), List.getElem_map,
      blockAxis_getElem distinct within, decide_eq_true_iff]
    rfl
  constructor
  · intro all place axis placed listed
    exact (atPlace place axis placed).mp (all place listed)
  · intro all place listed
    obtain ⟨axis, placed, -⟩ := mem_maskedAxes.mp listed
    exact (atPlace place axis placed).mpr (all place axis placed listed)

/-- A simple access uses the pointers of the block and touches the lanes that lie inside
the masked axes. -/
theorem exists_simpleAccess :
    ∃ access, desc.simpleAccess true = .ok access ∧
      access.address = desc.basePointers ∧
      ∀ lanes, access.Touches lanes ↔
        ∀ place axis, desc.block[place]? = some axis →
          place ∈ desc.maskedAxes none → desc.Inside lanes place axis := by
  have need := isNeedBlockMask_none hasAxes
  by_cases masked : desc.maskedAxes none = []
  · rw [masked] at need
    refine ⟨⟨desc.basePointers, none⟩, ?_, rfl, ?_⟩
    · rw [simpleAccess, if_pos rfl, need]
      change (desc.getBlockedPtrs >>= _) = _
      rw [getBlockedPtrs_eq hasAxes]
      rfl
    · intro lanes
      refine iff_of_true rfl ?_
      intro place axis _ listed
      rw [masked] at listed
      cases listed
  · obtain ⟨masks, made, meaning⟩ :=
      exists_getBlockedMasks hasAxes distinct (by simp) masked
    have isNeeded : (!(desc.maskedAxes none).isEmpty) = true := by
      simpa using masked
    rw [isNeeded] at need
    refine ⟨⟨desc.basePointers, some masks⟩, ?_, rfl, meaning⟩
    rw [simpleAccess, if_pos rfl, need]
    change ((desc.getBlockedMasks none).map some >>= _) = _
    rw [made]
    change (desc.getBlockedPtrs >>= _) = _
    rw [getBlockedPtrs_eq hasAxes]
    rfl

end Masks

end BlockedTensorDesc

/-! ## Axes without a mask -/

namespace PlacedBlock

variable {block : PlacedBlock}

/-- A block that starts at a multiple of its size inside a multiple of its size ends
inside. -/
theorem ends_inside_of_dvd
    {axis : String × Nat}
    (listed : axis ∈ block.desc.block)
    (divides : (axis.2 : Int) ∣ block.desc.sizeOf axis.1) :
    block.desc.offsetOf axis.1 + axis.2 ≤ block.desc.sizeOf axis.1 := by
  have rest := Int.le_of_dvd (sub_pos.mpr (block.inside axis listed))
    (Int.dvd_sub divides (block.multiple axis listed))
  linarith

/-- An axis gets no mask only if the block ends inside, but for divisors that are
declared under an alias. -/
theorem ends_inside
    {axis : String × Nat}
    (listed : axis ∈ block.desc.block)
    (known : block.desc.knownDivisible axis = true)
    (unmasked :
      axis.1 ≠ block.desc.globalName axis.1 →
      (block.desc.mgr.sizes (block.desc.globalName axis.1)).isConstexpr = false →
      ∀ divisor, block.desc.dimMultipleOf.lookup axis.1 = some divisor →
        (axis.2 : Int) ∣ divisor →
          block.desc.offsetOf axis.1 + axis.2 ≤ block.desc.sizeOf axis.1) :
    block.desc.offsetOf axis.1 + axis.2 ≤ block.desc.sizeOf axis.1 := by
  rw [BlockedTensorDesc.knownDivisible] at known
  cases size : block.desc.mgr.sizes (block.desc.globalName axis.1) with
  | constexpr number =>
      simp only [size, decide_eq_true_eq] at known
      apply ends_inside_of_dvd listed
      rw [BlockedTensorDesc.sizeOf, size]
      exact Int.dvd_of_emod_eq_zero known
  | value number =>
      simp only [size, decide_eq_true_eq] at known
      have divides := Int.dvd_of_emod_eq_zero known
      cases found : block.desc.dimMultipleOf.lookup axis.1 with
      | none =>
          rw [found] at divides
          exact ends_inside_of_dvd listed (divides.trans (one_dvd _))
      | some divisor =>
          rw [found] at divides
          by_cases global : axis.1 = block.desc.globalName axis.1
          · apply ends_inside_of_dvd listed
            have declared := block.declared axis.1 divisor found
            rw [global] at declared
            exact divides.trans declared
          · exact unmasked global (by rw [size]; rfl) divisor found divides

end PlacedBlock

/-- Blocks of two rows and four columns at the start of a matrix that lies row by row. -/
def matrixBlock : PlacedBlock where
  desc :=
    { name := "matrix"
      mgr := ⟨fun _ => .value 8, []⟩
      internalOffsets := []
      dimMultipleOf := []
      desc :=
        ⟨none, [⟨"rows", "rows", .constexpr (-1)⟩, ⟨"columns", "columns", .constexpr (-1)⟩], []⟩
      ptr := 0
      block := [("rows", 2), ("columns", 4)] }
  nonempty := by simp
  hasAxes := by decide
  distinct := by decide
  positive := by decide
  multiple := by decide
  starts := by decide
  inside := by decide
  declared := by simp

end TensorPC.Ttfs
