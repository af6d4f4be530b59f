import TensorPC.Ttfs.BlockIterators
import Mathlib.Data.List.GetD
import Mathlib.Data.List.Nodup
import Mathlib.Tactic.Linarith

namespace TensorPC.Ttfs

/-!
# Iterators and direct addressing

After any increments an iterator should use the addresses of the block displaced
by their sum.  It does so exactly if every tensor spells the main axis in the same
way and the masks and addresses of its first block are right.
-/

open TensorManager

namespace BlockedTensorDesc

/-! ## The numbers of a descriptor -/

def HasName
    (desc : BlockedTensorDesc)
    (name : String) :
    Prop :=
  name ∈ desc.desc.aliasNames ∨ name ∈ desc.desc.shapeNames

instance
    (desc : BlockedTensorDesc)
    (name : String) :
    Decidable (desc.HasName name) :=
  inferInstanceAs (Decidable (_ ∨ _))

/-- The name of the manager's dimension. -/
def globalName
    (desc : BlockedTensorDesc)
    (name : String) :
    String :=
  if name ∈ desc.desc.aliasNames then
    desc.desc.shapeNames.getD (desc.desc.aliasNames.idxOf name) ""
  else
    name

def strideOf
    (desc : BlockedTensorDesc)
    (name : String) :
    Int :=
  desc.mgr.strideByName desc.desc name

def offsetOf
    (desc : BlockedTensorDesc)
    (name : String) :
    Int :=
  (desc.internalOffsets.lookup (desc.globalName name)).getD 0

def sizeOf
    (desc : BlockedTensorDesc)
    (name : String) :
    Int :=
  (desc.mgr.sizes (desc.globalName name)).number

/-- The place of a dimension among the block axes. -/
def blockAxis
    (desc : BlockedTensorDesc)
    (name : String) :
    Nat :=
  (desc.block.map fun axis => desc.globalName axis.1).idxOf (desc.globalName name)

/-- The address of a lane in the block displaced along the main axis. -/
def displacedAddress
    (desc : BlockedTensorDesc)
    (main : String)
    (distance : Int)
    (lanes : List Int) :
    Int :=
  desc.ptr +
    dot (List.zipWith (· + ·) lanes (desc.block.map fun axis => desc.offsetOf axis.1))
      (desc.block.map fun axis => desc.strideOf axis.1) +
    distance * desc.strideOf main

/-- Whether a lane of the displaced block lies inside the tensor along the main axis. -/
def displacedMask
    (desc : BlockedTensorDesc)
    (main : String)
    (distance : Int)
    (lanes : List Int) :
    Bool :=
  lanes.getD (desc.blockAxis main) 0 + desc.offsetOf main + distance < desc.sizeOf main

/-- Whether the size of an axis is known to be a multiple of its block size. -/
def knownDivisible
    (desc : BlockedTensorDesc)
    (axis : String × Nat) :
    Bool :=
  match desc.mgr.sizes (desc.globalName axis.1) with
  | .constexpr size => size % axis.2 = 0
  | .value _ => ((desc.dimMultipleOf.lookup axis.1).getD 1) % axis.2 = 0

/-- An axis other than the main one that needs a mask. -/
def HasOtherMask
    (desc : BlockedTensorDesc)
    (main : String) :
    Prop :=
  ∃ axis ∈ desc.block, axis.1 ≠ main ∧ desc.knownDivisible axis = false

def InTile
    (desc : BlockedTensorDesc)
    (lanes : List Int) :
    Prop :=
  List.Forall₂ (fun lane axis => 0 ≤ lane ∧ lane < (axis.2 : Int)) lanes desc.block

end BlockedTensorDesc

/-- Blocked descriptors that share the main axis, with one block size along it;
their tensors may spell it differently. -/
structure IoGroup where
  descs : List BlockedTensorDesc
  mainAxisName : String
  blockSize : Nat
  nonempty : descs ≠ []
  hasMain : ∀ desc ∈ descs, desc.HasName mainAxisName
  hasAxes : ∀ desc ∈ descs, ∀ axis ∈ desc.block, desc.HasName axis.1
  distinct : ∀ desc ∈ descs, (desc.block.map fun axis => desc.globalName axis.1).Nodup
  positive : ∀ desc ∈ descs, ∀ axis ∈ desc.block, 0 < axis.2
  shares :
    ∀ desc ∈ descs, ∃ axis ∈ desc.block,
      desc.globalName axis.1 = desc.globalName mainAxisName ∧ axis.2 = blockSize

/-- The descriptor that a name stands for. -/
def IoGroup.Names
    (group : IoGroup)
    (name : String)
    (desc : BlockedTensorDesc) :
    Prop :=
  name ∈ group.descs.map BlockedTensorDesc.name ∧
    group.descs[(group.descs.map BlockedTensorDesc.name).idxOf name]? = some desc

def IoKind.masksMain : IoKind → Bool
  | .pointer => false
  | _ => true

/-- The mask that an access is to have at a lane. -/
def expectedMask
    (kind : IoKind)
    (desc : BlockedTensorDesc)
    (main : String)
    (distance : Int)
    (lanes : List Int) :
    Option Bool :=
  match kind with
  | .pointer => none
  | .singleMask => some (desc.displacedMask main distance lanes)
  | .fullMask =>
      match desc.getBlockedMasksExceptDimName main with
      | .ok remain => some (desc.displacedMask main distance lanes && remain lanes)
      | .error _ => none

/-- The iterator and the scatter iterator use the displaced block. -/
structure IteratorRight
    (group : IoGroup)
    (kind : IoKind)
    (blocks : Int)
    (desc : BlockedTensorDesc)
    (access scatter : Access)
    (lanes : List Int) :
    Prop where
  address :
    access.address lanes =
      desc.displacedAddress group.mainAxisName (blocks * group.blockSize) lanes
  scatterAddress : scatter.address lanes = access.address lanes
  mask :
    access.mask.map (fun mask => mask lanes) =
      expectedMask kind desc group.mainAxisName (blocks * group.blockSize) lanes
  scatterMask :
    scatter.mask.map (fun mask => mask lanes) =
      if kind.masksMain then
        some (desc.displacedMask group.mainAxisName (blocks * group.blockSize) lanes)
      else
        none

/-- After every sequence of increments, loads and stores of every named tensor use
the block displaced by their sum. -/
def IteratorsAgree
    (group : IoGroup)
    (kind : IoKind) :
    Prop :=
  ∃ io, createGroupedIoIter group.descs group.mainAxisName kind = .ok io ∧
  ∃ scatter,
    createGroupedScatterIoIter group.descs group.mainAxisName kind.masksMain = .ok scatter ∧
  ∀ incs, ∃ final, io.increments incs = .ok final ∧
  ∀ name desc, group.Names name desc →
    ∃ access, final.access name = .ok access ∧
    ∃ other, (scatter.replaceOffset incs.sum).access name = .ok other ∧
    ∀ lanes, desc.InTile lanes → IteratorRight group kind incs.sum desc access other lanes

/-! ## The condition -/

/-- At most four axes, or the offset of the first one needs no stride. -/
def BlockedTensorDesc.Addressed
    (desc : BlockedTensorDesc) :
    Prop :=
  desc.block.length ≤ 4 ∨
    ∀ axis ∈ desc.block.head?,
      desc.strideOf axis.1 = 1 ∨ axis.2 = 1 ∧ desc.offsetOf axis.1 = 0

/-- The main axis is spelled in all block shapes as in the call, addresses of first
blocks are right, masked tensors have the internal offset of the first tensor along
the main axis, and a full mask is for one tensor with another axis to mask. -/
structure IteratorsFit
    (group : IoGroup)
    (kind : IoKind) :
    Prop where
  spelled : ∀ desc ∈ group.descs, group.mainAxisName ∈ desc.block.map Prod.fst
  addressed : ∀ name desc, group.Names name desc → desc.Addressed
  masked :
    kind.masksMain = true →
    ∀ name desc, group.Names name desc →
      ∀ first ∈ group.descs.head?,
        first.offsetOf group.mainAxisName = desc.offsetOf group.mainAxisName
  full :
    kind = .fullMask →
    ∀ first ∈ group.descs.head?,
      group.descs = [first] ∧ first.HasOtherMask group.mainAxisName

/-! ## What the lookups give -/

namespace BlockedTensorDesc

section Lookups

variable {desc : BlockedTensorDesc} {name : String}

theorem localNameToGlobal_eq
    (has : desc.HasName name) :
    desc.desc.localNameToGlobal name = .ok (desc.globalName name) := by
  rw [TensorDesc.localNameToGlobal, globalName]
  split
  next => rfl
  next absent => rw [if_pos (has.resolve_left absent)]

theorem getStrideByName_eq
    (has : desc.HasName name) :
    desc.getStrideByName name = .ok (desc.strideOf name) := by
  obtain ⟨field, read⟩ := exists_getTensorStrideByName desc.mgr has
  rw [getStrideByName, strideOf, strideByName, read]
  rfl

theorem getInternalOffset_eq
    (has : desc.HasName name) :
    desc.getInternalOffset name = .ok (desc.offsetOf name) := by
  rw [getInternalOffset, localNameToGlobal_eq has]
  rfl

theorem getDimSizeByName_eq
    (has : desc.HasName name) :
    desc.getDimSizeByName name = .ok (desc.sizeOf name) := by
  rw [getDimSizeByName, localNameToGlobal_eq has]
  rfl

theorem getDimByBlockDimName_eq
    (has : desc.HasName name)
    (hasAxes : ∀ axis ∈ desc.block, desc.HasName axis.1)
    (shares : ∃ axis ∈ desc.block, desc.globalName axis.1 = desc.globalName name) :
    desc.getDimByBlockDimName name = .ok (desc.blockAxis name) := by
  have unified :=
    PyResult.mapM_of_forall fun axis listed => localNameToGlobal_eq (hasAxes axis listed)
  have present :
      (desc.block.map fun axis => desc.globalName axis.1).contains (desc.globalName name) =
        true := by
    obtain ⟨axis, listed, same⟩ := shares
    rw [List.contains_iff_mem, ← same]
    exact List.mem_map_of_mem listed
  rw [getDimByBlockDimName, localNameToGlobal_eq has]
  change (desc.block.mapM (fun axis => desc.desc.localNameToGlobal axis.1) >>= _) = _
  rw [unified]
  change (pyAssert _ _ >>= _) = _
  rw [present]
  rfl

/-- The offsets of a lane along the block axes, each at the place of its name. -/
def laneOffsets
    (desc : BlockedTensorDesc)
    (lanes : List Int) :
    List Int :=
  desc.block.map fun axis => lanes.getD (desc.blockAxis axis.1) 0 + desc.offsetOf axis.1

theorem getBlockedOffset_eq
    (hasAxes : ∀ axis ∈ desc.block, desc.HasName axis.1)
    {axis : String × Nat}
    (listed : axis ∈ desc.block) :
    desc.getBlockedOffset axis =
      .ok fun lanes => lanes.getD (desc.blockAxis axis.1) 0 + desc.offsetOf axis.1 := by
  rw [getBlockedOffset, getInternalOffset_eq (hasAxes axis listed)]
  change (desc.getDimByBlockDimName axis.1 >>= _) = _
  rw [getDimByBlockDimName_eq (hasAxes axis listed) hasAxes ⟨axis, listed, rfl⟩]
  rfl

theorem blockAxis_getElem
    (distinct : (desc.block.map fun axis => desc.globalName axis.1).Nodup)
    {place : Nat}
    (inside : place < desc.block.length) :
    desc.blockAxis desc.block[place].1 = place := by
  have found := distinct.idxOf_getElem place (by simpa using inside)
  rwa [List.getElem_map] at found

/-- On the lanes of the tile every name has its place. -/
theorem laneOffsets_eq
    (distinct : (desc.block.map fun axis => desc.globalName axis.1).Nodup)
    {lanes : List Int}
    (inside : desc.InTile lanes) :
    desc.laneOffsets lanes =
      List.zipWith (· + ·) lanes (desc.block.map fun axis => desc.offsetOf axis.1) := by
  have sameLength : lanes.length = desc.block.length := inside.length_eq
  apply List.ext_getElem
  · simp [laneOffsets, sameLength]
  · intro place before after
    have within : place < desc.block.length := by
      simpa [laneOffsets] using before
    rw [List.getElem_zipWith, List.getElem_map]
    simp only [laneOffsets, List.getElem_map, blockAxis_getElem distinct within]
    rw [List.getD_eq_getElem]

/-- The addresses of the first block, as `get_blocked_ptrs` adds them up. -/
def basePointers
    (desc : BlockedTensorDesc)
    (lanes : List Int) :
    Int :=
  let offsets := desc.laneOffsets lanes
  let strides := desc.block.map fun axis => desc.strideOf axis.1
  if desc.block.length ≤ 4 then
    desc.ptr + dot offsets strides
  else
    desc.ptr + (offsets.headD 0 + dot offsets.tail strides.tail)

theorem getBlockedPtrs_eq
    (hasAxes : ∀ axis ∈ desc.block, desc.HasName axis.1) :
    desc.getBlockedPtrs = .ok desc.basePointers := by
  have strides :=
    PyResult.mapM_of_forall fun axis listed => getStrideByName_eq (hasAxes axis listed)
  have blocked :=
    PyResult.mapM_of_forall fun axis listed => getBlockedOffset_eq hasAxes listed
  rw [getBlockedPtrs, strides, blocked]
  change Except.ok _ = _
  congr 1
  funext lanes
  simp only [basePointers, laneOffsets, List.length_map, List.map_map, Function.comp_def]

/-- With five or more axes only the first offset can be at fault. -/
theorem basePointers_cons_iff
    {axis : String × Nat}
    {rest : List (String × Nat)}
    (shape : desc.block = axis :: rest)
    (many : ¬desc.block.length ≤ 4)
    (distinct : (desc.block.map fun axis => desc.globalName axis.1).Nodup)
    (main : String)
    {lane : Int}
    {lanes : List Int}
    (inside : desc.InTile (lane :: lanes)) :
    desc.basePointers (lane :: lanes) = desc.displacedAddress main 0 (lane :: lanes) ↔
      lane + desc.offsetOf axis.1 =
        (lane + desc.offsetOf axis.1) * desc.strideOf axis.1 := by
  simp only [basePointers, if_neg many, displacedAddress, zero_mul, add_zero]
  rw [laneOffsets_eq distinct inside, shape]
  simp only [List.map_cons, List.zipWith_cons_cons, List.headD_cons, List.tail_cons, dot,
    List.sum_cons]
  constructor
  · intro same
    linarith
  · intro same
    linarith

/-- Up to four axes the addresses are right, and from five on if the first offset
needs no stride. -/
theorem basePointers_iff
    (positive : ∀ axis ∈ desc.block, 0 < axis.2)
    (distinct : (desc.block.map fun axis => desc.globalName axis.1).Nodup)
    (main : String) :
    (∀ lanes, desc.InTile lanes →
      desc.basePointers lanes = desc.displacedAddress main 0 lanes) ↔
      desc.Addressed := by
  by_cases few : desc.block.length ≤ 4
  · refine ⟨fun _ => Or.inl few, fun _ lanes inside => ?_⟩
    simp [basePointers, laneOffsets_eq distinct inside, if_pos few, displacedAddress]
  · obtain ⟨axis, rest, shape⟩ : ∃ axis rest, desc.block = axis :: rest := by
      cases known : desc.block with
      | nil => simp [known] at few
      | cons axis rest => exact ⟨axis, rest, rfl⟩
    have others : ∀ axis ∈ rest, 0 < axis.2 := by
      intro other listed
      exact positive other (shape ▸ List.mem_cons_of_mem _ listed)
    have zeros :
        List.Forall₂ (fun lane axis => 0 ≤ lane ∧ lane < ((axis : String × Nat).2 : Int))
          (rest.map fun _ => 0) rest := by
      rw [List.forall₂_map_left_iff, List.forall₂_same]
      exact fun axis listed => ⟨le_refl _, Int.natCast_pos.mpr (others axis listed)⟩
    have size : 0 < axis.2 := positive axis (shape ▸ List.mem_cons_self)
    constructor
    · intro right
      have atLane : ∀ lane : Int, 0 ≤ lane → lane < axis.2 →
          lane + desc.offsetOf axis.1 =
            (lane + desc.offsetOf axis.1) * desc.strideOf axis.1 := by
        intro lane least inside
        have inTile : desc.InTile (lane :: rest.map fun _ => 0) := by
          rw [InTile, shape]
          exact .cons ⟨least, inside⟩ zeros
        exact (basePointers_cons_iff shape few distinct main inTile).mp (right _ inTile)
      refine Or.inr ?_
      rw [shape, List.head?_cons]
      rintro _ ⟨⟩
      have first := atLane 0 (le_refl _) (by exact_mod_cast size)
      by_cases single : axis.2 = 1
      · rw [zero_add] at first
        rcases mul_right_eq_self₀.mp first.symm with unit | none
        · exact Or.inl unit
        · exact Or.inr ⟨single, none⟩
      · have second := atLane 1 (by norm_num) (by exact_mod_cast (by omega : 1 < axis.2))
        exact Or.inl (by linarith)
    · rintro (isFew | fits) lanes inside
      · exact absurd isFew few
      · rw [shape, List.head?_cons] at fits
        have inBlock := inside
        rw [InTile, shape] at inBlock
        rcases lanes with _ | ⟨lane, lanes⟩
        · cases inBlock
        · obtain ⟨bounds, -⟩ := List.forall₂_cons.mp inBlock
          rw [basePointers_cons_iff shape few distinct main inside]
          rcases fits axis rfl with unit | ⟨single, none⟩
          · rw [unit, mul_one]
          · rw [single] at bounds
            have isZero : lane = 0 := by omega
            rw [isZero, none, zero_add, zero_mul]

/-- A lane of the tile with a given coordinate along the main axis. -/
theorem exists_lanes
    {main : String}
    {size : Nat}
    (positive : ∀ axis ∈ desc.block, 0 < axis.2)
    (distinct : (desc.block.map fun axis => desc.globalName axis.1).Nodup)
    (shares : ∃ axis ∈ desc.block,
      desc.globalName axis.1 = desc.globalName main ∧ axis.2 = size)
    {lane : Int}
    (least : 0 ≤ lane)
    (inside : lane < size) :
    ∃ lanes, desc.InTile lanes ∧ lanes.getD (desc.blockAxis main) 0 = lane := by
  obtain ⟨mainAxis, mainListed, same, isSize⟩ := shares
  refine ⟨desc.block.map fun axis =>
    if desc.globalName axis.1 = desc.globalName main then lane else 0, ?_, ?_⟩
  · rw [InTile, List.forall₂_map_left_iff, List.forall₂_same]
    intro axis listed
    split
    next isMain =>
      have equal : axis = mainAxis :=
        List.inj_on_of_nodup_map distinct listed mainListed (isMain.trans same.symm)
      rw [equal, isSize]
      exact ⟨least, inside⟩
    next => exact ⟨le_refl _, Int.natCast_pos.mpr (positive axis listed)⟩
  · have listed :
        desc.globalName main ∈ desc.block.map fun axis => desc.globalName axis.1 :=
      same ▸ List.mem_map_of_mem mainListed
    have bound := List.idxOf_lt_length_of_mem listed
    have here := List.getElem_idxOf bound
    rw [List.length_map] at bound
    rw [List.getElem_map] at here
    rw [blockAxis, List.getD_eq_getElem _ _ (by simpa using bound), List.getElem_map, if_pos here]

theorem blockedMask_eq
    (hasAxes : ∀ axis ∈ desc.block, desc.HasName axis.1)
    {axis : String × Nat}
    (listed : axis ∈ desc.block) :
    desc.blockedMask axis =
      .ok fun lanes =>
        lanes.getD (desc.blockAxis axis.1) 0 + desc.offsetOf axis.1 <
          desc.sizeOf axis.1 := by
  rw [blockedMask, getBlockedOffset_eq hasAxes listed,
    getDimSizeByName_eq (hasAxes axis listed)]
  rfl

theorem getBlockDimIsDivisible_eq
    {axis : String × Nat}
    (has : desc.HasName axis.1) :
    desc.getBlockDimIsDivisible axis = .ok (desc.knownDivisible axis) := by
  rw [getBlockDimIsDivisible, localNameToGlobal_eq has, knownDivisible]
  change (match desc.mgr.sizes (desc.globalName axis.1) with
    | .constexpr size => _
    | .value _ => _) = _
  split <;> rfl

/-- The axes that get a mask, all but the excepted one. -/
def maskedAxes
    (desc : BlockedTensorDesc)
    (exceptAxis : Option Nat) :
    List Nat :=
  (List.range desc.block.length).filter fun place =>
    !(desc.block.map desc.knownDivisible).getD place true && some place != exceptAxis

theorem mem_maskedAxes
    {exceptAxis : Option Nat}
    {place : Nat} :
    place ∈ desc.maskedAxes exceptAxis ↔
      ∃ axis, desc.block[place]? = some axis ∧ desc.knownDivisible axis = false ∧
        some place ≠ exceptAxis := by
  rw [maskedAxes, List.mem_filter, List.mem_range, Bool.and_eq_true, Bool.not_eq_true',
    bne_iff_ne]
  constructor
  · rintro ⟨inside, needs, differs⟩
    rw [List.getD_eq_getElem _ _ (by simpa using inside), List.getElem_map] at needs
    exact ⟨_, List.getElem?_eq_getElem inside, needs, differs⟩
  · rintro ⟨axis, placed, needs, differs⟩
    obtain ⟨inside, rfl⟩ := List.getElem?_eq_some_iff.mp placed
    refine ⟨inside, ?_, differs⟩
    rwa [List.getD_eq_getElem _ _ (by simpa using inside), List.getElem_map]

theorem getBlockAxesIsDivisible_eq
    (hasAxes : ∀ axis ∈ desc.block, desc.HasName axis.1)
    {exceptAxis : Option Nat}
    (inside : ∀ axis ∈ exceptAxis, axis < desc.block.length) :
    desc.getBlockAxesIsDivisible exceptAxis = .ok (desc.maskedAxes exceptAxis) := by
  have divisible :=
    PyResult.mapM_of_forall fun axis listed => getBlockDimIsDivisible_eq (hasAxes axis listed)
  have known : (exceptAxis.all fun axis => axis < desc.block.length) = true := by
    rw [Option.all_eq_true]
    intro axis excepted
    exact decide_eq_true (inside axis excepted)
  rw [getBlockAxesIsDivisible, divisible]
  change (pyAssert _ _ >>= _) = _
  rw [known]
  rfl

/-- The masks, if there is an axis to mask. -/
theorem getBlockedMasks_eq
    (hasAxes : ∀ axis ∈ desc.block, desc.HasName axis.1)
    {exceptAxis : Option Nat}
    (inside : ∀ axis ∈ exceptAxis, axis < desc.block.length) :
    desc.getBlockedMasks exceptAxis =
      if desc.maskedAxes exceptAxis = [] then
        .error (.assertionError "use `is_need_block_mask` to check before get mask.")
      else
        .ok fun lanes => (desc.maskedAxes exceptAxis).all fun place =>
          ((desc.block.map fun axis => fun lanes : List Int =>
            decide (lanes.getD (desc.blockAxis axis.1) 0 + desc.offsetOf axis.1 <
              desc.sizeOf axis.1)).getD place fun _ => true) lanes := by
  have masks :=
    PyResult.mapM_of_forall fun axis listed => blockedMask_eq hasAxes listed
  rw [getBlockedMasks, getBlockAxesIsDivisible_eq hasAxes inside, masks]
  simp only [bind, Except.bind, pure, Except.pure, pyAssert]
  by_cases none : desc.maskedAxes exceptAxis = []
  · simp [none]
  · simp [none]

/-- There is a mask for the other axes if one of them needs it. -/
theorem getBlockedMasksExceptDimName_iff
    (hasAxes : ∀ axis ∈ desc.block, desc.HasName axis.1)
    (distinct : (desc.block.map fun axis => desc.globalName axis.1).Nodup)
    {size : Int}
    (spelled : desc.getBlockSizeByName name = .ok size) :
    (∃ remain, desc.getBlockedMasksExceptDimName name = .ok remain) ↔
      desc.HasOtherMask name := by
  have names : (desc.block.map Prod.fst).Nodup := by
    have mapped : ((desc.block.map Prod.fst).map desc.globalName).Nodup := by
      rwa [List.map_map]
    exact mapped.of_map _
  have listed :
      (desc.block.map Prod.fst).idxOf name < (desc.block.map Prod.fst).length := by
    have found : name ∈ desc.block.map Prod.fst := by
      by_contra absent
      rw [getBlockSizeByName, List.lookup_eq_none_iff.mpr] at spelled
      · cases spelled
      · intro axis inBlock
        rw [bne_iff_ne]
        rintro same
        exact absent (same ▸ List.mem_map_of_mem inBlock)
    exact List.idxOf_lt_length_of_mem found
  have others :
      desc.maskedAxes (some ((desc.block.map Prod.fst).idxOf name)) ≠ [] ↔
        desc.HasOtherMask name := by
    simp only [ne_eq, List.eq_nil_iff_forall_not_mem, not_forall, not_not, HasOtherMask,
      mem_maskedAxes, Option.some.injEq]
    have here : ∀ place axis, desc.block[place]? = some axis →
        (place = (desc.block.map Prod.fst).idxOf name ↔ axis.1 = name) := by
      intro place axis placed
      obtain ⟨inside, rfl⟩ := List.getElem?_eq_some_iff.mp placed
      constructor
      · intro same
        have found := List.getElem_idxOf listed
        simp only [← same, List.getElem_map] at found
        exact found
      · rintro rfl
        have found := names.idxOf_getElem place (by simpa using inside)
        rw [List.getElem_map] at found
        exact found.symm
    constructor
    · rintro ⟨place, axis, placed, needs, differs⟩
      exact ⟨axis, List.mem_of_getElem? placed, fun same => differs ((here _ _ placed).mpr same),
        needs⟩
    · rintro ⟨axis, inBlock, differs, needs⟩
      obtain ⟨place, placed⟩ := List.getElem?_of_mem inBlock
      exact ⟨place, axis, placed, needs, fun same => differs ((here _ _ placed).mp same)⟩
  rw [getBlockedMasksExceptDimName, spelled, ← others]
  change (∃ remain, desc.getBlockedMasks _ = .ok remain) ↔ _
  rw [getBlockedMasks_eq hasAxes (by simpa using listed)]
  split
  next none => simp [none]
  next some => simpa using some

end Lookups

end BlockedTensorDesc

/-! ## Iterators after increments -/

section Iterators

variable {group : IoGroup} {kind : IoKind}

/-- Every block shape spells the main axis as the call does. -/
def IoGroup.Spelled
    (group : IoGroup) :
    Prop :=
  ∀ desc ∈ group.descs, group.mainAxisName ∈ desc.block.map Prod.fst

/-- The block size that is found under the name of the main axis is that along it. -/
theorem getBlockSizeByName_iff
    {desc : BlockedTensorDesc}
    (listed : desc ∈ group.descs) :
    desc.getBlockSizeByName group.mainAxisName = .ok (group.blockSize : Int) ↔
      group.mainAxisName ∈ desc.block.map Prod.fst := by
  rw [BlockedTensorDesc.getBlockSizeByName]
  cases found : desc.block.lookup group.mainAxisName with
  | none =>
      rw [List.lookup_eq_none_iff] at found
      simpa using fun size inBlock => (bne_iff_ne.mp (found _ inBlock)) rfl
  | some size =>
      obtain ⟨before, after, placed, -⟩ := List.lookup_eq_some_iff.mp found
      have inBlock : (group.mainAxisName, size) ∈ desc.block := by simp [placed]
      obtain ⟨axis, inAxes, same, isSize⟩ := group.shares desc listed
      have equal : (group.mainAxisName, size) = axis :=
        List.inj_on_of_nodup_map (group.distinct desc listed) inBlock inAxes same.symm
      have isBlock : size = group.blockSize := by rw [← isSize, ← equal]
      have present : group.mainAxisName ∈ desc.block.map Prod.fst :=
        List.mem_map_of_mem inBlock
      simp only [isBlock, present]

theorem getBlockSizes
    (spelled : group.Spelled) :
    group.descs.mapM (fun desc => desc.getBlockSizeByName group.mainAxisName) =
      .ok (group.descs.map fun _ => (group.blockSize : Int)) :=
  PyResult.mapM_of_forall fun desc listed =>
    (getBlockSizeByName_iff listed).mpr (spelled desc listed)

theorem spelled_of_getBlockSizes
    {sizes : List Int}
    (read :
      group.descs.mapM (fun desc => desc.getBlockSizeByName group.mainAxisName) = .ok sizes) :
    group.Spelled := by
  intro desc listed
  obtain ⟨size, found⟩ := PyResult.exists_of_mapM_eq_ok read desc listed
  by_contra absent
  rw [BlockedTensorDesc.getBlockSizeByName, List.lookup_eq_none_iff.mpr] at found
  · cases found
  · intro axis inBlock
    rw [bne_iff_ne]
    rintro same
    exact absent (same ▸ List.mem_map_of_mem inBlock)

theorem getPointers
    (group : IoGroup) :
    group.descs.mapM BlockedTensorDesc.getBlockedPtrs =
      .ok (group.descs.map BlockedTensorDesc.basePointers) :=
  PyResult.mapM_of_forall fun desc listed =>
    BlockedTensorDesc.getBlockedPtrs_eq (group.hasAxes desc listed)

theorem getStrides
    (group : IoGroup) :
    group.descs.mapM (fun desc => desc.getStrideByName group.mainAxisName) =
      .ok (group.descs.map fun desc => desc.strideOf group.mainAxisName) :=
  PyResult.mapM_of_forall fun desc listed =>
    BlockedTensorDesc.getStrideByName_eq (group.hasMain desc listed)

/-- The internal offset of the first tensor along the main axis. -/
def IoGroup.firstOffset
    (group : IoGroup) :
    Int :=
  (group.descs.head?.map fun desc => desc.offsetOf group.mainAxisName).getD 0

/-- The iterator displaced by some blocks. -/
def ioAt
    (group : IoGroup)
    (kind : IoKind)
    (remain : List Int → Bool)
    (blocks : Int) :
    GroupedIo where
  kind := kind
  pointers := group.descs.map fun desc lanes =>
    desc.basePointers lanes + blocks * group.blockSize * desc.strideOf group.mainAxisName
  blockedDescs := group.descs
  mainAxisName := group.mainAxisName
  incStrides := group.descs.map fun desc =>
    if kind.masksMain then
      desc.strideOf group.mainAxisName
    else
      desc.strideOf group.mainAxisName * group.blockSize
  offsetsMain := fun lane =>
    if kind.masksMain then
      lane + group.firstOffset + blocks * group.blockSize
    else
      lane
  remainMask := remain

theorem increment_ioAt
    (spelled : group.Spelled)
    (remain : List Int → Bool)
    (blocks incBlock : Int) :
    (ioAt group kind remain blocks).increment incBlock =
      .ok (ioAt group kind remain (blocks + incBlock)) := by
  obtain ⟨first, rest, shape⟩ := List.exists_cons_of_ne_nil group.nonempty
  have sizes := getBlockSizes spelled
  cases kind with
  | pointer =>
      simp only [GroupedIo.increment, ioAt, IoKind.masksMain, Bool.false_eq_true, if_false,
        Except.ok.injEq, GroupedIo.mk.injEq, true_and, and_true, List.zipWith_map,
        List.zipWith_self]
      refine List.map_congr_left ?_
      intro desc _
      funext lanes
      ring
  | _ =>
      rw [GroupedIo.increment]
      change (group.descs.mapM (fun desc => desc.getBlockSizeByName group.mainAxisName) >>= _)
        = _
      rw [sizes]
      simp only [bind, Except.bind, pure, Except.pure, ioAt, IoKind.masksMain, if_true,
        Except.ok.injEq, GroupedIo.mk.injEq, true_and, and_true, List.zipWith_map,
        List.zipWith_self]
      refine ⟨List.map_congr_left ?_, ?_⟩
      · intro desc _
        funext lanes
        ring
      · funext lane
        rw [shape, List.map_cons, List.headD_cons]
        ring

theorem increments_ioAt
    (spelled : group.Spelled)
    (remain : List Int → Bool)
    (blocks : Int)
    (incs : List Int) :
    (ioAt group kind remain blocks).increments incs =
      .ok (ioAt group kind remain (blocks + incs.sum)) := by
  induction incs generalizing blocks with
  | nil => simp [GroupedIo.increments]
  | cons incBlock rest inductionHypothesis =>
      rw [GroupedIo.increments, increment_ioAt spelled]
      change (ioAt group kind remain (blocks + incBlock)).increments rest = _
      rw [inductionHypothesis, List.sum_cons, add_assoc]

/-- A created pointer iterator. -/
theorem createGroupedIoIter_pointer
    (spelled : group.Spelled) :
    createGroupedIoIter group.descs group.mainAxisName .pointer =
      .ok (ioAt group .pointer (fun _ => true) 0) := by
  rw [createGroupedIoIter, getPointers, getStrides]
  change (group.descs.mapM (fun desc => desc.getBlockSizeByName group.mainAxisName) >>= _) = _
  rw [getBlockSizes spelled]
  simp only [bind, Except.bind, pure, Except.pure, List.zipWith_map, List.zipWith_self]
  simp [ioAt, IoKind.masksMain]

theorem createGroupedIoIter_singleMask
    (group : IoGroup) :
    createGroupedIoIter group.descs group.mainAxisName .singleMask =
      .ok (ioAt group .singleMask (fun _ => true) 0) := by
  obtain ⟨first, rest, shape⟩ := List.exists_cons_of_ne_nil group.nonempty
  have offset :=
    BlockedTensorDesc.getInternalOffset_eq (group.hasMain first (shape ▸ List.mem_cons_self))
  have isFirst : group.firstOffset = first.offsetOf group.mainAxisName := by
    simp [IoGroup.firstOffset, shape]
  rw [createGroupedIoIter, getPointers, getStrides, ioAt, isFirst, shape]
  simp only [bind, Except.bind, pure, Except.pure, offset]
  simp [IoKind.masksMain]

theorem createGroupedIoIter_fullMask_iff
    {first : BlockedTensorDesc}
    {rest : List BlockedTensorDesc}
    (shape : group.descs = first :: rest)
    (io : GroupedIo) :
    createGroupedIoIter group.descs group.mainAxisName .fullMask = .ok io ↔
      rest = [] ∧ ∃ remain,
        first.getBlockedMasksExceptDimName group.mainAxisName = .ok remain ∧
          io = ioAt group .fullMask remain 0 := by
  have offset :=
    BlockedTensorDesc.getInternalOffset_eq (group.hasMain first (shape ▸ List.mem_cons_self))
  have isFirst : group.firstOffset = first.offsetOf group.mainAxisName := by
    simp [IoGroup.firstOffset, shape]
  rw [createGroupedIoIter, getPointers, getStrides]
  simp only [ioAt, isFirst, shape, bind, Except.bind, pure, Except.pure, offset]
  cases rest with
  | cons second others => simp [pyAssert]
  | nil =>
      cases read : first.getBlockedMasksExceptDimName group.mainAxisName with
      | error raised => simp [pyAssert]
      | ok remain => simp [pyAssert, IoKind.masksMain, eq_comm]

theorem createGroupedScatterIoIter_iff
    (mainMask : Bool)
    (io : GroupedScatterIo) :
    createGroupedScatterIoIter group.descs group.mainAxisName mainMask = .ok io ↔
      group.Spelled ∧
        io = ⟨group.descs.map BlockedTensorDesc.basePointers, group.descs,
          group.mainAxisName, mainMask, 0⟩ := by
  rw [createGroupedScatterIoIter, getPointers, getStrides]
  change (group.descs.mapM (fun desc => desc.getBlockSizeByName group.mainAxisName) >>= _) = _
    ↔ _
  constructor
  · intro created
    obtain ⟨sizes, read, made⟩ := PyResult.bind_eq_ok.mp created
    exact ⟨spelled_of_getBlockSizes read, (Except.ok.inj made).symm⟩
  · rintro ⟨spelled, rfl⟩
    rw [getBlockSizes spelled]
    rfl

/-! ## Loads and stores -/

theorem getTensorIdx_eq
    {name : String}
    {desc : BlockedTensorDesc}
    (names : group.Names name desc) :
    getTensorIdx group.descs name =
      .ok ((group.descs.map BlockedTensorDesc.name).idxOf name) :=
  if_pos names.1

theorem mem_of_names
    {name : String}
    {desc : BlockedTensorDesc}
    (names : group.Names name desc) :
    desc ∈ group.descs :=
  List.mem_of_getElem? names.2

/-- The mask that an iterator displaced by some blocks applies. -/
def maskAt
    (group : IoGroup)
    (kind : IoKind)
    (remain : List Int → Bool)
    (blocks : Int)
    (desc : BlockedTensorDesc) :
    Option (List Int → Bool) :=
  let main : List Int → Bool := fun lanes =>
    lanes.getD (desc.blockAxis group.mainAxisName) 0 + group.firstOffset +
      blocks * group.blockSize < desc.sizeOf group.mainAxisName
  match kind with
  | .pointer => none
  | .singleMask => some main
  | .fullMask => some fun lanes => main lanes && remain lanes

theorem access_ioAt
    {name : String}
    {desc : BlockedTensorDesc}
    (names : group.Names name desc)
    (remain : List Int → Bool)
    (blocks : Int) :
    (ioAt group kind remain blocks).access name =
      .ok ⟨fun lanes =>
          desc.basePointers lanes +
            blocks * group.blockSize * desc.strideOf group.mainAxisName,
        maskAt group kind remain blocks desc⟩ := by
  have listed := mem_of_names names
  have hasMain := group.hasMain desc listed
  obtain ⟨axis, inBlock, same, -⟩ := group.shares desc listed
  have size := BlockedTensorDesc.getDimSizeByName_eq hasMain
  have place := BlockedTensorDesc.getDimByBlockDimName_eq hasMain (group.hasAxes desc listed)
    ⟨axis, inBlock, same⟩
  cases kind with
  | pointer => simp [GroupedIo.access, ioAt, getTensorIdx_eq names, names.2, maskAt, bind,
      Except.bind, pure, Except.pure]
  | singleMask => simp [GroupedIo.access, ioAt, getTensorIdx_eq names, names.2, maskAt, bind,
      Except.bind, pure, Except.pure, size, place, IoKind.masksMain]
  | fullMask => simp [GroupedIo.access, ioAt, getTensorIdx_eq names, names.2, maskAt, bind,
      Except.bind, pure, Except.pure, size, place, IoKind.masksMain]

/-- The scatter iterator of the group at some block number. -/
def scatterAt
    (group : IoGroup)
    (mainMask : Bool)
    (blocks : Int) :
    GroupedScatterIo where
  pointers := group.descs.map BlockedTensorDesc.basePointers
  blockedDescs := group.descs
  mainAxisName := group.mainAxisName
  applyMask := mainMask
  idxMain := blocks

theorem access_scatterAt
    {name : String}
    {desc : BlockedTensorDesc}
    (names : group.Names name desc)
    (spelled : group.Spelled)
    (mainMask : Bool)
    (blocks : Int) :
    (scatterAt group mainMask blocks).access name =
      .ok ⟨fun lanes =>
          desc.basePointers lanes +
            blocks * group.blockSize * desc.strideOf group.mainAxisName,
        if mainMask then
          some fun lanes =>
            desc.displacedMask group.mainAxisName (blocks * group.blockSize) lanes
        else
          none⟩ := by
  have listed := mem_of_names names
  have hasMain := group.hasMain desc listed
  obtain ⟨axis, inBlock, same, -⟩ := group.shares desc listed
  have size := BlockedTensorDesc.getDimSizeByName_eq hasMain
  have place := BlockedTensorDesc.getDimByBlockDimName_eq hasMain (group.hasAxes desc listed)
    ⟨axis, inBlock, same⟩
  have blockSize := (getBlockSizeByName_iff listed).mpr (spelled desc listed)
  have stride := BlockedTensorDesc.getStrideByName_eq hasMain
  have offset := BlockedTensorDesc.getInternalOffset_eq hasMain
  cases mainMask <;>
    simp [GroupedScatterIo.access, scatterAt, getTensorIdx_eq names, names.2, bind,
      Except.bind, pure, Except.pure, size, place, blockSize, stride, offset,
      BlockedTensorDesc.displacedMask]

/-! ## When iterators agree -/

/-- A created iterator is the one displaced by no blocks. -/
theorem exists_ioAt
    {io : GroupedIo}
    (spelled : group.Spelled)
    (created : createGroupedIoIter group.descs group.mainAxisName kind = .ok io) :
    ∃ remain, io = ioAt group kind remain 0 := by
  cases kind with
  | pointer =>
      rw [createGroupedIoIter_pointer spelled] at created
      exact ⟨_, (Except.ok.inj created).symm⟩
  | singleMask =>
      rw [createGroupedIoIter_singleMask] at created
      exact ⟨_, (Except.ok.inj created).symm⟩
  | fullMask =>
      obtain ⟨first, rest, shape⟩ := List.exists_cons_of_ne_nil group.nonempty
      obtain ⟨-, remain, -, made⟩ := (createGroupedIoIter_fullMask_iff shape io).mp created
      exact ⟨remain, made⟩

/-- Masks of all displaced blocks agree only if the internal offsets do. -/
theorem offset_eq_of_masks
    {desc : BlockedTensorDesc}
    (listed : desc ∈ group.descs)
    (agrees :
      ∀ (blocks : Int) (lanes : List Int), desc.InTile lanes →
        (decide (lanes.getD (desc.blockAxis group.mainAxisName) 0 + group.firstOffset +
            blocks * group.blockSize < desc.sizeOf group.mainAxisName)) =
          desc.displacedMask group.mainAxisName (blocks * group.blockSize) lanes) :
    group.firstOffset = desc.offsetOf group.mainAxisName := by
  have shares := group.shares desc listed
  have blockSize : (0 : Int) < group.blockSize := by
    obtain ⟨axis, inBlock, -, isSize⟩ := shares
    rw [← isSize]
    exact_mod_cast group.positive desc listed axis inBlock
  by_contra differs
  -- the first lane that only one of the two masks still admits
  let lane := desc.sizeOf group.mainAxisName -
    max group.firstOffset (desc.offsetOf group.mainAxisName)
  obtain ⟨lanes, inside, coordinate⟩ :=
    BlockedTensorDesc.exists_lanes (group.positive desc listed) (group.distinct desc listed)
      shares (Int.emod_nonneg lane blockSize.ne') (Int.emod_lt_of_pos lane blockSize)
  have split := Int.emod_add_mul_ediv lane group.blockSize
  have masks := agrees (lane / group.blockSize) lanes inside
  rw [BlockedTensorDesc.displacedMask, coordinate, decide_eq_decide] at masks
  rw [mul_comm] at split
  rcases lt_or_gt_of_ne differs with less | more
  · have isMax : lane = desc.sizeOf group.mainAxisName -
        desc.offsetOf group.mainAxisName := by
      simp only [lane, max_eq_right less.le]
    omega
  · have isMax : lane = desc.sizeOf group.mainAxisName - group.firstOffset := by
      simp only [lane, max_eq_left more.le]
    omega

theorem displacedAddress_eq
    (desc : BlockedTensorDesc)
    (main : String)
    (distance : Int)
    (lanes : List Int) :
    desc.displacedAddress main distance lanes =
      desc.displacedAddress main 0 lanes + distance * desc.strideOf main := by
  simp [BlockedTensorDesc.displacedAddress]

theorem firstOffset_eq
    (group : IoGroup) :
    ∃ first ∈ group.descs.head?, group.firstOffset = first.offsetOf group.mainAxisName := by
  obtain ⟨first, rest, shape⟩ := List.exists_cons_of_ne_nil group.nonempty
  exact ⟨first, by simp [shape], by simp [IoGroup.firstOffset, shape]⟩

theorem fits_of_agree
    (agree : IteratorsAgree group kind) :
    IteratorsFit group kind := by
  obtain ⟨io, created, scatter, scattered, runs⟩ := agree
  obtain ⟨spelled, rfl⟩ := (createGroupedScatterIoIter_iff _ _).mp scattered
  obtain ⟨remain, rfl⟩ := exists_ioAt spelled created
  have accesses :
      ∀ blocks name desc, group.Names name desc → ∀ lanes, desc.InTile lanes →
        desc.basePointers lanes + blocks * group.blockSize *
            desc.strideOf group.mainAxisName =
          desc.displacedAddress group.mainAxisName (blocks * group.blockSize) lanes ∧
        (maskAt group kind remain blocks desc).map (fun mask => mask lanes) =
          expectedMask kind desc group.mainAxisName (blocks * group.blockSize) lanes := by
    intro blocks name desc names lanes inside
    obtain ⟨final, ran, loads⟩ := runs [blocks]
    rw [increments_ioAt spelled, List.sum_singleton, zero_add] at ran
    obtain rfl := Except.ok.inj ran
    obtain ⟨access, accessed, other, -, right⟩ := loads name desc names
    rw [access_ioAt names] at accessed
    obtain rfl := Except.ok.inj accessed
    have here := right lanes inside
    rw [List.sum_singleton] at here
    exact ⟨here.address, here.mask⟩
  refine ⟨spelled, ?_, ?_, ?_⟩
  · intro name desc names
    have listed := mem_of_names names
    refine (BlockedTensorDesc.basePointers_iff (group.positive desc listed)
      (group.distinct desc listed)
      group.mainAxisName).mp ?_
    intro lanes inside
    have here := (accesses 0 name desc names lanes inside).1
    simpa using here
  · intro masks name desc names first isFirst
    obtain ⟨found, inHead, same⟩ := firstOffset_eq group
    obtain rfl := Option.mem_unique isFirst inHead
    rw [← same]
    have listed := mem_of_names names
    cases kind with
    | pointer => cases masks
    | singleMask =>
        refine offset_eq_of_masks listed ?_
        intro blocks lanes inside
        have here := (accesses blocks name desc names lanes inside).2
        exact Option.some.inj here
    | fullMask =>
        obtain ⟨head, rest, shape⟩ := List.exists_cons_of_ne_nil group.nonempty
        obtain ⟨rfl, -⟩ := (createGroupedIoIter_fullMask_iff shape _).mp created
        rw [shape, List.mem_singleton] at listed
        rw [shape, List.head?_cons, Option.mem_some_iff] at isFirst
        rw [same, listed, isFirst]
  · rintro rfl first isFirst
    obtain ⟨head, rest, shape⟩ := List.exists_cons_of_ne_nil group.nonempty
    obtain ⟨rfl, remain, read, -⟩ := (createGroupedIoIter_fullMask_iff shape _).mp created
    rw [shape, List.head?_cons, Option.mem_some_iff] at isFirst
    subst isFirst
    have listed : head ∈ group.descs := shape ▸ List.mem_singleton_self head
    exact ⟨shape, (BlockedTensorDesc.getBlockedMasksExceptDimName_iff
      (group.hasAxes head listed) (group.distinct head listed)
      ((getBlockSizeByName_iff listed).mpr (spelled head listed))).mp ⟨remain, read⟩⟩

theorem agree_of_fits
    (fits : IteratorsFit group kind) :
    IteratorsAgree group kind := by
  have spelled : group.Spelled := fits.spelled
  obtain ⟨remain, created, masks⟩ :
      ∃ remain,
        createGroupedIoIter group.descs group.mainAxisName kind =
            .ok (ioAt group kind remain 0) ∧
          (kind = .fullMask → ∀ desc ∈ group.descs,
            desc.getBlockedMasksExceptDimName group.mainAxisName = .ok remain) := by
    cases kind with
    | pointer => exact ⟨_, createGroupedIoIter_pointer spelled, nofun⟩
    | singleMask => exact ⟨_, createGroupedIoIter_singleMask group, nofun⟩
    | fullMask =>
        obtain ⟨head, rest, shape⟩ := List.exists_cons_of_ne_nil group.nonempty
        have isHead : head ∈ group.descs.head? := by simp [shape]
        obtain ⟨single, needs⟩ := fits.full rfl head isHead
        have listed : head ∈ group.descs := shape ▸ List.mem_cons_self
        obtain ⟨remain, read⟩ := (BlockedTensorDesc.getBlockedMasksExceptDimName_iff
          (group.hasAxes head listed) (group.distinct head listed)
          ((getBlockSizeByName_iff listed).mpr (spelled head listed))).mpr needs
        refine ⟨remain, (createGroupedIoIter_fullMask_iff single _).mpr
          ⟨rfl, remain, read, rfl⟩, ?_⟩
        intro _ desc inGroup
        rw [single, List.mem_singleton] at inGroup
        rw [inGroup, read]
  refine ⟨_, created, _, (createGroupedScatterIoIter_iff _ _).mpr ⟨spelled, rfl⟩, ?_⟩
  intro incs
  refine ⟨_, increments_ioAt spelled remain 0 incs, ?_⟩
  intro name desc names
  have listed := mem_of_names names
  rw [zero_add]
  refine ⟨_, access_ioAt names remain incs.sum, _,
    access_scatterAt names spelled kind.masksMain incs.sum, ?_⟩
  intro lanes inside
  have base := (BlockedTensorDesc.basePointers_iff (group.positive desc listed)
      (group.distinct desc listed)
    group.mainAxisName).mpr (fits.addressed name desc names) lanes inside
  have offset : kind.masksMain = true →
      group.firstOffset = desc.offsetOf group.mainAxisName := by
    intro isMasked
    obtain ⟨first, isFirst, same⟩ := firstOffset_eq group
    rw [same]
    exact fits.masked isMasked name desc names first isFirst
  refine ⟨?_, rfl, ?_, ?_⟩
  · rw [displacedAddress_eq, ← base]
  · cases kind with
    | pointer => rfl
    | singleMask =>
        rw [maskAt, offset rfl]
        rfl
    | fullMask =>
        rw [maskAt, offset rfl, expectedMask, masks rfl desc listed]
        rfl
  · cases kind <;> rfl

end Iterators

/-- A row of eight tokens and its pointer; the block shape has the token axis under
the given name. -/
def tokenDesc
    (name spelling : String) :
    BlockedTensorDesc where
  name := name
  mgr := ⟨fun _ => .value 8, []⟩
  internalOffsets := []
  dimMultipleOf := []
  desc := ⟨none, [⟨"tokens", "rows", .constexpr 1⟩], []⟩
  ptr := 0
  block := [(spelling, 4)]

/-- The second tensor's block shape uses the alias of the axis. -/
def aliasGroup : IoGroup where
  descs := [tokenDesc "input" "tokens", tokenDesc "output" "rows"]
  mainAxisName := "tokens"
  blockSize := 4
  nonempty := by simp
  hasMain := by decide
  hasAxes := by decide
  distinct := by decide
  positive := by decide
  shares := by decide

end TensorPC.Ttfs
