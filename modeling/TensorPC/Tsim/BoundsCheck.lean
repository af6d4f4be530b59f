import TensorPC.Tsim.MemoryBlocks

namespace TensorPC.Tsim

/-!
# Finding the block of a tensor of pointers

Only the least and the greatest address are looked up, and the first block that
holds one of them is taken.  That this is exact rests on the layout: no byte
belongs to two blocks, and every block begins at a whole element.
-/

variable {α β : Type}

/-- `SimPointerTensor` with storage, of single elements: 64-bit integers that count elements of
the given dtype. -/
structure PointerTensor where
  dtype : DTypeEnum
  data : NdArray Int
  isInt64 : ∀ pointer ∈ data.data, IsInt64 pointer

/-- `_SimPointerMapResult`. -/
structure SimPointerMapResult where
  mapped : List Int
  blockName : String
  isPartial : Bool
  allMasked : Bool
  deriving DecidableEq, Repr

/-- The range of a block in the text of the error. -/
def blockRangeText (entry : String × MemoryBlockDesc α) : String :=
  "'" ++ entry.1 ++ ": " ++ toString entry.2.byteOffsetWithHole ++ " ~ " ++
    toString (entry.2.byteOffsetWithHole + entry.2.getByteSize) ++ "'"

/-- `_map_pointer_data`. -/
def mapPointerData
    (blocks : List (String × MemoryBlockDesc α))
    (pointerData : List Int)
    (pointerItemSize : Nat) :
    PyResult (Nat × String × Bool) :=
  match pointerData.max?, pointerData.min? with
  | some greatest, some least =>
      let pointerDataMax := wrapInt64 (greatest * pointerItemSize)
      let pointerDataMin := wrapInt64 (least * pointerItemSize)
      match blocks.find? fun entry =>
          decide (pointerDataMin ∈ entry.2.bytesWithHole) ||
            decide (pointerDataMax ∈ entry.2.bytesWithHole) with
      | some (k, desc) =>
          .ok (desc.offsetWithHole, k,
            !(decide (pointerDataMax ∈ desc.bytesWithHole) &&
              decide (pointerDataMin ∈ desc.bytesWithHole)))
      | none =>
          .error (.valueError
            ("can't find your pointer " ++ toString pointerItemSize ++
              " in any memory block, may out of range: " ++ toString pointerDataMin ++ " " ++
              toString pointerDataMax ++ " not in [" ++
              ", ".intercalate (blocks.map blockRangeText) ++ "]."))
  | _, _ => .error .notImplementedError

/-- The pointers that `_map_pointer` looks up: `pointer.storage.data[mask.storage.data]`, or all
of them without a mask. -/
def maskedPointerData
    (pointer : PointerTensor) :
    Option (NdArray Bool) → PyResult (List Int)
  | some mask => pointer.data.booleanIndex mask
  | none => .ok pointer.data.data

/-- `_map_pointer`. -/
def mapPointer
    (blocks : List (String × MemoryBlockDesc α))
    (pointer : PointerTensor)
    (mask : Option (NdArray Bool)) :
    PyResult SimPointerMapResult := do
  let pointerData ← maskedPointerData pointer mask
  if pointerData.isEmpty then
    return { mapped := [], blockName := "", isPartial := true, allMasked := true }
  else
    let found ← mapPointerData blocks pointerData pointer.dtype.byteSize
    return {
      mapped := pointer.data.data.map fun item => wrapInt64 (item - found.1)
      blockName := found.2.1
      isPartial := found.2.2
      allMasked := false }

/-- The checks of `_boundry_check_and_map_pointers` on the shape of a mask. -/
def checkMaskShape (pointer : List Nat) : Option (List Nat) → PyResult Unit
  | some mask => do
      if (broadcastRule mask pointer).isNone then
        throw (.valueError "shape mismatch: objects cannot be broadcast to a single shape.")
      pyAssert (decide (mask.length ≤ pointer.length)) ""
      pyAssert ((mask.reverse.zip pointer.reverse).all fun sizes => decide (sizes.1 ≤ sizes.2)) ""
  | none => .ok ()

/-- `_boundry_check_and_map_pointers`. -/
def boundryCheckAndMapPointers
    (blocks : List (String × MemoryBlockDesc α))
    (pointer : PointerTensor)
    (mask : Option (NdArray Bool)) :
    PyResult SimPointerMapResult := do
  checkMaskShape pointer.data.shape (mask.map NdArray.shape)
  let res ← mapPointer blocks pointer mask
  pyAssert (res.allMasked || !res.isPartial)
    "your pointer (with mask filtering) is out of range."
  return res

/-! ## Exactness -/

/-- The elements of the positions that a mask leaves. -/
def unmaskedBy (mask : Option (NdArray Bool)) (data : List β) : List β :=
  match mask with
  | some mask => unmasked mask.data data
  | none => data

/-- The byte that a pointer stands for. -/
def PointerTensor.address (pointer : PointerTensor) (item : Int) : Int :=
  item * pointer.dtype.byteSize

/-- All the unmasked addresses lie inside one block. -/
def InsideOneBlock
    (blocks : List (String × MemoryBlockDesc α))
    (pointer : PointerTensor)
    (items : List Int) :
    Prop :=
  ∃ entry ∈ blocks, ∀ item ∈ items, pointer.address item ∈ entry.2.bytesWithHole

theorem address_mem_of_between
    {pointer : PointerTensor}
    {desc : MemoryBlockDesc α}
    {least item greatest : Int}
    (low : least ≤ item)
    (high : item ≤ greatest)
    (leastIn : pointer.address least ∈ desc.bytesWithHole)
    (greatestIn : pointer.address greatest ∈ desc.bytesWithHole) :
    pointer.address item ∈ desc.bytesWithHole := by
  have positive : (0 : Int) ≤ pointer.dtype.byteSize :=
    Int.natCast_nonneg _
  constructor
  · exact leastIn.1.trans (Int.mul_le_mul_of_nonneg_right low positive)
  · exact (Int.mul_le_mul_of_nonneg_right high positive).trans_lt greatestIn.2

/-- The block that was found holds the least and the greatest address, as 64-bit products. -/
theorem mapPointerData_found
    {blocks : List (String × MemoryBlockDesc α)}
    {items : List Int}
    {itemSize offset : Nat}
    {name : String}
    (mapped : mapPointerData blocks items itemSize = .ok (offset, name, false)) :
    ∃ desc, ∃ least ∈ items, ∃ greatest ∈ items,
      (name, desc) ∈ blocks ∧
        desc.offsetWithHole = offset ∧
        (∀ item ∈ items, least ≤ item ∧ item ≤ greatest) ∧
        wrapInt64 (least * itemSize) ∈ desc.bytesWithHole ∧
        wrapInt64 (greatest * itemSize) ∈ desc.bytesWithHole := by
  unfold mapPointerData at mapped
  split at mapped
  · next greatest least isGreatest isLeast =>
      obtain ⟨greatestIn, below⟩ := List.max?_eq_some_iff.mp isGreatest
      obtain ⟨leastIn, above⟩ := List.min?_eq_some_iff.mp isLeast
      dsimp only at mapped
      split at mapped
      · next k desc found =>
          simp only [Except.ok.injEq, Prod.mk.injEq, Bool.not_eq_false', Bool.and_eq_true,
            decide_eq_true_eq] at mapped
          obtain ⟨rfl, rfl, inMax, inMin⟩ := mapped
          exact ⟨desc, least, leastIn, greatest, greatestIn, List.mem_of_find?_eq_some found, rfl,
            fun item member => ⟨above item member, below item member⟩, inMin, inMax⟩
      · cases mapped
  · cases mapped

/-- The block that holds all addresses is found. -/
theorem mapPointerData_of_inside
    {blocks : List (String × MemoryBlockDesc α)}
    {pointer : PointerTensor}
    {items : List Int}
    {entry : String × MemoryBlockDesc α}
    (laidOut : LaidOut blocks)
    (nonempty : items ≠ [])
    (fits : ∀ item ∈ items, IsInt64 (pointer.address item))
    (member : entry ∈ blocks)
    (inside : ∀ item ∈ items, pointer.address item ∈ entry.2.bytesWithHole) :
    mapPointerData blocks items pointer.dtype.byteSize =
      .ok (entry.2.offsetWithHole, entry.1, false) := by
  obtain ⟨greatest, isGreatest⟩ : ∃ greatest, items.max? = some greatest :=
    Option.ne_none_iff_exists'.mp (by simpa using nonempty)
  obtain ⟨least, isLeast⟩ : ∃ least, items.min? = some least :=
    Option.ne_none_iff_exists'.mp (by simpa using nonempty)
  have greatestIn := (List.max?_eq_some_iff.mp isGreatest).1
  have leastIn := (List.min?_eq_some_iff.mp isLeast).1
  have greatestKept : wrapInt64 (greatest * pointer.dtype.byteSize) = pointer.address greatest :=
    wrapInt64_of_isInt64 (fits greatest greatestIn)
  have leastKept : wrapInt64 (least * pointer.dtype.byteSize) = pointer.address least :=
    wrapInt64_of_isInt64 (fits least leastIn)
  have minIn := inside least leastIn
  have maxIn := inside greatest greatestIn
  simp only [mapPointerData, isGreatest, isLeast, greatestKept, leastKept]
  split
  · next k desc found =>
      have chosen := List.find?_some found
      have isBlock := List.mem_of_find?_eq_some found
      have same : (k, desc) = entry := by
        rcases Bool.or_eq_true_iff.mp chosen with inMin | inMax
        · exact laidOut.unique isBlock member (of_decide_eq_true inMin) minIn
        · exact laidOut.unique isBlock member (of_decide_eq_true inMax) maxIn
      subst same
      simp [minIn, maxIn]
  · next missing =>
      have notHere := List.find?_eq_none.mp missing entry member
      simp [minIn] at notHere

/-- What was found holds all addresses when they are 64-bit integers. -/
theorem inside_of_mapPointerData
    {blocks : List (String × MemoryBlockDesc α)}
    {pointer : PointerTensor}
    {items : List Int}
    {offset : Nat}
    {name : String}
    (fits : ∀ item ∈ items, IsInt64 (pointer.address item))
    (mapped : mapPointerData blocks items pointer.dtype.byteSize = .ok (offset, name, false)) :
    ∃ desc,
      (name, desc) ∈ blocks ∧
        desc.offsetWithHole = offset ∧
        ∀ item ∈ items, pointer.address item ∈ desc.bytesWithHole := by
  obtain ⟨desc, least, leastIn, greatest, greatestIn, member, isOffset, between, low, high⟩ :=
    mapPointerData_found mapped
  have lowKept := wrapInt64_of_isInt64 (fits least leastIn)
  have highKept := wrapInt64_of_isInt64 (fits greatest greatestIn)
  unfold PointerTensor.address at lowKept highKept
  rw [lowKept] at low
  rw [highKept] at high
  exact ⟨desc, member, isOffset, fun item isItem =>
    address_mem_of_between (between item isItem).1 (between item isItem).2 low high⟩

theorem checkMaskShape_self (shape : List Nat) :
    checkMaskShape shape (some shape) = .ok () := by
  have noLarger :
      (shape.reverse.zip shape.reverse).all (fun sizes => decide (sizes.1 ≤ sizes.2)) = true := by
    rw [List.all_eq_true]
    intro sizes member
    obtain ⟨index, inRange, rfl⟩ := List.mem_iff_getElem.mp member
    simp
  simp [checkMaskShape, broadcastRule_self, noLarger, pyAssert]
  rfl

/-- Selecting and mapping commute. -/
theorem unmaskedBy_map
    {γ : Type}
    (f : β → γ)
    (mask : Option (NdArray Bool))
    (data : List β) :
    unmaskedBy mask (data.map f) = (unmaskedBy mask data).map f := by
  cases mask with
  | none =>
      rfl
  | some mask =>
      change unmasked mask.data _ = (unmasked mask.data data).map f
      generalize mask.data = bits
      induction bits generalizing data with
      | nil =>
          simp
      | cons bit bits inductionHypothesis =>
          cases data with
          | nil =>
              rfl
          | cons item data =>
              rw [List.map_cons, unmasked_cons, unmasked_cons, inductionHypothesis]
              cases bit <;> rfl

theorem mem_of_mem_unmaskedBy
    {mask : Option (NdArray Bool)}
    {data : List β}
    {item : β}
    (member : item ∈ unmaskedBy mask data) :
    item ∈ data := by
  cases mask with
  | none =>
      exact member
  | some mask =>
      obtain ⟨pair, selected, rfl⟩ := List.mem_map.mp member
      exact (List.of_mem_zip (List.mem_filter.mp selected).1).1

/-- The pointers that are looked up are the unmasked ones. -/
theorem mapPointer_eq
    {blocks : List (String × MemoryBlockDesc α)}
    {pointer : PointerTensor}
    {mask : Option (NdArray Bool)}
    (sameShape : ∀ bits ∈ mask, bits.shape = pointer.data.shape) :
    boundryCheckAndMapPointers blocks pointer mask =
      if unmaskedBy mask pointer.data.data = [] then
        .ok { mapped := [], blockName := "", isPartial := true, allMasked := true }
      else
        mapPointerData blocks (unmaskedBy mask pointer.data.data) pointer.dtype.byteSize >>=
          fun found =>
            if found.2.2 then
              .error (.assertionError "your pointer (with mask filtering) is out of range.")
            else
              .ok {
                mapped := pointer.data.data.map fun item => wrapInt64 (item - found.1)
                blockName := found.2.1
                isPartial := false
                allMasked := false } := by
  have lookedUp :
      maskedPointerData pointer mask = .ok (unmaskedBy mask pointer.data.data) := by
    cases mask with
    | none =>
        rfl
    | some bits =>
        exact NdArray.booleanIndex_eq (sameShape bits rfl)
  have checked : checkMaskShape pointer.data.shape (mask.map NdArray.shape) = .ok () := by
    cases mask with
    | none =>
        rfl
    | some bits =>
        rw [Option.map_some, sameShape bits rfl, checkMaskShape_self]
  unfold boundryCheckAndMapPointers mapPointer
  rw [checked, lookedUp]
  cases unmaskedBy mask pointer.data.data with
  | nil =>
      rfl
  | cons first rest =>
      rw [if_neg (List.cons_ne_nil first rest)]
      change ((mapPointerData blocks (first :: rest) pointer.dtype.byteSize >>= _) >>= _) = _
      cases mapPointerData blocks (first :: rest) pointer.dtype.byteSize with
      | error raised =>
          rfl
      | ok found =>
          obtain ⟨offset, name, isPartial⟩ := found
          cases isPartial <;> rfl

/-- What the mapped value of a pointer says: the place of its element in the block. -/
def IsElementIndex
    (desc : MemoryBlockDesc α)
    (pointer : PointerTensor)
    (item index : Int) :
    Prop :=
  0 ≤ index ∧ index < desc.size ∧
    pointer.address item = desc.byteOffsetWithHole + index * desc.dtype.byteSize

/-- Inside a block with items of the pointer's size, subtracting the offset of the block in
elements gives the place in the block. -/
theorem isElementIndex_sub
    {blocks : List (String × MemoryBlockDesc α)}
    {pointer : PointerTensor}
    {entry : String × MemoryBlockDesc α}
    {item : Int}
    (laidOut : LaidOut blocks)
    (member : entry ∈ blocks)
    (isInt64 : IsInt64 item)
    (sameSize : entry.2.dtype.byteSize = pointer.dtype.byteSize)
    (inside : pointer.address item ∈ entry.2.bytesWithHole) :
    IsElementIndex entry.2 pointer item (wrapInt64 (item - entry.2.offsetWithHole)) := by
  have offset : (entry.2.offsetWithHole : Int) * entry.2.dtype.byteSize =
      entry.2.byteOffsetWithHole := by
    exact_mod_cast laidOut.offsetWithHole_mul member
  have positive : (0 : Int) < entry.2.dtype.byteSize := by
    exact_mod_cast entry.2.dtype.byteSize_pos
  obtain ⟨low, high⟩ := inside
  rw [PointerTensor.address, ← sameSize, ← offset] at low
  rw [PointerTensor.address, ← sameSize, ← offset, BlockData.getByteSize_eq, Int.natCast_mul,
    ← Int.add_mul] at high
  have above : (entry.2.offsetWithHole : Int) ≤ item :=
    Int.le_of_mul_le_mul_right low positive
  have below : item < entry.2.offsetWithHole + entry.2.size :=
    Int.lt_of_mul_lt_mul_right high positive.le
  have kept : wrapInt64 (item - entry.2.offsetWithHole) = item - entry.2.offsetWithHole := by
    refine wrapInt64_of_isInt64 ⟨?_, ?_⟩
    · omega
    · exact (Int.sub_le_self item (Int.natCast_nonneg _)).trans_lt isInt64.2
  rw [kept]
  refine ⟨Int.sub_nonneg_of_le above, Int.sub_left_lt_of_lt_add below, ?_⟩
  rw [PointerTensor.address, ← sameSize, ← offset, Int.sub_mul]
  omega

/-- Bounds checking is exact: the blocks are disjoint in both layouts, the check succeeds
exactly when the unmasked addresses lie inside one block, and it then maps each of them to its
place in that block when the items of block and pointer have the same size. -/
theorem boundryCheckAndMapPointers_exact
    (descs : List (String × BlockData α))
    (holeSize : Nat → Nat)
    (pointer : PointerTensor)
    (mask : Option (NdArray Bool))
    (sameShape : ∀ bits ∈ mask, bits.shape = pointer.data.shape)
    (fits :
      ∀ item ∈ unmaskedBy mask pointer.data.data, IsInt64 (pointer.address item)) :
    let blocks := (assignRandomMemoryBlockOffset descs holeSize).1
    let items := unmaskedBy mask pointer.data.data
    (blocks.Pairwise fun first second =>
        Disjoint first.2.bytes second.2.bytes ∧
          Disjoint first.2.bytesWithHole second.2.bytesWithHole) ∧
      ((∃ result, boundryCheckAndMapPointers blocks pointer mask = .ok result) ↔
        items = [] ∨ InsideOneBlock blocks pointer items) ∧
      ∀ result,
        boundryCheckAndMapPointers blocks pointer mask = .ok result →
          items ≠ [] →
            ∃ entry ∈ blocks,
              entry.1 = result.blockName ∧
                (∀ item ∈ items, pointer.address item ∈ entry.2.bytesWithHole) ∧
                (entry.2.dtype.byteSize = pointer.dtype.byteSize →
                  List.Forall₂ (IsElementIndex entry.2 pointer) items
                    (unmaskedBy mask result.mapped)) := by
  intro blocks items
  have laidOut : LaidOut blocks := ⟨descs, holeSize, rfl⟩
  refine ⟨laidOut.disjoint, ?_, ?_⟩
  · rw [mapPointer_eq sameShape]
    by_cases nothing : items = []
    · rw [if_pos nothing]
      exact iff_of_true ⟨_, rfl⟩ (.inl nothing)
    · rw [if_neg nothing, or_iff_right nothing]
      constructor
      · rintro ⟨result, checked⟩
        obtain ⟨⟨offset, name, isPartial⟩, found, built⟩ := PyResult.bind_eq_ok.mp checked
        cases isPartial with
        | true =>
            cases built
        | false =>
            obtain ⟨desc, member, _, inside⟩ := inside_of_mapPointerData fits found
            exact ⟨(name, desc), member, inside⟩
      · rintro ⟨entry, member, inside⟩
        exact ⟨_, PyResult.bind_eq_ok.mpr
          ⟨_, mapPointerData_of_inside laidOut nothing fits member inside, rfl⟩⟩
  · intro result checked nonempty
    rw [mapPointer_eq sameShape, if_neg nonempty] at checked
    obtain ⟨⟨offset, name, isPartial⟩, found, built⟩ := PyResult.bind_eq_ok.mp checked
    cases isPartial with
    | true =>
        cases built
    | false =>
        obtain ⟨desc, member, rfl, inside⟩ := inside_of_mapPointerData fits found
        obtain rfl := Except.ok.inj built
        refine ⟨(name, desc), member, rfl, inside, fun sameSize => ?_⟩
        rw [unmaskedBy_map, List.forall₂_map_right_iff, List.forall₂_same]
        intro item isItem
        exact isElementIndex_sub laidOut member (pointer.isInt64 item (mem_of_mem_unmaskedBy isItem))
          sameSize (inside item isItem)

/-! ## Examples -/

/-- A block of one 32-bit integer and a block of one 64-bit integer. -/
def sampleBlocks : List (String × BlockData Unit) := [
  ("a", { size := 1, dtype := .int32, viewDtype := .int32, dataView := [()], sized := rfl }),
  ("b", { size := 1, dtype := .int64, viewDtype := .int64, dataView := [()], sized := rfl })]

/-- A tensor with one pointer. -/
def samplePointer
    (dtype : DTypeEnum)
    (item : Int)
    (isInt64 : IsInt64 item) :
    PointerTensor where
  dtype := dtype
  data := NdArray.full [1] item
  isInt64 := fun pointer member => by
    rw [List.eq_of_mem_replicate member]
    exact isInt64

theorem boundryCheckAndMapPointers_exact_sample :
    (∃ result,
      boundryCheckAndMapPointers (assignRandomMemoryBlockOffset sampleBlocks fun _ => 5).1
          (samplePointer .int64 32 (by decide)) (some (NdArray.full [1] true)) =
        .ok result) ↔
      [(32 : Int)] = [] ∨
        InsideOneBlock (assignRandomMemoryBlockOffset sampleBlocks fun _ => 5).1
          (samplePointer .int64 32 (by decide)) [32] :=
  (boundryCheckAndMapPointers_exact sampleBlocks (fun _ => 5)
    (samplePointer .int64 32 (by decide)) (some (NdArray.full [1] true))
    (by
      intro bits same
      obtain rfl := Option.some.inj same
      rfl)
    (by decide)).2.1

/-- A pointer to 32-bit integers may reach the block of 64-bit integers; it is accepted there
and mapped past its only element.  And an address beyond 64 bits is taken for a small one. -/
theorem not_boundryCheckAndMapPointers_exact :
    (¬ ∀ (descs : List (String × BlockData Unit)) (holeSize : Nat → Nat)
        (pointer : PointerTensor) (result : SimPointerMapResult),
      boundryCheckAndMapPointers (assignRandomMemoryBlockOffset descs holeSize).1 pointer none =
          .ok result →
        ∃ entry ∈ (assignRandomMemoryBlockOffset descs holeSize).1,
          entry.1 = result.blockName ∧
            List.Forall₂ (IsElementIndex entry.2 pointer) pointer.data.data result.mapped) ∧
      ¬ ∀ (descs : List (String × BlockData Unit)) (holeSize : Nat → Nat)
          (pointer : PointerTensor),
        (∃ result,
          boundryCheckAndMapPointers (assignRandomMemoryBlockOffset descs holeSize).1 pointer
            none = .ok result) →
          InsideOneBlock (assignRandomMemoryBlockOffset descs holeSize).1 pointer
            pointer.data.data := by
  constructor
  · intro maps
    obtain ⟨entry, member, named, mapped⟩ := maps sampleBlocks (fun _ => 0)
      (samplePointer .int32 32 (by decide))
      { mapped := [16], blockName := "b", isPartial := false, allMasked := false }
      (by decide +kernel)
    have bound : ∀ entry ∈ (assignRandomMemoryBlockOffset sampleBlocks fun _ => 0).1,
        entry.2.size = 1 := by
      decide
    obtain ⟨⟨_, below, _⟩, _⟩ := List.forall₂_cons.mp mapped
    rw [bound entry member] at below
    cases below
  · intro inside
    obtain ⟨entry, member, holds⟩ := inside sampleBlocks (fun _ => 0)
      (samplePointer .int32 (2 ^ 62) (by decide))
      ⟨{ mapped := [2 ^ 62], blockName := "a", isPartial := false, allMasked := false },
        by decide +kernel⟩
    have outside : ∀ entry ∈ (assignRandomMemoryBlockOffset sampleBlocks fun _ => 0).1,
        (samplePointer .int32 (2 ^ 62) (by decide)).address (2 ^ 62) ∉
          entry.2.bytesWithHole := by
      decide
    exact outside entry member (holds (2 ^ 62) List.mem_cons_self)

end TensorPC.Tsim
