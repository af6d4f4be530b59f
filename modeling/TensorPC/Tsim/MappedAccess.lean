import TensorPC.Py.Dict
import TensorPC.Tsim.MemoryAccess

namespace TensorPC.Tsim

/-!
# Where an access goes

An access that succeeds has all its unmasked addresses inside one block of the
pointer's dtype, and reads or writes the cells at these addresses.  Such an
access always succeeds.  No address is assumed to fit in 64 bits: a product that
wrapped around would give an index outside of the block.
-/

open Wire (NpDtype)

variable {α β : Type}

theorem toNumpyDtype_eq_ok
    {dtype : DTypeEnum}
    {numpyDtype : NpDtype}
    (named : dtype.toNumpyDtype = .ok numpyDtype) :
    dtype = .fromNumpyDtype numpyDtype := by
  cases dtype <;> cases named <;> rfl

/-- The byte where a cell of a block begins. -/
def MemoryBlockDesc.cellAddress (desc : MemoryBlockDesc α) (place : Nat) : Int :=
  desc.byteOffsetWithHole + place * desc.dtype.byteSize

/-- The place of a pointer in a block. -/
def MemoryBlockDesc.placeIn (desc : MemoryBlockDesc α) (item : Int) : Nat :=
  (item - desc.offsetWithHole).toNat

/-- All the given pointers point into one block of their dtype. -/
structure Reached
    (blocks : List (String × MemoryBlockDesc α))
    (pointer : PointerTensor)
    (items : List Int)
    (name : String)
    (desc : MemoryBlockDesc α) :
    Prop where
  member : (name, desc) ∈ blocks
  sameDtype : pointer.dtype = desc.dtype
  inside : ∀ item ∈ items, pointer.address item ∈ desc.bytesWithHole

theorem cellAddress_mem
    {desc : MemoryBlockDesc α}
    {place : Nat}
    (inRange : place < desc.size) :
    desc.cellAddress place ∈ desc.bytesWithHole := by
  have positive := desc.dtype.byteSize_pos
  have below : place * desc.dtype.byteSize < desc.size * desc.dtype.byteSize :=
    Nat.mul_lt_mul_of_pos_right inRange positive
  constructor
  · exact Int.le_add_of_nonneg_right (Int.natCast_nonneg _)
  · unfold MemoryBlockDesc.cellAddress
    rw [BlockData.getByteSize_eq]
    exact Int.add_lt_add_left (mod_cast below) _

theorem cellAddress_injective
    (desc : MemoryBlockDesc α)
    {first second : Nat}
    (same : desc.cellAddress first = desc.cellAddress second) :
    first = second := by
  have positive : (desc.dtype.byteSize : Int) ≠ 0 := by
    exact_mod_cast desc.dtype.byteSize_pos.ne'
  have products := Int.add_left_cancel same
  exact_mod_cast Int.eq_of_mul_eq_mul_right positive products

section Place

variable {blocks : List (String × MemoryBlockDesc α)} {pointer : PointerTensor}
variable {items : List Int} {name : String} {desc : MemoryBlockDesc α}

/-- The place of a pointer inside a block: its index is found, and it is the cell at the
address. -/
theorem Reached.placeOf
    (created : Created blocks)
    (reached : Reached blocks pointer items name desc)
    {item : Int}
    (member : item ∈ items)
    (isInt64 : IsInt64 item) :
    Tsim.placeOf desc.size (wrapInt64 (item - desc.offsetWithHole)) =
        .ok (desc.placeIn item) ∧
      desc.placeIn item < desc.size ∧
      desc.cellAddress (desc.placeIn item) = pointer.address item := by
  have sameSize : desc.dtype.byteSize = pointer.dtype.byteSize := by
    rw [reached.sameDtype]
  obtain ⟨low, high, address⟩ :
      IsElementIndex desc pointer item (wrapInt64 (item - desc.offsetWithHole)) :=
    @isElementIndex_sub α blocks pointer (name, desc) item created.laidOut reached.member isInt64
      sameSize (reached.inside item member)
  have offset : (desc.offsetWithHole : Int) * desc.dtype.byteSize = desc.byteOffsetWithHole := by
    exact_mod_cast created.laidOut.offsetWithHole_mul reached.member
  have kept : wrapInt64 (item - desc.offsetWithHole) = item - desc.offsetWithHole := by
    have positive : (desc.dtype.byteSize : Int) ≠ 0 := by
      exact_mod_cast desc.dtype.byteSize_pos.ne'
    refine Int.eq_of_mul_eq_mul_right positive ?_
    rw [PointerTensor.address, ← sameSize, ← offset] at address
    rw [Int.sub_mul]
    omega
  rw [kept] at low high address ⊢
  have isPlace : (desc.placeIn item : Int) = item - desc.offsetWithHole :=
    Int.toNat_of_nonneg low
  refine ⟨?_, ?_, ?_⟩
  · rw [Tsim.placeOf, normalizeAxis, if_pos ⟨low, high⟩]
    rfl
  · exact_mod_cast isPlace.trans_lt high
  · rw [MemoryBlockDesc.cellAddress, isPlace]
    exact address.symm

/-- An index that a block has belongs to an address of 64 bits. -/
theorem isInt64_address_of_placeOf
    (created : Created blocks)
    (isBlock : (name, desc) ∈ blocks)
    (sameDtype : pointer.dtype = desc.dtype)
    {item : Int}
    {place : Nat}
    (isInt64 : IsInt64 item)
    (placed : placeOf desc.size (wrapInt64 (item - desc.offsetWithHole)) = .ok place) :
    IsInt64 (pointer.address item) := by
  have offset : (desc.offsetWithHole : Int) * desc.dtype.byteSize = desc.byteOffsetWithHole := by
    exact_mod_cast created.laidOut.offsetWithHole_mul isBlock
  have addressable : (desc.byteOffsetWithHole : Int) + desc.size * desc.dtype.byteSize ≤ 2 ^ 63 := by
    have bound := created.addressable _ isBlock
    rw [BlockData.getByteSize_eq] at bound
    exact_mod_cast bound
  have unit : (1 : Int) ≤ desc.dtype.byteSize := by
    exact_mod_cast desc.dtype.byteSize_pos
  have inRange :
      -(desc.size : Int) ≤ wrapInt64 (item - desc.offsetWithHole) ∧
        wrapInt64 (item - desc.offsetWithHole) < desc.size := by
    unfold placeOf normalizeAxis at placed
    split at placed
    · next found =>
        split at found
        · next bounds =>
            exact ⟨by omega, bounds.2⟩
        · split at found
          · next bounds =>
              exact ⟨bounds.1, by omega⟩
          · cases found
    · cases placed
  -- Both the offset and the size are below 2^63, so the difference cannot have wrapped around.
  have scaled :
      (desc.offsetWithHole + desc.size : Int) * 1 ≤
        (desc.offsetWithHole + desc.size) * desc.dtype.byteSize :=
    Int.mul_le_mul_of_nonneg_left unit (by omega)
  rw [Int.add_mul, Int.add_mul, offset] at scaled
  have kept : wrapInt64 (item - desc.offsetWithHole) = item - desc.offsetWithHole := by
    obtain ⟨low, high⟩ := isInt64
    rcases wrapInt64_of_lt (item - desc.offsetWithHole) (by omega) (by omega) with same | wrapped
    · exact same
    · omega
  rw [kept] at inRange
  have low :
      (desc.offsetWithHole - desc.size : Int) * desc.dtype.byteSize ≤
        item * desc.dtype.byteSize :=
    Int.mul_le_mul_of_nonneg_right (by omega) (by omega)
  have high :
      item * desc.dtype.byteSize + desc.dtype.byteSize ≤
        (desc.offsetWithHole + desc.size : Int) * desc.dtype.byteSize := by
    have next : (item + 1) * desc.dtype.byteSize ≤
        (desc.offsetWithHole + desc.size : Int) * desc.dtype.byteSize :=
      Int.mul_le_mul_of_nonneg_right (by omega) (by omega)
    rw [Int.add_mul, Int.one_mul] at next
    exact next
  rw [Int.sub_mul, offset] at low
  rw [Int.add_mul, offset] at high
  unfold PointerTensor.address
  rw [sameDtype]
  exact ⟨by omega, by omega⟩

end Place

/-! ## Positions -/

theorem unmaskedBy_eq
    (mask : Option (NdArray Bool))
    {data : List β}
    {count : Nat}
    (sized : data.length = count) :
    unmaskedBy mask data = unmasked (maskBits count mask) data := by
  cases mask with
  | some mask =>
      rfl
  | none =>
      subst sized
      change data = unmasked (List.replicate data.length true) data
      induction data with
      | nil =>
          rfl
      | cons item data inductionHypothesis =>
          rw [List.length_cons, List.replicate_succ, unmasked_cons, ← inductionHypothesis]
          rfl

/-- The places of all positions, nothing where the bit is not set. -/
def placesOf (place : Int → Nat) (bits : List Bool) (items : List Int) : List (Option Nat) :=
  (bits.zip items).map fun position => if position.1 then some (place position.2) else none

/-- Looking up the places of all positions. -/
theorem mapM_touchedPlace
    {size : Nat}
    {bits : List Bool}
    {items : List Int}
    {index : Int → Int}
    {place : Int → Nat}
    (placed : ∀ item ∈ unmasked bits items, placeOf size (index item) = .ok (place item)) :
    (bits.zip (items.map index)).mapM (touchedPlace size) = .ok (placesOf place bits items) := by
  induction bits generalizing items with
  | nil =>
      rfl
  | cons bit bits inductionHypothesis =>
      cases items with
      | nil =>
          rfl
      | cons item items =>
          rw [unmasked_cons] at placed
          rw [List.map_cons, List.zip_cons_cons, List.mapM_cons]
          cases bit with
          | false =>
              rw [inductionHypothesis placed]
              rfl
          | true =>
              obtain ⟨first, rest⟩ := List.forall_mem_cons.mp placed
              have touched : touchedPlace size (true, index item) = .ok (some (place item)) := by
                change (placeOf size (index item)).map some = _
                rw [first]
                rfl
              rw [touched, inductionHypothesis rest]
              rfl

/-- When all places were found, the unmasked positions have places. -/
theorem exists_place_of_mapM
    {size : Nat}
    {bits : List Bool}
    {items : List Int}
    {index : Int → Int}
    {touched : List (Option Nat)}
    (found : (bits.zip (items.map index)).mapM (touchedPlace size) = .ok touched) :
    ∀ item ∈ unmasked bits items, ∃ place, placeOf size (index item) = .ok place := by
  induction bits generalizing items touched with
  | nil =>
      intro item member
      simp at member
  | cons bit bits inductionHypothesis =>
      cases items with
      | nil =>
          intro item member
          simp [unmasked] at member
      | cons item items =>
          rw [List.map_cons, List.zip_cons_cons, List.mapM_cons] at found
          obtain ⟨first, looked, further⟩ := PyResult.bind_eq_ok.mp found
          obtain ⟨rest, foundRest, _⟩ := PyResult.bind_eq_ok.mp further
          have ofRest := inductionHypothesis foundRest
          rw [unmasked_cons]
          cases bit with
          | false =>
              exact ofRest
          | true =>
              obtain ⟨place, placed, _⟩ := PyResult.map_eq_ok looked
              exact List.forall_mem_cons.mpr ⟨⟨place, placed⟩, ofRest⟩

/-! ## Accesses -/

section Access

variable {blocks : List (String × MemoryBlockDesc α)} {pointer : PointerTensor}
variable {mask : Option (NdArray Bool)}

/-- The mapping of pointers that an access found. -/
theorem mapped_of_checked
    {result : SimPointerMapResult}
    (sameShape : ∀ bits ∈ mask, bits.shape = pointer.data.shape)
    (checked : boundryCheckAndMapPointers blocks pointer mask = .ok result)
    (notMasked : result.allMasked = false) :
    unmaskedBy mask pointer.data.data ≠ [] ∧
      ∃ offset,
        mapPointerData blocks (unmaskedBy mask pointer.data.data) pointer.dtype.byteSize =
            .ok (offset, result.blockName, false) ∧
          result.mapped = pointer.data.data.map fun item => wrapInt64 (item - offset) := by
  rw [mapPointer_eq sameShape] at checked
  split at checked
  · obtain rfl := Except.ok.inj checked
    cases notMasked
  · next nonempty =>
      obtain ⟨⟨offset, name, isPartial⟩, found, built⟩ := PyResult.bind_eq_ok.mp checked
      cases isPartial with
      | true =>
          cases built
      | false =>
          obtain rfl := Except.ok.inj built
          exact ⟨nonempty, offset, found, rfl⟩

/-- All positions are masked exactly when no pointer is left. -/
theorem allMasked_iff
    {result : SimPointerMapResult}
    (sameShape : ∀ bits ∈ mask, bits.shape = pointer.data.shape)
    (checked : boundryCheckAndMapPointers blocks pointer mask = .ok result) :
    result.allMasked = true ↔ unmaskedBy mask pointer.data.data = [] := by
  constructor
  · intro allMasked
    rw [mapPointer_eq sameShape] at checked
    split at checked
    · assumption
    · obtain ⟨⟨offset, name, isPartial⟩, found, built⟩ := PyResult.bind_eq_ok.mp checked
      cases isPartial with
      | true =>
          cases built
      | false =>
          obtain rfl := Except.ok.inj built
          cases allMasked
  · intro nothing
    cases masked : result.allMasked with
    | true =>
        rfl
    | false =>
        exact absurd nothing (mapped_of_checked sameShape checked masked).1

theorem blockNamed_eq_ok
    {name : String}
    {desc : MemoryBlockDesc α}
    (created : Created blocks) :
    blockNamed blocks name = .ok desc ↔ (name, desc) ∈ blocks := by
  rw [← Dict.lookup_eq_some_iff created.distinct]
  unfold blockNamed
  cases blocks.lookup name with
  | none =>
      simp
  | some found =>
      simp

theorem checkDtype_eq_ok
    {name : String}
    {desc : MemoryBlockDesc α}
    (created : Created blocks)
    (isBlock : (name, desc) ∈ blocks) :
    checkDtype pointer.dtype desc = .ok () ↔ pointer.dtype = desc.dtype := by
  have sameDtype := created.sameDtype _ isBlock
  constructor
  · intro checked
    obtain ⟨numpyDtype, named, compared⟩ := PyResult.bind_eq_ok.mp checked
    rw [sameDtype]
    by_cases same : numpyDtype = desc.viewDtype
    · rw [← same]
      exact toNumpyDtype_eq_ok named
    · rw [if_pos same] at compared
      cases compared
  · intro same
    unfold checkDtype
    rw [same, sameDtype, DTypeEnum.toNumpyDtype_fromNumpyDtype]
    exact if_neg (fun different => different rfl)

/-- An access that succeeds reaches one block, and the cells at its addresses. -/
theorem reached_of_access
    {result : SimPointerMapResult}
    {desc : MemoryBlockDesc α}
    {touched : List (Option Nat)}
    (created : Created blocks)
    (sameShape : ∀ bits ∈ mask, bits.shape = pointer.data.shape)
    (checked : boundryCheckAndMapPointers blocks pointer mask = .ok result)
    (notMasked : result.allMasked = false)
    (named : blockNamed blocks result.blockName = .ok desc)
    (sameDtype : checkDtype pointer.dtype desc = .ok ())
    (found :
      ((maskBits pointer.data.shape.prod mask).zip result.mapped).mapM (touchedPlace desc.size) =
        .ok touched) :
    Reached blocks pointer (unmaskedBy mask pointer.data.data) result.blockName desc ∧
      touched =
        placesOf desc.placeIn (maskBits pointer.data.shape.prod mask) pointer.data.data := by
  have isBlock := (blockNamed_eq_ok created).mp named
  have dtype := (checkDtype_eq_ok created isBlock).mp sameDtype
  obtain ⟨_, offset, lookedUp, mapped⟩ := mapped_of_checked sameShape checked notMasked
  rw [mapped] at found
  have byBits := @unmaskedBy_eq Int mask pointer.data.data _ pointer.data.sized
  have isOffset : desc.offsetWithHole = offset := by
    obtain ⟨other, _, _, _, _, isOther, isOffset, _⟩ := mapPointerData_found lookedUp
    have same : other = desc := by
      have first := (Dict.lookup_eq_some_iff created.distinct).mpr isOther
      have second := (Dict.lookup_eq_some_iff created.distinct).mpr isBlock
      exact Option.some.inj (first.symm.trans second)
    rw [← same]
    exact isOffset
  subst isOffset
  have fits :
      ∀ item ∈ unmaskedBy mask pointer.data.data, IsInt64 (pointer.address item) := by
    intro item member
    obtain ⟨place, placed⟩ := exists_place_of_mapM found item (by rwa [byBits] at member)
    exact isInt64_address_of_placeOf created isBlock dtype
      (pointer.isInt64 item (mem_of_mem_unmaskedBy member)) placed
  obtain ⟨other, isOther, _, inside⟩ := inside_of_mapPointerData fits lookedUp
  have same : other = desc := by
    have first := (Dict.lookup_eq_some_iff created.distinct).mpr isOther
    have second := (Dict.lookup_eq_some_iff created.distinct).mpr isBlock
    exact Option.some.inj (first.symm.trans second)
  subst same
  have reached :
      Reached blocks pointer (unmaskedBy mask pointer.data.data) result.blockName other :=
    ⟨isBlock, dtype, inside⟩
  refine ⟨reached, ?_⟩
  have places := @mapM_touchedPlace other.size (maskBits pointer.data.shape.prod mask)
    pointer.data.data (fun item => wrapInt64 (item - other.offsetWithHole)) other.placeIn
    (by
      intro item member
      rw [← byBits] at member
      exact (reached.placeOf created member
        (pointer.isInt64 item (mem_of_mem_unmaskedBy member))).1)
  exact Except.ok.inj (found.symm.trans places)

/-- What reaches one block of its dtype is an access that succeeds. -/
theorem access_of_reached
    {name : String}
    {desc : MemoryBlockDesc α}
    (created : Created blocks)
    (sameShape : ∀ bits ∈ mask, bits.shape = pointer.data.shape)
    (nonempty : unmaskedBy mask pointer.data.data ≠ [])
    (reached : Reached blocks pointer (unmaskedBy mask pointer.data.data) name desc) :
    ∃ result,
      boundryCheckAndMapPointers blocks pointer mask = .ok result ∧
        result.allMasked = false ∧
        result.blockName = name ∧
        blockNamed blocks name = .ok desc ∧
        checkDtype pointer.dtype desc = .ok () ∧
        ((maskBits pointer.data.shape.prod mask).zip result.mapped).mapM
            (touchedPlace desc.size) =
          .ok (placesOf desc.placeIn (maskBits pointer.data.shape.prod mask)
            pointer.data.data) := by
  have fits :
      ∀ item ∈ unmaskedBy mask pointer.data.data, IsInt64 (pointer.address item) := by
    intro item member
    obtain ⟨low, high⟩ := reached.inside item member
    have bound : desc.byteOffsetWithHole + desc.getByteSize ≤ 2 ^ 63 :=
      created.addressable _ reached.member
    have start := Int.natCast_nonneg desc.byteOffsetWithHole
    exact ⟨by omega, by omega⟩
  have found := mapPointerData_of_inside created.laidOut nonempty fits reached.member reached.inside
  refine ⟨{
    mapped := pointer.data.data.map fun item => wrapInt64 (item - desc.offsetWithHole)
    blockName := name
    isPartial := false
    allMasked := false }, ?_, rfl, rfl, (blockNamed_eq_ok created).mpr reached.member,
    (checkDtype_eq_ok created reached.member).mpr reached.sameDtype, ?_⟩
  · rw [mapPointer_eq sameShape, if_neg nonempty, found]
    rfl
  · refine mapM_touchedPlace fun item member => ?_
    rw [← unmaskedBy_eq mask pointer.data.sized] at member
    exact (reached.placeOf created member
      (pointer.isInt64 item (mem_of_mem_unmaskedBy member))).1

end Access

end TensorPC.Tsim
