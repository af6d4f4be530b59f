import TensorPC.Tsim.IntegerElements
import TensorPC.Tsim.StoreSpec

namespace TensorPC.Tsim

/-!
# Atomic stores

An operator is applied to all cells at once: of several lanes to one cell only
the last has an effect.  So a store is atomic for each lane exactly when the
other lanes to a cell make no difference.  An exchange without a mask writes the
old elements into the tensor of values.
-/

open Wire (NpDtype)
open Scatter

variable {α : Type}

/-- What an operator does to a cell; nothing where numpy refuses it. -/
def cellUpdate
    (ops : ElementOps α)
    (op : UpdateOp)
    (memory value : NpDtype) :
    α → α → α :=
  match ops.update op memory value with
  | .ok update => update
  | .error _ => fun old _ => old

/-- Every cell holds the result of applying the operator once for each lane to it. -/
def AppliedOncePerLane
    (ops : ElementOps α)
    (op : UpdateOp)
    (pointer : PointerTensor)
    (mask : Option (NdArray Bool))
    (valueDtype : NpDtype)
    (values : List α)
    (before after : List (String × MemoryBlockDesc α)) :
    Prop :=
  ∀ entry ∈ before, ∀ place old,
    entry.2.dataView[place]? = some old →
      ∃ desc,
        (entry.1, desc) ∈ after ∧
          desc.dataView[place]? =
            some ((lanesTo pointer mask values entry.2 place).foldl
              (cellUpdate ops op entry.2.viewDtype valueDtype) old)

/-- What is asked of an atomic store: each lane is applied once, and the values are kept. -/
structure StoreIsAtomic
    (ops : ElementOps α)
    (op : AtomicOp)
    (pointer : PointerTensor)
    (mask : Option (NdArray Bool))
    (valueDtype : NpDtype)
    (before after : StoreState α) :
    Prop where
  cells :
    ∀ updateOp,
      op = .update updateOp →
        AppliedOncePerLane ops updateOp pointer mask valueDtype
          (valueLanes before.value pointer.data.shape) before.blocks after.blocks
  value : after.value = before.value

/-- At every cell the lanes before the last one are absorbed. -/
def LanesAbsorbed
    (ops : ElementOps Int)
    (op : UpdateOp)
    (pointer : PointerTensor)
    (mask : Option (NdArray Bool))
    (valueDtype : NpDtype)
    (values : List Int)
    (blocks : List (String × MemoryBlockDesc Int)) :
    Prop :=
  ∀ entry ∈ blocks, ∀ place old earlier last,
    entry.2.dataView[place]? = some old →
      lanesTo pointer mask values entry.2 place = earlier ++ [last] →
        Absorbed op entry.2.viewDtype valueDtype
          (cellUpdate ops op entry.2.viewDtype valueDtype) old earlier last

/-- Every position's value is what the cell at its address holds, in the dtype of the values. -/
def AlreadyExchanged
    (ops : ElementOps α)
    (pointer : PointerTensor)
    (valueDtype : NpDtype)
    (value : NdArray α)
    (blocks : List (String × MemoryBlockDesc α)) :
    Prop :=
  ∀ lane ∈ pointer.data.data.zip value.data, ∀ entry ∈ blocks, ∀ place old,
    entry.2.dataView[place]? = some old →
      pointer.address lane.1 = entry.2.cellAddress place →
        ops.assign valueDtype entry.2.viewDtype old = lane.2

/-! ## The cells -/

/-- The block with a name, after a write to a block. -/
theorem mem_writeBlock_iff
    {blocks : List (String × MemoryBlockDesc α)}
    (created : Created blocks)
    (name : String)
    (update : CellsUpdate α)
    {entry : String × MemoryBlockDesc α}
    (member : entry ∈ blocks)
    (desc : MemoryBlockDesc α) :
    (entry.1, desc) ∈ writeBlock name update blocks ↔
      desc = if entry.1 = name then entry.2.write update else entry.2 := by
  constructor
  · intro written
    obtain ⟨source, isSource, same⟩ := List.mem_map.mp written
    have sameName : source.1 = entry.1 := by
      split at same
      · exact (Prod.mk.inj same).1
      · rw [same]
    have sameEntry : source.2 = entry.2 := by
      have first := (Dict.lookup_eq_some_iff created.distinct).mpr isSource
      have second := (Dict.lookup_eq_some_iff created.distinct).mpr member
      rw [sameName] at first
      exact Option.some.inj (first.symm.trans second)
    rw [sameName, sameEntry] at same
    split at same
    · next here =>
        rw [if_pos here]
        exact (Prod.mk.inj same).2.symm
    · next elsewhere =>
        rw [if_neg elsewhere, ← sameEntry, same]
  · intro same
    refine List.mem_map.mpr ⟨entry, member, ?_⟩
    subst same
    split <;> rfl

/-- What a cell holds after all lanes were applied at once. -/
theorem cell_of_updateLanes
    {blocks : List (String × MemoryBlockDesc α)}
    {pointer : PointerTensor}
    {mask : Option (NdArray Bool)}
    {prepared : Prepared α}
    {values : List α}
    {update : α → α → α}
    (created : Created blocks)
    (reached :
      Reached blocks pointer (unmaskedBy mask pointer.data.data) prepared.name prepared.desc)
    (sized : values.length = pointer.data.data.length)
    (lanes :
      prepared.lanes =
        ((placesOf prepared.desc.placeIn (maskBits pointer.data.shape.prod mask)
          pointer.data.data).zip values).filterMap fun lane =>
            lane.1.map fun place => (place, lane.2))
    {entry : String × MemoryBlockDesc α}
    (member : entry ∈ blocks)
    {place : Nat}
    {old : α}
    (holds : entry.2.dataView[place]? = some old) :
    (if entry.1 = prepared.name then entry.2.write (updateLanes update prepared.lanes)
      else entry.2).dataView[place]? =
      some (((lanesTo pointer mask values entry.2 place).getLast?.map (update old)).getD old) := by
  by_cases here : entry.1 = prepared.name
  · have same : entry.2 = prepared.desc := by
      have first := (Dict.lookup_eq_some_iff created.distinct).mpr member
      have second := (Dict.lookup_eq_some_iff created.distinct).mpr reached.member
      rw [here] at first
      exact Option.some.inj (first.symm.trans second)
    rw [if_pos here]
    change (updateAtOnce update entry.2.dataView prepared.lanes)[place]? = _
    rw [getElem?_updateAtOnce, holds, lanes, lanesAt_eq created reached sized, same]
    rfl
  · have inRange : place < entry.2.size := by
      rw [← entry.2.sized]
      exact (List.getElem?_eq_some_iff.mp holds).1
    rw [if_neg here, holds, lanesTo_of_other created reached member here inRange]
    rfl

/-- Applying all lanes at once applies each lane once, exactly when at every cell the lanes
before the last one make no difference. -/
theorem appliedOncePerLane_iff
    {ops : ElementOps α}
    {op : UpdateOp}
    {valueDtype : NpDtype}
    {blocks after : List (String × MemoryBlockDesc α)}
    {pointer : PointerTensor}
    {mask : Option (NdArray Bool)}
    {values : List α}
    (cell :
      ∀ entry ∈ blocks, ∀ place old,
        entry.2.dataView[place]? = some old →
          ∃ desc,
            (∀ other, (entry.1, other) ∈ after ↔ other = desc) ∧
              desc.dataView[place]? =
                some (((lanesTo pointer mask values entry.2 place).getLast?.map
                  (cellUpdate ops op entry.2.viewDtype valueDtype old)).getD old)) :
    AppliedOncePerLane ops op pointer mask valueDtype values blocks after ↔
      ∀ entry ∈ blocks, ∀ place old earlier last,
        entry.2.dataView[place]? = some old →
          lanesTo pointer mask values entry.2 place = earlier ++ [last] →
            cellUpdate ops op entry.2.viewDtype valueDtype
                (earlier.foldl (cellUpdate ops op entry.2.viewDtype valueDtype) old) last =
              cellUpdate ops op entry.2.viewDtype valueDtype old last := by
  constructor
  · intro applied entry member place old earlier last holds carried
    obtain ⟨desc, unique, after⟩ := cell entry member place old holds
    obtain ⟨other, isAfter, applied⟩ := applied entry member place old holds
    obtain rfl := (unique other).mp isAfter
    rw [carried] at after applied
    rw [applied, List.foldl_append, List.getLast?_append] at after
    exact Option.some.inj after
  · intro absorbed entry member place old holds
    obtain ⟨desc, unique, after⟩ := cell entry member place old holds
    refine ⟨desc, (unique desc).mpr rfl, after.trans (congrArg some ?_)⟩
    rcases List.eq_nil_or_concat (lanesTo pointer mask values entry.2 place) with
      none | ⟨earlier, last, carried⟩
    · rw [none]
      rfl
    · rw [List.concat_eq_append] at carried
      rw [carried, List.getLast?_append, List.foldl_append]
      exact (absorbed entry member place old earlier last holds carried).symm

/-! ## The values -/

/-- An exchange that returns has kept the memory; the values were left alone, or replaced where
the flattened tensor is a view of them. -/
theorem exchange_returned
    {ops : ElementOps α}
    {prepared : Prepared α}
    {shape : List Nat}
    {valueDtype : NpDtype}
    {isView broadcastIsView : Bool}
    {written after : StoreState α}
    (ran :
      exchange ops prepared shape (.tensor valueDtype isView broadcastIsView) written =
        .ok PUnit.unit after) :
    after.blocks = written.blocks ∧
      ((after.value = written.value ∧
          ¬ (written.value.shape = shape ∧ isView = true ∧
            prepared.old.length = written.value.data.length)) ∨
        (written.value.shape = shape ∧ isView = true ∧
          ∃ sameLength : prepared.old.length = written.value.data.length,
            after.value = exchangedValue ops prepared written.value sameLength)) := by
  unfold exchange at ran
  obtain ⟨start, middle, got, ran⟩ := Computation.bind_eq_ok.mp ran
  obtain ⟨rfl, rfl⟩ := Computation.get_eq_ok.mp got
  simp only at ran
  split at ran
  · next different =>
      split at ran
      · cases ran
      · obtain ⟨_, rfl⟩ := Computation.pure_eq_ok.mp ran
        exact ⟨rfl, .inl ⟨rfl, fun exchanges => different exchanges.1⟩⟩
  · next same =>
      split at ran
      · next isView =>
          split at ran
          · next sameLength =>
              cases ran
              exact ⟨rfl, .inr ⟨not_not.mp same, isView, sameLength, rfl⟩⟩
          · next differentLength =>
              obtain ⟨_, rfl⟩ := Computation.pure_eq_ok.mp ran
              exact ⟨rfl, .inl ⟨rfl, fun exchanges => differentLength exchanges.2.2⟩⟩
      · next noView =>
          obtain ⟨_, rfl⟩ := Computation.pure_eq_ok.mp ran
          exact ⟨rfl, .inl ⟨rfl, fun exchanges => noView exchanges.2.1⟩⟩

theorem placesOf_none
    (place : Int → Nat)
    {items : List Int}
    {count : Nat}
    (sized : items.length = count) :
    placesOf place (maskBits count none) items = items.map fun item => some (place item) := by
  subst sized
  change placesOf place (List.replicate items.length true) items = _
  induction items with
  | nil =>
      rfl
  | cons item items inductionHypothesis =>
      exact congrArg (some (place item) :: ·) inductionHypothesis

/-- A mapped list is another list when each pair agrees. -/
theorem map_eq_iff_zip
    {β γ : Type}
    {f : β → γ}
    {items : List β}
    {results : List γ}
    (sameLength : items.length = results.length) :
    items.map f = results ↔ ∀ pair ∈ items.zip results, f pair.1 = pair.2 := by
  induction items generalizing results with
  | nil =>
      cases results with
      | nil =>
          simp
      | cons result results =>
          cases sameLength
  | cons item items inductionHypothesis =>
      cases results with
      | nil =>
          cases sameLength
      | cons result results =>
          rw [List.map_cons, List.zip_cons_cons, List.forall_mem_cons, List.cons.injEq,
            inductionHypothesis (Nat.succ.inj sameLength)]

/-- The exchanged values are the values from before exactly when every value is what its cell
holds. -/
theorem exchangedValue_eq_iff
    {ops : ElementOps α}
    {state : StoreState α}
    {pointer : PointerTensor}
    {value : StoreValue}
    {prepared : Prepared α}
    {values : List α}
    (created : Created state.blocks)
    (forStore : PreparedFor ops state pointer value none prepared values)
    (sameLength : prepared.old.length = state.value.data.length) :
    exchangedValue ops prepared state.value sameLength = state.value ↔
      AlreadyExchanged ops pointer prepared.valueDtype state.value state.blocks := by
  have reached := forStore.reached
  have old :
      prepared.old = pointer.data.data.map fun item =>
        (prepared.desc.dataView[prepared.desc.placeIn item]?).getD
          (ops.zero prepared.desc.viewDtype) := by
    rw [forStore.old, placesOf_none _ pointer.data.sized, oldItems, List.map_map]
    rfl
  have sized : pointer.data.data.length = state.value.data.length := by
    rw [← sameLength, old, List.length_map]
  have sameData :
      exchangedValue ops prepared state.value sameLength = state.value ↔
        prepared.old.map (ops.assign prepared.valueDtype prepared.desc.viewDtype) =
          state.value.data := by
    rw [NdArray.ext_iff]
    exact and_iff_right rfl
  rw [sameData, old, List.map_map, map_eq_iff_zip sized]
  have atItem :
      ∀ lane ∈ pointer.data.data.zip state.value.data,
        prepared.desc.placeIn lane.1 < prepared.desc.size ∧
          prepared.desc.cellAddress (prepared.desc.placeIn lane.1) = pointer.address lane.1 := by
    intro lane member
    have isItem := (List.of_mem_zip member).1
    exact (reached.placeOf created isItem (pointer.isInt64 lane.1 isItem)).2
  constructor
  · intro kept lane member entry isBlock place held holds address
    obtain ⟨inRange, cell⟩ := atItem lane member
    have isPlace : place < entry.2.size := by
      rw [← entry.2.sized]
      exact (List.getElem?_eq_some_iff.mp holds).1
    have inEntry := cellAddress_mem isPlace
    rw [← address] at inEntry
    have same := created.laidOut.unique isBlock reached.member inEntry
      (reached.inside lane.1 (List.of_mem_zip member).1)
    subst same
    rw [← cell] at address
    obtain rfl := cellAddress_injective _ address
    have value := kept lane member
    rw [Function.comp_apply, holds] at value
    exact value
  · intro kept lane member
    obtain ⟨inRange, cell⟩ := atItem lane member
    have inList : prepared.desc.placeIn lane.1 < prepared.desc.dataView.length := by
      rw [prepared.desc.sized]
      exact inRange
    have holds := List.getElem?_eq_getElem inList
    have value := kept lane member (prepared.name, prepared.desc) reached.member _ _ holds cell.symm
    rw [Function.comp_apply, holds]
    exact value

/-! ## When a store is atomic -/

theorem PreparedFor.values_eq
    {ops : ElementOps α}
    {state : StoreState α}
    {pointer : PointerTensor}
    {mask : Option (NdArray Bool)}
    {valueDtype : NpDtype}
    {isView broadcastIsView : Bool}
    {prepared : Prepared α}
    {values : List α}
    (forStore :
      PreparedFor ops state pointer (.tensor valueDtype isView broadcastIsView) mask prepared
        values) :
    prepared.valueDtype = valueDtype ∧
      values = valueLanes state.value pointer.data.shape ∧
      values.length = pointer.data.data.length := by
  obtain ⟨dtype, lanes⟩ := storedItems_tensor forStore.stored
  exact ⟨dtype, lanes, (length_storedItems forStore.stored).trans pointer.data.sized.symm⟩

/-- A block that a lane goes to is the one that was reached. -/
theorem PreparedFor.desc_of_lane
    {ops : ElementOps α}
    {state : StoreState α}
    {pointer : PointerTensor}
    {value : StoreValue}
    {mask : Option (NdArray Bool)}
    {prepared : Prepared α}
    {values : List α}
    (created : Created state.blocks)
    (forStore : PreparedFor ops state pointer value mask prepared values)
    {entry : String × MemoryBlockDesc α}
    (member : entry ∈ state.blocks)
    {place : Nat}
    {old : α}
    (holds : entry.2.dataView[place]? = some old)
    (carried : lanesTo pointer mask values entry.2 place ≠ []) :
    entry.2 = prepared.desc := by
  have inRange : place < entry.2.size := by
    rw [← entry.2.sized]
    exact (List.getElem?_eq_some_iff.mp holds).1
  have here : entry.1 = prepared.name := by
    by_contra different
    exact carried (lanesTo_of_other created forStore.reached member different inRange)
  have first := (Dict.lookup_eq_some_iff created.distinct).mpr member
  have second := (Dict.lookup_eq_some_iff created.distinct).mpr forStore.reached.member
  rw [here] at first
  exact Option.some.inj (first.symm.trans second)

section Store

variable {numpy : ElementOps Int} {pointer : PointerTensor} {mask : Option MaskArg}
variable {bits : Option (NdArray Bool)} {valueDtype : NpDtype}
variable {isView broadcastIsView : Bool} {cmp : Option (CompareArg Int)}
variable {before after : StoreState Int} {result : Stored Int}

/-- The cells after an operator was applied. -/
theorem cells_iff
    {updateOp : UpdateOp}
    (created : Created before.blocks)
    (memoryIsInteger : ∀ entry ∈ before.blocks, isInteger entry.2.viewDtype = true)
    (holds : ∀ entry ∈ before.blocks, ∀ item ∈ entry.2.dataView, Holds entry.2.viewDtype item)
    (valueIsInteger : isInteger valueDtype = true)
    (used : maskTensor pointer.data.shape mask = .ok bits)
    (ran :
      store (withIntegers numpy) pointer (.tensor valueDtype isView broadcastIsView) mask
          (some (.update updateOp)) cmp before =
        .ok result after) :
    AppliedOncePerLane (withIntegers numpy) updateOp pointer bits valueDtype
        (valueLanes before.value pointer.data.shape) before.blocks after.blocks ↔
      LanesAbsorbed (withIntegers numpy) updateOp pointer bits valueDtype
        (valueLanes before.value pointer.data.shape) before.blocks := by
  have sameShape := shape_of_maskTensor used
  obtain ⟨usedBits, sameBits, outcome⟩ := store_returned ran
  obtain rfl := Except.ok.inj (used.symm.trans sameBits)
  rcases outcome with ⟨nothing, rfl⟩ | ⟨prepared, update, prepare, updates, written, rfl, last⟩
  · have noLane := lanesTo_of_masked (β := Int) (prepareStore_none sameShape nothing)
      (valueLanes after.value pointer.data.shape)
    constructor
    · intro _ entry _ place old earlier last _ carried
      rw [noLane] at carried
      exact absurd carried.symm (List.append_ne_nil_of_right_ne_nil _ (List.cons_ne_nil _ _))
    · intro _ entry member place old held
      refine ⟨entry.2, member, ?_⟩
      rw [noLane]
      exact held
  · rw [if_neg (by simp)] at last
    subst last
    obtain ⟨values, forStore⟩ := prepareStore_some created sameShape prepare
    obtain ⟨dtype, isLanes, sized⟩ := forStore.values_eq
    rw [← isLanes]
    obtain ⟨combined, accepted, built⟩ := PyResult.bind_eq_ok.mp updates
    obtain rfl := Except.ok.inj built
    rw [dtype] at accepted
    have isCombined :
        cellUpdate (withIntegers numpy) updateOp prepared.desc.viewDtype valueDtype = combined := by
      rw [cellUpdate, accepted]
    rw [appliedOncePerLane_iff]
    · constructor
      · intro same entry member place old earlier last held carried
        have isDesc := forStore.desc_of_lane created member held (by rw [carried]; simp)
        have integer := memoryIsInteger entry member
        have holdsOld := holds entry member old (List.mem_of_getElem? held)
        have atCell := same entry member place old earlier last held carried
        rw [isDesc] at integer holdsOld atCell ⊢
        rw [isCombined] at atCell ⊢
        exact (absorbed_iff integer valueIsInteger accepted holdsOld).mp atCell
      · intro absorbed entry member place old earlier last held carried
        have isDesc := forStore.desc_of_lane created member held (by rw [carried]; simp)
        have integer := memoryIsInteger entry member
        have holdsOld := holds entry member old (List.mem_of_getElem? held)
        have atCell := absorbed entry member place old earlier last held carried
        rw [isDesc] at integer holdsOld atCell ⊢
        rw [isCombined] at atCell ⊢
        exact (absorbed_iff integer valueIsInteger accepted holdsOld).mpr atCell
    · intro entry member place old held
      refine ⟨_, mem_writeBlock_iff created prepared.name (updateLanes combined prepared.lanes)
        member, ?_⟩
      rw [cell_of_updateLanes created forStore.reached sized forStore.lanes member held]
      by_cases carried : lanesTo pointer bits values entry.2 place = []
      · rw [carried]
        rfl
      · rw [forStore.desc_of_lane created member held carried, isCombined]

/-- The tensor of values after a store. -/
theorem value_iff
    {op : AtomicOp}
    (created : Created before.blocks)
    (used : maskTensor pointer.data.shape mask = .ok bits)
    (ran :
      store (withIntegers numpy) pointer (.tensor valueDtype isView broadcastIsView) mask (some op)
          cmp before =
        .ok result after) :
    after.value = before.value ↔
      (op = .xchg →
        bits = none →
          isView = true →
            before.value.shape = pointer.data.shape →
              AlreadyExchanged (withIntegers numpy) pointer valueDtype before.value
                before.blocks) := by
  have sameShape := shape_of_maskTensor used
  obtain ⟨usedBits, sameBits, outcome⟩ := store_returned ran
  obtain rfl := Except.ok.inj (used.symm.trans sameBits)
  rcases outcome with ⟨nothing, rfl⟩ | ⟨prepared, update, prepare, updates, written, rfl, last⟩
  · refine iff_of_true rfl ?_
    rintro - rfl - - lane member
    have noPointer := prepareStore_none sameShape nothing
    change pointer.data.data = [] at noPointer
    rw [noPointer] at member
    cases member
  · by_cases exchanges : op = .xchg ∧ bits = none
    · obtain ⟨rfl, rfl⟩ := exchanges
      rw [if_pos ⟨rfl, rfl⟩] at last
      obtain ⟨values, forStore⟩ := prepareStore_some created sameShape prepare
      obtain ⟨dtype, isLanes, sized⟩ := forStore.values_eq
      have whole : prepared.old.length = pointer.data.data.length := by
        rw [forStore.old, placesOf_none _ pointer.data.sized, oldItems, List.length_map,
          List.length_map]
      obtain ⟨_, ⟨kept, noExchange⟩ | ⟨sameShape, view, sameLength, replaced⟩⟩ :=
        exchange_returned last
      · refine iff_of_true kept ?_
        intro _ _ view sameShape
        refine absurd ⟨sameShape, view, ?_⟩ noExchange
        change prepared.old.length = before.value.data.length
        rw [whole, pointer.data.sized, before.value.sized, sameShape]
      · rw [replaced]
        have decided := exchangedValue_eq_iff created forStore sameLength
        rw [dtype] at decided
        refine decided.trans ⟨fun already _ _ _ _ => already, fun already => ?_⟩
        exact already rfl rfl view sameShape
    · have noExchange : ¬ (some op = some .xchg ∧ bits.isNone = true) := by
        rintro ⟨same, isNone⟩
        exact exchanges ⟨Option.some.inj same, Option.isNone_iff_eq_none.mp isNone⟩
      rw [if_neg noExchange] at last
      subst last
      exact iff_of_true rfl fun isXchg isNone => absurd ⟨isXchg, isNone⟩ exchanges

end Store

/-- Elements of which only integers matter. -/
def sampleElements : ElementOps Int where
  zero _ := 0
  full _ _ := .ok 0
  assign _ _ item := item
  update _ _ _ := .ok fun old _ => old
  equal _ _ _ := true
  choose _ _ _ value _ := value

/-- A memory of two 32-bit integers. -/
def sampleMemory (first second : Int) : List (String × MemoryBlockDesc Int) :=
  (@assignRandomMemoryBlockOffset Int
    [("a", {
      size := 2
      dtype := .int32
      viewDtype := .int32
      dataView := [first, second]
      sized := rfl })]
    fun _ => 0).1

theorem created_sampleMemory : Created (sampleMemory 10 20) where
  laidOut := ⟨_, _, rfl⟩
  distinct := by decide
  sameDtype := by decide
  addressable := by decide

/-- Two pointers to 32-bit integers. -/
def samplePair (first second : Int) (areInt64 : IsInt64 first ∧ IsInt64 second) :
    PointerTensor where
  dtype := .int32
  data := { shape := [2], data := [first, second], sized := rfl }
  isInt64 := List.forall_mem_cons.mpr
    ⟨areInt64.1, List.forall_mem_singleton.mpr areInt64.2⟩

/-- The memory with two values to store. -/
def sampleStore (cells : List (String × MemoryBlockDesc Int)) : StoreState Int where
  blocks := cells
  value := { shape := [2], data := [1, 2], sized := rfl }

end TensorPC.Tsim
