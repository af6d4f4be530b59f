import TensorPC.Lib.Computation
import TensorPC.Tsim.MappedAccess

namespace TensorPC.Tsim

/-!
# What a store does

A store that returns has changed one block: every unmasked position carries its
value to the cell at its address.  The tensor of values is left alone except by
an exchange without a mask.
-/

open Wire (NpDtype)
open Scatter

variable {α β : Type}

/-! ## Lanes -/

/-- The values of a tensor, one for each position of a shape that it is stored to. -/
def valueLanes (value : NdArray α) (shape : List Nat) : List α :=
  if value.shape ≠ shape then
    match value.broadcastTo shape with
    | .ok value => value.data
    | .error _ => []
  else
    value.data

/-- The values that unmasked positions carry to a cell, by its address. -/
def lanesTo
    (pointer : PointerTensor)
    (mask : Option (NdArray Bool))
    (values : List α)
    (desc : MemoryBlockDesc β)
    (place : Nat) :
    List α :=
  (unmaskedBy mask (pointer.data.data.zip values)).filterMap fun lane =>
    if pointer.address lane.1 = desc.cellAddress place then some lane.2 else none

/-- The positions of the lanes are among the unmasked positions. -/
theorem fst_mem_unmasked
    {bits : List Bool}
    {items : List Int}
    {values : List α}
    {lane : Int × α}
    (member : lane ∈ unmasked bits (items.zip values)) :
    lane.1 ∈ unmasked bits items := by
  induction bits generalizing items values with
  | nil =>
      simp at member
  | cons bit bits inductionHypothesis =>
      cases items with
      | nil =>
          simp [unmasked] at member
      | cons item items =>
          cases values with
          | nil =>
              simp [unmasked] at member
          | cons value values =>
              rw [List.zip_cons_cons, unmasked_cons] at member
              rw [unmasked_cons]
              cases bit with
              | false =>
                  exact inductionHypothesis member
              | true =>
                  rcases List.mem_cons.mp member with isFirst | inRest
                  · rw [isFirst]
                    exact List.mem_cons_self
                  · exact List.mem_cons_of_mem _ (inductionHypothesis inRest)

theorem fst_mem_unmaskedBy
    {mask : Option (NdArray Bool)}
    {items : List Int}
    {values : List α}
    {lane : Int × α}
    (member : lane ∈ unmaskedBy mask (items.zip values)) :
    lane.1 ∈ unmaskedBy mask items := by
  cases mask with
  | none =>
      exact (List.of_mem_zip member).1
  | some mask =>
      exact fst_mem_unmasked member

/-- The lanes as the code pairs them: the places that were found, with the values. -/
theorem filterMap_placesOf
    (place : Int → Nat)
    (bits : List Bool)
    (items : List Int)
    (values : List α) :
    ((placesOf place bits items).zip values).filterMap
        (fun lane => lane.1.map fun place => (place, lane.2)) =
      (unmasked bits (items.zip values)).map fun lane => (place lane.1, lane.2) := by
  induction bits generalizing items values with
  | nil =>
      simp [placesOf]
  | cons bit bits inductionHypothesis =>
      cases items with
      | nil =>
          simp [placesOf, unmasked]
      | cons item items =>
          cases values with
          | nil =>
              simp [unmasked]
          | cons value values =>
              have further := inductionHypothesis items values
              unfold placesOf at further ⊢
              rw [List.zip_cons_cons, List.map_cons, List.zip_cons_cons, List.zip_cons_cons,
                unmasked_cons, List.filterMap_cons]
              cases bit with
              | false =>
                  exact further
              | true =>
                  exact congrArg ((place item, value) :: ·) further

section Lanes

variable {blocks : List (String × MemoryBlockDesc β)} {pointer : PointerTensor}
variable {mask : Option (NdArray Bool)} {name : String} {desc : MemoryBlockDesc β}

/-- The lanes to a place of the block that is reached are those with its address. -/
theorem lanesAt_eq
    (created : Created blocks)
    (reached : Reached blocks pointer (unmaskedBy mask pointer.data.data) name desc)
    {values : List α}
    (sized : values.length = pointer.data.data.length)
    (place : Nat) :
    lanesAt place
        (((placesOf desc.placeIn (maskBits pointer.data.shape.prod mask) pointer.data.data).zip
          values).filterMap fun lane => lane.1.map fun place => (place, lane.2)) =
      lanesTo pointer mask values desc place := by
  have zipped : (pointer.data.data.zip values).length = pointer.data.shape.prod := by
    rw [List.length_zip, sized, Nat.min_self, pointer.data.sized]
  rw [filterMap_placesOf, ← unmaskedBy_eq mask zipped, lanesTo]
  have places :
      ∀ lane ∈ unmaskedBy mask (pointer.data.data.zip values),
        pointer.address lane.1 = desc.cellAddress place ↔ desc.placeIn lane.1 = place := by
    intro lane member
    have isItem := fst_mem_unmaskedBy member
    obtain ⟨_, _, address⟩ := reached.placeOf created isItem
      (pointer.isInt64 lane.1 (mem_of_mem_unmaskedBy isItem))
    rw [← address]
    exact ⟨cellAddress_injective desc, congrArg desc.cellAddress⟩
  generalize unmaskedBy mask (pointer.data.data.zip values) = lanes at places
  induction lanes with
  | nil =>
      rfl
  | cons lane lanes inductionHypothesis =>
      obtain ⟨first, rest⟩ := List.forall_mem_cons.mp places
      rw [List.map_cons, lanesAt_cons, List.filterMap_cons, inductionHypothesis rest]
      by_cases here : desc.placeIn lane.1 = place
      · rw [if_pos here, if_pos (first.mpr here)]
      · rw [if_neg here, if_neg fun same => here (first.mp same)]

theorem lanesTo_of_other
    (created : Created blocks)
    (reached : Reached blocks pointer (unmaskedBy mask pointer.data.data) name desc)
    {values : List α}
    {other : String × MemoryBlockDesc β}
    {place : Nat}
    (isBlock : other ∈ blocks)
    (different : other.1 ≠ name)
    (inRange : place < other.2.size) :
    lanesTo pointer mask values other.2 place = [] := by
  rw [lanesTo, List.filterMap_eq_nil_iff]
  intro lane member
  rw [if_neg]
  intro same
  have inside := reached.inside lane.1 (fst_mem_unmaskedBy member)
  rw [same] at inside
  have sameBlock := created.laidOut.unique isBlock reached.member (cellAddress_mem inRange) inside
  exact different (congrArg Prod.fst sameBlock)

theorem lanesTo_of_masked
    (nothing : unmaskedBy mask pointer.data.data = [])
    (values : List α)
    (desc : MemoryBlockDesc β)
    (place : Nat) :
    lanesTo pointer mask values desc place = [] := by
  rw [lanesTo, List.filterMap_eq_nil_iff]
  intro lane member
  have isItem := fst_mem_unmaskedBy member
  rw [nothing] at isItem
  cases isItem

end Lanes

/-! ## Preparing a store -/

variable {ops : ElementOps α} {state : StoreState α} {pointer : PointerTensor}
variable {value : StoreValue}

theorem length_storedItems
    {dtype valueDtype : NpDtype}
    {shape : List Nat}
    {values : List α}
    (stored : storedItems ops state dtype shape value = .ok (valueDtype, values)) :
    values.length = shape.prod := by
  cases value with
  | scalar scalar =>
      obtain ⟨item, _, built⟩ := PyResult.map_eq_ok stored
      obtain ⟨rfl, rfl⟩ := Prod.mk.inj built
      exact List.length_replicate
  | tensor tensorDtype isView broadcastIsView =>
      simp only [storedItems] at stored
      split at stored
      · obtain ⟨broadcast, fits, built⟩ := PyResult.map_eq_ok stored
        obtain ⟨rfl, rfl⟩ := Prod.mk.inj built
        rw [broadcast.sized, NdArray.shape_of_broadcastTo fits]
      · next same =>
          obtain ⟨rfl, rfl⟩ := Prod.mk.inj (Except.ok.inj stored)
          rw [state.value.sized, not_not.mp same]

/-- The values of a tensor that is stored. -/
theorem storedItems_tensor
    {dtype tensorDtype valueDtype : NpDtype}
    {isView broadcastIsView : Bool}
    {shape : List Nat}
    {values : List α}
    (stored :
      storedItems ops state dtype shape (.tensor tensorDtype isView broadcastIsView) =
        .ok (valueDtype, values)) :
    valueDtype = tensorDtype ∧ values = valueLanes state.value shape := by
  simp only [storedItems] at stored
  unfold valueLanes
  split at stored
  · next different =>
      obtain ⟨broadcast, fits, built⟩ := PyResult.map_eq_ok stored
      obtain ⟨rfl, rfl⟩ := Prod.mk.inj built
      rw [if_pos different, fits]
      exact ⟨rfl, rfl⟩
  · next same =>
      obtain ⟨rfl, rfl⟩ := Prod.mk.inj (Except.ok.inj stored)
      rw [if_neg same]
      exact ⟨rfl, rfl⟩

/-- What is known of a prepared store: it reaches one block, and its lanes carry the values to
the cells at the addresses. -/
structure PreparedFor
    (ops : ElementOps α)
    (state : StoreState α)
    (pointer : PointerTensor)
    (value : StoreValue)
    (mask : Option (NdArray Bool))
    (prepared : Prepared α)
    (values : List α) :
    Prop where
  nonempty : unmaskedBy mask pointer.data.data ≠ []
  reached :
    Reached state.blocks pointer (unmaskedBy mask pointer.data.data) prepared.name prepared.desc
  stored :
    storedItems ops state prepared.desc.viewDtype pointer.data.shape value =
      .ok (prepared.valueDtype, values)
  touched :
    prepared.touched =
      placesOf prepared.desc.placeIn (maskBits pointer.data.shape.prod mask) pointer.data.data
  lanes :
    prepared.lanes =
      ((placesOf prepared.desc.placeIn (maskBits pointer.data.shape.prod mask)
        pointer.data.data).zip values).filterMap fun lane =>
          lane.1.map fun place => (place, lane.2)
  old :
    prepared.old =
      oldItems ops prepared.desc
        (placesOf prepared.desc.placeIn (maskBits pointer.data.shape.prod mask)
          pointer.data.data)

/-- What a store that gets to the atomic section has prepared. -/
theorem prepareStore_some
    {mask : Option (NdArray Bool)}
    {prepared : Prepared α}
    (created : Created state.blocks)
    (sameShape : ∀ bits ∈ mask, bits.shape = pointer.data.shape)
    (ran : prepareStore ops state pointer value mask = .ok (some prepared)) :
    ∃ values, PreparedFor ops state pointer value mask prepared values := by
  obtain ⟨result, checked, further⟩ := PyResult.bind_eq_ok.mp ran
  cases masked : result.allMasked with
  | true =>
      rw [masked, if_pos rfl] at further
      cases further
  | false =>
      rw [masked, if_neg Bool.false_ne_true] at further
      obtain ⟨desc, named, further⟩ := PyResult.bind_eq_ok.mp further
      obtain ⟨⟨⟩, sameDtype, further⟩ := PyResult.bind_eq_ok.mp further
      obtain ⟨⟨valueDtype, values⟩, stored, further⟩ := PyResult.bind_eq_ok.mp further
      obtain ⟨touched, found, further⟩ := PyResult.bind_eq_ok.mp further
      obtain ⟨reached, places⟩ :=
        reached_of_access created sameShape checked masked named sameDtype found
      split at further
      · cases further
      obtain rfl := Option.some.inj (Except.ok.inj further)
      exact ⟨values, (mapped_of_checked sameShape checked masked).1, reached, stored, places,
        by rw [places], by rw [places]⟩

theorem prepareStore_none
    {mask : Option (NdArray Bool)}
    (sameShape : ∀ bits ∈ mask, bits.shape = pointer.data.shape)
    (ran : prepareStore ops state pointer value mask = .ok none) :
    unmaskedBy mask pointer.data.data = [] := by
  obtain ⟨result, checked, further⟩ := PyResult.bind_eq_ok.mp ran
  refine (allMasked_iff sameShape checked).mp ?_
  cases masked : result.allMasked with
  | true =>
      rfl
  | false =>
      rw [masked, if_neg Bool.false_ne_true] at further
      obtain ⟨desc, _, further⟩ := PyResult.bind_eq_ok.mp further
      obtain ⟨⟨⟩, _, further⟩ := PyResult.bind_eq_ok.mp further
      obtain ⟨stored, _, further⟩ := PyResult.bind_eq_ok.mp further
      obtain ⟨touched, _, further⟩ := PyResult.bind_eq_ok.mp further
      split at further <;> cases further

theorem shape_of_maskTensor
    {shape : List Nat}
    {mask : Option MaskArg}
    {tensor : Option (NdArray Bool)}
    (used : maskTensor shape mask = .ok tensor) :
    ∀ bits ∈ tensor, bits.shape = shape := by
  intro bits isTensor
  cases mask with
  | none =>
      obtain rfl := Except.ok.inj used
      cases isTensor
  | some mask =>
      cases mask with
      | flag flag =>
          cases used
      | tensor given =>
          obtain ⟨broadcast, fits, built⟩ := PyResult.map_eq_ok used
          subst built
          obtain rfl := Option.some.inj isTensor
          exact NdArray.shape_of_broadcastTo fits

/-! ## Stores that return -/

/-- A store that returns: nothing was unmasked, or the prepared update was written. -/
theorem store_returned
    {mask : Option MaskArg}
    {atomicOp : Option AtomicOp}
    {cmp : Option (CompareArg α)}
    {result : Stored α}
    {after : StoreState α}
    (ran : store ops pointer value mask atomicOp cmp state = .ok result after) :
    ∃ bits,
      maskTensor pointer.data.shape mask = .ok bits ∧
        ((prepareStore ops state pointer value bits = .ok none ∧ after = state) ∨
          ∃ prepared update,
            prepareStore ops state pointer value bits = .ok (some prepared) ∧
              atomicSection ops prepared cmp atomicOp = .ok update ∧
              ∃ written : StoreState α,
                written =
                    { state with blocks := writeBlock prepared.name update state.blocks } ∧
                  (if atomicOp = some .xchg ∧ bits.isNone then
                    exchange ops prepared pointer.data.shape value written =
                      .ok PUnit.unit after
                  else
                    after = written)) := by
  unfold store at ran
  obtain ⟨start, middle, got, ran⟩ := Computation.bind_eq_ok.mp ran
  obtain ⟨rfl, rfl⟩ := Computation.get_eq_ok.mp got
  cases used : maskTensor pointer.data.shape mask with
  | error raised =>
      rw [used] at ran
      cases ran
  | ok bits =>
      refine ⟨bits, rfl, ?_⟩
      rw [used] at ran
      simp only at ran
      cases prepare : prepareStore ops state pointer value bits with
      | error raised =>
          rw [prepare] at ran
          cases ran
      | ok found =>
          rw [prepare] at ran
          cases found with
          | none =>
              obtain ⟨_, rfl⟩ := Computation.pure_eq_ok.mp ran
              exact .inl ⟨rfl, rfl⟩
          | some prepared =>
              simp only at ran
              cases updates : atomicSection ops prepared cmp atomicOp with
              | error raised =>
                  rw [updates] at ran
                  cases ran
              | ok update =>
                  rw [updates] at ran
                  obtain ⟨_, written, isSet, ran⟩ := Computation.bind_eq_ok.mp ran
                  cases isSet
                  refine .inr ⟨prepared, update, rfl, updates, _, rfl, ?_⟩
                  split at ran
                  · next exchanges =>
                      rw [if_pos (by simpa using exchanges)]
                      obtain ⟨_, last, exchanged, ran⟩ := Computation.bind_eq_ok.mp ran
                      obtain ⟨_, rfl⟩ := Computation.pure_eq_ok.mp ran
                      exact exchanged
                  · next keeps =>
                      rw [if_neg (by simpa using keeps)]
                      obtain ⟨_, rfl⟩ := Computation.pure_eq_ok.mp ran
                      rfl

end TensorPC.Tsim
