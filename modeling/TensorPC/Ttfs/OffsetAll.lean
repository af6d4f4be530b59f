import TensorPC.Lib.DotProduct
import TensorPC.Ttfs.TensorManager

namespace TensorPC.Ttfs

/-!
# Offsetting all descriptors

The pointer of a tensor is to advance by the stride of every dimension that is
listed, times the offset listed for it.  `get_ptr_offset` drops the names that
the tensor does not have and pairs the others with the offsets from the start of
the list, so the strides it multiplies have to stand at the positions of the list.
-/

variable {R : Type} [CommRing R]

/-! ## What is to happen -/

namespace TensorManager

/-- The stride of an axis, as `get_tensor_stride` gives it. -/
def stride (manager : TensorManager R) (desc : TensorDesc R) (axis : Nat) : R :=
  match manager.getTensorStride desc axis with
  | .ok field => field.number
  | .error _ => 0

/-- The strides of the dimensions that have this name or this alias. -/
def namedStride (manager : TensorManager R) (desc : TensorDesc R) (name : String) : R :=
  (((List.range desc.dims.length).filter fun axis =>
      desc.shapeNames[axis]? = some name ∨ desc.aliasNames[axis]? = some name).map
    (manager.stride desc)).sum

/-- How far the pointer of a descriptor is to move. -/
def displacement
    (manager : TensorManager R)
    (desc : TensorDesc R)
    (names : List String)
    (offsets : List R) :
    R :=
  dot (names.map (manager.namedStride desc)) offsets

def advancedField
    (manager : TensorManager R)
    (names : List String)
    (offsets : List R)
    (field : TensorField R) :
    TensorField R :=
  match field.desc.ptr with
  | some (.pointer address) =>
      { field with
        desc :=
          { field.desc with
            ptr :=
              some (.pointer
                (address + manager.displacement field.desc names offsets)) } }
  | _ => field

/-- The manager with all its pointers moved and nothing else changed. -/
def advanced
    (manager : TensorManager R)
    (names : List String)
    (offsets : List R) :
    TensorManager R :=
  { manager with tensors := manager.tensors.map (manager.advancedField names offsets) }

/-- The function moves all pointers as it should, for all offsets. -/
def Advances
    (manager : TensorManager R)
    (frontend : Frontend)
    (offNames : OffNames) :
    Prop :=
  ∀ offsets, offsets.length = (unifyOffsetNames offNames).length →
    manager.offsetAllDescPtr frontend offNames offsets =
      .ok (manager.advanced (unifyOffsetNames offNames) offsets)

/-- One list after another. -/
def concatNames (first second : OffNames) : OffNames :=
  .names (unifyOffsetNames first ++ unifyOffsetNames second)

/-- Both lists and their concatenation move all pointers as they should, and the
concatenation does what the two lists do one after the other. -/
structure OffsetsRight
    (manager : TensorManager R)
    (frontend : Frontend)
    (first second : OffNames) :
    Prop where
  firstRight : manager.Advances frontend first
  secondRight : manager.Advances frontend second
  bothRight : manager.Advances frontend (concatNames first second)
  composes :
    ∀ firstOffsets secondOffsets,
      firstOffsets.length = (unifyOffsetNames first).length →
      secondOffsets.length = (unifyOffsetNames second).length →
      (manager.offsetAllDescPtr frontend first firstOffsets >>= fun manager =>
          manager.offsetAllDescPtr frontend second secondOffsets) =
        manager.offsetAllDescPtr frontend (concatNames first second)
          (firstOffsets ++ secondOffsets)

/-! ## When it happens -/

/-- The listed names that the tensor has. -/
def keptNames (desc : TensorDesc R) (names : List String) : List String :=
  names.filter fun name => name ∈ desc.aliasNames ∨ name ∈ desc.shapeNames

/-- The stride that `get_tensor_stride_by_name` reads for a name. -/
def strideByName (manager : TensorManager R) (desc : TensorDesc R) (name : String) : R :=
  match manager.getTensorStrideByName desc name with
  | .ok field => field.number
  | .error _ => 0

/-- The strides read for the kept names, counted off, are those of the listed names
at the same positions; a missing one counts as zero. -/
def KeepsPositions
    (manager : TensorManager R)
    (desc : TensorDesc R)
    (names : List String) :
    Prop :=
  ∀ position,
    ((keptNames desc names).map (manager.strideByName desc)).getD position 0 =
      (names.map (manager.namedStride desc)).getD position 0

/-- A field with an annotation has a pointer only if none of its listed dimensions
has a stride.  Any other field is compiled for gluon, holds no TMA descriptor, gets
the strides it has when its constructor runs again, and keeps positions. -/
def FieldFits
    (manager : TensorManager R)
    (frontend : Frontend)
    (names : List String)
    (field : TensorField R) :
    Prop :=
  if field.annotated then
    (∃ address, field.desc.ptr = some (.pointer address)) →
      ∀ position, (names.map (manager.namedStride field.desc)).getD position 0 = 0
  else
    frontend = .gluon ∧
      field.desc.ptr ≠ some .tmaDesc ∧
      field.desc.postInit = .ok field.desc ∧
      ((∃ address, field.desc.ptr = some (.pointer address)) →
        manager.KeepsPositions field.desc names)

def Fits
    (manager : TensorManager R)
    (frontend : Frontend)
    (offNames : OffNames) :
    Prop :=
  ∀ field ∈ manager.tensors, manager.FieldFits frontend (unifyOffsetNames offNames) field

/-! ## The offset of one pointer -/

omit [CommRing R] in
theorem filterSym_eq (desc : TensorDesc R) (names : List String) :
    desc.filterSym false names = .ok (keptNames desc names) := by
  induction names with
  | nil =>
      rfl
  | cons name rest inductionHypothesis =>
      unfold TensorDesc.filterSym keptNames
      split
      · rename_i kept
        rw [inductionHypothesis, List.filter_cons_of_pos (by simpa using kept)]
        rfl
      · rename_i dropped
        rw [if_neg Bool.false_ne_true, inductionHypothesis,
          List.filter_cons_of_neg (by simpa using dropped)]
        rfl

theorem exists_getTensorStride
    (manager : TensorManager R)
    {desc : TensorDesc R}
    {axis : Nat}
    (inside : axis < desc.dims.length) :
    ∃ field, manager.getTensorStride desc axis = .ok field := by
  unfold getTensorStride
  rw [List.getElem?_eq_getElem inside]
  dsimp only
  split
  · exact ⟨_, rfl⟩
  · split
    · split <;> exact ⟨_, rfl⟩
    · exact ⟨_, rfl⟩

/-- A name that the tensor has leads to a stride. -/
theorem exists_getTensorStrideByName
    (manager : TensorManager R)
    {desc : TensorDesc R}
    {name : String}
    (kept : name ∈ desc.aliasNames ∨ name ∈ desc.shapeNames) :
    ∃ field, manager.getTensorStrideByName desc name = .ok field := by
  have lengths : desc.aliasNames.length = desc.shapeNames.length := by
    simp [TensorDesc.aliasNames, TensorDesc.shapeNames]
  obtain ⟨unified, isUnified, isShape⟩ :
      ∃ unified, desc.localNameToGlobal name = .ok unified ∧
        unified ∈ desc.shapeNames := by
    unfold TensorDesc.localNameToGlobal
    split
    · rename_i isAlias
      have inside := List.idxOf_lt_length_of_mem isAlias
      rw [lengths] at inside
      refine ⟨_, rfl, ?_⟩
      simp [List.getD, List.getElem?_eq_getElem inside]
    · rename_i notAlias
      have isShape := kept.resolve_left notAlias
      exact ⟨name, if_pos isShape, isShape⟩
  obtain ⟨axis, isAxis, inside⟩ :
      ∃ axis, desc.getDimByName unified = .ok axis ∧ axis < desc.dims.length := by
    unfold TensorDesc.getDimByName
    split
    · rename_i isAlias
      refine ⟨_, rfl, ?_⟩
      simpa [TensorDesc.aliasNames] using List.idxOf_lt_length_of_mem isAlias
    · refine ⟨_, rfl, ?_⟩
      simpa [TensorDesc.shapeNames] using List.idxOf_lt_length_of_mem isShape
  obtain ⟨field, found⟩ := manager.exists_getTensorStride inside
  refine ⟨field, ?_⟩
  unfold getTensorStrideByName
  rw [isUnified]
  change (desc.getDimByName unified >>= manager.getTensorStride desc) = _
  rw [isAxis]
  exact found

/-- The loop adds the products of the strides and the offsets at their positions. -/
theorem addOffsets_eq
    (manager : TensorManager R)
    {desc : TensorDesc R}
    {names : List String}
    {offsets : List R}
    (kept : ∀ name ∈ names, name ∈ desc.aliasNames ∨ name ∈ desc.shapeNames)
    (enough : names.length ≤ offsets.length)
    (offset : R) :
    manager.addOffsets desc offset names offsets =
      .ok (offset + dot (names.map (manager.strideByName desc)) offsets) := by
  induction names generalizing offset offsets with
  | nil =>
      simp [addOffsets]
  | cons name rest inductionHypothesis =>
      cases offsets with
      | nil =>
          exact absurd enough (by simp)
      | cons given later =>
          obtain ⟨first, others⟩ := List.forall_mem_cons.mp kept
          obtain ⟨field, found⟩ := manager.exists_getTensorStrideByName first
          have value : manager.strideByName desc name = field.number := by
            unfold strideByName
            rw [found]
          unfold addOffsets
          rw [found]
          change manager.addOffsets desc (offset + field.number * given) rest later = _
          rw [inductionHypothesis others (Nat.le_of_succ_le_succ enough), List.map_cons,
            dot_cons, value, add_assoc]
          rfl

theorem getPtrOffset_eq
    (manager : TensorManager R)
    (desc : TensorDesc R)
    (offNames : OffNames)
    {offsets : List R}
    (sameLength : offsets.length = (unifyOffsetNames offNames).length) :
    manager.getPtrOffset desc offNames offsets true =
      .ok (dot
        ((keptNames desc (unifyOffsetNames offNames)).map (manager.strideByName desc))
        offsets) := by
  unfold getPtrOffset
  rw [Bool.not_true, filterSym_eq]
  change manager.addOffsets desc 0 (keptNames desc (unifyOffsetNames offNames)) offsets = _
  rw [addOffsets_eq, zero_add]
  · intro name isKept
    simpa using (List.mem_filter.mp isKept).2
  · rw [sameLength]
    exact List.length_filter_le _ _

/-! ## One field -/

omit [CommRing R] in
theorem replacePtr_eq (desc : TensorDesc R) (ptr : Option (Ptr R)) :
    desc.replacePtr ptr = desc.postInit.map fun built => { built with ptr := ptr } := by
  unfold TensorDesc.replacePtr TensorDesc.postInit
  by_cases unset : desc.pvStride = []
  · rw [if_pos unset, if_pos unset]
    rfl
  · rw [if_neg unset, if_neg unset]
    change desc.spreadStrides.map _ = _
    cases desc.spreadStrides <;> rfl

omit [CommRing R] in
/-- The copy differs in the pointer only if the constructor keeps the strides. -/
theorem replacePtr_eq_ok_iff
    {desc : TensorDesc R}
    {ptr : Option (Ptr R)}
    {result : TensorDesc R} :
    desc.replacePtr ptr = .ok result ↔
      ∃ built, desc.postInit = .ok built ∧ { built with ptr := ptr } = result := by
  rw [replacePtr_eq]
  cases desc.postInit with
  | error raised => simp [Except.map]
  | ok built => simp [Except.map]

omit [CommRing R] in
theorem ptr_of_postInit
    {desc built : TensorDesc R}
    (isBuilt : desc.postInit = .ok built) :
    built.ptr = desc.ptr := by
  unfold TensorDesc.postInit at isBuilt
  split at isBuilt
  · cases isBuilt
    rfl
  · obtain ⟨strides, -, rfl⟩ := PyResult.map_eq_ok isBuilt
    rfl

omit [CommRing R] in
theorem replacePtr_eq_withPtr_iff
    {desc : TensorDesc R}
    {given expected : Option (Ptr R)} :
    desc.replacePtr given = .ok { desc with ptr := expected } ↔
      desc.postInit = .ok desc ∧ given = expected := by
  rw [replacePtr_eq_ok_iff]
  constructor
  · rintro ⟨built, isBuilt, same⟩
    have samePtr := ptr_of_postInit isBuilt
    obtain ⟨ptr, dims, pvStride⟩ := desc
    obtain ⟨builtPtr, builtDims, builtPvStride⟩ := built
    simp only [TensorDesc.mk.injEq] at same samePtr
    obtain ⟨rfl, rfl, rfl⟩ := same
    subst samePtr
    exact ⟨isBuilt, rfl⟩
  · rintro ⟨kept, rfl⟩
    exact ⟨desc, kept, rfl⟩

theorem displacement_zero_iff
    (manager : TensorManager R)
    (desc : TensorDesc R)
    (names : List String) :
    (∀ offsets, offsets.length = names.length →
        manager.displacement desc names offsets = 0) ↔
      ∀ position, (names.map (manager.namedStride desc)).getD position 0 = 0 := by
  have compared :=
    @dot_eq_iff R _ (names.map (manager.namedStride desc)) [] names.length
      (by simp) (by simp)
  simpa [displacement] using compared

theorem keepsPositions_iff
    (manager : TensorManager R)
    (desc : TensorDesc R)
    (names : List String) :
    (∀ offsets, offsets.length = names.length →
        dot ((keptNames desc names).map (manager.strideByName desc)) offsets =
          manager.displacement desc names offsets) ↔
      manager.KeepsPositions desc names := by
  apply dot_eq_iff
  · rw [List.length_map]
    exact List.length_filter_le _ _
  · rw [List.length_map]

theorem exists_offsets (names : List String) :
    ∃ offsets : List R, offsets.length = names.length :=
  ⟨List.replicate names.length 0, by simp⟩

/-- Fields with an annotation are left out of the loop. -/
theorem annotatedField_iff
    (manager : TensorManager R)
    (frontend : Frontend)
    (offNames : OffNames)
    {field : TensorField R}
    (annotated : field.annotated = true) :
    (∀ offsets, offsets.length = (unifyOffsetNames offNames).length →
        manager.offsetField frontend offNames offsets field =
          .ok (manager.advancedField (unifyOffsetNames offNames) offsets field)) ↔
      manager.FieldFits frontend (unifyOffsetNames offNames) field := by
  unfold FieldFits offsetField
  rw [if_pos annotated]
  simp only [if_pos annotated]
  rw [← displacement_zero_iff]
  obtain ⟨isAnnotated, ptr, dims, pvStride⟩ := field
  cases ptr with
  | none => simp [advancedField]
  | some pointer =>
      cases pointer with
      | tmaDesc => simp [advancedField]
      | pointer address => simp [advancedField]

theorem plainField_iff
    (manager : TensorManager R)
    (frontend : Frontend)
    (offNames : OffNames)
    {field : TensorField R}
    (plain : field.annotated = false) :
    (∀ offsets, offsets.length = (unifyOffsetNames offNames).length →
        manager.offsetField frontend offNames offsets field =
          .ok (manager.advancedField (unifyOffsetNames offNames) offsets field)) ↔
      manager.FieldFits frontend (unifyOffsetNames offNames) field := by
  obtain ⟨someOffsets, someLength⟩ := @exists_offsets R _ (unifyOffsetNames offNames)
  obtain ⟨isAnnotated, desc⟩ := field
  dsimp only at plain
  subst plain
  have fieldResult (offsets : List R) (expected : TensorDesc R) :
      manager.offsetField frontend offNames offsets ⟨false, desc⟩ = .ok ⟨false, expected⟩ ↔
        manager.offsetDesc frontend desc offNames offsets = .ok expected := by
    unfold offsetField
    cases manager.offsetDesc frontend desc offNames offsets with
    | error raised => simp [Except.map]
    | ok built => simp [Except.map]
  cases frontend with
  | triton =>
      constructor
      · intro right
        have computed := right someOffsets someLength
        simp [offsetField, offsetDesc, Except.map] at computed
      · intro fits
        cases fits.1
  | gluon =>
      change _ ↔ Frontend.gluon = .gluon ∧ desc.ptr ≠ some .tmaDesc ∧
        desc.postInit = .ok desc ∧ _
      simp only [true_and]
      cases isPtr : desc.ptr with
      | none =>
          have unmoved (offsets : List R) :
              manager.advancedField (unifyOffsetNames offNames) offsets ⟨false, desc⟩ =
                ⟨false, desc⟩ := by
            simp [advancedField, isPtr]
          have computed (offsets : List R) :
              manager.offsetDesc .gluon desc offNames offsets = .ok desc ↔
                desc.postInit = .ok desc := by
            have copied :
                desc.replacePtr none = .ok desc ↔
                  desc.postInit = .ok desc ∧ none = desc.ptr :=
              @replacePtr_eq_withPtr_iff R desc none desc.ptr
            rw [isPtr] at copied
            unfold offsetDesc
            simpa [isPtr] using copied
          simp only [unmoved, fieldResult, computed]
          simp
          exact ⟨fun right => right someOffsets someLength, fun kept _ _ => kept⟩
      | some pointer =>
          cases pointer with
          | tmaDesc =>
              constructor
              · intro right
                have computed := (fieldResult someOffsets desc).mp (by
                  rw [right someOffsets someLength]
                  simp [advancedField, isPtr])
                simp [offsetDesc, isPtr, getOffsetedPtr, bind, Except.bind] at computed
              · rintro ⟨noTma, -⟩
                exact absurd rfl noTma
          | pointer address =>
              have computed (offsets : List R)
                  (sameLength :
                    offsets.length = (unifyOffsetNames offNames).length) :
                  manager.offsetField .gluon offNames offsets ⟨false, desc⟩ =
                      .ok (manager.advancedField (unifyOffsetNames offNames) offsets
                        ⟨false, desc⟩) ↔
                    desc.postInit = .ok desc ∧
                      dot
                          ((keptNames desc (unifyOffsetNames offNames)).map
                            (manager.strideByName desc))
                          offsets =
                        manager.displacement desc (unifyOffsetNames offNames) offsets := by
                unfold advancedField
                rw [isPtr]
                dsimp only
                rw [fieldResult]
                unfold offsetDesc getOffsetedPtr
                rw [isPtr]
                dsimp only
                rw [manager.getPtrOffset_eq desc offNames sameLength]
                change desc.replacePtr (some (.pointer (address + _))) = _ ↔ _
                rw [replacePtr_eq_withPtr_iff]
                simp
              rw [← keepsPositions_iff]
              constructor
              · intro right
                refine ⟨by simp, ?_, fun _ offsets sameLength => ?_⟩
                · exact ((computed _ someLength).mp (right _ someLength)).1
                · exact ((computed _ sameLength).mp (right _ sameLength)).2
              · rintro ⟨-, kept, positions⟩ offsets sameLength
                exact (computed _ sameLength).mpr
                  ⟨kept, positions ⟨address, rfl⟩ offsets sameLength⟩

/-! ## The whole manager -/

theorem advances_iff_fits
    (manager : TensorManager R)
    (frontend : Frontend)
    (offNames : OffNames) :
    manager.Advances frontend offNames ↔ manager.Fits frontend offNames := by
  have fieldIff (field : TensorField R) :
      (∀ offsets, offsets.length = (unifyOffsetNames offNames).length →
          manager.offsetField frontend offNames offsets field =
            .ok (manager.advancedField (unifyOffsetNames offNames) offsets field)) ↔
        manager.FieldFits frontend (unifyOffsetNames offNames) field := by
    cases annotated : field.annotated with
    | true => exact manager.annotatedField_iff frontend offNames annotated
    | false => exact manager.plainField_iff frontend offNames annotated
  constructor
  · intro advances field isField
    apply (fieldIff field).mp
    intro offsets sameLength
    have whole := advances offsets sameLength
    obtain ⟨tensors, computed, same⟩ := PyResult.map_eq_ok whole
    have tensorsEq :
        tensors =
          manager.tensors.map
            (manager.advancedField (unifyOffsetNames offNames) offsets) :=
      congrArg TensorManager.tensors same
    rw [tensorsEq, PyResult.mapM_eq_ok, List.forall₂_map_right_iff,
      List.forall₂_same] at computed
    exact computed field isField
  · intro fits offsets sameLength
    unfold offsetAllDescPtr
    rw [PyResult.mapM_of_forall fun field isField =>
      (fieldIff field).mpr (fits field isField) offsets sameLength]
    rfl

/-- Moving pointers does not change what the function relies on. -/
theorem Fits.advanced
    {manager : TensorManager R}
    {frontend : Frontend}
    {offNames : OffNames}
    (fits : manager.Fits frontend offNames)
    (names : List String)
    (offsets : List R) :
    (manager.advanced names offsets).Fits frontend offNames := by
  intro field isField
  obtain ⟨before, isBefore, rfl⟩ := List.mem_map.mp isField
  have fieldFits := fits before isBefore
  obtain ⟨annotated, ptr, dims, pvStride⟩ := before
  cases ptr with
  | none => exact fieldFits
  | some pointer =>
      cases pointer with
      | tmaDesc => exact fieldFits
      | pointer address =>
          cases annotated with
          | true =>
              exact fun _ => fieldFits ⟨address, rfl⟩
          | false =>
              obtain ⟨gluon, -, kept, positions⟩ := fieldFits
              refine ⟨gluon, by simp [advancedField], ?_, fun _ => positions ⟨address, rfl⟩⟩
              exact (replacePtr_eq_withPtr_iff.mpr ⟨kept, rfl⟩ :)

/-- The pointers move by the sum of what the two lists ask for. -/
theorem advanced_advanced
    (manager : TensorManager R)
    {first second : List String}
    {firstOffsets : List R}
    (sameLength : firstOffsets.length = first.length)
    (secondOffsets : List R) :
    (manager.advanced first firstOffsets).advanced second secondOffsets =
      manager.advanced (first ++ second) (firstOffsets ++ secondOffsets) := by
  have fieldEq (field : TensorField R) :
      (manager.advanced first firstOffsets).advancedField second secondOffsets
          (manager.advancedField first firstOffsets field) =
        manager.advancedField (first ++ second) (firstOffsets ++ secondOffsets) field := by
    obtain ⟨annotated, ptr, dims, pvStride⟩ := field
    cases ptr with
    | none => rfl
    | some pointer =>
        cases pointer with
        | tmaDesc => rfl
        | pointer address =>
            simp only [advancedField, displacement, List.map_append]
            rw [dot_append (by simpa using sameLength), ← add_assoc]
            rfl
  unfold advanced at fieldEq ⊢
  simp only [List.map_map, TensorManager.mk.injEq, true_and]
  apply List.map_congr_left
  intro field _
  exact fieldEq field

/-- Two tensors with the dimensions `B` and `S`, of which only one has `H` as well. -/
def attentionTensors : TensorManager Int where
  sizes := fun _ => .constexpr 4
  tensors :=
    [ { annotated := false
        desc :=
          { ptr := some (.pointer 0)
            dims :=
              [⟨"B", "B", .constexpr (-1)⟩, ⟨"H", "H", .constexpr (-1)⟩,
                ⟨"S", "S", .constexpr (-1)⟩]
            pvStride := [] } },
      { annotated := false
        desc :=
          { ptr := some (.pointer 1000)
            dims := [⟨"B", "B", .constexpr (-1)⟩, ⟨"S", "S", .constexpr (-1)⟩]
            pvStride := [] } } ]

end TensorManager

end TensorPC.Ttfs
