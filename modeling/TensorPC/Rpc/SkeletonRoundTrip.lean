import TensorPC.Rpc.Skeleton

namespace TensorPC.Rpc

/-!
# Round trips of skeletons

Buffers that were taken out of a payload are found again by their markers, as long as
no dictionary of the payload itself has the reserved key.  Where one has it, what is
put together has fewer nodes than the payload.
-/

open Kv (Scalar hasArrayFlag hasSpecialFlag)

/-! ## Putting back what was taken out -/

mutual

theorem prefix_extractArrays
    (jsonIndex : String) :
    ∀ (data : PyData) (arrays : List Buffer),
      arrays <+: (extractArrays jsonIndex data arrays).1
  | .scalar _, _ | .special _ _, _ | .placeholder _ _ _ _, _ => by
      simp [extractArrays]
  | .buffer _, _ => by
      simp [extractArrays]
  | .list items, arrays => by
      simpa [extractArrays] using prefix_extractArraysList jsonIndex items arrays
  | .tuple items, arrays => by
      simpa [extractArrays] using prefix_extractArraysList jsonIndex items arrays
  | .dict entries, arrays => by
      simpa [extractArrays] using prefix_extractArraysDict jsonIndex entries arrays

theorem prefix_extractArraysList
    (jsonIndex : String) :
    ∀ (items : List PyData) (arrays : List Buffer),
      arrays <+: (extractArraysList jsonIndex items arrays).1
  | [], _ => by
      simp [extractArraysList]
  | item :: rest, arrays => by
      simp only [extractArraysList]
      exact (prefix_extractArrays jsonIndex item arrays).trans
        (prefix_extractArraysList jsonIndex rest _)

theorem prefix_extractArraysDict
    (jsonIndex : String) :
    ∀ (entries : List (Scalar × PyData)) (arrays : List Buffer),
      arrays <+: (extractArraysDict jsonIndex entries arrays).1
  | [], _ => by
      simp [extractArraysDict]
  | (_, value) :: rest, arrays => by
      simp only [extractArraysDict]
      exact (prefix_extractArrays jsonIndex value arrays).trans
        (prefix_extractArraysDict jsonIndex rest _)

end

section RoundTrip

variable
  {jsonIndex : String}
  {arrays all : List Buffer}

theorem map_fst_extractArraysDict
    (entries : List (Scalar × PyData)) :
    (extractArraysDict jsonIndex entries arrays).2.map Prod.fst =
      entries.map Prod.fst := by
  induction entries generalizing arrays with
  | nil =>
      simp [extractArraysDict]
  | cons head rest inductionHypothesis =>
      rcases head with ⟨key, value⟩
      simp [extractArraysDict, inductionHypothesis]

theorem putMarkerOf_eq_none
    {entries : List (Scalar × PyData)}
    (absent : Scalar.str jsonIndex ∉ entries.map Prod.fst) :
    putMarkerOf all jsonIndex entries = none := by
  induction entries with
  | nil =>
      simp [putMarkerOf]
  | cons head rest inductionHypothesis =>
      rcases head with ⟨key, value⟩
      simp only [List.map_cons, List.mem_cons, not_or] at absent
      simp [putMarkerOf, Ne.symm absent.1, inductionHypothesis absent.2]

theorem bufferAt_of_prefix
    {value : Buffer}
    (extracted : arrays ++ [value] <+: all) :
    bufferAt all arrays.length = .ok (.buffer value) := by
  obtain ⟨rest, rfl⟩ := extracted
  have position : ¬ ((arrays.length : Int) < 0) := by
    omega
  simp [bufferAt, position]

theorem putArrays_arrayMarker
    {value : Buffer}
    {inside : Bool}
    (found : inside = true ∨ jsonIndex = "")
    (extracted : arrays ++ [value] <+: all) :
    putArrays all jsonIndex inside (arrayMarker jsonIndex arrays.length value) =
      .ok (.buffer value) := by
  have stored := bufferAt_of_prefix extracted
  by_cases objects : jsonIndex = ""
  · simp [arrayMarker, objects, putArrays, hasArrayFlag, arrayFlag, stored]
  · obtain rfl : inside = true := found.resolve_right objects
    simp [arrayMarker, objects, putArrays, putMarkerOf, putMarker, putMarkerItems, markerInt,
      Scalar.asInt, hasArrayFlag, stored, bind, Except.bind]

mutual

/-- Putting the buffers of a payload back into its skeleton. -/
theorem putArrays_extractArrays :
    ∀ (data : PyData) (arrays : List Buffer) (inside : Bool),
      data.isPayload = true →
      data.avoidsKey (.str jsonIndex) inside = true →
      (inside = true ∨ jsonIndex = "" ∨ data.isBuffer = false) →
      (extractArrays jsonIndex data arrays).1 <+: all →
      putArrays all jsonIndex inside (extractArrays jsonIndex data arrays).2 = .ok data
  | .scalar value, arrays, inside, _, _, _, _ => by
      simp [extractArrays, putArrays]
  | .buffer value, arrays, inside, _, _, found, extracted => by
      simp only [extractArrays] at extracted ⊢
      refine putArrays_arrayMarker (found.imp_right fun other => ?_) extracted
      exact other.resolve_right (by simp [PyData.isBuffer])
  | .special data flag, arrays, inside, payload, _, _, _ => by
      simp [PyData.isPayload] at payload
  | .placeholder index nbytes flag data, arrays, inside, payload, _, _, _ => by
      simp [PyData.isPayload] at payload
  | .list items, arrays, inside, payload, avoids, _, extracted => by
      simp only [PyData.isPayload] at payload
      simp only [PyData.avoidsKey] at avoids
      simp only [extractArrays] at extracted ⊢
      have put := putArraysList_extractArraysList items arrays payload avoids extracted
      simp [putArrays, put, bind, Except.bind]
  | .tuple items, arrays, inside, payload, avoids, _, extracted => by
      simp only [PyData.isPayload] at payload
      simp only [PyData.avoidsKey] at avoids
      simp only [extractArrays] at extracted ⊢
      have put := putArraysList_extractArraysList items arrays payload avoids extracted
      simp [putArrays, put, bind, Except.bind]
  | .dict entries, arrays, inside, payload, avoids, _, extracted => by
      simp only [PyData.isPayload] at payload
      simp only [PyData.avoidsKey, Bool.and_eq_true, Bool.not_eq_true',
        Bool.and_eq_false_iff] at avoids
      simp only [extractArrays] at extracted ⊢
      have put := putArraysDict_extractArraysDict entries arrays payload avoids.2 extracted
      have unmarked :
          (if inside then
            putMarkerOf all jsonIndex (extractArraysDict jsonIndex entries arrays).2
          else none) = none := by
        cases inside with
        | false =>
            rfl
        | true =>
            refine putMarkerOf_eq_none ?_
            rw [map_fst_extractArraysDict]
            simpa using avoids.1
      simp [putArrays, unmarked, put, bind, Except.bind]

theorem putArraysList_extractArraysList :
    ∀ (items : List PyData) (arrays : List Buffer),
      PyData.isPayloadList items = true →
      PyData.avoidsKeyList (.str jsonIndex) items = true →
      (extractArraysList jsonIndex items arrays).1 <+: all →
      putArraysList all jsonIndex (extractArraysList jsonIndex items arrays).2 = .ok items
  | [], arrays, _, _, _ => by
      simp [extractArraysList, putArraysList]
  | item :: rest, arrays, payload, avoids, extracted => by
      simp only [PyData.isPayloadList, Bool.and_eq_true] at payload
      simp only [PyData.avoidsKeyList, Bool.and_eq_true] at avoids
      simp only [extractArraysList] at extracted ⊢
      have first :=
        putArrays_extractArrays item arrays true payload.1 avoids.1 (.inl rfl)
          ((prefix_extractArraysList jsonIndex rest _).trans extracted)
      have others :=
        putArraysList_extractArraysList rest _ payload.2 avoids.2 extracted
      simp [putArraysList, first, others, bind, Except.bind]

theorem putArraysDict_extractArraysDict :
    ∀ (entries : List (Scalar × PyData)) (arrays : List Buffer),
      PyData.isPayloadDict entries = true →
      PyData.avoidsKeyDict (.str jsonIndex) entries = true →
      (extractArraysDict jsonIndex entries arrays).1 <+: all →
      putArraysDict all jsonIndex (extractArraysDict jsonIndex entries arrays).2 = .ok entries
  | [], arrays, _, _, _ => by
      simp [extractArraysDict, putArraysDict]
  | (key, value) :: rest, arrays, payload, avoids, extracted => by
      simp only [PyData.isPayloadDict, Bool.and_eq_true] at payload
      simp only [PyData.avoidsKeyDict, Bool.and_eq_true] at avoids
      simp only [extractArraysDict] at extracted ⊢
      have first :=
        putArrays_extractArrays value arrays true payload.1 avoids.1 (.inl rfl)
          ((prefix_extractArraysDict jsonIndex rest _).trans extracted)
      have others :=
        putArraysDict_extractArraysDict rest _ payload.2 avoids.2 extracted
      simp [putArraysDict, first, others, bind, Except.bind]

end

theorem putArraysToData_extractArraysFromData
    {data : PyData}
    (payload : data.isPayload = true)
    (avoids : data.avoidsKey (.str jsonIndex) false = true)
    (container : jsonIndex = "" ∨ data.isBuffer = false) :
    putArraysToData (extractArraysFromData data jsonIndex).1
        (extractArraysFromData data jsonIndex).2 jsonIndex =
      .ok data :=
  putArrays_extractArrays data [] false payload avoids (.inr container) List.prefix_rfl

end RoundTrip

/-! ## User data taken for a marker -/

section Weight

open PyData (weight weightList weightDict weight_pos avoidsKey avoidsKeyList avoidsKeyDict)

variable
  {arrays : List Buffer}
  {jsonIndex : String}

theorem weight_bufferAt
    {index : Int}
    {found : PyData}
    (read : bufferAt arrays index = .ok found) :
    found.weight = 1 := by
  unfold bufferAt at read
  generalize (if index < 0 then index + arrays.length else index) = position at read
  simp only at read
  split at read
  · cases read
  · split at read
    · cases read
      simp [weight]
    · cases read

theorem weight_valueAtInt
    {number : Nat}
    {entries : List (Scalar × PyData)}
    {value : PyData}
    (read : valueAtInt number entries = .ok value) :
    value.weight ≤ weightDict entries := by
  induction entries with
  | nil =>
      cases read
  | cons head rest inductionHypothesis =>
      rcases head with ⟨key, first⟩
      simp only [valueAtInt] at read
      simp only [weightDict]
      split at read
      · cases read
        omega
      · have remaining := inductionHypothesis read
        omega

theorem toNat_not_and (first second : Bool) :
    (!(first && second)).toNat ≤ (!first).toNat + (!second).toNat := by
  cases first <;> cases second <;> decide

theorem contains_eq_false_of_putMarkerOf
    {entries : List (Scalar × PyData)}
    (unmarked : putMarkerOf arrays jsonIndex entries = none) :
    (entries.map Prod.fst).contains (Scalar.str jsonIndex) = false := by
  induction entries with
  | nil =>
      rfl
  | cons head rest inductionHypothesis =>
      rcases head with ⟨key, value⟩
      simp only [putMarkerOf] at unmarked
      split at unmarked
      · cases unmarked
      · rename_i other
        rw [List.map_cons, List.contains_cons, inductionHypothesis unmarked]
        simp [Ne.symm other]

mutual

/-- Putting buffers back never enlarges an object, and makes it smaller where a
dictionary of its own is taken for a marker. -/
theorem weight_putArrays :
    ∀ (data : PyData) (inside : Bool) (result : PyData),
      putArrays arrays jsonIndex inside data = .ok result →
      result.weight + (!data.avoidsKey (.str jsonIndex) inside).toNat ≤ data.weight
  | .scalar value, inside, result, put => by
      simp only [putArrays, Except.ok.injEq] at put
      subst put
      simp [avoidsKey]
  | .buffer value, inside, result, put => by
      simp only [putArrays, Except.ok.injEq] at put
      subst put
      simp [avoidsKey]
  | .special data flag, inside, result, put => by
      simp only [putArrays, Except.ok.injEq] at put
      subst put
      simp [avoidsKey]
  | .placeholder index nbytes flag data, inside, result, put => by
      simp only [putArrays] at put
      simp only [avoidsKey, Bool.not_true, Bool.toNat_false, weight, Nat.add_zero]
      split at put
      · rw [weight_bufferAt put]
        exact weight_pos data
      · split at put
        · cases put
          simp [weight]
        · split at put
          · have smaller := weight_putArrays data false result put
            omega
          · cases put
            exact Nat.le_refl _
  | .list items, inside, result, put => by
      simp only [putArrays] at put
      obtain ⟨results, putItems, made⟩ := PyResult.bind_eq_ok.mp put
      cases made
      have smaller := weight_putArraysList items results putItems
      simp only [avoidsKey, weight]
      omega
  | .tuple items, inside, result, put => by
      simp only [putArrays] at put
      obtain ⟨results, putItems, made⟩ := PyResult.bind_eq_ok.mp put
      cases made
      have smaller := weight_putArraysList items results putItems
      simp only [avoidsKey, weight]
      omega
  | .dict entries, inside, result, put => by
      simp only [putArrays] at put
      simp only [weight]
      split at put
      · rename_i marked found
        subst put
        cases inside with
        | false =>
            simp at found
        | true =>
            have smaller := weight_putMarkerOf entries result found
            have single := Bool.toNat_le (!avoidsKey (.str jsonIndex) true (.dict entries))
            omega
      · rename_i unmarked
        obtain ⟨results, putEntries, made⟩ := PyResult.bind_eq_ok.mp put
        cases made
        have smaller := weight_putArraysDict entries results putEntries
        have absent :
            (inside && (entries.map Prod.fst).contains (Scalar.str jsonIndex)) = false := by
          cases inside with
          | false =>
              rfl
          | true =>
              rw [Bool.true_and]
              exact contains_eq_false_of_putMarkerOf unmarked
        simp only [avoidsKey, absent, Bool.not_false, Bool.true_and, weight]
        omega

theorem weight_putArraysList :
    ∀ (items results : List PyData),
      putArraysList arrays jsonIndex items = .ok results →
      weightList results + (!avoidsKeyList (.str jsonIndex) items).toNat ≤
        weightList items
  | [], results, put => by
      simp only [putArraysList, Except.ok.injEq] at put
      subst put
      simp [avoidsKeyList]
  | item :: rest, results, put => by
      simp only [putArraysList] at put
      obtain ⟨first, putFirst, remaining⟩ := PyResult.bind_eq_ok.mp put
      obtain ⟨others, putOthers, made⟩ := PyResult.bind_eq_ok.mp remaining
      cases made
      have smaller := weight_putArrays item true first putFirst
      have smallerRest := weight_putArraysList rest others putOthers
      have both := toNat_not_and (avoidsKey (.str jsonIndex) true item)
        (avoidsKeyList (.str jsonIndex) rest)
      simp only [avoidsKeyList, weightList]
      omega

theorem weight_putArraysDict :
    ∀ (entries results : List (Scalar × PyData)),
      putArraysDict arrays jsonIndex entries = .ok results →
      weightDict results + (!avoidsKeyDict (.str jsonIndex) entries).toNat ≤
        weightDict entries
  | [], results, put => by
      simp only [putArraysDict, Except.ok.injEq] at put
      subst put
      simp [avoidsKeyDict]
  | (key, value) :: rest, results, put => by
      simp only [putArraysDict] at put
      obtain ⟨first, putFirst, remaining⟩ := PyResult.bind_eq_ok.mp put
      obtain ⟨others, putOthers, made⟩ := PyResult.bind_eq_ok.mp remaining
      cases made
      have smaller := weight_putArrays value true first putFirst
      have smallerRest := weight_putArraysDict rest others putOthers
      have both := toNat_not_and (avoidsKey (.str jsonIndex) true value)
        (avoidsKeyDict (.str jsonIndex) rest)
      simp only [avoidsKeyDict, weightDict]
      omega

theorem weight_putMarkerOf :
    ∀ (entries : List (Scalar × PyData)) (result : PyData),
      putMarkerOf arrays jsonIndex entries = some (.ok result) →
      result.weight ≤ weightDict entries
  | [], result, put => by
      simp [putMarkerOf] at put
  | (key, value) :: rest, result, put => by
      simp only [putMarkerOf] at put
      simp only [weightDict]
      split at put
      · have smaller := weight_putMarker value result (Option.some.inj put)
        omega
      · have smaller := weight_putMarkerOf rest result put
        omega

/-- A marker stands for less than its value. -/
theorem weight_putMarker :
    ∀ (value result : PyData),
      putMarker arrays jsonIndex value = .ok result →
      result.weight ≤ value.weight
  | .list items, result, put => by
      simp only [putMarker] at put
      have smaller := weight_putMarkerItems items result put
      simp only [weight]
      omega
  | .tuple items, result, put => by
      simp only [putMarker] at put
      have smaller := weight_putMarkerItems items result put
      simp only [weight]
      omega
  | .dict entries, result, put => by
      simp only [putMarker] at put
      obtain ⟨flagData, -, put⟩ := PyResult.bind_eq_ok.mp put
      obtain ⟨flag, -, put⟩ := PyResult.bind_eq_ok.mp put
      simp only [weight]
      split at put
      · obtain ⟨indexData, -, put⟩ := PyResult.bind_eq_ok.mp put
        obtain ⟨index, -, put⟩ := PyResult.bind_eq_ok.mp put
        rw [weight_bufferAt put]
        omega
      · split at put
        · obtain ⟨data, read, made⟩ := PyResult.bind_eq_ok.mp put
          cases made
          have smaller := weight_valueAtInt read
          simp only [weight]
          omega
        · have smaller := weight_putValueAtZero entries result put
          omega
  | .scalar scalar, result, put => by
      cases scalar with
      | str text =>
          simp only [putMarker] at put
          split at put <;> cases put
      | none | bool _ | int _ | opaqueObject _ =>
          simp [putMarker] at put
  | .buffer _, result, put | .special _ _, result, put | .placeholder _ _ _ _, result, put => by
      simp [putMarker] at put

/-- A marker stands for less than the pair it is written with. -/
theorem weight_putMarkerItems :
    ∀ (items : List PyData) (result : PyData),
      putMarkerItems arrays jsonIndex items = .ok result →
      result.weight ≤ weightList items
  | [], result, put => by
      simp [putMarkerItems] at put
  | value :: rest, result, put => by
      have valuePos := weight_pos value
      simp only [putMarkerItems] at put
      simp only [weightList]
      split at put
      · cases put
      · obtain ⟨flag, -, put⟩ := PyResult.bind_eq_ok.mp put
        split at put
        · obtain ⟨index, -, put⟩ := PyResult.bind_eq_ok.mp put
          rw [weight_bufferAt put]
          omega
        · split at put
          · cases put
            simp only [weight]
            omega
          · have smaller := weight_putArrays value false result put
            omega

theorem weight_putValueAtZero :
    ∀ (entries : List (Scalar × PyData)) (result : PyData),
      putValueAtZero arrays jsonIndex entries = .ok result →
      result.weight ≤ weightDict entries
  | [], result, put => by
      simp [putValueAtZero] at put
  | (key, value) :: rest, result, put => by
      simp only [putValueAtZero] at put
      simp only [weightDict]
      split at put
      · have smaller := weight_putArrays value false result put
        omega
      · have smaller := weight_putValueAtZero rest result put
        omega

end

/-! Skeletons with `Placeholder` objects have the shape of their payloads. -/

mutual

theorem weight_extractArrays :
    ∀ (data : PyData) (arrays : List Buffer),
      (extractArrays "" data arrays).2.weight = data.weight
  | .scalar _, _ | .placeholder _ _ _ _, _ => by
      simp [extractArrays]
  | .buffer _, _ | .special _ _, _ => by
      simp [extractArrays, arrayMarker, specialMarker, weight]
  | .list items, arrays | .tuple items, arrays => by
      simp [extractArrays, weight, weight_extractArraysList items arrays]
  | .dict entries, arrays => by
      simp [extractArrays, weight, weight_extractArraysDict entries arrays]

theorem weight_extractArraysList :
    ∀ (items : List PyData) (arrays : List Buffer),
      weightList (extractArraysList "" items arrays).2 = weightList items
  | [], _ => by
      simp [extractArraysList]
  | item :: rest, arrays => by
      simp [extractArraysList, weightList, weight_extractArrays item,
        weight_extractArraysList rest]

theorem weight_extractArraysDict :
    ∀ (entries : List (Scalar × PyData)) (arrays : List Buffer),
      weightDict (extractArraysDict "" entries arrays).2 = weightDict entries
  | [], _ => by
      simp [extractArraysDict]
  | (_, value) :: rest, arrays => by
      simp [extractArraysDict, weightDict, weight_extractArrays value,
        weight_extractArraysDict rest]

end

mutual

theorem avoidsKey_extractArrays
    (key : Scalar) :
    ∀ (data : PyData) (arrays : List Buffer) (inside : Bool),
      (extractArrays "" data arrays).2.avoidsKey key inside = data.avoidsKey key inside
  | .scalar _, _, _ | .placeholder _ _ _ _, _, _ => by
      simp [extractArrays]
  | .buffer _, _, _ | .special _ _, _, _ => by
      simp [extractArrays, arrayMarker, specialMarker, avoidsKey]
  | .list items, arrays, _ | .tuple items, arrays, _ => by
      simp [extractArrays, avoidsKey, avoidsKeyList_extractArraysList key items arrays]
  | .dict entries, arrays, _ => by
      simp only [extractArrays, avoidsKey, map_fst_extractArraysDict,
        avoidsKeyDict_extractArraysDict key entries arrays]

theorem avoidsKeyList_extractArraysList
    (key : Scalar) :
    ∀ (items : List PyData) (arrays : List Buffer),
      avoidsKeyList key (extractArraysList "" items arrays).2 = avoidsKeyList key items
  | [], _ => by
      simp [extractArraysList]
  | item :: rest, arrays => by
      simp [extractArraysList, avoidsKeyList, avoidsKey_extractArrays key item,
        avoidsKeyList_extractArraysList key rest]

theorem avoidsKeyDict_extractArraysDict
    (key : Scalar) :
    ∀ (entries : List (Scalar × PyData)) (arrays : List Buffer),
      avoidsKeyDict key (extractArraysDict "" entries arrays).2 = avoidsKeyDict key entries
  | [], _ => by
      simp [extractArraysDict]
  | (_, value) :: rest, arrays => by
      simp [extractArraysDict, avoidsKeyDict, avoidsKey_extractArrays key value,
        avoidsKeyDict_extractArraysDict key rest]

end

theorem not_putArraysToData_of_emptyKey
    {data : PyData}
    (reserved : data.avoidsKey (.str "") false = false) :
    putArraysToData arrays (extractArraysFromData data "").2 "" ≠ .ok data := by
  intro put
  have smaller := weight_putArrays _ false _ put
  rw [extractArraysFromData, avoidsKey_extractArrays, weight_extractArrays, reserved] at smaller
  simp only [Bool.not_false, Bool.toNat_true] at smaller
  omega

end Weight

end TensorPC.Rpc
