import TensorPC.Rpc.SkeletonRoundTrip

namespace TensorPC.Rpc

/-!
# The buffers of a payload

A skeleton with `Placeholder` objects may be filled with other buffers than those that
were taken out.  What is put together is then the payload with its buffers exchanged.
-/

open Kv (Scalar hasArrayFlag)

namespace PyData

mutual

/-- The bytes and arrays of an object, in the order in which they are taken out. -/
def buffers : PyData → List Buffer
  | .buffer value => [value]
  | .scalar _ | .special _ _ | .placeholder _ _ _ _ => []
  | .list items => buffersList items
  | .tuple items => buffersList items
  | .dict entries => buffersDict entries

/-- The list and tuple case of `buffers`. -/
def buffersList : List PyData → List Buffer
  | [] => []
  | item :: rest => buffers item ++ buffersList rest

/-- The mapping case of `buffers`. -/
def buffersDict : List (Scalar × PyData) → List Buffer
  | [] => []
  | (_, value) :: rest => buffers value ++ buffersDict rest

end

mutual

/-- An object with its buffers exchanged. -/
def mapBuffers (exchange : Buffer → Buffer) : PyData → PyData
  | .buffer value => .buffer (exchange value)
  | .scalar value => .scalar value
  | .special data flag => .special data flag
  | .placeholder index nbytes flag data => .placeholder index nbytes flag data
  | .list items => .list (mapBuffersList exchange items)
  | .tuple items => .tuple (mapBuffersList exchange items)
  | .dict entries => .dict (mapBuffersDict exchange entries)

/-- The list and tuple case of `mapBuffers`. -/
def mapBuffersList (exchange : Buffer → Buffer) : List PyData → List PyData
  | [] => []
  | item :: rest => mapBuffers exchange item :: mapBuffersList exchange rest

/-- The mapping case of `mapBuffers`. -/
def mapBuffersDict
    (exchange : Buffer → Buffer) :
    List (Scalar × PyData) → List (Scalar × PyData)
  | [] => []
  | (key, value) :: rest => (key, mapBuffers exchange value) :: mapBuffersDict exchange rest

end

mutual

theorem mapBuffers_eq_self_iff
    (exchange : Buffer → Buffer) :
    ∀ data : PyData,
      data.mapBuffers exchange = data ↔ ∀ value ∈ data.buffers, exchange value = value
  | .scalar _ | .special _ _ | .placeholder _ _ _ _ => by
      simp [mapBuffers, buffers]
  | .buffer _ => by
      simp [mapBuffers, buffers]
  | .list items | .tuple items => by
      simp [mapBuffers, buffers, mapBuffersList_eq_self_iff exchange items]
  | .dict entries => by
      simp [mapBuffers, buffers, mapBuffersDict_eq_self_iff exchange entries]

theorem mapBuffersList_eq_self_iff
    (exchange : Buffer → Buffer) :
    ∀ items : List PyData,
      mapBuffersList exchange items = items ↔
        ∀ value ∈ buffersList items, exchange value = value
  | [] => by
      simp [mapBuffersList, buffersList]
  | item :: rest => by
      simp only [mapBuffersList, buffersList, List.cons.injEq, List.forall_mem_append,
        mapBuffers_eq_self_iff exchange item, mapBuffersList_eq_self_iff exchange rest]

theorem mapBuffersDict_eq_self_iff
    (exchange : Buffer → Buffer) :
    ∀ entries : List (Scalar × PyData),
      mapBuffersDict exchange entries = entries ↔
        ∀ value ∈ buffersDict entries, exchange value = value
  | [] => by
      simp [mapBuffersDict, buffersDict]
  | (key, value) :: rest => by
      simp only [mapBuffersDict, buffersDict, List.cons.injEq, List.forall_mem_append,
        Prod.mk.injEq, true_and, mapBuffers_eq_self_iff exchange value,
        mapBuffersDict_eq_self_iff exchange rest]

end

mutual

theorem isSupported_of_mem_buffers :
    ∀ (data : PyData),
      data.isPayload = true → ∀ value ∈ data.buffers, value.isSupported = true
  | .scalar _, _, _, member | .special _ _, _, _, member
  | .placeholder _ _ _ _, _, _, member => by
      simp [buffers] at member
  | .buffer value, payload, other, member => by
      simp only [buffers, List.mem_singleton] at member
      subst member
      simpa only [isPayload] using payload
  | .list items, payload, value, member | .tuple items, payload, value, member => by
      simp only [isPayload] at payload
      simp only [buffers] at member
      exact isSupported_of_mem_buffersList items payload value member
  | .dict entries, payload, value, member => by
      simp only [isPayload] at payload
      simp only [buffers] at member
      exact isSupported_of_mem_buffersDict entries payload value member

theorem isSupported_of_mem_buffersList :
    ∀ (items : List PyData),
      isPayloadList items = true → ∀ value ∈ buffersList items, value.isSupported = true
  | [], _, _, member => by
      simp [buffersList] at member
  | item :: rest, payload, value, member => by
      simp only [isPayloadList, Bool.and_eq_true] at payload
      simp only [buffersList, List.mem_append] at member
      rcases member with here | later
      · exact isSupported_of_mem_buffers item payload.1 value here
      · exact isSupported_of_mem_buffersList rest payload.2 value later

theorem isSupported_of_mem_buffersDict :
    ∀ (entries : List (Scalar × PyData)),
      isPayloadDict entries = true → ∀ value ∈ buffersDict entries, value.isSupported = true
  | [], _, _, member => by
      simp [buffersDict] at member
  | (_, entry) :: rest, payload, value, member => by
      simp only [isPayloadDict, Bool.and_eq_true] at payload
      simp only [buffersDict, List.mem_append] at member
      rcases member with here | later
      · exact isSupported_of_mem_buffers entry payload.1 value here
      · exact isSupported_of_mem_buffersDict rest payload.2 value later

end

end PyData

/-! ## Extraction and exchange -/

mutual

theorem extractArrays_fst
    (jsonIndex : String) :
    ∀ (data : PyData) (arrays : List Buffer),
      (extractArrays jsonIndex data arrays).1 = arrays ++ data.buffers
  | .scalar _, _ | .special _ _, _ | .placeholder _ _ _ _, _ => by
      simp [extractArrays, PyData.buffers]
  | .buffer _, _ => by
      simp [extractArrays, PyData.buffers]
  | .list items, arrays | .tuple items, arrays => by
      simp [extractArrays, PyData.buffers, extractArraysList_fst jsonIndex items arrays]
  | .dict entries, arrays => by
      simp [extractArrays, PyData.buffers, extractArraysDict_fst jsonIndex entries arrays]

theorem extractArraysList_fst
    (jsonIndex : String) :
    ∀ (items : List PyData) (arrays : List Buffer),
      (extractArraysList jsonIndex items arrays).1 = arrays ++ PyData.buffersList items
  | [], _ => by
      simp [extractArraysList, PyData.buffersList]
  | item :: rest, arrays => by
      simp only [extractArraysList, PyData.buffersList, extractArraysList_fst jsonIndex rest,
        extractArrays_fst jsonIndex item, List.append_assoc]

theorem extractArraysDict_fst
    (jsonIndex : String) :
    ∀ (entries : List (Scalar × PyData)) (arrays : List Buffer),
      (extractArraysDict jsonIndex entries arrays).1 = arrays ++ PyData.buffersDict entries
  | [], _ => by
      simp [extractArraysDict, PyData.buffersDict]
  | (_, value) :: rest, arrays => by
      simp only [extractArraysDict, PyData.buffersDict, extractArraysDict_fst jsonIndex rest,
        extractArrays_fst jsonIndex value, List.append_assoc]

end

section Exchange

variable {jsonIndex : String} {exchange : Buffer → Buffer} {all : List Buffer}

theorem putArrays_placeholder_map
    {arrays : List Buffer}
    {value : Buffer}
    {inside : Bool}
    (extracted : arrays ++ [value] <+: all) :
    putArrays (all.map exchange) jsonIndex inside (arrayMarker "" arrays.length value) =
      .ok (.buffer (exchange value)) := by
  have exchanged : arrays.map exchange ++ [exchange value] <+: all.map exchange := by
    simpa using extracted.map exchange
  have stored := bufferAt_of_prefix exchanged
  rw [List.length_map] at stored
  simp [arrayMarker, putArrays, hasArrayFlag, arrayFlag, stored]

mutual

/-- Putting other buffers into the skeleton of a payload. -/
theorem putArrays_map_extractArrays :
    ∀ (data : PyData) (arrays : List Buffer) (inside : Bool),
      data.isPayload = true →
      data.avoidsKey (.str jsonIndex) inside = true →
      (extractArrays "" data arrays).1 <+: all →
      putArrays (all.map exchange) jsonIndex inside (extractArrays "" data arrays).2 =
        .ok (data.mapBuffers exchange)
  | .scalar value, arrays, inside, _, _, _ => by
      simp [extractArrays, putArrays, PyData.mapBuffers]
  | .buffer value, arrays, inside, _, _, extracted => by
      simp only [extractArrays, PyData.mapBuffers] at extracted ⊢
      exact putArrays_placeholder_map extracted
  | .special data flag, arrays, inside, payload, _, _ => by
      simp [PyData.isPayload] at payload
  | .placeholder index nbytes flag data, arrays, inside, payload, _, _ => by
      simp [PyData.isPayload] at payload
  | .list items, arrays, inside, payload, avoids, extracted
  | .tuple items, arrays, inside, payload, avoids, extracted => by
      simp only [PyData.isPayload] at payload
      simp only [PyData.avoidsKey] at avoids
      simp only [extractArrays] at extracted ⊢
      have put := putArraysList_map_extractArraysList items arrays payload avoids extracted
      simp [putArrays, put, PyData.mapBuffers, bind, Except.bind]
  | .dict entries, arrays, inside, payload, avoids, extracted => by
      simp only [PyData.isPayload] at payload
      simp only [PyData.avoidsKey, Bool.and_eq_true, Bool.not_eq_true',
        Bool.and_eq_false_iff] at avoids
      simp only [extractArrays] at extracted ⊢
      have put :=
        putArraysDict_map_extractArraysDict entries arrays payload avoids.2 extracted
      have unmarked :
          (if inside then
            putMarkerOf (all.map exchange) jsonIndex (extractArraysDict "" entries arrays).2
          else none) = none := by
        cases inside with
        | false =>
            rfl
        | true =>
            refine putMarkerOf_eq_none ?_
            rw [map_fst_extractArraysDict]
            simpa using avoids.1
      simp [putArrays, unmarked, put, PyData.mapBuffers, bind, Except.bind]

theorem putArraysList_map_extractArraysList :
    ∀ (items : List PyData) (arrays : List Buffer),
      PyData.isPayloadList items = true →
      PyData.avoidsKeyList (.str jsonIndex) items = true →
      (extractArraysList "" items arrays).1 <+: all →
      putArraysList (all.map exchange) jsonIndex (extractArraysList "" items arrays).2 =
        .ok (PyData.mapBuffersList exchange items)
  | [], arrays, _, _, _ => by
      simp [extractArraysList, putArraysList, PyData.mapBuffersList]
  | item :: rest, arrays, payload, avoids, extracted => by
      simp only [PyData.isPayloadList, Bool.and_eq_true] at payload
      simp only [PyData.avoidsKeyList, Bool.and_eq_true] at avoids
      simp only [extractArraysList] at extracted ⊢
      have first :=
        putArrays_map_extractArrays item arrays true payload.1 avoids.1
          ((prefix_extractArraysList "" rest _).trans extracted)
      have others :=
        putArraysList_map_extractArraysList rest _ payload.2 avoids.2 extracted
      simp [putArraysList, first, others, PyData.mapBuffersList, bind, Except.bind]

theorem putArraysDict_map_extractArraysDict :
    ∀ (entries : List (Scalar × PyData)) (arrays : List Buffer),
      PyData.isPayloadDict entries = true →
      PyData.avoidsKeyDict (.str jsonIndex) entries = true →
      (extractArraysDict "" entries arrays).1 <+: all →
      putArraysDict (all.map exchange) jsonIndex (extractArraysDict "" entries arrays).2 =
        .ok (PyData.mapBuffersDict exchange entries)
  | [], arrays, _, _, _ => by
      simp [extractArraysDict, putArraysDict, PyData.mapBuffersDict]
  | (key, value) :: rest, arrays, payload, avoids, extracted => by
      simp only [PyData.isPayloadDict, Bool.and_eq_true] at payload
      simp only [PyData.avoidsKeyDict, Bool.and_eq_true] at avoids
      simp only [extractArraysDict] at extracted ⊢
      have first :=
        putArrays_map_extractArrays value arrays true payload.1 avoids.1
          ((prefix_extractArraysDict "" rest _).trans extracted)
      have others :=
        putArraysDict_map_extractArraysDict rest _ payload.2 avoids.2 extracted
      simp [putArraysDict, first, others, PyData.mapBuffersDict, bind, Except.bind]

end

theorem putArraysToData_map
    (exchange : Buffer → Buffer)
    {data : PyData}
    (payload : data.isPayload = true)
    (avoids : data.avoidsKey (.str jsonIndex) false = true) :
    putArraysToData (data.buffers.map exchange) (extractArraysFromData data "").2 jsonIndex =
      .ok (data.mapBuffers exchange) := by
  refine putArrays_map_extractArrays data [] false payload avoids ?_
  simp only [extractArrays_fst, List.nil_append, List.prefix_rfl]

end Exchange

end TensorPC.Rpc
