import TensorPC.Kv.ArrayTree
import TensorPC.Rpc.ArrayBuf

namespace TensorPC.Rpc

/-!
# Skeletons

An RPC payload is split into the buffers at its leaves and a skeleton, in which every
buffer is replaced by a marker: a `Placeholder` object for pickle, a dictionary with a
reserved key for JSON and MessagePack.  The receiver puts the buffers back where it
finds markers.
-/

open Kv (Scalar hasArrayFlag hasSpecialFlag)

/-- The objects that payloads and skeletons are made of; keys of a dictionary differ. -/
inductive PyData where
  | scalar (value : Scalar)
  | buffer (value : Buffer)
  /-- `JsonSpecialData(data, flag)`. -/
  | special (data : PyData) (flag : Int)
  /-- `Placeholder(index, nbytes, flag, data)`. -/
  | placeholder (index nbytes : Nat) (flag : Int) (data : PyData)
  | list (items : List PyData)
  | tuple (items : List PyData)
  | dict (entries : List (Scalar × PyData))

namespace PyData

/-- `None`. -/
abbrev none : PyData :=
  .scalar .none

/-- An integer. -/
abbrev int (value : Int) : PyData :=
  .scalar (.int value)

end PyData

/-- `JsonNodeSpecialFlags.ARRAY`. -/
def arrayFlag : Int :=
  1

/-! ## Taking a payload apart -/

/-- `byte_size`. -/
def Buffer.byteSize : Buffer → Nat
  | .ndarray array => array.data.length
  | .bytes data => data.length
  | .arrayBuffer buffer => buffer.data.length

/-- What stands for a buffer; an empty `json_index` asks for `Placeholder` objects. -/
def arrayMarker
    (jsonIndex : String)
    (index : Nat)
    (value : Buffer) :
    PyData :=
  if jsonIndex ≠ "" then
    .dict [(.str jsonIndex, .list [.int index, .int 1])]
  else
    .placeholder index value.byteSize arrayFlag .none

/-- What stands for a `JsonSpecialData`. -/
def specialMarker
    (jsonIndex : String)
    (data : PyData)
    (flag : Int) :
    PyData :=
  if jsonIndex ≠ "" then
    .dict [(.str jsonIndex, .list [data, .int flag])]
  else
    .placeholder 0 0 flag data

mutual

/-- `_extract_arrays_from_data_no_unique_id`: the buffers found grow at the end. -/
def extractArrays
    (jsonIndex : String) :
    PyData → List Buffer → List Buffer × PyData
  | .list items, arrays =>
      let (arrays, skeleton) := extractArraysList jsonIndex items arrays
      (arrays, .list skeleton)
  | .tuple items, arrays =>
      let (arrays, skeleton) := extractArraysList jsonIndex items arrays
      (arrays, .tuple skeleton)
  | .dict entries, arrays =>
      let (arrays, skeleton) := extractArraysDict jsonIndex entries arrays
      (arrays, .dict skeleton)
  | .special data flag, arrays => (arrays, specialMarker jsonIndex data flag)
  | .buffer value, arrays =>
      (arrays ++ [value], arrayMarker jsonIndex arrays.length value)
  | .scalar value, arrays => (arrays, .scalar value)
  | .placeholder index nbytes flag data, arrays =>
      (arrays, .placeholder index nbytes flag data)

/-- The list and tuple case of `extractArrays`. -/
def extractArraysList
    (jsonIndex : String) :
    List PyData → List Buffer → List Buffer × List PyData
  | [], arrays => (arrays, [])
  | item :: rest, arrays =>
      let (arrays, skeleton) := extractArrays jsonIndex item arrays
      let (arrays, skeletons) := extractArraysList jsonIndex rest arrays
      (arrays, skeleton :: skeletons)

/-- The mapping case of `extractArrays`. -/
def extractArraysDict
    (jsonIndex : String) :
    List (Scalar × PyData) → List Buffer → List Buffer × List (Scalar × PyData)
  | [], arrays => (arrays, [])
  | (key, value) :: rest, arrays =>
      let (arrays, skeleton) := extractArrays jsonIndex value arrays
      let (arrays, skeletons) := extractArraysDict jsonIndex rest arrays
      (arrays, (key, skeleton) :: skeletons)

end

attribute [grind =] extractArrays extractArraysList extractArraysDict

/-- `extract_arrays_from_data`. -/
def extractArraysFromData
    (data : PyData)
    (jsonIndex : String) :
    List Buffer × PyData :=
  extractArrays jsonIndex data []

/-! ## Putting a payload together -/

/-- `arrays[index]`, also for a negative index. -/
def bufferAt
    (arrays : List Buffer)
    (index : Int) :
    PyResult PyData :=
  let position := if index < 0 then index + arrays.length else index
  if position < 0 then
    .error .indexError
  else
    match arrays[position.toNat]? with
    | some value => .ok (.buffer value)
    | none => .error .indexError

/-- The index or the flag of a marker as an integer. -/
def markerInt : PyData → PyResult Int
  | .scalar value => value.asInt
  | _ => .error (.typeError "an integer is required")

/-- A key that is equal to an integer; other objects are known by their text. -/
def keyIsInt (number : Nat) : Scalar → Bool
  | .int value => value = number
  | .bool value => (if value then 1 else 0) = number
  | .opaqueObject text => text = toString number ++ ".0"
  | _ => false

/-- `entries[number]`. -/
def valueAtInt
    (number : Nat) :
    List (Scalar × PyData) → PyResult PyData
  | [] => .error (.keyError (toString number))
  | (key, value) :: rest =>
      if keyIsInt number key then .ok value else valueAtInt number rest

mutual

/--
`_put_arrays_to_data`.  The loops over lists and dictionaries look for a marker before
they go on with an element, so that `inside` a container a dictionary is looked at as
a marker first.
-/
def putArrays
    (arrays : List Buffer)
    (jsonIndex : String)
    (inside : Bool) :
    PyData → PyResult PyData
  | .list items => do
      let items ← putArraysList arrays jsonIndex items
      .ok (.list items)
  | .tuple items => do
      let items ← putArraysList arrays jsonIndex items
      .ok (.tuple items)
  | .dict entries =>
      match if inside then putMarkerOf arrays jsonIndex entries else none with
      | some marked => marked
      | none => do
          let entries ← putArraysDict arrays jsonIndex entries
          .ok (.dict entries)
  | .placeholder index _ flag data =>
      if hasArrayFlag flag then
        bufferAt arrays index
      else if hasSpecialFlag flag then
        .ok (.special data flag)
      else if inside then
        putArrays arrays jsonIndex false data
      else
        .ok data
  | .scalar value => .ok (.scalar value)
  | .buffer value => .ok (.buffer value)
  | .special data flag => .ok (.special data flag)

/-- The list and tuple case of `putArrays`. -/
def putArraysList
    (arrays : List Buffer)
    (jsonIndex : String) :
    List PyData → PyResult (List PyData)
  | [] => .ok []
  | item :: rest => do
      let item ← putArrays arrays jsonIndex true item
      let rest ← putArraysList arrays jsonIndex rest
      .ok (item :: rest)

/-- The mapping case of `putArrays`. -/
def putArraysDict
    (arrays : List Buffer)
    (jsonIndex : String) :
    List (Scalar × PyData) → PyResult (List (Scalar × PyData))
  | [] => .ok []
  | (key, value) :: rest => do
      let value ← putArrays arrays jsonIndex true value
      let rest ← putArraysDict arrays jsonIndex rest
      .ok ((key, value) :: rest)

/-- `is_json_index`: the value of the reserved key is taken for a marker. -/
def putMarkerOf
    (arrays : List Buffer)
    (jsonIndex : String) :
    List (Scalar × PyData) → Option (PyResult PyData)
  | [] => none
  | (key, value) :: rest =>
      if key = .str jsonIndex then
        some (putMarker arrays jsonIndex value)
      else
        putMarkerOf arrays jsonIndex rest

/-- The element that the value of a marker stands for; a skeleton holds no buffers. -/
def putMarker
    (arrays : List Buffer)
    (jsonIndex : String) :
    PyData → PyResult PyData
  | .list items => putMarkerItems arrays jsonIndex items
  | .tuple items => putMarkerItems arrays jsonIndex items
  | .dict entries => do
      let flag ← valueAtInt 1 entries
      let flag ← markerInt flag
      if hasArrayFlag flag then
        let index ← valueAtInt 0 entries
        let index ← markerInt index
        bufferAt arrays index
      else if hasSpecialFlag flag then
        let data ← valueAtInt 0 entries
        .ok (.special data flag)
      else
        putValueAtZero arrays jsonIndex entries
  | .scalar (.str text) =>
      if text.length < 2 then
        .error .indexError
      else
        .error (.typeError "unsupported operand type(s) for &")
  | .scalar _ | .buffer _ | .special _ _ | .placeholder _ _ _ _ =>
      .error (.typeError "object is not subscriptable")

/-- `[index, flag]` of a marker, or the value that it wraps. -/
def putMarkerItems
    (arrays : List Buffer)
    (jsonIndex : String) :
    List PyData → PyResult PyData
  | [] => .error .indexError
  | value :: rest =>
      match rest with
      | [] => .error .indexError
      | flag :: _ => do
          let flag ← markerInt flag
          if hasArrayFlag flag then
            let index ← markerInt value
            bufferAt arrays index
          else if hasSpecialFlag flag then
            .ok (.special value flag)
          else
            putArrays arrays jsonIndex false value

/-- The value of the key `0`, which a dictionary in place of a pair wraps. -/
def putValueAtZero
    (arrays : List Buffer)
    (jsonIndex : String) :
    List (Scalar × PyData) → PyResult PyData
  | [] => .error (.keyError "0")
  | (key, value) :: rest =>
      if keyIsInt 0 key then
        putArrays arrays jsonIndex false value
      else
        putValueAtZero arrays jsonIndex rest

end

attribute [grind =] putArrays putArraysList putArraysDict putMarkerOf putMarker
  putMarkerItems putValueAtZero

/-- `put_arrays_to_data`. -/
def putArraysToData
    (arrays : List Buffer)
    (dataSkeleton : PyData)
    (jsonIndex : String) :
    PyResult PyData :=
  putArrays arrays jsonIndex false dataSkeleton

/-! ## Payloads and reserved keys -/

namespace PyData

/-- Bytes and arrays. -/
def isBuffer : PyData → Bool
  | .buffer _ => true
  | _ => false

mutual

/-- A payload of containers, scalars and buffers of supported types. -/
def isPayload : PyData → Bool
  | .scalar _ => true
  | .buffer value => value.isSupported
  | .special _ _ | .placeholder _ _ _ _ => false
  | .list items => isPayloadList items
  | .tuple items => isPayloadList items
  | .dict entries => isPayloadDict entries

/-- The list and tuple case of `isPayload`. -/
def isPayloadList : List PyData → Bool
  | [] => true
  | item :: rest => isPayload item && isPayloadList rest

/-- The mapping case of `isPayload`. -/
def isPayloadDict : List (Scalar × PyData) → Bool
  | [] => true
  | (_, value) :: rest => isPayload value && isPayloadDict rest

end

mutual

/-- No dictionary has the key; a dictionary that is not `inside` a container may. -/
def avoidsKey
    (key : Scalar)
    (inside : Bool) :
    PyData → Bool
  | .scalar _ | .buffer _ | .special _ _ | .placeholder _ _ _ _ => true
  | .list items => avoidsKeyList key items
  | .tuple items => avoidsKeyList key items
  | .dict entries =>
      !(inside && (entries.map Prod.fst).contains key) && avoidsKeyDict key entries

/-- The list and tuple case of `avoidsKey`. -/
def avoidsKeyList (key : Scalar) : List PyData → Bool
  | [] => true
  | item :: rest => avoidsKey key true item && avoidsKeyList key rest

/-- The mapping case of `avoidsKey`. -/
def avoidsKeyDict (key : Scalar) : List (Scalar × PyData) → Bool
  | [] => true
  | (_, value) :: rest => avoidsKey key true value && avoidsKeyDict key rest

end

mutual

/-- The number of nodes. -/
def weight : PyData → Nat
  | .scalar _ | .buffer _ => 1
  | .special data _ => weight data
  | .placeholder _ _ _ data => weight data
  | .list items => weightList items + 1
  | .tuple items => weightList items + 1
  | .dict entries => weightDict entries + 1

/-- The list and tuple case of `weight`. -/
def weightList : List PyData → Nat
  | [] => 0
  | item :: rest => weight item + weightList rest

/-- The mapping case of `weight`. -/
def weightDict : List (Scalar × PyData) → Nat
  | [] => 0
  | (_, value) :: rest => weight value + weightDict rest

end

attribute [grind =] isPayload isPayloadList isPayloadDict avoidsKey avoidsKeyList
  avoidsKeyDict weight weightList weightDict

theorem weight_pos : ∀ data : PyData, 0 < data.weight
  | .scalar _ | .buffer _ => Nat.one_pos
  | .special data _ => by
      rw [weight]
      exact weight_pos data
  | .placeholder _ _ _ data => by
      rw [weight]
      exact weight_pos data
  | .list _ | .tuple _ | .dict _ => by
      rw [weight]
      exact Nat.succ_pos _

theorem avoidsKey_of_inside
    {key : Scalar}
    {data : PyData}
    (inside : Bool)
    (avoids : data.avoidsKey key true = true) :
    data.avoidsKey key inside = true := by
  cases data <;> simp_all [avoidsKey]

end PyData

end TensorPC.Rpc
