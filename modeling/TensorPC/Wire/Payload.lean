import TensorPC.Py.Error
import Mathlib.Algebra.GroupWithZero.Nat

namespace TensorPC.Wire

/-!
# Payloads and their skeletons

A message payload is a JSON-like tree with binary leaves.  Before sending, the
binary leaves are pulled out into a list of arrays and replaced by an index
object `{JSON_INDEX_KEY: [index, 1]}`; the remaining tree is the skeleton.
The receiver puts the arrays back.
-/

/-- The byte values of a buffer. -/
abbrev Bytes := List UInt8

/-- The numpy dtypes with an entry in `NPDTYPE_TO_JSONARRAY_MAP`. -/
inductive NpDtype where
  | bool
  | float16
  | float32
  | float64
  | int8
  | int16
  | int32
  | int64
  | uint8
  | uint16
  | uint32
  | uint64
  deriving Repr, DecidableEq

namespace NpDtype

/-- `NPDTYPE_TO_JSONARRAY_MAP`. -/
def jsonCode : NpDtype → Int
  | bool => 5
  | float16 => 7
  | float32 => 0
  | float64 => 4
  | int8 => 3
  | int16 => 2
  | int32 => 1
  | int64 => 8
  | uint8 => 6
  | uint16 => 9
  | uint32 => 10
  | uint64 => 11

/-- `dtype.itemsize`, in bytes. -/
def itemsize : NpDtype → Nat
  | bool | int8 | uint8 => 1
  | float16 | int16 | uint16 => 2
  | float32 | int32 | uint32 => 4
  | float64 | int64 | uint64 => 8

/-- `INV_NPDTYPE_TO_JSONARRAY_MAP[code]`. -/
def ofJsonCode (code : Int) : PyResult NpDtype :=
  match
    [bool, float16, float32, float64, int8, int16, int32, int64,
      uint8, uint16, uint32, uint64].find? (fun dtype => dtype.jsonCode = code) with
  | some dtype =>
      .ok dtype
  | none =>
      .error (.keyError (toString code))

end NpDtype

/-- `BYTES_JSONARRAY_CODE`. -/
def bytesJsonArrayCode : Int := 100

/-- `BYTES_SKELETON_CODE`. -/
def bytesSkeletonCode : Int := 101

/-- `BYTES_JSONARRAY_ARRAYBUFFER_CODE`. -/
def bytesJsonArrayArrayBufferCode : Int := 102

/-- `JSON_INDEX_KEY`. -/
def jsonIndexKey : String := "__jsonarray_index"

/-- A C-contiguous numpy array: its bytes fill its shape exactly. -/
structure NDArray where
  dtype : NpDtype
  shape : List Nat
  data : Bytes
  size_eq : data.length = dtype.itemsize * shape.prod
  deriving DecidableEq

/-- `JSArrayBuffer`: bytes that the frontend receives as an array buffer. -/
structure JSArrayBuffer where
  data : Bytes
  toUint8Array : Bool
  deriving DecidableEq

/-- `JSArrayBuffer.dtype_code`. -/
def JSArrayBuffer.dtypeCode (buffer : JSArrayBuffer) : Int :=
  if buffer.toUint8Array then
    bytesJsonArrayCode
  else
    bytesJsonArrayArrayBufferCode

/-- The binary leaves: instances of `(np.ndarray, bytes, JSArrayBuffer)`. -/
inductive Binary where
  | bytes (data : Bytes)
  | ndarray (array : NDArray)
  | arrayBuffer (buffer : JSArrayBuffer)
  deriving DecidableEq

namespace Binary

/-- The raw bytes of a leaf, as copied into a message. -/
def data : Binary → Bytes
  | bytes data => data
  | ndarray array => array.data
  | arrayBuffer buffer => buffer.data

/-- `byte_size`: the number of raw bytes of a leaf. -/
def byteSize (leaf : Binary) : Nat :=
  leaf.data.length

/-- The `(dtype code, shape)` pair recorded in `_arr_metadata`. -/
def metadata : Binary → Int × List Nat
  | bytes data => (bytesJsonArrayCode, [data.length])
  | ndarray array => (array.dtype.jsonCode, array.shape)
  | arrayBuffer buffer => (buffer.dtypeCode, [buffer.data.length])

end Binary

/--
JSON values.  Object entries keep insertion order, and a float is carried as
its decimal text.
-/
inductive Json where
  | null
  | bool (value : Bool)
  | int (value : Int)
  | float (text : String)
  | str (value : String)
  | list (items : List Json)
  | obj (entries : List (String × Json))

/-- Message payloads: JSON values with binary leaves at any depth. -/
inductive Payload where
  | null
  | bool (value : Bool)
  | int (value : Int)
  | float (text : String)
  | str (value : String)
  | list (items : List Payload)
  | dict (entries : List (String × Payload))
  | binary (leaf : Binary)

/-- The skeleton entry `{JSON_INDEX_KEY: [index, 1]}` of one extracted leaf. -/
def indexEntry (index : Nat) : Json :=
  .obj [(jsonIndexKey, .list [.int index, .int 1])]

mutual

/--
`_extract_arrays_from_data`: the arrays found so far grow at the end, in the
order in which the tree is walked.
-/
def extractArrays :
    Payload → List Binary → List Binary × Json
  | .null, arrays => (arrays, .null)
  | .bool value, arrays => (arrays, .bool value)
  | .int value, arrays => (arrays, .int value)
  | .float text, arrays => (arrays, .float text)
  | .str value, arrays => (arrays, .str value)
  | .list items, arrays =>
      let (arrays, skeleton) := extractArraysList items arrays
      (arrays, .list skeleton)
  | .dict entries, arrays =>
      let (arrays, skeleton) := extractArraysDict entries arrays
      (arrays, .obj skeleton)
  | .binary leaf, arrays =>
      (arrays ++ [leaf], indexEntry arrays.length)

/-- The list case of `extractArrays`. -/
def extractArraysList :
    List Payload → List Binary → List Binary × List Json
  | [], arrays => (arrays, [])
  | item :: rest, arrays =>
      let (arrays, skeleton) := extractArrays item arrays
      let (arrays, skeletons) := extractArraysList rest arrays
      (arrays, skeleton :: skeletons)

/-- The mapping case of `extractArrays`. -/
def extractArraysDict :
    List (String × Payload) → List Binary → List Binary × List (String × Json)
  | [], arrays => (arrays, [])
  | (key, value) :: rest, arrays =>
      let (arrays, skeleton) := extractArrays value arrays
      let (arrays, skeletons) := extractArraysDict rest arrays
      (arrays, (key, skeleton) :: skeletons)

end

/-- `arrays[index]` for a non-negative JSON index. -/
def arrayAt
    (arrays : List Binary) :
    Json → PyResult Payload
  | .int index =>
      match arrays[index.toNat]? with
      | some leaf => .ok (.binary leaf)
      | none => .error .indexError
  | _ => .error (.typeError "list indices must be integers or slices")

/--
The leaf an index object stands for.  Only the `ARRAY` flag is written for the
payloads modelled here; the other flags wrap a `JsonSpecialData`.
-/
def arrayOfIndex
    (arrays : List Binary) :
    Json → PyResult Payload
  | .list (index :: .int flag :: _) =>
      if flag % 2 = 1 then
        arrayAt arrays index
      else
        .error .notImplementedError
  | _ => .error (.typeError "json index is not an [index, flag] pair")

mutual

/-- `_put_arrays_to_data`; `is_json_index` is a lookup of `JSON_INDEX_KEY`. -/
def putArrays
    (arrays : List Binary) :
    Json → PyResult Payload
  | .null => .ok .null
  | .bool value => .ok (.bool value)
  | .int value => .ok (.int value)
  | .float text => .ok (.float text)
  | .str value => .ok (.str value)
  | .list items => do
      let items ← putArraysList arrays items
      .ok (.list items)
  | .obj entries =>
      match entries.lookup jsonIndexKey with
      | some marker => arrayOfIndex arrays marker
      | none => do
          let entries ← putArraysObj arrays entries
          .ok (.dict entries)

/-- The list case of `putArrays`. -/
def putArraysList
    (arrays : List Binary) :
    List Json → PyResult (List Payload)
  | [] => .ok []
  | item :: rest => do
      let item ← putArrays arrays item
      let rest ← putArraysList arrays rest
      .ok (item :: rest)

/-- The mapping case of `putArrays`. -/
def putArraysObj
    (arrays : List Binary) :
    List (String × Json) → PyResult (List (String × Payload))
  | [] => .ok []
  | (key, value) :: rest => do
      let value ← putArrays arrays value
      let rest ← putArraysObj arrays rest
      .ok ((key, value) :: rest)

end

end TensorPC.Wire
