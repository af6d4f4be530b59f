import TensorPC.Py.Dict
import TensorPC.Wire.Payload

namespace TensorPC.Rpc

/-!
# Arrays in protobuf messages

An RPC argument that is an array or bytes travels as an `ndarray` message: a dtype,
a shape and the raw bytes.  Arrays are in native byte order and C-contiguous, so that
their bytes fill their shape exactly.
-/

open Wire (Bytes JSArrayBuffer)

/-- The numpy dtypes: those with a `DataType`, and all others by name. -/
inductive NpDtype
  | uint64
  | uint32
  | uint16
  | uint8
  | int64
  | int32
  | int16
  | int8
  | float64
  | float32
  | float16
  | bool
  | other (name : String) (itemsize : Nat)
  deriving DecidableEq, Repr

/-- `dtype.itemsize`, in bytes. -/
def NpDtype.itemsize : NpDtype → Nat
  | uint8 | int8 | bool => 1
  | uint16 | int16 | float16 => 2
  | uint32 | int32 | float32 => 4
  | uint64 | int64 | float64 => 8
  | other _ itemsize => itemsize

/-- `arraybuf_pb2.dtype.DataType`. -/
inductive DataType
  | float64
  | float32
  | float16
  | uint64
  | uint32
  | uint16
  | uint8
  | int64
  | int32
  | int16
  | int8
  | bool_
  | customBytes
  | base64
  deriving DecidableEq, Repr

/-- `arraybuf_pb2.dtype.ByteOrder`. -/
inductive ByteOrder
  | littleEndian
  | bigEndian
  | native
  | na
  deriving DecidableEq, Repr

/-- `NPDTYPE_TO_PB_MAP`. -/
def npdtypeToPbMap : Dict NpDtype DataType :=
  Dict.ofList [
    (.uint64, .uint64),
    (.uint32, .uint32),
    (.uint16, .uint16),
    (.uint8, .uint8),
    (.int64, .int64),
    (.int32, .int32),
    (.int16, .int16),
    (.int8, .int8),
    (.float64, .float64),
    (.float32, .float32),
    (.float16, .float16)]

/-- `NPBYTEORDER_TO_PB_MAP`. -/
def npbyteorderToPbMap : Dict Char ByteOrder :=
  Dict.ofList [
    ('=', .native),
    ('<', .littleEndian),
    ('>', .bigEndian),
    ('|', .na)]

/-- `_inv_map`. -/
def invMap
    {κ β : Type}
    [DecidableEq κ]
    [DecidableEq β]
    (dictMap : Dict κ β) :
    Dict β κ :=
  Dict.ofList (dictMap.entries.map fun entry => (entry.2, entry.1))

/-- `dict[key]` of a module level table. -/
def lookupOrRaise
    {κ β : Type}
    [DecidableEq κ]
    [Repr κ]
    (dictMap : Dict κ β)
    (key : κ) :
    PyResult β :=
  match dictMap.get? key with
  | some value => .ok value
  | none => .error (.keyError (reprStr key))

/-- `dtype.byteorder` of a dtype in native order: single bytes have none. -/
def NpDtype.byteorder (dtype : NpDtype) : Char :=
  if dtype.itemsize = 1 then '|' else '='

/-- A C-contiguous numpy array in native byte order. -/
structure NDArray where
  dtype : NpDtype
  shape : List Nat
  data : Bytes
  size_eq : data.length = dtype.itemsize * shape.prod
  deriving DecidableEq

/-- Instances of `(np.ndarray, bytes, JSArrayBuffer)`. -/
inductive Buffer
  | ndarray (array : NDArray)
  | bytes (data : Bytes)
  | arrayBuffer (buffer : JSArrayBuffer)
  deriving DecidableEq

/-- `arraybuf_pb2.dtype`; an unset field reads as the first enumerator. -/
structure PbDtype where
  type : DataType
  byteOrder : ByteOrder := .littleEndian
  deriving DecidableEq

/-- `arraybuf_pb2.ndarray`. -/
structure PbNdarray where
  shape : List Nat
  dtype : PbDtype
  data : Bytes
  deriving DecidableEq

/-- The dtype fields of an array, in `array2pb` and `to_protobuf_stream_gen`. -/
def NpDtype.toPb (dtype : NpDtype) : PyResult PbDtype := do
  let type ← lookupOrRaise npdtypeToPbMap dtype
  let order ← lookupOrRaise npbyteorderToPbMap dtype.byteorder
  .ok { type := type, byteOrder := order }

/--
The dtype an array is read with.  `newbyteorder` keeps a dtype for `=`, `|` and the
byte order of the machine, which is little endian.
-/
def PbDtype.toNpDtype (dtype : PbDtype) : PyResult NpDtype := do
  let order ← lookupOrRaise (invMap npbyteorderToPbMap) dtype.byteOrder
  let npDtype ← lookupOrRaise (invMap npdtypeToPbMap) dtype.type
  if order = '>' ∧ npDtype.itemsize ≠ 1 then
    .ok (.other (">" ++ reprStr npDtype) npDtype.itemsize)
  else
    .ok npDtype

/-- `bytes2pb`. -/
def bytes2pb (data : Bytes) : PbNdarray where
  shape := [data.length]
  dtype := { type := .customBytes }
  data := data

/-- `array2pb`. -/
def array2pb (array : NDArray) : PyResult PbNdarray := do
  let dtype ← array.dtype.toPb
  .ok { shape := array.shape, dtype := dtype, data := array.data }

/-- `data2pb`. -/
def data2pb : Buffer → PyResult PbNdarray
  | .ndarray array => array2pb array
  | .bytes data => .ok (bytes2pb data)
  | .arrayBuffer buffer => .ok (bytes2pb buffer.data)

/-- `np.frombuffer(data, dtype).reshape(shape)`. -/
def frombuffer
    (data : Bytes)
    (dtype : NpDtype)
    (shape : List Nat) :
    PyResult NDArray :=
  if size_eq : data.length = dtype.itemsize * shape.prod then
    .ok { dtype := dtype, shape := shape, data := data, size_eq := size_eq }
  else if data.length % dtype.itemsize ≠ 0 then
    .error (.valueError "buffer size must be a multiple of element size")
  else
    .error (.valueError "cannot reshape array")

/-- `pb2data`. -/
def pb2data (buf : PbNdarray) : PyResult Buffer :=
  if buf.dtype.type = .customBytes then
    .ok (.bytes buf.data)
  else if buf.dtype.type = .base64 then
    .ok (.arrayBuffer { data := buf.data, toUint8Array := false })
  else do
    let dtype ← buf.dtype.toNpDtype
    let res ← frombuffer buf.data dtype buf.shape
    .ok (.ndarray res)

/-! ## Round trips -/

/-- A dtype that the protobuf messages can carry. -/
def NpDtype.isSupported (dtype : NpDtype) : Bool :=
  npdtypeToPbMap.contains dtype

theorem NpDtype.toPb_of_isSupported
    {dtype : NpDtype}
    (supported : dtype.isSupported = true) :
    ∃ pbDtype,
      dtype.toPb = .ok pbDtype ∧ pbDtype.toNpDtype = .ok dtype ∧
        pbDtype.type ≠ .customBytes ∧ pbDtype.type ≠ .base64 := by
  cases dtype with
  | bool =>
      exact absurd supported (by decide)
  | other name itemsize =>
      refine absurd supported ?_
      simp [isSupported, Dict.contains, npdtypeToPbMap, Dict.ofList, Dict.update,
        Dict.get?_set, Dict.get?_empty]
  | uint64 | uint32 | uint16 | int64 | int32 | int16 | float64 | float32 | float16 =>
      exact ⟨⟨_, .native⟩, rfl, rfl, by decide, by decide⟩
  | uint8 | int8 =>
      exact ⟨⟨_, .na⟩, rfl, rfl, by decide, by decide⟩

theorem NpDtype.toPb_of_not_isSupported
    {dtype : NpDtype}
    (unsupported : dtype.isSupported = false) :
    dtype.toPb = .error (.keyError (reprStr dtype)) := by
  have missing : npdtypeToPbMap.get? dtype = none := by
    simpa [isSupported, Dict.contains] using unsupported
  simp [toPb, lookupOrRaise, missing, bind, Except.bind]

/-- What an RPC can carry: bytes and arrays of a supported dtype. -/
def Buffer.isSupported : Buffer → Bool
  | .ndarray array => array.dtype.isSupported
  | .bytes _ => true
  | .arrayBuffer _ => false

theorem pb2data_data2pb
    {buffer : Buffer}
    (supported : buffer.isSupported = true) :
    ∃ buf, data2pb buffer = .ok buf ∧ pb2data buf = .ok buffer := by
  cases buffer with
  | ndarray array =>
      obtain ⟨pbDtype, sent, read, notBytes, notBase64⟩ :=
        NpDtype.toPb_of_isSupported supported
      refine ⟨⟨array.shape, pbDtype, array.data⟩, ?_, ?_⟩
      · simp [data2pb, array2pb, sent, bind, Except.bind]
      · simp [pb2data, notBytes, notBase64, read, frombuffer, array.size_eq, bind,
          Except.bind]
  | bytes data =>
      exact ⟨bytes2pb data, rfl, rfl⟩
  | arrayBuffer buffer =>
      cases supported

end TensorPC.Rpc
