import TensorPC.Wire.Payload

namespace TensorPC.Tsim

/-!
# What the simulator uses of numpy

The arrays of numpy and its operations are a parameter.  Its documented rules for the
shape and the dtype of a result are written out here and are the only things assumed.
-/

open Wire (NpDtype)

/-- A Python scalar; a float is given by its bits. -/
inductive PyScalar
  | int (value : Int)
  | bool (value : Bool)
  | float (bits : UInt64)
  deriving DecidableEq, Repr

/-! ## The rules for shapes -/

/-- An axis counted from the front, when it is one of the first `count`. -/
def normalizeAxis (count : Nat) (axis : Int) : Option Nat :=
  if 0 ≤ axis ∧ axis < count then
    some axis.toNat
  else if -count ≤ axis ∧ axis < 0 then
    some (axis + count).toNat
  else
    none

/-- The broadcast of two axes: equal sizes, or one of them is 1. -/
def broadcastSize (first second : Nat) : Option Nat :=
  if first = second then some first
  else if first = 1 then some second
  else if second = 1 then some first
  else none

/-- Broadcasting of shapes whose axes are listed from the last. -/
def broadcastReversed : List Nat → List Nat → Option (List Nat)
  | [], second => some second
  | first, [] => some first
  | first :: firsts, second :: seconds =>
      (broadcastSize first second).bind fun size =>
        (broadcastReversed firsts seconds).map (size :: ·)

/-- The shape that two shapes broadcast to. -/
def broadcastRule (first second : List Nat) : Option (List Nat) :=
  (broadcastReversed first.reverse second.reverse).map List.reverse

/-! ## The rules for dtypes -/

/-- The width of an integer dtype in bits, 0 for others. -/
def signedBits : NpDtype → Nat
  | .int8 => 8
  | .int16 => 16
  | .int32 => 32
  | .int64 => 64
  | _ => 0

/-- The width of an unsigned dtype in bits, 0 for others. -/
def unsignedBits : NpDtype → Nat
  | .uint8 => 8
  | .uint16 => 16
  | .uint32 => 32
  | .uint64 => 64
  | _ => 0

/-- The smallest signed dtype that holds an unsigned dtype of a width, or a float. -/
def signedAbove : Nat → NpDtype
  | 8 => .int16
  | 16 => .int32
  | 32 => .int64
  | _ => .float64

/-- A signed with an unsigned dtype. -/
def mixedType (signed unsigned : NpDtype) : NpDtype :=
  if unsignedBits unsigned < signedBits signed then
    signed
  else
    signedAbove (unsignedBits unsigned)

/-- `np.result_type` of two integer or boolean dtypes. -/
def resultType (first second : NpDtype) : NpDtype :=
  if first = .bool then second
  else if second = .bool then first
  else if signedBits first ≠ 0 ∧ signedBits second ≠ 0 then
    if signedBits first < signedBits second then second else first
  else if unsignedBits first ≠ 0 ∧ unsignedBits second ≠ 0 then
    if unsignedBits first < unsignedBits second then second else first
  else if signedBits first ≠ 0 then
    mixedType first second
  else
    mixedType second first

end TensorPC.Tsim
