import TensorPC.Py.Error
import Mathlib.Data.Int.Notation

namespace TensorPC

/-!
# Python values

The values of a data model: the standard scalars, lists, dictionaries and
dataclass objects, and tuples.  A value is a tree: no mutable object sits at two
places.  Floats are a parameter with the operations the interpreter has for
them.
-/

/-- The arithmetic operators. -/
inductive ArithOp where
  | add
  | sub
  | mul
  | div
  | floorDiv
  deriving Repr, DecidableEq

/-- The ordering operators. -/
inductive OrderOp where
  | gt
  | lt
  | ge
  | le
  deriving Repr, DecidableEq

/-- Whether an ordering operator holds of two operands that compare so. -/
def OrderOp.holds : OrderOp → Ordering → Bool
  | gt, .gt => true
  | lt, .lt => true
  | ge, .gt => true
  | ge, .eq => true
  | le, .lt => true
  | le, .eq => true
  | _, _ => false

/-- Python's `float`, and the operations of other types that yield or read one. -/
class PyFloat (F : Type) where
  /-- `float(value)` for an integer. -/
  ofInt : Int → PyResult F
  arith : ArithOp → F → F → PyResult F
  /-- `x / y` for integers, `y` not being zero. -/
  trueDiv : Int → Int → PyResult F
  /-- How two floats compare; a NaN compares to nothing. -/
  compare : F → F → Option Ordering
  compareInt : F → Int → Option Ordering
  truthy : F → Bool

/-- The hashable scalars, as keys of a dictionary. -/
inductive Key (F : Type) where
  | none
  | bool (value : Bool)
  | int (value : Int)
  | float (value : F)
  | str (value : String)
  deriving DecidableEq

/-- A Python value. -/
inductive Value (F : Type) where
  | none
  | bool (value : Bool)
  | int (value : Int)
  | float (value : F)
  | str (value : String)
  | list (items : List (Value F))
  | tuple (items : List (Value F))
  | dict (entries : List (Key F × Value F))
  /-- A dataclass instance, with the attributes that are no fields apart. -/
  | obj
      (cls : String)
      (fields : List (String × Value F))
      (extras : List (String × Value F))

variable {F : Type}

/-- A key as a value. -/
def Key.toValue : Key F → Value F
  | none => .none
  | bool value => .bool value
  | int value => .int value
  | float value => .float value
  | str value => .str value

/-- A value as a key; lists, dictionaries and dataclass objects are unhashable. -/
def Value.toKey : Value F → PyResult (Key F)
  | none => .ok .none
  | bool value => .ok (.bool value)
  | int value => .ok (.int value)
  | float value => .ok (.float value)
  | str value => .ok (.str value)
  | _ => .error (.typeError "unhashable type")

@[simp] theorem Value.toKey_toValue (key : Key F) :
    key.toValue.toKey = .ok key := by
  cases key <;> rfl

/-! ## Numbers -/

/-- A number: a boolean counts as an integer. -/
inductive Number (F : Type) where
  | int (value : Int)
  | float (value : F)

/-- `True` as `1`. -/
def boolToInt (value : Bool) : Int :=
  if value then 1 else 0

/-- A value used as a number. -/
def Value.asNumber : Value F → Option (Number F)
  | bool value => some (.int (boolToInt value))
  | int value => some (.int value)
  | float value => some (.float value)
  | _ => Option.none

/-- A key used as a number. -/
def Key.asNumber (key : Key F) : Option (Number F) :=
  key.toValue.asNumber

/-- `value.__index__()`: a value used as an index. -/
def Value.asIndex : Value F → Option Int
  | bool value => some (boolToInt value)
  | int value => some value
  | _ => Option.none

section Floats

variable [PyFloat F]

/-- A number as a float. -/
def Number.toFloat : Number F → PyResult F
  | int value => PyFloat.ofInt value
  | float value => .ok value

/-- How two numbers compare. -/
def Number.compare : Number F → Number F → Option Ordering
  | int first, int second => some (Ord.compare first second)
  | int first, float second =>
      (PyFloat.compareInt second first).map Ordering.swap
  | float first, int second => PyFloat.compareInt first second
  | float first, float second => PyFloat.compare first second

/-- Arithmetic on two numbers. -/
def Number.arith
    (op : ArithOp) :
    Number F → Number F → PyResult (Value F)
  | int first, int second =>
      match op with
      | .add => .ok (.int (first + second))
      | .sub => .ok (.int (first - second))
      | .mul => .ok (.int (first * second))
      | .div =>
          if second = 0 then
            .error .zeroDivisionError
          else
            (PyFloat.trueDiv first second).map .float
      | .floorDiv =>
          if second = 0 then
            .error .zeroDivisionError
          else
            .ok (.int (first.fdiv second))
  | first, second => do
      let x ← first.toFloat
      let y ← second.toFloat
      let result ← PyFloat.arith op x y
      .ok (.float result)

/-- Arithmetic on numbers yields an integer or a float. -/
theorem Number.arith_isNumber
    {op : ArithOp}
    {first second : Number F}
    {result : Value F}
    (computed : first.arith op second = .ok result) :
    (∃ number, result = .int number) ∨ ∃ number, result = .float number := by
  have ofFloat :
      ∀ outcome : PyResult F,
        outcome.map Value.float = .ok result →
        ∃ number, result = .float number := by
    intro outcome mapped
    cases outcome with
    | error raised =>
        cases mapped
    | ok number =>
        cases mapped
        exact ⟨number, rfl⟩
  have ofFloats :
      ∀ x y : Number F,
        (do
          let x ← x.toFloat
          let y ← y.toFloat
          let result ← PyFloat.arith op x y
          Except.ok (Value.float result)) = Except.ok result →
        ∃ number, result = .float number := by
    intro x y computed
    obtain ⟨_, _, computed⟩ := PyResult.bind_eq_ok.mp computed
    obtain ⟨_, _, computed⟩ := PyResult.bind_eq_ok.mp computed
    obtain ⟨number, _, computed⟩ := PyResult.bind_eq_ok.mp computed
    cases computed
    exact ⟨number, rfl⟩
  cases first with
  | float x =>
      exact .inr (ofFloats (.float x) second computed)
  | int x =>
      cases second with
      | float y =>
          exact .inr (ofFloats (.int x) (.float y) computed)
      | int y =>
          cases op with
          | add | sub | mul =>
              cases computed
              exact .inl ⟨_, rfl⟩
          | div =>
              simp only [Number.arith] at computed
              split at computed
              · cases computed
              · exact .inr (ofFloat _ computed)
          | floorDiv =>
              simp only [Number.arith] at computed
              split at computed
              · cases computed
              · cases computed
                exact .inl ⟨_, rfl⟩

/-! ## Equality and order -/

/-- `==` on keys. -/
def Key.pyEq (first second : Key F) : Bool :=
  match first.asNumber, second.asNumber with
  | some x, some y => x.compare y == some .eq
  | Option.none, Option.none =>
      match first, second with
      | .none, .none => true
      | .str x, .str y => x == y
      | _, _ => false
  | _, _ => false

/-- `dict.get(key)`. -/
def lookupKey
    {α : Type}
    (key : Key F) :
    List (Key F × α) → Option α
  | [] => Option.none
  | (first, value) :: rest =>
      if first.pyEq key then some value else lookupKey key rest

namespace Value

mutual

/--
`==`: a list equals a list, a dataclass object an object of its class with equal
fields.
-/
def pyEq : Value F → Value F → Bool
  | none, none => true
  | str x, str y => x == y
  | list xs, list ys => pyEqList xs ys
  | tuple xs, tuple ys => pyEqList xs ys
  | dict xs, dict ys => xs.length == ys.length && pyEqDict xs ys
  | obj cls xs _, obj other ys _ => cls == other && pyEqFields xs ys
  | x, y =>
      match x.asNumber, y.asNumber with
      | some first, some second => first.compare second == some .eq
      | _, _ => false
termination_by structural x => x

/-- `==` on the items of two lists. -/
def pyEqList : List (Value F) → List (Value F) → Bool
  | [], [] => true
  | x :: xs, y :: ys => pyEq x y && pyEqList xs ys
  | _, _ => false

/-- Every entry of the first dictionary has an equal one in the second. -/
def pyEqDict : List (Key F × Value F) → List (Key F × Value F) → Bool
  | [], _ => true
  | (key, x) :: xs, ys =>
      (match lookupKey key ys with
        | some y => pyEq x y
        | Option.none => false) &&
        pyEqDict xs ys

/-- `==` on the fields of two objects of one class. -/
def pyEqFields :
    List (String × Value F) → List (String × Value F) → Bool
  | [], [] => true
  | (_, x) :: xs, (_, y) :: ys => pyEq x y && pyEqFields xs ys
  | _, _ => false

end

mutual

/-- `<`, `>`, `<=` and `>=`. -/
def pyOrder (op : OrderOp) : Value F → Value F → PyResult Bool
  | str x, str y => .ok (op.holds (Ord.compare x y))
  | list xs, list ys => pyOrderList op xs ys
  | tuple xs, tuple ys => pyOrderList op xs ys
  | x, y =>
      match x.asNumber, y.asNumber with
      | some first, some second =>
          match first.compare second with
          | some order => .ok (op.holds order)
          | Option.none => .ok false
      | _, _ => .error (.typeError "not supported between instances")
termination_by structural x => x

/-- The first items that are not equal decide, or else the lengths. -/
def pyOrderList
    (op : OrderOp) :
    List (Value F) → List (Value F) → PyResult Bool
  | [], ys => .ok (op.holds (Ord.compare 0 ys.length))
  | _ :: xs, [] => .ok (op.holds (Ord.compare (xs.length + 1) 0))
  | x :: xs, y :: ys =>
      if pyEq x y then
        pyOrderList op xs ys
      else
        pyOrder op x y

end

/-! ## Truth and arithmetic -/

/-- `bool(value)`; a dataclass object is true. -/
def truthy : Value F → Bool
  | none => false
  | bool value => value
  | int value => value != 0
  | float value => PyFloat.truthy value
  | str value => value != ""
  | list items => !items.isEmpty
  | tuple items => !items.isEmpty
  | dict entries => !entries.isEmpty
  | obj _ _ _ => true

/-- `items * count`. -/
def repeatItems
    {α : Type}
    (items : List α)
    (count : Int) :
    List α :=
  (List.replicate count.toNat items).flatten

/-- `text * count`. -/
def repeatText (text : String) (count : Int) : String :=
  String.join (List.replicate count.toNat text)

/-- `value * count` for a sequence, as a function of the count. -/
def repeatSequence : Value F → Option (Int → Value F)
  | str text => some fun count => .str (repeatText text count)
  | list items => some fun count => .list (repeatItems items count)
  | tuple items => some fun count => .tuple (repeatItems items count)
  | _ => Option.none

/-- A repetition needs an integer. -/
def repeated
    (make : Int → Value F)
    (count : Value F) :
    PyResult (Value F) :=
  match count.asIndex with
  | some n => .ok (make n)
  | Option.none => .error (.typeError "can't multiply sequence by non-int")

/-- The operators on operands of which one is a sequence. -/
def arithSequence
    (op : ArithOp)
    (x y : Value F) :
    PyResult (Value F) :=
  match op, x, y with
  | .add, str first, str second => .ok (.str (first ++ second))
  | .add, list first, list second => .ok (.list (first ++ second))
  | .add, tuple first, tuple second => .ok (.tuple (first ++ second))
  | .mul, x, y =>
      match x.repeatSequence, y.repeatSequence with
      | some make, _ => repeated make y
      | Option.none, some make => repeated make x
      | Option.none, Option.none =>
          .error (.typeError "unsupported operand type(s)")
  | _, _, _ => .error (.typeError "unsupported operand type(s)")

/-- `x + y`, `x - y`, `x * y`, `x / y` and `x // y`. -/
def arith
    (op : ArithOp)
    (x y : Value F) :
    PyResult (Value F) :=
  match x.asNumber, y.asNumber with
  | some first, some second => first.arith op second
  | _, _ => arithSequence op x y

end Value

end Floats

/-- The builtin operations of values: floats, and `str % tuple`. -/
class PyBuiltins (F : Type) extends PyFloat F where
  percentFormat : String → List (Value F) → PyResult String

end TensorPC
