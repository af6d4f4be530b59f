import TensorPC.Pfl.Syntax
import TensorPC.Py.Slice

namespace TensorPC.Pfl

/-!
# The Python objects a program computes with

The evaluator leaves every operation on values to Python.  `Runtime` is that
part of Python: values, a store for the objects that can change, and one
function for each operation the evaluator performs.
-/

/-- The operations that read values and at most create new objects. -/
inductive Operation where
  | getItem
  | getAttr (attr : String)
  | newSlice
  | newList
  | newTuple
  | unary (op : UnaryOpType)
  | binary (op : BinOpType)
  | compare (op : CompareType)
  deriving DecidableEq, Repr

/-- What a `for` statement finds when it looks at the object it iterates. -/
inductive Iterable where
  | range (range : PyRange)
  | list
  | other

/-- Python's objects and operations; `Entries` is a dict under construction. -/
structure Runtime where
  Value : Type
  Store : Type
  Entries : Type
  pyNone : Value
  ofBool : Bool → Value
  ofInt : Int → Value
  truthy : Value → Store → PyResult Bool
  perform : Operation → List Value → Store → PyResult (Value × Store)
  noEntries : Entries
  insertEntry : Value → Value → Entries → Store → PyResult Entries
  updateEntries : Value → Entries → Store → PyResult Entries
  newDict : Entries → Store → PyResult (Value × Store)
  inplace : BinOpType → Value → Value → Store → PyResult (Value × Store)
  setItem : Value → Value → Value → Store → PyResult Store
  setAttr : Value → String → Value → Store → PyResult Store
  call : Value → List Value → List (String × Value) → Store → PyResult (Value × Store)
  iterable : Value → Store → Iterable
  listItem : Value → Nat → Store → Option Value
  unpack : Value → Nat → Store → PyResult (List Value)

/-- `PFLAugAssign.run`: every in-place operator but `@=`. -/
def Runtime.augAssign
    (runtime : Runtime)
    (op : BinOpType)
    (left right : runtime.Value)
    (store : runtime.Store) :
    PyResult (runtime.Value × runtime.Store) :=
  match op with
  | .matmul => .error .notImplementedError
  | _ => runtime.inplace op left right store

/-- The names a frame can see, with their values. -/
abbrev Scope (runtime : Runtime) := Dict String runtime.Value

/-- `scope[name]`. -/
def Scope.lookup
    {runtime : Runtime}
    (scope : Scope runtime)
    (name : String) :
    PyResult runtime.Value :=
  match scope.get? name with
  | some value => .ok value
  | none => .error (.keyError name)

/-- `for name in names: scope[name] = source[name]`. -/
def Scope.copyFrom
    {runtime : Runtime}
    (source : Scope runtime)
    (names : List String)
    (scope : Scope runtime) :
    PyResult (Scope runtime) :=
  names.foldlM (fun target name => do
    let value ← source.lookup name
    return target.set name value) scope

/-- Copying names the source has takes exactly their values over. -/
theorem Scope.copyFrom_eq_ok
    {runtime : Runtime}
    {source : Scope runtime}
    {names : List String}
    (scope : Scope runtime)
    (present : ∀ name ∈ names, (source.get? name).isSome) :
    ∃ result, source.copyFrom names scope = .ok result ∧
      ∀ query, result.get? query =
        if query ∈ names then source.get? query else scope.get? query := by
  induction names generalizing scope with
  | nil =>
      exact ⟨scope, rfl, by simp⟩
  | cons name rest inductionHypothesis =>
      obtain ⟨value, found⟩ := Option.isSome_iff_exists.mp (present name (by simp))
      obtain ⟨result, copied, looks⟩ :=
        inductionHypothesis (scope.set name value)
          (fun other member => present other (List.mem_cons_of_mem _ member))
      refine ⟨result, ?_, ?_⟩
      · rw [Scope.copyFrom, List.foldlM_cons]
        simp only [Scope.lookup, found]
        exact copied
      · intro query
        rw [looks query, Dict.get?_set]
        by_cases same : query = name
        · subst same
          simp [found]
        · simp [same]

/-!
# A runtime of immutable values

Python restricted to `None`, bools, integers, strings, ranges and the function
`range`.  No object changes, so the store is trivial.
-/

/-- Immutable Python values. -/
inductive Scalar where
  | pyNone
  | bool (value : Bool)
  | int (value : Int)
  | str (value : String)
  | range (value : PyRange)
  | rangeType
  deriving DecidableEq

namespace Scalar

/-- The integer a number stands for; `True` is 1. -/
def asInt? : Scalar → Option Int
  | .bool value => some (if value then 1 else 0)
  | .int value => some value
  | _ => none

/-- `bool(value)`. -/
def truthy : Scalar → Bool
  | .pyNone => false
  | .bool value => value
  | .int value => value ≠ 0
  | .str value => value ≠ ""
  | .range value => value.length ≠ 0
  | .rangeType => true

/-- The error of an operation that the operand types do not have. -/
def unsupported {α : Type} : PyResult α :=
  .error (.typeError "unsupported operand type(s)")

/-- Integer arithmetic; division that yields a float is not covered. -/
def binary (op : BinOpType) (left right : Scalar) : PyResult Scalar :=
  match op, left.asInt?, right.asInt?, left, right with
  | .add, some left, some right, _, _ => .ok (.int (left + right))
  | .sub, some left, some right, _, _ => .ok (.int (left - right))
  | .mult, some left, some right, _, _ => .ok (.int (left * right))
  | .floorDiv, some left, some right, _, _ =>
      if right = 0 then .error .zeroDivisionError else .ok (.int (Int.fdiv left right))
  | .mod, some left, some right, _, _ =>
      if right = 0 then .error .zeroDivisionError else .ok (.int (Int.fmod left right))
  | .add, _, _, .str left, .str right => .ok (.str (left ++ right))
  | _, _, _, _, _ => unsupported

/-- `==`: numbers compare by value. -/
def equal (left right : Scalar) : Bool :=
  match left.asInt?, right.asInt? with
  | some left, some right => left = right
  | _, _ => left = right

/-- Comparisons; the orders are those of the integers. -/
def compare (op : CompareType) (left right : Scalar) : PyResult Scalar :=
  match op, left.asInt?, right.asInt? with
  | .equal, _, _ => .ok (.bool (equal left right))
  | .notEqual, _, _ => .ok (.bool (!equal left right))
  | .isOp, _, _ => .ok (.bool (left = right))
  | .isNotOp, _, _ => .ok (.bool (left ≠ right))
  | .less, some left, some right => .ok (.bool (left < right))
  | .lessEqual, some left, some right => .ok (.bool (left ≤ right))
  | .greater, some left, some right => .ok (.bool (left > right))
  | .greaterEqual, some left, some right => .ok (.bool (left ≥ right))
  | _, _, _ => unsupported

/-- Unary operators. -/
def unary (op : UnaryOpType) (operand : Scalar) : PyResult Scalar :=
  match op, operand.asInt? with
  | .notOp, _ => .ok (.bool (!operand.truthy))
  | .usub, some value => .ok (.int (-value))
  | .uadd, some value => .ok (.int value)
  | .invert, some value => .ok (.int (-value - 1))
  | _, _ => unsupported

/-- The operations of immutable values that have a value. -/
def perform (operation : Operation) (operands : List Scalar) : PyResult Scalar :=
  match operation, operands with
  | .unary op, [operand] => unary op operand
  | .binary op, [left, right] => binary op left right
  | .compare op, [left, right] => compare op left right
  | _, _ => unsupported

/-- `range(stop)`, `range(start, stop)` and `range(start, stop, step)`. -/
def newRange (start stop step : Int) : PyResult Scalar :=
  if nonzero : step ≠ 0 then
    .ok (.range { start, stop, step, step_ne_zero := nonzero })
  else
    .error (.valueError "range() arg 3 must not be zero")

/-- Calls: only `range` can be called. -/
def call (func : Scalar) (args : List Scalar) : PyResult Scalar :=
  match func, args.map asInt? with
  | .rangeType, [some stop] => newRange 0 stop 1
  | .rangeType, [some start, some stop] => newRange start stop 1
  | .rangeType, [some start, some stop, some step] => newRange start stop step
  | _, _ => unsupported

end Scalar

/-- The runtime of immutable values. -/
def scalarRuntime : Runtime where
  Value := Scalar
  Store := Unit
  Entries := Unit
  pyNone := .pyNone
  ofBool := .bool
  ofInt := .int
  truthy value _ := .ok value.truthy
  perform operation operands store := do
    let value ← Scalar.perform operation operands
    return (value, store)
  noEntries := ()
  insertEntry _ _ _ _ := Scalar.unsupported
  updateEntries _ _ _ := Scalar.unsupported
  newDict _ _ := Scalar.unsupported
  inplace op left right store := do
    let value ← Scalar.binary op left right
    return (value, store)
  setItem _ _ _ _ := Scalar.unsupported
  setAttr _ _ _ _ := Scalar.unsupported
  call func args kwargs store := do
    pyAssert kwargs.isEmpty "keyword arguments"
    let value ← Scalar.call func args
    return (value, store)
  iterable value _ :=
    match value with
    | .range range => .range range
    | _ => .other
  listItem _ _ _ := none
  unpack _ _ _ := Scalar.unsupported

end TensorPC.Pfl
