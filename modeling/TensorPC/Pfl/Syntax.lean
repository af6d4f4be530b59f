import TensorPC.Py.Dict

namespace TensorPC.Pfl

/-!
# PFL syntax trees

The statement and expression nodes the evaluator interprets.  `V` is the type
of the run-time values that constants hold.
-/

/-- The boolean operators. -/
inductive BoolOpType where
  | andOp
  | orOp
  deriving DecidableEq, Repr

/-- The truth value with which an operand lets the evaluation go on. -/
def BoolOpType.goesOn : BoolOpType → Bool
  | .andOp => true
  | .orOp => false

/-- The binary operators. -/
inductive BinOpType where
  | add
  | sub
  | mult
  | div
  | mod
  | pow
  | lshift
  | rshift
  | bitOr
  | bitXor
  | bitAnd
  | floorDiv
  | matmul
  deriving DecidableEq, Repr

/-- The unary operators. -/
inductive UnaryOpType where
  | invert
  | notOp
  | uadd
  | usub
  deriving DecidableEq, Repr

/-- The comparison operators. -/
inductive CompareType where
  | equal
  | notEqual
  | less
  | lessEqual
  | greater
  | greaterEqual
  | isOp
  | isNotOp
  | inOp
  | notInOp
  deriving DecidableEq, Repr

mutual

/-- Expressions.  `callFunc` is a call of a compiled function, its arguments
already matched to the parameter names. -/
inductive PFLExpr (V : Type) where
  | name (id : String)
  | attr (value : PFLExpr V) (attr : String)
  | constant (value : V)
  | slice (lo hi step : Option (PFLExpr V))
  | subscript (value index : PFLExpr V)
  | array (elts : List (PFLExpr V))
  | tuple (elts : List (PFLExpr V))
  | dict (items : List (PFLDictItem V))
  | boolOp (op : BoolOpType) (values : List (PFLExpr V))
  | binOp (op : BinOpType) (left right : PFLExpr V)
  | compare (op : CompareType) (left right : PFLExpr V)
  | unaryOp (op : UnaryOpType) (operand : PFLExpr V)
  | callFunc (funcUid : String) (parameters : List String) (args : List (PFLExpr V))
  | call
      (func : PFLExpr V)
      (args : List (PFLExpr V))
      (keys : List String)
      (vals : List (PFLExpr V))
  | ifExp (test body orelse : PFLExpr V)

/-- The entries of a dict display: `key: value` and `**value`. -/
inductive PFLDictItem (V : Type) where
  | keyed (key value : PFLExpr V)
  | spread (value : PFLExpr V)

end

/-- The types that annotations name; `number` is `int | float`, and `tupleOf` a
tuple of any length. -/
inductive PFLAnnoType where
  | bool
  | int
  | float
  | number
  | str
  | noneType
  | list (element : PFLAnnoType)
  | dict (value : PFLAnnoType)
  | tuple (elements : List PFLAnnoType)
  | tupleOf (element : PFLAnnoType)
  | optional (inner : PFLAnnoType)

/-- What an assignment stores into; a tuple target holds names only. -/
inductive PFLTarget (V : Type) where
  | name (id : String)
  | attr (value : PFLExpr V) (attr : String)
  | subscript (value index : PFLExpr V)
  | tuple (ids : List String)

/-- Statements, with the source line they start at.  An assignment may carry an
annotation, `newNames` are the keys of `PFLIf._new`, and `stmtId` is the identity
of a loop node. -/
inductive PFLStmt (V : Type) where
  | exprStmt (line : Nat) (value : PFLExpr V)
  | assign
      (line : Nat)
      (target : PFLTarget V)
      (annoType : Option PFLAnnoType)
      (value : Option (PFLExpr V))
  | augAssign (line : Nat) (target : PFLTarget V) (op : BinOpType) (value : PFLExpr V)
  | ifStmt
      (line : Nat)
      (test : PFLExpr V)
      (body orelse : List (PFLStmt V))
      (newNames : List String)
  | forStmt
      (line stmtId : Nat)
      (target : PFLTarget V)
      (iter : PFLExpr V)
      (body : List (PFLStmt V))
  | whileStmt (line : Nat) (test : PFLExpr V) (body : List (PFLStmt V))
  | returnStmt (line : Nat) (value : Option (PFLExpr V))
  | breakStmt (line : Nat)
  | continueStmt (line : Nat)

variable {V : Type}

/-- `stmt.source_loc[0]`. -/
def PFLStmt.line : PFLStmt V → Nat
  | .exprStmt line _ => line
  | .assign line _ _ _ => line
  | .augAssign line _ _ _ => line
  | .ifStmt line _ _ _ _ => line
  | .forStmt line _ _ _ _ => line
  | .whileStmt line _ _ => line
  | .returnStmt line _ => line
  | .breakStmt line => line
  | .continueStmt line => line

/-- `PFLIf.get_flatten_test_body`: an `if` alone in an `else` is an `elif`. -/
def PFLStmt.getFlattenTestBody
    (stmt : PFLStmt V) :
    List (Option (PFLExpr V) × List (PFLStmt V)) :=
  match stmt with
  | .ifStmt _ test body [next] _ =>
      match next with
      | .ifStmt .. => (some test, body) :: next.getFlattenTestBody
      | _ => [(some test, body), (none, [next])]
  | .ifStmt _ test body orelse _ => [(some test, body), (none, orelse)]
  | _ => []
termination_by structural stmt

/-- A compiled function: its parameters, its file and its body. -/
structure PFLFunc (V : Type) where
  name : String
  path : String
  args : List String
  body : List (PFLStmt V)

/-- The compiled functions by uid. -/
abbrev PFLLibrary (V : Type) := Dict String (PFLFunc V)

/-- `library.get_compiled_func_by_uid(uid)`. -/
def PFLLibrary.getCompiledFuncByUid
    (library : PFLLibrary V)
    (uid : String) :
    PyResult (PFLFunc V) :=
  match library.get? uid with
  | some func => .ok func
  | none => .error (.keyError uid)

end TensorPC.Pfl
