import TensorPC.Pfl.Thread

namespace TensorPC.Pfl

/-!
# The PFL interpreter

`PFLAsyncThread`: expressions, statement bodies and compiled functions.  The
evaluators call each other through `Evaluators`, one layer below the caller, so
that `evaluators depth` runs a program down to nesting and loop depth `depth`.
-/

/-- `PFLRunnerResult`: why a body was left. -/
inductive RunnerResult (runtime : Runtime) where
  | breakLoop
  | continueLoop
  | returnData (data : runtime.Value)

/-- What a statement does to its body: go on, or leave it with a result; a bare
`return` leaves with `None`. -/
inductive Flow (runtime : Runtime) where
  | next (scope : Scope runtime)
  | leave (result : Option (RunnerResult runtime)) (scope : Scope runtime)

/-- What `run_body` returns, and the scope it has written. -/
abbrev BodyResult (runtime : Runtime) :=
  Option (RunnerResult runtime) × Scope runtime

/-- The program a thread runs: the compiled functions, the names every frame
sees, and how paths are resolved. -/
structure Program (runtime : Runtime) where
  library : PFLLibrary runtime.Value
  stdScope : Scope runtime
  resolve : String → String

/-- The evaluators of one layer. -/
structure Evaluators (runtime : Runtime) where
  runExpr : PFLExpr runtime.Value → Scope runtime → ThreadM runtime runtime.Value
  runBody : List (PFLStmt runtime.Value) → Scope runtime → ThreadM runtime (BodyResult runtime)
  runWhile :
    PFLExpr runtime.Value →
    List (PFLStmt runtime.Value) →
    Scope runtime →
    ThreadM runtime (BodyResult runtime)
  runList :
    String →
    runtime.Value →
    Nat →
    List (PFLStmt runtime.Value) →
    Scope runtime →
    ThreadM runtime (BodyResult runtime)
  runFunc : String → Scope runtime → ThreadM runtime runtime.Value

variable {runtime : Runtime}

/-! ## Operations on values -/

/-- Compute from the objects as they are. -/
def readStore
    {α : Type}
    (operation : runtime.Store → PyResult α) : ThreadM runtime α := do
  let state ← get
  liftResult (operation state.store)

/-- An operation that may create or change objects. -/
def withStore
    {α : Type}
    (operation : runtime.Store → PyResult (α × runtime.Store)) : ThreadM runtime α := do
  let (value, store) ← readStore operation
  modify (fun state => { state with store })
  return value

/-- Perform an operation that reads values and may create an object. -/
def perform
    (operation : Operation)
    (operands : List runtime.Value) : ThreadM runtime runtime.Value :=
  withStore (runtime.perform operation operands)

/-- `bool(value)`. -/
def truthy (value : runtime.Value) : ThreadM runtime Bool :=
  readStore (runtime.truthy value)

/-- An operation that changes objects and returns nothing. -/
def updateStore
    (change : runtime.Store → PyResult runtime.Store) : ThreadM runtime Unit :=
  withStore (fun store => do return ((), ← change store))

/-! ## Expressions -/

section Expressions

variable (lower : Evaluators runtime) (scope : Scope runtime)

/-- An optional slice bound; an absent one is `None`. -/
def runBound
    (bound : Option (PFLExpr runtime.Value)) : ThreadM runtime runtime.Value :=
  match bound with
  | none => pure runtime.pyNone
  | some expr => lower.runExpr expr scope

/-- One entry of a dict display, as `_run_expr` computes it: the key of
`key: value` is the value expression, evaluated a second time. -/
def runDictItem
    (entries : runtime.Entries)
    (item : PFLDictItem runtime.Value) : ThreadM runtime runtime.Entries :=
  match item with
  | .keyed _ valueExpr => do
      let value ← lower.runExpr valueExpr scope
      let key ← lower.runExpr valueExpr scope
      readStore (runtime.insertEntry key value entries)
  | .spread valueExpr => do
      let value ← lower.runExpr valueExpr scope
      readStore (runtime.updateEntries value entries)

/-- `all(values)`. -/
def allTruthy : List runtime.Value → ThreadM runtime Bool
  | [] => pure true
  | value :: rest => do
      if ← truthy value then
        allTruthy rest
      else
        return false

/-- `any(values)`. -/
def anyTruthy : List runtime.Value → ThreadM runtime Bool
  | [] => pure false
  | value :: rest => do
      if ← truthy value then
        return true
      else
        anyTruthy rest

/-- The loop over the operands of `and` and `or`: the operands kept in `res_arr`,
or `none` after an early exit, at the first operand that decides. -/
def runOperands
    (op : BoolOpType)
    (resArr : List runtime.Value) :
    List (PFLExpr runtime.Value) → ThreadM runtime (Option (List runtime.Value))
  | [] => return some resArr
  | expr :: rest => do
      let value ← lower.runExpr expr scope
      let test ← truthy value
      if test = op.goesOn then
        runOperands op (resArr ++ [value]) rest
      else
        return none

/-- `all(res_arr)` for `and`, `any(res_arr)` for `or`. -/
def testOperands
    (op : BoolOpType)
    (resArr : List runtime.Value) : ThreadM runtime Bool :=
  match op with
  | .andOp => allTruthy resArr
  | .orOp => anyTruthy resArr

/-- The result of a boolean operator, which is always a bool. -/
def finishBoolOp
    (op : BoolOpType)
    (resArr : Option (List runtime.Value)) : ThreadM runtime runtime.Value :=
  match resArr with
  | none => return runtime.ofBool (!op.goesOn)
  | some resArr => do
      let test ← testOperands op resArr
      return runtime.ofBool test

/-- `_run_expr` on a boolean operator. -/
def runBoolOp
    (op : BoolOpType)
    (values : List (PFLExpr runtime.Value)) : ThreadM runtime runtime.Value :=
  runOperands lower scope op [] values >>= finishBoolOp op

/-- `_run_expr`. -/
def runExpr
    (expr : PFLExpr runtime.Value) : ThreadM runtime runtime.Value :=
  match expr with
  | .name id => liftResult (scope.lookup id)
  | .attr value attr => do
      let object ← lower.runExpr value scope
      perform (.getAttr attr) [object]
  | .constant value => pure value
  | .slice lo hi step => do
      let lo ← runBound lower scope lo
      let hi ← runBound lower scope hi
      let step ← runBound lower scope step
      perform .newSlice [lo, hi, step]
  | .subscript value index => do
      let target ← lower.runExpr value scope
      let slice ← lower.runExpr index scope
      perform .getItem [target, slice]
  | .array elts => do
      let values ← elts.mapM (lower.runExpr · scope)
      perform .newList values
  | .tuple elts => do
      let values ← elts.mapM (lower.runExpr · scope)
      perform .newTuple values
  | .dict items => do
      let entries ← items.foldlM (runDictItem lower scope) runtime.noEntries
      withStore (runtime.newDict entries)
  | .boolOp op values => runBoolOp lower scope op values
  | .binOp op left right => do
      let left ← lower.runExpr left scope
      let right ← lower.runExpr right scope
      perform (.binary op) [left, right]
  | .compare op left right => do
      let left ← lower.runExpr left scope
      let right ← lower.runExpr right scope
      perform (.compare op) [left, right]
  | .unaryOp op operand => do
      let operand ← lower.runExpr operand scope
      perform (.unary op) [operand]
  | .callFunc funcUid parameters args => do
      let values ← args.mapM (lower.runExpr · scope)
      lower.runFunc funcUid (Dict.ofList (parameters.zip values))
  | .call func args keys vals => do
      let funcVal ← lower.runExpr func scope
      let args ← args.mapM (lower.runExpr · scope)
      let vals ← vals.mapM (lower.runExpr · scope)
      withStore (runtime.call funcVal args (keys.zip vals))
  | .ifExp test body orelse => do
      let test ← lower.runExpr test scope
      if ← truthy test then
        lower.runExpr body scope
      else
        lower.runExpr orelse scope

end Expressions

/-! ## Statements -/

section Statements

variable (lower : Evaluators runtime)

/-- `scope[name] = value[i]`. -/
def assignItem
    (value : runtime.Value)
    (scope : Scope runtime)
    (entry : String × Nat) : ThreadM runtime (Scope runtime) := do
  let item ← perform .getItem [value, runtime.ofInt entry.2]
  return scope.set entry.1 item

/-- Assign the items of a value to the names of a tuple target. -/
def assignTuple
    (value : runtime.Value)
    (ids : List String)
    (scope : Scope runtime) : ThreadM runtime (Scope runtime) :=
  ids.zipIdx.foldlM (assignItem value) scope

/-- The store half of `PFLAssign` and `PFLAnnAssign`.  The object of a
subscript target is evaluated twice. -/
def runAssign
    (target : PFLTarget runtime.Value)
    (value : runtime.Value)
    (scope : Scope runtime) : ThreadM runtime (Scope runtime) :=
  match target with
  | .name id => return scope.set id value
  | .attr object attr => do
      let deepVal ← lower.runExpr object scope
      updateStore (runtime.setAttr deepVal attr value)
      return scope
  | .subscript object index => do
      let _ ← lower.runExpr object scope
      let target ← lower.runExpr object scope
      let slice ← lower.runExpr index scope
      updateStore (runtime.setItem target slice value)
      return scope
  | .tuple ids => assignTuple value ids scope

/-- `PFLAugAssign`, after its value has been evaluated. -/
def runAugAssign
    (target : PFLTarget runtime.Value)
    (op : BinOpType)
    (value : runtime.Value)
    (scope : Scope runtime) : ThreadM runtime (Scope runtime) :=
  match target with
  | .name id => do
      let current ← liftResult (scope.lookup id)
      let newVal ← withStore (runtime.augAssign op current value)
      return scope.set id newVal
  | .attr object attr => do
      let deepVal ← lower.runExpr object scope
      let current ← perform (.getAttr attr) [deepVal]
      let newVal ← withStore (runtime.augAssign op current value)
      updateStore (runtime.setAttr deepVal attr newVal)
      return scope
  | .subscript object index => do
      let _ ← lower.runExpr object scope
      let target ← lower.runExpr object scope
      let slice ← lower.runExpr index scope
      let current ← perform .getItem [target, slice]
      let newVal ← withStore (runtime.augAssign op current value)
      updateStore (runtime.setItem target slice newVal)
      return scope
  | .tuple _ => throw (.raised (.assertionError ""))

/-- Whether a branch is taken; the last one has no test. -/
def runTest
    (scope : Scope runtime)
    (test : Option (PFLExpr runtime.Value)) : ThreadM runtime Bool :=
  match test with
  | some test => do
      let testVal ← lower.runExpr test scope
      truthy testVal
  | none => pure true

/-- A branch of `PFLIf` runs in a copy of the scope, and the new names and the
names of the scope are copied back.  What `run_body` returns for it is not
looked at. -/
def runBranch
    (newNames : List String)
    (body : List (PFLStmt runtime.Value))
    (scope : Scope runtime) : ThreadM runtime (Scope runtime) := do
  let (_, privateScope) ← lower.runBody body scope
  let scope ← liftResult (privateScope.copyFrom newNames scope)
  liftResult (privateScope.copyFrom scope.keys scope)

/-- `PFLIf`: the first branch whose test holds. -/
def runIf
    (newNames : List String)
    (scope : Scope runtime) :
    List (Option (PFLExpr runtime.Value) × List (PFLStmt runtime.Value)) →
    ThreadM runtime (Scope runtime)
  | [] => return scope
  | (test, body) :: rest => do
      if ← runTest lower scope test then
        runBranch lower newNames body scope
      else
        runIf newNames scope rest

/-- Read a control point object. -/
def getCtrlPoint (ref : Nat) : ThreadM runtime RunnerCtrlFor := do
  let state ← get
  match state.ctrlPoints[ref]? with
  | some ctrl => return ctrl
  | none => throw (.raised (.keyError ""))

/-- Write a control point object. -/
def setCtrlPoint (ref : Nat) (ctrl : RunnerCtrlFor) : ThreadM runtime Unit :=
  modify (fun state => { state with ctrlPoints := state.ctrlPoints.set ref ctrl })

/-- The control point of a loop at the value `value` of its variable. -/
def RunnerCtrlFor.atValue (ctrl : RunnerCtrlFor) (value : Int) : RunnerCtrlFor :=
  if ctrl.enabled then
    let step := if ctrl.step < value then value else ctrl.step
    { ctrl with step, shouldPause := step = value, current := value }
  else
    { ctrl with current := value }

/-- How a loop goes on after `run_body` has run its body once. -/
def nextIteration
    (next : Scope runtime → ThreadM runtime (BodyResult runtime))
    (outcome : BodyResult runtime) : ThreadM runtime (BodyResult runtime) :=
  match outcome.1 with
  | some .breakLoop => return (none, outcome.2)
  | some (.returnData data) => return (some (.returnData data), outcome.2)
  | _ => next outcome.2

/-- The iterations of a range loop over the values that remain. -/
def runRange
    (target : String)
    (ref : Nat)
    (body : List (PFLStmt runtime.Value)) :
    List Int → Scope runtime → ThreadM runtime (BodyResult runtime)
  | [], privateScope => return (none, privateScope)
  | value :: rest, privateScope => do
      let ctrl ← getCtrlPoint ref
      setCtrlPoint ref (ctrl.atValue value)
      let outcome ← lower.runBody body (privateScope.set target (runtime.ofInt value))
      nextIteration (runRange target ref body rest) outcome

/-- The control point of a loop that has not started. -/
def RunnerCtrlFor.start (range : PyRange) : RunnerCtrlFor where
  shouldPause := false
  enabled := true
  step := range.start
  range := range
  current := range.start

/-- Create the control point of a loop and register it under the loop node. -/
def registerCtrlPoint
    (stmtId : Nat)
    (range : PyRange) : ThreadM runtime Nat := do
  let state ← get
  let ref := state.ctrlPoints.length
  set { state with
    ctrlPoints := state.ctrlPoints ++ [RunnerCtrlFor.start range]
    curCtrlPoints := state.curCtrlPoints.set stmtId ref }
  return ref

/-- `cur_ctrl_points.pop(stmt_id)`. -/
def popCtrlPoint (stmtId : Nat) : ThreadM runtime Unit := do
  let state ← get
  if state.curCtrlPoints.contains stmtId then
    set { state with curCtrlPoints := state.curCtrlPoints.erase stmtId }
  else
    throw (.raised (.keyError ""))

/-- Write back what a loop did to the names of the enclosing scope. -/
def closeLoop
    (scope : Scope runtime)
    (outcome : BodyResult runtime) : ThreadM runtime (Flow runtime) :=
  match outcome with
  | (some result, _) => return .leave (some result) scope
  | (none, privateScope) => do
      let scope ← liftResult (privateScope.copyFrom scope.keys scope)
      return .next scope

/-- After the iterations of a range loop: write back, and take the control point
off.  A loop that is left by `return` stays registered. -/
def finishRange
    (stmtId : Nat)
    (scope : Scope runtime)
    (outcome : BodyResult runtime) : ThreadM runtime (Flow runtime) := do
  let flow ← closeLoop scope outcome
  match flow with
  | .next scope => do
      popCtrlPoint stmtId
      return .next scope
  | .leave result scope => return .leave result scope

/-- The loop of `PFLFor` over an object that has been evaluated. -/
def runLoop
    (stmtId : Nat)
    (target : String)
    (iterObj : runtime.Value)
    (body : List (PFLStmt runtime.Value))
    (scope : Scope runtime) : ThreadM runtime (Flow runtime) := do
  match ← readStore (fun store => .ok (runtime.iterable iterObj store)) with
  | .range range => do
      let ref ← registerCtrlPoint stmtId range
      let outcome ← runRange lower target ref body range.values scope
      finishRange stmtId scope outcome
  | .list => do
      let outcome ← lower.runList target iterObj 0 body scope
      closeLoop scope outcome
  | .other => throw (.raised .notImplementedError)

/-- `PFLFor`; a tuple of loop variables is not supported. -/
def runFor
    (stmtId : Nat)
    (target : PFLTarget runtime.Value)
    (iter : PFLExpr runtime.Value)
    (body : List (PFLStmt runtime.Value))
    (scope : Scope runtime) : ThreadM runtime (Flow runtime) := do
  let iterObj ← lower.runExpr iter scope
  match target with
  | .name target => runLoop lower stmtId target iterObj body scope
  | _ => throw (.raised (.assertionError ""))

/-- One statement of `run_body`. -/
def runStmt
    (stmt : PFLStmt runtime.Value)
    (scope : Scope runtime) : ThreadM runtime (Flow runtime) :=
  match stmt with
  | .exprStmt _ value => do
      let _ ← lower.runExpr value scope
      return .next scope
  | .assign _ target _ value =>
      match value with
      | none => return .next scope
      | some value => do
          let value ← lower.runExpr value scope
          return .next (← runAssign lower target value scope)
  | .augAssign _ target op value => do
      let value ← lower.runExpr value scope
      return .next (← runAugAssign lower target op value scope)
  | .ifStmt _ _ _ _ newNames =>
      return .next (← runIf lower newNames scope stmt.getFlattenTestBody)
  | .forStmt _ stmtId target iter body => runFor lower stmtId target iter body scope
  | .whileStmt _ test body => do
      let outcome ← lower.runWhile test body scope
      closeLoop scope outcome
  | .returnStmt _ value =>
      match value with
      | some value => do
          let value ← lower.runExpr value scope
          return .leave (some (.returnData value)) scope
      | none => return .leave none scope
  | .breakStmt _ => return .leave (some .breakLoop) scope
  | .continueStmt _ => return .leave (some .continueLoop) scope

/-- `run_body`. -/
def runBody
    (resolve : String → String) :
    List (PFLStmt runtime.Value) → Scope runtime → ThreadM runtime (BodyResult runtime)
  | [], scope => return (none, scope)
  | stmt :: rest, scope => do
      beforeStatement resolve stmt.line
      match ← runStmt lower stmt scope with
      | .next scope => runBody resolve rest scope
      | .leave result scope => return (result, scope)

/-- The iterations of a `while` loop. -/
def runWhile
    (test : PFLExpr runtime.Value)
    (body : List (PFLStmt runtime.Value))
    (privateScope : Scope runtime) : ThreadM runtime (BodyResult runtime) := do
  let testObj ← lower.runExpr test privateScope
  if ← truthy testObj then
    let outcome ← lower.runBody body privateScope
    nextIteration (lower.runWhile test body) outcome
  else
    return (none, privateScope)

/-- The iterations of a loop over a list, from position `index` on. -/
def runList
    (target : String)
    (list : runtime.Value)
    (index : Nat)
    (body : List (PFLStmt runtime.Value))
    (privateScope : Scope runtime) : ThreadM runtime (BodyResult runtime) := do
  match ← readStore (fun store => .ok (runtime.listItem list index store)) with
  | none => return (none, privateScope)
  | some item => do
      let outcome ← lower.runBody body (privateScope.set target item)
      nextIteration (lower.runList target list (index + 1) body) outcome

/-- `_run_func`. -/
def runFunc
    (program : Program runtime)
    (funcUid : String)
    (scope : Scope runtime) : ThreadM runtime runtime.Value := do
  let funcNode ← liftResult (program.library.getCompiledFuncByUid funcUid)
  let fnScope : Scope runtime := scope.update program.stdScope.entries
  modify (fun state => { state with stack := funcNode.path :: state.stack })
  let (result, _) ← lower.runBody funcNode.body fnScope
  modify (fun state => { state with stack := state.stack.tail })
  match result with
  | some (.returnData data) => return data
  | _ => return runtime.pyNone

end Statements

/-! ## Layers -/

/-- The evaluators one layer above `lower`. -/
def layerAbove
    (program : Program runtime)
    (lower : Evaluators runtime) : Evaluators runtime where
  runExpr expr scope := runExpr lower scope expr
  runBody body scope := runBody lower program.resolve body scope
  runWhile test body scope := runWhile lower test body scope
  runList target list index body scope := runList lower target list index body scope
  runFunc funcUid scope := runFunc lower program funcUid scope

/-- The layer below which nothing is evaluated. -/
def exhaustedLayer : Evaluators runtime where
  runExpr _ _ := throw (.raised .nonTermination)
  runBody _ _ := throw (.raised .nonTermination)
  runWhile _ _ _ := throw (.raised .nonTermination)
  runList _ _ _ _ _ := throw (.raised .nonTermination)
  runFunc _ _ := throw (.raised .nonTermination)

/-- The interpreter, down to a depth of nested and repeated evaluations. -/
def evaluators
    (program : Program runtime) : Nat → Evaluators runtime
  | 0 => exhaustedLayer
  | depth + 1 => layerAbove program (evaluators program depth)

end TensorPC.Pfl
