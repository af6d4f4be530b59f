import TensorPC.Pfl.Runtime
import TensorPC.Lib.Computation

namespace TensorPC.Pfl

/-!
# Debugger state of a PFL thread

Breakpoints, control points of the running range loops, and what happens
before a statement.  The user acts through `edits`, taken up before a
statement, and `commands`, taken up while the thread is paused.
-/

/-- How an evaluation ends early. -/
inductive EvalError where
  | raised (error : PyError)
  | evalStop
  | blocked
  deriving DecidableEq, Repr

/-- `PFLRunnerStateType`. -/
inductive RunnerStateType where
  | idle
  | running
  | pause
  | needStop
  deriving DecidableEq, Repr

/-- `PFLBreakpointDesc`. -/
structure BreakpointDesc where
  lineno : Int
  enabled : Bool := true
  oneShot : Bool := false
  deriving DecidableEq, Repr

/-- A source location: a file and a line. -/
abbrev Location := String × Int

/-- `PFLRunnerCtrlFor`; `current` is the value the loop variable last took,
which the source does not keep. -/
structure RunnerCtrlFor where
  shouldPause : Bool
  enabled : Bool
  step : Int
  range : PyRange
  current : Int
  deriving DecidableEq

/-- Changes to the shared breakpoints, possible at any time. -/
inductive BreakpointEdit where
  | syncBreakpoints (breakpoints : Dict Location BreakpointDesc)
  | addBreakpoint (path : String) (lineno : Int) (enabled oneShot : Bool)

/-- What the user can do while the thread is paused. -/
inductive Command where
  | edit (edit : BreakpointEdit)
  | releaseBreakpoint (stop : Bool)
  | continueUntil (path : String) (lineno : Int)
  | continueNextLine

/-- A statement about to be executed, as the debugger sees it: the requests in
force, the control points registered, and whether the thread paused there. -/
structure Reached where
  location : Location
  pauseNextLine : Bool
  tempBkptLoc : Location
  breakpoint : Option BreakpointDesc
  loops : List RunnerCtrlFor
  paused : Bool

/-- The observable history of a thread. -/
inductive Event where
  | synced
  | added (location : Location)
  | reached (statement : Reached)

/-- The state of a thread and of the program it belongs to.  Control points are
objects: `curCtrlPoints` maps a loop node to its index in `ctrlPoints`.
`history` holds the events, latest first. -/
structure ThreadState (runtime : Runtime) where
  store : runtime.Store
  breakpoints : Dict Location BreakpointDesc
  type : RunnerStateType
  pauseNextLine : Bool
  tempBkptLoc : Location
  ctrlPoints : List RunnerCtrlFor
  curCtrlPoints : Dict Nat Nat
  stack : List String
  edits : List (List BreakpointEdit)
  commands : List (List Command)
  history : List Event

/-- Evaluation in a thread: the state survives an error. -/
abbrev ThreadM (runtime : Runtime) := EStateM EvalError (ThreadState runtime)

variable {runtime : Runtime}

/-- Let an exception of a Python operation leave the evaluation. -/
def liftResult {α : Type} (result : PyResult α) : ThreadM runtime α :=
  match result with
  | .ok value => pure value
  | .error error => throw (.raised error)

/-- `str(Path(path).resolve())`, except for paths such as `<string>`. -/
def unifyPath (resolve : String → String) (path : String) : String :=
  if path.startsWith "<" then path else resolve path

namespace ThreadState

/-- A new thread.  `tempBkptLoc` is the location `entry_point` is asked to pause
at, or `("", -1)`. -/
def new
    (store : runtime.Store)
    (breakpoints : Dict Location BreakpointDesc)
    (tempBkptLoc : Location)
    (edits : List (List BreakpointEdit))
    (commands : List (List Command)) : ThreadState runtime where
  store := store
  breakpoints := breakpoints
  type := .idle
  pauseNextLine := false
  tempBkptLoc := tempBkptLoc
  ctrlPoints := []
  curCtrlPoints := Dict.empty
  stack := []
  edits := edits
  commands := commands
  history := []

/-- The control points that are registered, in registration order. -/
def registered (state : ThreadState runtime) : List RunnerCtrlFor :=
  state.curCtrlPoints.values.filterMap (state.ctrlPoints[·]?)

/-- Apply `sync_breakpoints` or `add_breakpoint`. -/
def applyEdit
    (resolve : String → String)
    (state : ThreadState runtime) : BreakpointEdit → ThreadState runtime
  | .syncBreakpoints breakpoints =>
      { state with breakpoints, history := .synced :: state.history }
  | .addBreakpoint path lineno enabled oneShot =>
      let location := (unifyPath resolve path, lineno)
      { state with
        breakpoints := state.breakpoints.set location { lineno, enabled, oneShot }
        history := .added location :: state.history }

/-- Take up the edits made since the last statement. -/
def takeEdits
    (resolve : String → String)
    (state : ThreadState runtime) : ThreadState runtime :=
  match state.edits with
  | [] => state
  | edits :: later => edits.foldl (applyEdit resolve) { state with edits := later }

/-- One command to a paused thread.  The methods assert that the thread is
paused, so after a stop they do nothing to it. -/
def applyCommand
    (resolve : String → String)
    (state : ThreadState runtime)
    (command : Command) : ThreadState runtime :=
  match command with
  | .edit edit => state.applyEdit resolve edit
  | .releaseBreakpoint stop =>
      if state.type = .pause ∧ stop then { state with type := .needStop } else state
  | .continueUntil path lineno =>
      if state.type = .pause then
        { state with tempBkptLoc := (unifyPath resolve path, lineno) }
      else
        state
  | .continueNextLine =>
      if state.type = .pause then { state with pauseNextLine := true } else state

/-- The location of a line of the function that is running. -/
def locationOf (state : ThreadState runtime) (line : Nat) : Location :=
  (state.stack.headD "", line)

/-- A statement is about to be executed, and has not been paused at. -/
def reachedAt (state : ThreadState runtime) (line : Nat) : Reached where
  location := state.locationOf line
  pauseNextLine := state.pauseNextLine
  tempBkptLoc := state.tempBkptLoc
  breakpoint := state.breakpoints.get? (state.locationOf line)
  loops := state.registered
  paused := false

/-- Record that the latest statement was paused at. -/
def markPaused (state : ThreadState runtime) : ThreadState runtime :=
  match state.history with
  | .reached statement :: earlier =>
      { state with history := .reached { statement with paused := true } :: earlier }
  | _ => state

end ThreadState

/-- The commands that set the event a paused thread waits for. -/
def Command.releases : Command → Bool
  | .edit _ => false
  | .releaseBreakpoint _ => true
  | .continueUntil _ _ => true
  | .continueNextLine => true

/-- `await self._bkpt_event.wait()` and what follows it: the thread waits until
some command releases it, and then goes on or stops. -/
def waitForRelease (resolve : String → String) : ThreadM runtime Unit := do
  let state ← get
  match state.commands with
  | [] => throw .blocked
  | batch :: later =>
      modify (fun state =>
        batch.foldl (·.applyCommand resolve ·) { state with commands := later })
      if batch.any Command.releases then
        let state ← get
        if state.type = .needStop then
          modify (fun state =>
            { state with type := .idle, curCtrlPoints := Dict.empty })
          throw .evalStop
        modify (fun state => { state with type := .running })
      else
        throw .blocked

/-- `_enter_breakpoint`. -/
def enterBreakpoint (resolve : String → String) : ThreadM runtime Unit := do
  modify (fun state => { state.markPaused with type := .pause })
  waitForRelease resolve

/-- Pause if every registered control point is at a step that may pause. -/
def pauseByCtrlPoints (resolve : String → String) : ThreadM runtime Unit := do
  let state ← get
  if state.registered.all (·.shouldPause) then
    enterBreakpoint resolve

/-- `_check_enter_breakpoint`. -/
def checkEnterBreakpoint
    (resolve : String → String)
    (line : Nat) : ThreadM runtime Unit := do
  let state ← get
  let curLoc := state.locationOf line
  if state.pauseNextLine then
    set { state with pauseNextLine := false }
    pauseByCtrlPoints resolve
  else if state.tempBkptLoc = curLoc then
    set { state with tempBkptLoc := ("", -1) }
    pauseByCtrlPoints resolve
  else if state.breakpoints.contains curLoc then
    pauseByCtrlPoints resolve
  else
    return

/-- What precedes a statement: the edits made so far take effect, and the
thread may pause. -/
def beforeStatement
    (resolve : String → String)
    (line : Nat) : ThreadM runtime Unit := do
  modify (·.takeEdits resolve)
  let state ← get
  set { state with history := .reached (state.reachedAt line) :: state.history }
  if !state.breakpoints.entries.isEmpty || state.pauseNextLine || state.tempBkptLoc.2 != -1 then
    checkEnterBreakpoint resolve line

end TensorPC.Pfl
