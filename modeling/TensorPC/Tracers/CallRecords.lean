import TensorPC.Lib.Brackets
import TensorPC.Py.Dict
import TensorPC.Py.PurePath

namespace TensorPC.Tracers.CallRecords

/-!
# The call tracer

A thread runs inside contexts of tracers that trace returns.  The interpreter
hands the call of a function to the hook of `sys.settrace`, whose result becomes
the local trace function of the frame, and every other event of the frame to that
function, as long as a hook is installed.  A local function that returns `None`
stays in place.  The hook of `sys.setprofile` gets calls, returns and the calls of
C functions, and its result is ignored.
-/

/-- The part of a code object that a tracer looks at. -/
structure Code where
  coName : String
  coFilename : String
  coFirstlineno : Nat
  deriving DecidableEq

/-- The arguments of a tracer; `tracedTypes` is the test `isinstance(self, traced_types)`. -/
structure Config (Object : Type) where
  depth : Int
  tracedTypes : Option (Object → Bool)
  tracedNames : Option (List String)
  ignoredNames : Option (List String)
  tracedFolders : Option (List PurePath)
  innerFrameFnames : List String
  useProfile : Bool

/-- The methods of a tracer that can be the local trace function of a frame. -/
inductive LocalTrace (Tracer : Type)
  | traceReturnFunc (tracer : Tracer)
  | traceLite (tracer : Tracer)
  deriving DecidableEq

def LocalTrace.isTraceReturnFunc {Tracer : Type} : LocalTrace Tracer → Bool
  | .traceReturnFunc _ => true
  | .traceLite _ => false

/-- What is installed with `sys.settrace` and `sys.setprofile`. -/
structure Hooks (Tracer : Type) where
  trace : Option Tracer
  profile : Option Tracer
  deriving DecidableEq

/-- The hooks and `THREAD_GLOBALS.depth` at one moment. -/
structure Snapshot (Tracer : Type) where
  hooks : Hooks Tracer
  depth : Int
  deriving DecidableEq

/-- A `with` statement that is being executed, and what it found. -/
structure Context (Tracer : Type) where
  tracer : Tracer
  entry : Snapshot Tracer
  deriving DecidableEq

/-- A frame on the stack. -/
structure Frame (Tracer : Type) where
  code : Code
  /-- `f_trace`. -/
  trace : Option (LocalTrace Tracer)
  /-- What the call of the function left in `f_trace`. -/
  atCall : Option (LocalTrace Tracer)
  /-- The tracers whose `target_frames` hold the frame. -/
  targetOf : List Tracer
  /-- The contexts that were entered in the frame, the innermost one first. -/
  contexts : List (Context Tracer)
  deriving DecidableEq

/-- The function and the depth of a `FrameResult`, opened by `Call`, closed by `Return`. -/
abbrev FrameResult := Bracket (Code × Int)

/-- The thread and the fields of its tracers; their callbacks get `results`.  A record
is kept of the contexts that were left, with what they found and what they left
behind, and of the calls that were filtered, with the answer and the one for a
function that was not called before. -/
structure Thread (Tracer : Type) where
  hooks : Hooks Tracer
  depth : Int
  codeRes : Tracer → Dict Code (Bool × Bool)
  originalTraceFunctions : Tracer → List (Option Tracer)
  results : Tracer → List FrameResult
  frames : List (Frame Tracer)
  left : List (Snapshot Tracer × Snapshot Tracer)
  decisions : List (Bool × Bool)

/-- What happens in the innermost frame; `self` is the local variable of that name. -/
inductive Event (Tracer Object : Type)
  | call (code : Code) (self : Option Object)
  /-- A line or an exception. -/
  | line (self : Option Object)
  /-- A C function is called or returns. -/
  | cCall (self : Option Object)
  /-- The frame ends, by a return or by an exception. -/
  | ret (self : Option Object)
  | enter (tracer : Tracer)
  | exit

variable {Tracer Object : Type}

/-! ## The filter -/

/-- `f"<{TENSORPC_FILE_NAME_PREFIX}"`. -/
def tensorpcPrefix : String :=
  "<__tensorpc_inmemory_fname"

namespace Config

variable (config : Config Object)

/-- The answers of `_filter_frame` that need no look at the frame. -/
def answerByCode (code : Code) : Option Bool :=
  if tensorpcPrefix.toList.isPrefixOf code.coFilename.toList then
    some true
  else if code.coName.toList.head? = some '<' ∧ code.coName.toList.getLast? = some '>' then
    some false
  else if code.coName = "__getattr__" ∨ code.coName = "__setattr__" then
    some false
  else if config.ignoredNames.any (·.contains code.coName) then
    some false
  else
    none

def isTracedFolder (code : Code) : Bool :=
  config.tracedFolders.all (·.any (PurePath.ofString code.coFilename).isRelativeTo)

/-- `is_traced_types and is_traced_names and is_traced_folders`. -/
def isTraced (code : Code) (self : Option Object) : Bool :=
  config.tracedTypes.all (fun isTracedType => self.all isTracedType) &&
    config.tracedNames.all (·.contains code.coName) &&
    config.isTracedFolder code

/-- Whether the external function is kept because its caller is traced. -/
def keepOneFrame
    (codeRes : Dict Code (Bool × Bool))
    (code : Code)
    (back : Option Code) : Bool :=
  !config.isTracedFolder code && back.any (fun caller => (codeRes.get? caller).any (·.2))

/-- `_filter_frame`: the answer, and `code_res` afterwards. -/
def filterFrame
    (codeRes : Dict Code (Bool × Bool))
    (code : Code)
    (self : Option Object)
    (back : Option Code) : Bool × Dict Code (Bool × Bool) :=
  match codeRes.get? code with
  | some answers => (answers.1, codeRes)
  | none =>
      match config.answerByCode code with
      | some answer => (answer, codeRes.set code (answer, answer))
      | none =>
          let res := config.isTraced code self
          let filterRes := config.keepOneFrame codeRes code back || res
          (res, codeRes.set code (filterRes, res))

/-- The tests of `trace_return_func` before the filter: the frame or one of the
next callers, as many as `depth` says, is a target frame. -/
def isNear
    [DecidableEq Tracer]
    (tracer : Tracer)
    (frame : Frame Tracer)
    (outer : List (Frame Tracer)) : Bool :=
  if tracer ∈ frame.targetOf then
    true
  else if config.depth = 1 then
    false
  else if frame.code.coFilename ∈ config.innerFrameFnames then
    false
  else if config.depth > 0 then
    (outer.take (config.depth - 1).toNat).any (fun candidate => tracer ∈ candidate.targetOf)
  else
    true

end Config

/-! ## The trace functions -/

/-- A call that a frame makes, before the hooks see it. -/
def Frame.new (code : Code) : Frame Tracer where
  code := code
  trace := none
  atCall := none
  targetOf := []
  contexts := []

namespace Thread

variable [DecidableEq Tracer] (config : Tracer → Config Object)

/-- The callback of a tracer is called. -/
def callback
    (thread : Thread Tracer)
    (tracer : Tracer)
    (result : FrameResult) : Thread Tracer :=
  { thread with
    results := Function.update thread.results tracer (thread.results tracer ++ [result]) }

/-- `_filter_frame` on a frame of the thread. -/
def filterFrame
    (thread : Thread Tracer)
    (tracer : Tracer)
    (frame : Frame Tracer)
    (outer : List (Frame Tracer))
    (self : Option Object) : Bool × Thread Tracer :=
  let (answer, codeRes) :=
    (config tracer).filterFrame (thread.codeRes tracer) frame.code self
      (outer.head?.map (·.code))
  (answer, { thread with codeRes := Function.update thread.codeRes tracer codeRes })

/-- `trace_return_func` for an event other than a call: whether it returns `trace_lite`. -/
def traceReturnFunc
    (thread : Thread Tracer)
    (tracer : Tracer)
    (frame : Frame Tracer)
    (outer : List (Frame Tracer))
    (self : Option Object) : Bool × Thread Tracer :=
  if (config tracer).isNear tracer frame outer then
    thread.filterFrame config tracer frame outer self
  else
    (false, thread)

/-- `trace_return_func` for a call. -/
def traceCall
    (thread : Thread Tracer)
    (tracer : Tracer)
    (frame : Frame Tracer)
    (outer : List (Frame Tracer))
    (self : Option Object) : Bool × Thread Tracer :=
  if (config tracer).isNear tracer frame outer then
    let (answer, filtered) := thread.filterFrame config tracer frame outer self
    let afresh :=
      ((config tracer).filterFrame ((thread.codeRes tracer).erase frame.code)
        frame.code self (outer.head?.map (·.code))).1
    let decided := { filtered with decisions := (answer, afresh) :: thread.decisions }
    if answer then
      (true,
        { decided.callback tracer (.opening (frame.code, thread.depth)) with
          depth := thread.depth + 1 })
    else
      (false, decided)
  else
    (false, thread)

/-- `trace_lite` for the event `return`. -/
def traceLiteReturn
    (thread : Thread Tracer)
    (tracer : Tracer)
    (frame : Frame Tracer) : Thread Tracer :=
  { thread.callback tracer (.closing (frame.code, thread.depth - 1)) with
    depth := thread.depth - 1 }

/-- The profile hook gets an event other than a call. -/
def profileEvent
    (thread : Thread Tracer)
    (frame : Frame Tracer)
    (outer : List (Frame Tracer))
    (self : Option Object) : Thread Tracer :=
  match thread.hooks.profile with
  | none => thread
  | some tracer => (thread.traceReturnFunc config tracer frame outer self).2

/-! ## The interpreter -/

/-- A frame is made, with a local trace function. -/
def push
    (thread : Thread Tracer)
    (code : Code)
    (trace : Option (LocalTrace Tracer)) : Thread Tracer :=
  { thread with frames := { Frame.new code with trace, atCall := trace } :: thread.frames }

/-- The trace hook sees a call. -/
def hookCall
    (thread : Thread Tracer)
    (code : Code)
    (self : Option Object) : Thread Tracer :=
  match thread.hooks.trace with
  | none => thread.push code none
  | some tracer =>
      let (accepted, traced) :=
        thread.traceCall config tracer (.new code) thread.frames self
      traced.push code (if accepted then some (.traceLite tracer) else none)

/-- A function is called. -/
def call
    (thread : Thread Tracer)
    (code : Code)
    (self : Option Object) : Thread Tracer :=
  let called := thread.hookCall config code self
  match called.hooks.profile with
  | none => called
  | some tracer => (called.traceCall config tracer (.new code) thread.frames self).2

/-- A line or an exception in the innermost frame; `trace_lite` ignores it. -/
def line
    (thread : Thread Tracer)
    (frame : Frame Tracer)
    (outer : List (Frame Tracer))
    (self : Option Object) : Thread Tracer :=
  match thread.hooks.trace, frame.trace with
  | some _, some (.traceReturnFunc tracer) =>
      let (accepted, traced) := thread.traceReturnFunc config tracer frame outer self
      if accepted then
        { traced with
          frames := { frame with trace := some (.traceLite tracer) } :: outer }
      else
        traced
  | _, _ => thread

/-- A frame ends, and its local trace function gets the event `return`. -/
def localReturn
    (thread : Thread Tracer)
    (frame : Frame Tracer)
    (outer : List (Frame Tracer))
    (self : Option Object) : Thread Tracer :=
  let returned :=
    match thread.hooks.trace, frame.trace with
    | some _, some (.traceLite tracer) => thread.traceLiteReturn tracer frame
    | some _, some (.traceReturnFunc tracer) =>
        (thread.traceReturnFunc config tracer frame outer self).2
    | _, _ => thread
  { returned with frames := outer }

/-- The innermost frame ends. -/
def ret
    (thread : Thread Tracer)
    (frame : Frame Tracer)
    (outer : List (Frame Tracer))
    (self : Option Object) : Thread Tracer :=
  (thread.localReturn config frame outer self).profileEvent config frame outer self

/-- `sys.setprofile(hook)` or `sys.settrace(hook)`. -/
def install
    (hooks : Hooks Tracer)
    (useProfile : Bool)
    (hook : Option Tracer) : Hooks Tracer :=
  if useProfile then { hooks with profile := hook } else { hooks with trace := hook }

def snapshot (thread : Thread Tracer) : Snapshot Tracer :=
  { hooks := thread.hooks, depth := thread.depth }

/-- `__enter__`, called in the innermost frame. -/
def enter
    (thread : Thread Tracer)
    (frame : Frame Tracer)
    (outer : List (Frame Tracer))
    (tracer : Tracer) : Thread Tracer :=
  let entered :=
    { frame with contexts := { tracer, entry := thread.snapshot } :: frame.contexts }
  let calling :=
    if frame.code.coFilename ∈ (config tracer).innerFrameFnames then
      entered
    else
      { entered with
        trace := some (.traceReturnFunc tracer)
        targetOf := tracer :: frame.targetOf }
  { thread with
    hooks := install thread.hooks (config tracer).useProfile (some tracer)
    originalTraceFunctions :=
      Function.update thread.originalTraceFunctions tracer
        (thread.hooks.trace :: thread.originalTraceFunctions tracer)
    frames := calling :: outer }

/-- `__exit__` of the innermost context. -/
def exit
    (thread : Thread Tracer)
    (frame : Frame Tracer)
    (outer : List (Frame Tracer)) : Option (Thread Tracer) :=
  match frame.contexts with
  | [] => none
  | context :: rest =>
      match thread.originalTraceFunctions context.tracer with
      | [] => none
      | original :: others =>
          let hooks := install thread.hooks (config context.tracer).useProfile original
          let calling :=
            { frame with
              contexts := rest
              targetOf := frame.targetOf.filter (· ≠ context.tracer) }
          some
            { thread with
              hooks := hooks
              originalTraceFunctions :=
                Function.update thread.originalTraceFunctions context.tracer others
              frames := calling :: outer
              left := (context.entry, { hooks, depth := thread.depth }) :: thread.left }

/-- One event.  The outermost frame does not end, and a frame ends outside of its
contexts. -/
def step (thread : Thread Tracer) (event : Event Tracer Object) : Option (Thread Tracer) :=
  match event, thread.frames with
  | _, [] => none
  | .call code self, _ :: _ => some (thread.call config code self)
  | .line self, frame :: outer => some (thread.line config frame outer self)
  | .cCall self, frame :: outer => some (thread.profileEvent config frame outer self)
  | .ret self, frame :: outer =>
      if frame.contexts = [] ∧ outer ≠ [] then
        some (thread.ret config frame outer self)
      else
        none
  | .enter tracer, frame :: outer => some (thread.enter config frame outer tracer)
  | .exit, frame :: outer => thread.exit config frame outer

/-- A thread without hooks, in the frame of a function. -/
def init (code : Code) : Thread Tracer where
  hooks := { trace := none, profile := none }
  depth := 0
  codeRes _ := Dict.empty
  originalTraceFunctions _ := []
  results _ := []
  frames := [.new code]
  left := []
  decisions := []

end Thread

end TensorPC.Tracers.CallRecords
