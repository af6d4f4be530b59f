import Mathlib.Tactic.Common

namespace TensorPC.Tracers.TargetTracer

/-!
# The target tracer

A thread calls and returns from functions while a target tracer may be
installed.  The interpreter hands every call to the installed trace function and
every other event of a frame to that frame's local trace function, as long as any
trace function is installed.  Frames that were entered before the start have no
local function of the tracer and are not represented.
-/

/-- What can be installed with `sys.settrace`. -/
inductive TraceFunc (Other : Type)
  /-- The method `_trace_func` of the tracer. -/
  | own
  | other (func : Other)
  deriving DecidableEq

/-- The names of a code object. -/
structure Code where
  coFilename : String
  coQualname : String
  deriving DecidableEq

/-- A frame, with the number of the call that made it. -/
structure Frame where
  id : Nat
  code : Code
  /-- The local trace function `f_trace` is the tracer's. -/
  traced : Bool

/-- The fields of a `TargetTracer`. -/
structure Tracer (Other : Type) where
  targetFname : String
  targetCoQualname : String
  hasStopCallback : Bool
  originalTraceFunc : Option (TraceFunc Other)
  maxNumVariable : Nat
  maxNumVariableState : Nat

/-- The thread, the tracer, and what the callbacks were called with. -/
structure Thread (Other : Type) where
  tracer : Tracer Other
  installed : Option (TraceFunc Other)
  /-- The frames on the stack, the innermost one first. -/
  frames : List Frame
  calls : Nat
  /-- The frames that were passed to `_callback`. -/
  collected : List Nat
  stopCalls : Nat
  /-- `_tracer_running` of the wrapper. -/
  tracerRunning : Bool

/-- What happens in the thread. -/
inductive Event
  | call (code : Code)
  /-- The innermost frame ends, by a return or by an exception. -/
  | ret
  /-- A line or an exception in the innermost frame. -/
  | otherEvent
  /-- `TargetTracer.stop`, called from outside. -/
  | stop
  /-- `DebugTracerWrapper.stop`. -/
  | wrapperStop
  deriving DecidableEq

variable {Other : Type}

/-- The test of both branches of `_trace_func`. -/
def Tracer.isTarget (tracer : Tracer Other) (code : Code) : Bool :=
  code.coFilename == tracer.targetFname && code.coQualname == tracer.targetCoQualname

namespace Thread

/-- `start`. -/
def start (thread : Thread Other) : Thread Other :=
  { thread with
    tracer :=
      { thread.tracer with
        originalTraceFunc := thread.installed
        maxNumVariableState := thread.tracer.maxNumVariable }
    installed := some .own }

/-- `stop`. -/
def stop (thread : Thread Other) : Thread Other :=
  { thread with
    tracer :=
      { thread.tracer with
        originalTraceFunc := none
        maxNumVariableState := 1 }
    installed := thread.tracer.originalTraceFunc
    stopCalls :=
      if 0 < thread.tracer.maxNumVariableState ∧ thread.tracer.hasStopCallback then
        thread.stopCalls + 1
      else
        thread.stopCalls }

/-- `_callback` and the decrement that follows it. -/
def collect (frame : Frame) (thread : Thread Other) : Thread Other :=
  if 0 < thread.tracer.maxNumVariableState then
    { thread with
      tracer :=
        { thread.tracer with
          maxNumVariableState := thread.tracer.maxNumVariableState - 1 }
      collected := thread.collected ++ [frame.id] }
  else
    thread

/-- The stop inside `_trace_func`, with its own call of `_stop_callback`. -/
def stopItself (thread : Thread Other) : Thread Other :=
  if thread.tracer.maxNumVariableState = 0 then
    let stopped := thread.stop
    if stopped.tracer.hasStopCallback then
      { stopped with stopCalls := stopped.stopCalls + 1 }
    else
      stopped
  else
    thread

/-- `_trace_func` for the event `return`. -/
def traceReturn (frame : Frame) (thread : Thread Other) : Thread Other :=
  if thread.tracer.isTarget frame.code then
    (thread.collect frame).stopItself
  else
    thread

/-- Enter a function; for the event `call`, `_trace_func` returns itself only for
the target. -/
def call (code : Code) (thread : Thread Other) : Thread Other :=
  { thread with
    frames :=
      { id := thread.calls
        code := code
        traced :=
          match thread.installed with
          | some .own => thread.tracer.isTarget code
          | _ => false } :: thread.frames
    calls := thread.calls + 1 }

/-- The interpreter delivers a return only while some function is installed. -/
def ret (thread : Thread Other) : Thread Other :=
  match thread.frames with
  | [] => thread
  | frame :: outer =>
      let left := { thread with frames := outer }
      if thread.installed.isSome ∧ frame.traced then
        left.traceReturn frame
      else
        left

/-- `DebugTracerWrapper.start`. -/
def wrapperStart (thread : Thread Other) : Thread Other :=
  { thread.start with tracerRunning := true }

/-- `DebugTracerWrapper.stop`. -/
def wrapperStop (thread : Thread Other) : Thread Other :=
  if thread.tracerRunning then
    { thread.stop with tracerRunning := false }
  else
    thread

/-- One event; `_trace_func` does nothing but return itself for the others. -/
def step (thread : Thread Other) : Event → Thread Other
  | .call code => thread.call code
  | .ret => thread.ret
  | .otherEvent => thread
  | .stop => thread.stop
  | .wrapperStop => thread.wrapperStop

def run (thread : Thread Other) (events : List Event) : Thread Other :=
  events.foldl step thread

theorem run_concat
    (thread : Thread Other)
    (events : List Event)
    (event : Event) :
    thread.run (events ++ [event]) = (thread.run events).step event := by
  simp [run]

end Thread

/-- A new tracer in a thread that has `previous` installed, started. -/
def started
    (targetFname targetCoQualname : String)
    (hasStopCallback : Bool)
    (maxNumVariable : Nat)
    (previous : Option Other) :
    Thread Other :=
  Thread.wrapperStart
    { tracer :=
        { targetFname := targetFname
          targetCoQualname := targetCoQualname
          hasStopCallback := hasStopCallback
          originalTraceFunc := none
          maxNumVariable := maxNumVariable
          maxNumVariableState := maxNumVariable }
      installed := previous.map .other
      frames := []
      calls := 0
      collected := []
      stopCalls := 0
      tracerRunning := false }

end TensorPC.Tracers.TargetTracer
