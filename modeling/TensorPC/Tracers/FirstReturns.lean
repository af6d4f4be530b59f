import TensorPC.Tracers.TargetTracer
import Mathlib.Data.List.Induction
import Mathlib.Data.List.TakeWhile

namespace TensorPC.Tracers.TargetTracer

/-!
# The first returns of the target are collected once

A tracer is right while its callback got exactly the first returns of the target
before an outside stop, its stop callback was called once it had finished, and
the function that was installed before is installed again.  After it has
finished, a further stop, or the return of a target frame that it still traces,
undoes that; everything else leaves it alone.
-/

variable {Other : Type}

/-! ## What happened -/

/-- The calls that are not over yet, the number of calls, and the returns so far. -/
structure History where
  frames : List (Nat × Code)
  calls : Nat
  returned : List (Nat × Code)

def History.step (history : History) : Event → History
  | .call code =>
      { history with
        frames := (history.calls, code) :: history.frames
        calls := history.calls + 1 }
  | .ret =>
      match history.frames with
      | [] => history
      | frame :: outer =>
          { history with
            frames := outer
            returned := history.returned ++ [frame] }
  | _ => history

def history (events : List Event) : History :=
  events.foldl History.step { frames := [], calls := 0, returned := [] }

/-- The calls of the target function that returned, in the order of their returns. -/
def targetReturns (tracer : Tracer Other) (events : List Event) : List Nat :=
  ((history events).returned.filter fun frame => tracer.isTarget frame.2).map Prod.fst

/-- A stop from outside. -/
def Event.isStop : Event → Bool
  | .stop => true
  | .wrapperStop => true
  | _ => false

def beforeStop (events : List Event) : List Event :=
  events.takeWhile fun event => !event.isStop

/-- The tracer was stopped from outside, or got all the values it is to collect. -/
def Finished (tracer : Tracer Other) (events : List Event) : Prop :=
  events.any Event.isStop ∨ tracer.maxNumVariable ≤ (targetReturns tracer events).length

/-- What the callbacks and the installed function are to be after these events. -/
structure Right (start : Thread Other) (events : List Event) : Prop where
  collected :
    (start.run events).collected =
      (targetReturns start.tracer (beforeStop events)).take start.tracer.maxNumVariable
  stopsOnce :
    Finished start.tracer events →
      (start.run events).stopCalls = start.tracer.hasStopCallback.toNat
  notEarly :
    ¬ Finished start.tracer events → (start.run events).stopCalls = 0
  restored :
    Finished start.tracer events →
      (start.run events).installed = start.tracer.originalTraceFunc

/-- An event that reaches a tracer that has finished: a stop that would call the
stop callback again or lose the restored function, or the return of a frame that is
still traced. -/
def Late (start : Thread Other) (events : List Event) (event : Event) : Prop :=
  Finished start.tracer events ∧
    match event with
    | .stop =>
        start.tracer.hasStopCallback ∨ start.tracer.originalTraceFunc ≠ none
    | .wrapperStop =>
        Event.wrapperStop ∉ events ∧
          (start.tracer.hasStopCallback ∨ start.tracer.originalTraceFunc ≠ none)
    | .ret =>
        start.tracer.originalTraceFunc ≠ none ∧
          ∃ frame, (start.run events).frames.head? = some frame ∧ frame.traced
    | _ => False

/-! ## Facts about histories -/

@[simp]
theorem history_concat (events : List Event) (event : Event) :
    history (events ++ [event]) = (history events).step event := by
  simp [history]

theorem targetReturns_ret (tracer : Tracer Other) (events : List Event) :
    targetReturns tracer (events ++ [.ret]) =
      targetReturns tracer events ++
        (((history events).frames.head?.toList.filter
          fun frame => tracer.isTarget frame.2).map Prod.fst) := by
  unfold targetReturns
  rw [history_concat]
  cases frames : (history events).frames with
  | nil => simp [History.step, frames]
  | cons frame outer => simp [History.step, frames]

theorem targetReturns_concat
    (tracer : Tracer Other)
    (events : List Event)
    {event : Event}
    (notRet : event ≠ .ret) :
    targetReturns tracer (events ++ [event]) = targetReturns tracer events := by
  unfold targetReturns
  rw [history_concat]
  cases event with
  | ret => exact absurd rfl notRet
  | call code => rfl
  | otherEvent => rfl
  | stop => rfl
  | wrapperStop => rfl

theorem targetReturns_prefixOf
    (tracer : Tracer Other)
    (events : List Event)
    (event : Event) :
    targetReturns tracer events <+: targetReturns tracer (events ++ [event]) := by
  by_cases isRet : event = .ret
  · subst isRet
    rw [targetReturns_ret]
    exact List.prefix_append _ _
  · simp only [targetReturns_concat tracer events isRet, List.prefix_rfl]

theorem beforeStop_eq {events : List Event} (never : events.any Event.isStop = false) :
    beforeStop events = events := by
  apply List.takeWhile_eq_self_iff.mpr
  intro event isIn
  have kept := List.any_eq_false.mp never event isIn
  simpa using kept

theorem beforeStop_concat_stopped
    {events : List Event}
    (stopped : events.any Event.isStop = true)
    (event : Event) :
    beforeStop (events ++ [event]) = beforeStop events := by
  obtain ⟨stopEvent, isIn, isStop⟩ := List.any_eq_true.mp stopped
  unfold beforeStop
  rw [List.takeWhile_append, if_neg]
  intro whole
  have all := List.takeWhile_eq_self_iff.mp
    (List.Sublist.eq_of_length (List.takeWhile_sublist _) whole)
  simpa [isStop] using all stopEvent isIn

theorem beforeStop_concat
    {events : List Event}
    (never : events.any Event.isStop = false)
    (event : Event) :
    beforeStop (events ++ [event]) =
      if event.isStop then events else events ++ [event] := by
  have whole := beforeStop_eq never
  unfold beforeStop at whole ⊢
  rw [List.takeWhile_append, whole]
  by_cases isStop : event.isStop = true <;> simp [isStop]

theorem Finished.concat
    {tracer : Tracer Other}
    {events : List Event}
    (finished : Finished tracer events)
    (event : Event) :
    Finished tracer (events ++ [event]) := by
  rcases finished with stopped | enough
  · left
    simp [stopped]
  · right
    exact Nat.le_trans enough (targetReturns_prefixOf tracer events event).length_le

/-- After the tracer has finished, later returns are not among the first ones. -/
theorem Finished.take_concat
    {tracer : Tracer Other}
    {events : List Event}
    (finished : Finished tracer events)
    (event : Event) :
    (targetReturns tracer (beforeStop (events ++ [event]))).take tracer.maxNumVariable =
      (targetReturns tracer (beforeStop events)).take tracer.maxNumVariable := by
  cases stopped : events.any Event.isStop with
  | true =>
      rw [beforeStop_concat_stopped stopped]
  | false =>
      have enough : tracer.maxNumVariable ≤ (targetReturns tracer events).length := by
        simpa [Finished, stopped] using finished
      rw [beforeStop_concat stopped, beforeStop_eq stopped]
      split
      · rfl
      · obtain ⟨more, same⟩ := targetReturns_prefixOf tracer events event
        rw [← same, List.take_append_of_le_length enough]

/-! ## The two phases -/

/-- The frame of a call that was made while the tracer collected. -/
def frameOf (start : Thread Other) (called : Nat × Code) : Frame :=
  { id := called.1
    code := called.2
    traced := start.tracer.isTarget called.2 }

/-- The tracer still collects: it is installed and counts the returns that are
left, and exactly the frames of the target are traced. -/
structure Tracing (start : Thread Other) (events : List Event) : Prop where
  unfinished : ¬ Finished start.tracer events
  tracer :
    (start.run events).tracer =
      { start.tracer with
        maxNumVariableState :=
          start.tracer.maxNumVariable - (targetReturns start.tracer events).length }
  installed : (start.run events).installed = some .own
  collected : (start.run events).collected = targetReturns start.tracer events
  stopCalls : (start.run events).stopCalls = 0
  running : (start.run events).tracerRunning = true
  frames :
    (start.run events).frames =
      (history events).frames.map (frameOf start)
  calls : (start.run events).calls = (history events).calls

/-- The tracer has stopped: it has forgotten the function it restored, and its
counter is one again. -/
structure Stopped (start : Thread Other) (events : List Event) : Prop where
  finished : Finished start.tracer events
  tracer :
    (start.run events).tracer =
      { start.tracer with
        originalTraceFunc := none
        maxNumVariableState := 1 }
  installed : (start.run events).installed = start.tracer.originalTraceFunc
  collected :
    (start.run events).collected =
      (targetReturns start.tracer (beforeStop events)).take start.tracer.maxNumVariable
  stopCalls : (start.run events).stopCalls = start.tracer.hasStopCallback.toNat
  running :
    (start.run events).tracerRunning = true ↔ Event.wrapperStop ∉ events
  traced :
    ∀ frame ∈ (start.run events).frames,
      frame.traced = true → start.tracer.isTarget frame.code = true

variable {start : Thread Other} {events : List Event}

namespace Tracing

theorem never (tracing : Tracing start events) :
    events.any Event.isStop = false := by
  cases stopped : events.any Event.isStop with
  | true => exact absurd (.inl stopped) tracing.unfinished
  | false => rfl

theorem fewer (tracing : Tracing start events) :
    (targetReturns start.tracer events).length < start.tracer.maxNumVariable := by
  by_contra many
  exact tracing.unfinished (.inr (Nat.le_of_not_lt many))

theorem right (tracing : Tracing start events) :
    Right start events := by
  refine ⟨?_, fun finished => absurd finished tracing.unfinished,
    fun _ => tracing.stopCalls, fun finished => absurd finished tracing.unfinished⟩
  rw [beforeStop_eq tracing.never, List.take_of_length_le (Nat.le_of_lt tracing.fewer)]
  exact tracing.collected

/-- An event that changes nothing but the stack leaves the tracer collecting. -/
theorem kept
    (tracing : Tracing start events)
    {event : Event}
    (notStop : event.isStop = false)
    (same :
      targetReturns start.tracer (events ++ [event]) = targetReturns start.tracer events)
    (after :
      start.run (events ++ [event]) =
        { start.run events with
          frames := (history (events ++ [event])).frames.map (frameOf start)
          calls := (history (events ++ [event])).calls }) :
    Tracing start (events ++ [event]) := by
  have unfinished : ¬ Finished start.tracer (events ++ [event]) := by
    unfold Finished
    rw [same]
    simpa [Finished, notStop] using tracing.unfinished
  constructor
  · exact unfinished
  · rw [after, same]
    exact tracing.tracer
  · rw [after]
    exact tracing.installed
  · rw [after, same]
    exact tracing.collected
  · rw [after]
    exact tracing.stopCalls
  · rw [after]
    exact tracing.running
  · rw [after]
  · rw [after]

theorem call (tracing : Tracing start events) (code : Code) :
    Tracing start (events ++ [.call code]) := by
  have isTarget :
      (start.run events).tracer.isTarget code = start.tracer.isTarget code := by
    rw [tracing.tracer]
    rfl
  apply tracing.kept rfl (targetReturns_concat _ _ (by simp))
  simp [Thread.run_concat, Thread.step, Thread.call, History.step, frameOf,
    tracing.installed, tracing.calls, tracing.frames, isTarget]

theorem otherEvent (tracing : Tracing start events) :
    Tracing start (events ++ [.otherEvent]) := by
  apply tracing.kept rfl (targetReturns_concat _ _ (by simp))
  simp [Thread.run_concat, Thread.step, History.step, ← tracing.calls, ← tracing.frames]

/-- A stop from outside restores what was installed and calls the stop callback. -/
theorem stop
    (tracing : Tracing start events)
    {event : Event}
    (isStop : event.isStop = true) :
    Stopped start (events ++ [event]) := by
  have finished : Finished start.tracer (events ++ [event]) := by
    left
    simp [isStop]
  have left : 0 < (start.run events).tracer.maxNumVariableState := by
    rw [tracing.tracer]
    exact Nat.sub_pos_of_lt tracing.fewer
  have callback :
      (start.run events).tracer.hasStopCallback = start.tracer.hasStopCallback := by
    rw [tracing.tracer]
  have original :
      (start.run events).tracer.originalTraceFunc = start.tracer.originalTraceFunc := by
    rw [tracing.tracer]
  have notWrapper : Event.wrapperStop ∉ events := by
    intro isIn
    simpa [Event.isStop] using List.any_eq_false.mp tracing.never _ isIn
  have traced :
      ∀ frame ∈ (start.run events).frames,
        frame.traced = true → start.tracer.isTarget frame.code = true := by
    intro frame isIn traced
    rw [tracing.frames] at isIn
    obtain ⟨called, -, rfl⟩ := List.mem_map.mp isIn
    exact traced
  have stopCalls :
      (start.run events).stop.stopCalls = start.tracer.hasStopCallback.toNat := by
    simp only [Thread.stop, tracing.stopCalls, callback, left, true_and, Nat.zero_add]
    cases start.tracer.hasStopCallback <;> rfl
  have collected :
      (start.run events).collected =
        (targetReturns start.tracer (beforeStop (events ++ [event]))).take
          start.tracer.maxNumVariable := by
    rw [beforeStop_concat tracing.never, if_pos isStop,
      List.take_of_length_le (Nat.le_of_lt tracing.fewer)]
    exact tracing.collected
  have tracer :
      (start.run events).stop.tracer =
        { start.tracer with
          originalTraceFunc := none
          maxNumVariableState := 1 } := by
    simp only [Thread.stop, tracing.tracer]
  cases event with
  | call code => cases isStop
  | ret => cases isStop
  | otherEvent => cases isStop
  | stop =>
      refine ⟨finished, ?_, ?_, ?_, ?_, ?_, ?_⟩ <;>
        simp only [Thread.run_concat, Thread.step]
      · exact tracer
      · exact original
      · exact collected
      · exact stopCalls
      · simp [Thread.stop, tracing.running, notWrapper]
      · exact traced
  | wrapperStop =>
      refine ⟨finished, ?_, ?_, ?_, ?_, ?_, ?_⟩ <;>
        simp only [Thread.run_concat, Thread.step, Thread.wrapperStop, tracing.running,
          if_true]
      · exact tracer
      · exact original
      · exact collected
      · exact stopCalls
      · simp
      · exact traced

/-- The value of a target frame, with its stop if it is the last one. -/
theorem retTarget
    (tracing : Tracing start events)
    {frame : Nat × Code}
    {outer : List (Nat × Code)}
    (top : (history events).frames = frame :: outer)
    (target : start.tracer.isTarget frame.2 = true) :
    Tracing start (events ++ [.ret]) ∨ Stopped start (events ++ [.ret]) := by
  have fewer := tracing.fewer
  have returns : targetReturns start.tracer (events ++ [.ret]) =
      targetReturns start.tracer events ++ [frame.1] := by
    rw [targetReturns_ret, top]
    simp [target]
  have isTarget : (start.run events).tracer.isTarget frame.2 = true := by
    rw [tracing.tracer]
    exact target
  have delivered : start.run (events ++ [.ret]) =
      (Thread.collect (frameOf start frame)
        { start.run events with frames := outer.map (frameOf start) }).stopItself := by
    simp only [Thread.run_concat, Thread.step, Thread.ret, tracing.frames, top,
      List.map_cons, tracing.installed]
    rw [if_pos ⟨rfl, target⟩]
    exact if_pos isTarget
  have never : (events ++ [Event.ret]).any Event.isStop = false := by
    simp [tracing.never, Event.isStop]
  have outerFrames : (history (events ++ [.ret])).frames = outer := by
    simp [History.step, top]
  have calls : (history (events ++ [.ret])).calls = (history events).calls := by
    simp [History.step, top]
  have positive :
      0 < start.tracer.maxNumVariable - (targetReturns start.tracer events).length :=
    Nat.sub_pos_of_lt fewer
  have collects :
      Thread.collect (frameOf start frame)
          { start.run events with frames := outer.map (frameOf start) } =
        { start.run events with
          frames := outer.map (frameOf start)
          tracer :=
            { start.tracer with
              maxNumVariableState :=
                start.tracer.maxNumVariable -
                  (targetReturns start.tracer (events ++ [.ret])).length }
          collected := targetReturns start.tracer (events ++ [.ret]) } := by
    rw [returns, ← tracing.collected]
    simp only [Thread.collect, tracing.tracer, positive, if_true, List.length_append,
      List.length_singleton, Nat.sub_sub, tracing.collected, frameOf]
  rw [collects] at delivered
  by_cases last :
      start.tracer.maxNumVariable =
        (targetReturns start.tracer (events ++ [.ret])).length
  · right
    have spent :
        start.tracer.maxNumVariable -
          (targetReturns start.tracer (events ++ [.ret])).length = 0 :=
      Nat.sub_eq_zero_of_le (Nat.le_of_eq last)
    have stopped : start.run (events ++ [.ret]) =
        { start.run events with
          frames := outer.map (frameOf start)
          tracer :=
            { start.tracer with
              originalTraceFunc := none
              maxNumVariableState := 1 }
          installed := start.tracer.originalTraceFunc
          collected := targetReturns start.tracer (events ++ [.ret])
          stopCalls := start.tracer.hasStopCallback.toNat } := by
      rw [delivered]
      cases callback : start.tracer.hasStopCallback <;>
        simp [Thread.stopItself, Thread.stop, spent, callback, tracing.stopCalls]
    constructor
    · exact .inr (Nat.le_of_eq last)
    · rw [stopped]
    · rw [stopped]
    · rw [stopped, beforeStop_eq never, List.take_of_length_le (Nat.le_of_eq last.symm)]
    · rw [stopped]
    · have noStop : Event.wrapperStop ∉ events ++ [.ret] := by
        intro isIn
        simpa [Event.isStop] using List.any_eq_false.mp never _ isIn
      rw [stopped]
      exact ⟨fun _ => noStop, fun _ => tracing.running⟩
    · rw [stopped]
      intro frame isIn traced
      obtain ⟨called, -, rfl⟩ := List.mem_map.mp isIn
      exact traced
  · left
    have left : 0 < start.tracer.maxNumVariable -
        (targetReturns start.tracer (events ++ [.ret])).length := by
      rw [returns, List.length_append, List.length_singleton] at last ⊢
      omega
    have unspent : ¬ (start.tracer.maxNumVariable -
        (targetReturns start.tracer (events ++ [.ret])).length = 0) :=
      Nat.ne_of_gt left
    simp only [Thread.stopItself, if_neg unspent] at delivered
    constructor
    · unfold Finished
      rw [never]
      have notEnough := Nat.lt_of_sub_pos left
      simpa using notEnough
    · rw [delivered]
    · rw [delivered]
      exact tracing.installed
    · rw [delivered]
    · rw [delivered]
      exact tracing.stopCalls
    · rw [delivered]
      exact tracing.running
    · rw [delivered, outerFrames]
    · rw [delivered, calls]
      exact tracing.calls

/-- The end of a call. -/
theorem ret (tracing : Tracing start events) :
    Tracing start (events ++ [.ret]) ∨ Stopped start (events ++ [.ret]) := by
  have returns := targetReturns_ret start.tracer events
  cases top : (history events).frames with
  | nil =>
      left
      rw [top] at returns
      apply tracing.kept rfl (by simpa using returns)
      have empty : (start.run events).frames = [] := by
        rw [tracing.frames, top]
        rfl
      simp only [Thread.run_concat, Thread.step, Thread.ret, History.step, top, empty,
        history_concat, List.map_nil, ← tracing.calls]
      rw [← empty]
  | cons frame outer =>
      cases target : start.tracer.isTarget frame.2 with
      | false =>
          left
          rw [top] at returns
          apply tracing.kept rfl (by simpa [target] using returns)
          simp [Thread.run_concat, Thread.step, Thread.ret, History.step, top, target,
            tracing.frames, frameOf, ← tracing.calls]
      | true =>
          exact tracing.retTarget top target

theorem step
    (tracing : Tracing start events)
    (event : Event) :
    Tracing start (events ++ [event]) ∨ Stopped start (events ++ [event]) := by
  cases event with
  | call code => exact .inl (tracing.call code)
  | ret => exact tracing.ret
  | otherEvent => exact .inl tracing.otherEvent
  | stop => exact .inr (tracing.stop rfl)
  | wrapperStop => exact .inr (tracing.stop rfl)

end Tracing

namespace Stopped

theorem right (stopped : Stopped start events) :
    Right start events :=
  ⟨stopped.collected, fun _ => stopped.stopCalls,
    fun unfinished => absurd stopped.finished unfinished, fun _ => stopped.installed⟩

/-- An event that changes nothing but the stack, and adds no frame that is traced
without need, leaves the tracer stopped. -/
theorem kept
    (stopped : Stopped start events)
    {event : Event}
    (notWrapper : event ≠ .wrapperStop)
    {frames : List Frame}
    {calls : Nat}
    (after :
      start.run (events ++ [event]) =
        { start.run events with
          frames := frames
          calls := calls })
    (traced :
      ∀ frame ∈ frames,
        frame.traced = true → start.tracer.isTarget frame.code = true) :
    Stopped start (events ++ [event]) := by
  constructor
  · exact stopped.finished.concat event
  · rw [after]
    exact stopped.tracer
  · rw [after]
    exact stopped.installed
  · rw [after, stopped.finished.take_concat]
    exact stopped.collected
  · rw [after]
    exact stopped.stopCalls
  · rw [after]
    simpa [notWrapper.symm] using stopped.running
  · rw [after]
    exact traced

/-- A return that reaches the stopped tracer takes the installed function away. -/
theorem installed_lateReturn
    (stopped : Stopped start events)
    {frame : Frame}
    {outer : List Frame}
    (top : (start.run events).frames = frame :: outer)
    (delivered : start.tracer.originalTraceFunc ≠ none)
    (traced : frame.traced = true) :
    (start.run (events ++ [.ret])).installed = none := by
  have isTarget : (start.run events).tracer.isTarget frame.code = true := by
    rw [stopped.tracer]
    exact stopped.traced frame (by rw [top]; exact List.mem_cons_self) traced
  have some : (start.run events).installed.isSome = true := by
    rw [stopped.installed]
    exact Option.isSome_iff_ne_none.mpr delivered
  simp only [Thread.run_concat, Thread.step, Thread.ret, top]
  rw [if_pos ⟨some, traced⟩]
  unfold Thread.traceReturn
  rw [if_pos isTarget]
  cases callback : start.tracer.hasStopCallback <;>
    simp [Thread.collect, Thread.stopItself, Thread.stop, stopped.tracer, callback]

theorem not_right_of_late
    (stopped : Stopped start events)
    {event : Event}
    (late : Late start events event) :
    ¬ Right start (events ++ [event]) := by
  intro right
  have finished := stopped.finished.concat event
  have restored := right.restored finished
  have once := right.stopsOnce finished
  have again (reaches :
      (start.run (events ++ [event])).installed = none ∧
        (start.run (events ++ [event])).stopCalls =
          start.tracer.hasStopCallback.toNat + start.tracer.hasStopCallback.toNat)
      (matters : start.tracer.hasStopCallback ∨ start.tracer.originalTraceFunc ≠ none) :
      False := by
    rcases matters with callback | lost
    · rw [once, callback] at reaches
      simpa using reaches.2
    · exact lost (restored.symm.trans reaches.1)
  have calls :
      (start.run events).stop.stopCalls =
        start.tracer.hasStopCallback.toNat + start.tracer.hasStopCallback.toNat := by
    simp only [Thread.stop, stopped.tracer, stopped.stopCalls, Nat.lt_add_one, true_and]
    cases start.tracer.hasStopCallback <;> rfl
  have forgotten : (start.run events).stop.installed = none := by
    simp [Thread.stop, stopped.tracer]
  cases event with
  | call code => exact late.2
  | otherEvent => exact late.2
  | stop =>
      apply again _ late.2
      rw [Thread.run_concat]
      exact ⟨forgotten, calls⟩
  | wrapperStop =>
      apply again _ late.2.2
      rw [Thread.run_concat]
      simp only [Thread.step, Thread.wrapperStop, stopped.running.mpr late.2.1, if_true]
      exact ⟨forgotten, calls⟩
  | ret =>
      obtain ⟨delivered, frame, isTop, traced⟩ := late.2
      obtain ⟨outer, top⟩ := List.head?_eq_some_iff.mp isTop
      rw [stopped.installed_lateReturn top delivered traced] at restored
      exact delivered restored.symm

theorem step_of_not_late
    (stopped : Stopped start events)
    {event : Event}
    (fits : ¬ Late start events event) :
    Stopped start (events ++ [event]) := by
  have harmless
      (unmatched :
        ¬ (start.tracer.hasStopCallback ∨ start.tracer.originalTraceFunc ≠ none)) :
      (start.run events).stop = start.run events := by
    obtain ⟨silent, nothing⟩ := not_or.mp unmatched
    have bare := not_not.mp nothing
    have installed := stopped.installed
    have tracer := stopped.tracer
    rw [bare] at installed
    simp only [Thread.stop, tracer, Bool.not_eq_true] at silent ⊢
    rw [if_neg (by simp [silent]), ← tracer, ← installed]
  cases event with
  | call code =>
      apply stopped.kept (by simp) (Thread.run_concat ..)
      intro frame isIn traced
      rcases List.mem_cons.mp isIn with rfl | isOld
      · dsimp only at traced ⊢
        rw [stopped.tracer] at traced
        split at traced
        · exact traced
        · cases traced
      · exact stopped.traced frame isOld traced
  | otherEvent =>
      exact stopped.kept (by simp) (Thread.run_concat ..) stopped.traced
  | stop =>
      have same : start.run (events ++ [.stop]) = start.run events := by
        rw [Thread.run_concat]
        exact harmless fun matters => fits ⟨stopped.finished, matters⟩
      exact stopped.kept (by simp) same stopped.traced
  | ret =>
      cases top : (start.run events).frames with
      | nil =>
          have same : start.run (events ++ [.ret]) = start.run events := by
            rw [Thread.run_concat]
            simp only [Thread.step, Thread.ret, top]
          exact stopped.kept (by simp) same stopped.traced
      | cons frame outer =>
          have quiet :
              ¬ ((start.run events).installed.isSome = true ∧ frame.traced = true) := by
            intro delivered
            rw [stopped.installed, Option.isSome_iff_ne_none] at delivered
            exact fits ⟨stopped.finished, delivered.1, frame, by rw [top]; rfl, delivered.2⟩
          have popped : start.run (events ++ [.ret]) =
              { start.run events with frames := outer } := by
            rw [Thread.run_concat]
            simp only [Thread.step, Thread.ret, top]
            rw [if_neg quiet]
          apply stopped.kept (by simp) popped
          intro inner isIn
          exact stopped.traced inner (by rw [top]; exact List.mem_cons_of_mem _ isIn)
  | wrapperStop =>
      have after : start.run (events ++ [.wrapperStop]) =
          { start.run events with tracerRunning := false } := by
        simp only [Thread.run_concat, Thread.step, Thread.wrapperStop]
        split
        · rename_i running
          rw [harmless]
          exact fun matters =>
            fits ⟨stopped.finished, stopped.running.mp running, matters⟩
        · rename_i halted
          rw [← Bool.eq_false_iff.mpr halted]
      constructor
      · exact stopped.finished.concat _
      · rw [after]
        exact stopped.tracer
      · rw [after]
        exact stopped.installed
      · rw [after, stopped.finished.take_concat]
        exact stopped.collected
      · rw [after]
        exact stopped.stopCalls
      · rw [after]
        simp
      · rw [after]
        exact stopped.traced

end Stopped

/-! ## Whole runs -/

/-- The tracer is right after every event of the run. -/
def RunsRight (start : Thread Other) (events : List Event) : Prop :=
  ∀ earlier, earlier <+: events → Right start earlier

/-- No event reaches the tracer after it has finished. -/
def NeverLate (start : Thread Other) (events : List Event) : Prop :=
  ∀ earlier event, earlier ++ [event] <+: events → ¬ Late start earlier event

theorem follows_of_neverLate
    (initially : Tracing start [])
    (fits : NeverLate start events) :
    Tracing start events ∨ Stopped start events := by
  induction events using List.reverseRecOn with
  | nil =>
      exact .inl initially
  | append_singleton earlier event inductionHypothesis =>
      have before := inductionHypothesis
        fun first next isPrefix => fits first next (isPrefix.trans (List.prefix_append ..))
      rcases before with tracing | stopped
      · exact tracing.step event
      · exact .inr (stopped.step_of_not_late (fits earlier event List.prefix_rfl))

theorem neverLate_of_runsRight
    (initially : Tracing start [])
    (right : RunsRight start events) :
    NeverLate start events := by
  induction events using List.reverseRecOn with
  | nil =>
      intro earlier event isPrefix
      simp at isPrefix
  | append_singleton before last inductionHypothesis =>
      have fits := inductionHypothesis
        fun earlier isPrefix => right earlier (isPrefix.trans (List.prefix_append ..))
      intro earlier event isPrefix late
      rcases List.prefix_concat_iff.mp isPrefix with whole | proper
      · obtain ⟨rfl, rfl⟩ : earlier = before ∧ event = last := by
          simpa using whole
        rcases follows_of_neverLate initially fits with tracing | stopped
        · exact tracing.unfinished late.1
        · exact stopped.not_right_of_late late (right _ List.prefix_rfl)
      · exact fits earlier event proper late

/-- The first returns of the target are collected, the stop callback is called once
and the function installed before stays installed, as long as nothing reaches the
tracer that has finished. -/
theorem runsRight_iff_neverLate
    (targetFname targetCoQualname : String)
    (hasStopCallback : Bool)
    (maxNumVariable : Nat)
    (collects : 0 < maxNumVariable)
    (previous : Option Other)
    (events : List Event) :
    let start := started targetFname targetCoQualname hasStopCallback maxNumVariable previous
    RunsRight start events ↔ NeverLate start events := by
  intro start
  have initially : Tracing start [] := by
    refine ⟨?_, rfl, rfl, rfl, rfl, rfl, rfl, rfl⟩
    rintro (stopped | enough)
    · cases stopped
    · exact absurd enough (Nat.not_le_of_lt collects)
  constructor
  · exact neverLate_of_runsRight initially
  · intro fits earlier isPrefix
    have follows := follows_of_neverLate initially
      fun first event before => fits first event (before.trans isPrefix)
    rcases follows with tracing | stopped
    · exact tracing.right
    · exact stopped.right

/-- A traced function that calls itself, with two values to collect. -/
def recursiveRun : List Event :=
  [.call ⟨"train.py", "step"⟩, .otherEvent, .call ⟨"train.py", "step"⟩, .ret, .ret]

theorem runsRight_iff_neverLate_recursive :
    0 < 2 ∧
      (RunsRight (started "train.py" "step" true 2 (some ())) recursiveRun ↔
        NeverLate (started "train.py" "step" true 2 (some ())) recursiveRun) :=
  ⟨Nat.two_pos,
    runsRight_iff_neverLate "train.py" "step" true 2 Nat.two_pos (some ()) recursiveRun⟩

/-- With one value to collect, the return of the outer call is collected as well, the
stop callback is called again, and the function installed before is lost. -/
theorem not_runsRight_recursive :
    ¬ RunsRight (started "train.py" "step" true 1 (some ())) recursiveRun := by
  intro right
  have collected := (right recursiveRun List.prefix_rfl).collected
  revert collected
  decide

end TensorPC.Tracers.TargetTracer
