import TensorPC.Lib.Transition
import TensorPC.Tracers.CallRecords

namespace TensorPC.Tracers.CallRecords

/-!
# Bracketed call records

The calls that a tracer has recorded and not closed are those of frames that have
not ended, in every run in which the tracers of traced functions are left in
charge of them, profile hooks record nothing, and the filter looks at the frames
of a function alike.
-/

variable {Tracer Object : Type} [DecidableEq Tracer]

/-! ## The contract -/

/-- A call inside another one is at a greater depth. -/
abbrev Deeper (inner outer : Code × Int) : Prop :=
  outer.2 < inner.2

namespace Thread

/-- The recorded calls without a return, the latest first, if the records of a
tracer are well bracketed. -/
def openCalls
    (thread : Thread Tracer)
    (tracer : Tracer) : Option (List (Code × Int)) :=
  Bracket.stillOpen Deeper (thread.results tracer)

/-- The contract of the tracers.  Only calls that have not ended lack a return, a
context leaves the hooks and the depth as it found them, and the answers of the
filter do not depend on earlier calls. -/
structure IsBracketed (thread : Thread Tracer) : Prop where
  records :
    ∀ tracer, ∃ calls, thread.openCalls tracer = some calls ∧
      calls.length < thread.frames.length ∧
      (calls.map (·.1)).Sublist (thread.frames.map (·.code))
  contexts : ∀ context ∈ thread.left, context.1 = context.2
  decisions : ∀ decision ∈ thread.decisions, decision.1 = decision.2

end Thread

/-! ## The condition -/

/-- The answer of the filter, with a verdict where it looks at the frame. -/
def Config.expected
    (config : Config Object)
    (verdict : Code → Bool)
    (code : Code) : Bool :=
  (config.answerByCode code).getD (verdict code)

/-- The tracer whose `trace_return_func` gets the events of a frame. -/
def LocalTrace.asked : LocalTrace Tracer → Option Tracer
  | .traceReturnFunc tracer => some tracer
  | .traceLite _ => none

/-- No context has put its own function in the place of the one that records the
return, and none records the return of a frame whose call was not recorded. -/
def Frame.KeepsTrace (frame : Frame Tracer) : Prop :=
  frame.trace = frame.atCall ∨
    frame.atCall = none ∧ frame.trace.all LocalTrace.isTraceReturnFunc = true

instance (frame : Frame Tracer) : Decidable frame.KeepsTrace :=
  inferInstanceAs (Decidable (_ ∨ _))

namespace Thread

variable (config : Tracer → Config Object) (verdict : Tracer → Code → Bool)

/-- A tracer that filters a frame for the first time does not keep it for its
caller, and what it looks at in the frame agrees with the verdict. -/
def FiltersAlike
    (thread : Thread Tracer)
    (tracer : Tracer)
    (frame : Frame Tracer)
    (outer : List (Frame Tracer))
    (self : Option Object) : Prop :=
  (config tracer).isNear tracer frame outer = true →
    (config tracer).answerByCode frame.code = none →
    (config tracer).isTraced frame.code self = verdict tracer frame.code ∧
      ((thread.codeRes tracer).get? frame.code = none →
        (config tracer).keepOneFrame (thread.codeRes tracer) frame.code
          (outer.head?.map (·.code)) = false)

instance
    (thread : Thread Tracer)
    (tracer : Tracer)
    (frame : Frame Tracer)
    (outer : List (Frame Tracer))
    (self : Option Object) :
    Decidable (thread.FiltersAlike config verdict tracer frame outer self) :=
  inferInstanceAs (Decidable (_ → _))

/-- The tracer that a frame asks, while the trace hook makes it ask one. -/
def asked
    (thread : Thread Tracer)
    (frame : Frame Tracer) : Option Tracer :=
  if thread.hooks.trace.isSome then frame.trace.bind LocalTrace.asked else none

/-- The condition on an event. -/
def Meets (thread : Thread Tracer) (event : Event Tracer Object) : Prop :=
  match event, thread.frames with
  | .call code self, frames =>
      (∀ tracer ∈ thread.hooks.trace,
        thread.FiltersAlike config verdict tracer (.new code) frames self) ∧
      ∀ tracer ∈ (thread.hookCall config code self).hooks.profile,
        (thread.hookCall config code self).FiltersAlike config verdict tracer
          (.new code) frames self ∧
        ((config tracer).isNear tracer (.new code) frames = true →
          (config tracer).expected (verdict tracer) code = false)
  | .line self, frame :: outer =>
      ∀ tracer ∈ thread.asked frame,
        thread.FiltersAlike config verdict tracer frame outer self
  | .cCall self, frame :: outer =>
      ∀ tracer ∈ thread.hooks.profile,
        thread.FiltersAlike config verdict tracer frame outer self
  | .ret self, frame :: outer =>
      (thread.hooks.trace.isSome = true → frame.KeepsTrace) ∧
      (∀ tracer ∈ thread.asked frame,
        thread.FiltersAlike config verdict tracer frame outer self) ∧
      ∀ tracer ∈ (thread.localReturn config frame outer self).hooks.profile,
        (thread.localReturn config frame outer self).FiltersAlike config verdict tracer
          frame outer self
  | .enter tracer, _ =>
      (config tracer).useProfile = true → thread.hooks.profile = thread.hooks.trace
  | _, _ => True

instance decidableMeets
    (thread : Thread Tracer)
    (event : Event Tracer Object) :
    Decidable (thread.Meets config verdict event) := by
  unfold Meets
  split <;> infer_instance

end Thread

/-! ## Frames and contexts -/

/-- The number of frames whose calls were recorded. -/
def recordedCount : List (Frame Tracer) → Int
  | [] => 0
  | frame :: outer => (if frame.atCall.isSome then 1 else 0) + recordedCount outer

/-- The recorded calls of the frames of a stack. -/
def callsOf (tracer : Tracer) : List (Frame Tracer) → List (Code × Int)
  | [] => []
  | frame :: outer =>
      if frame.atCall = some (.traceLite tracer) then
        (frame.code, recordedCount outer) :: callsOf tracer outer
      else
        callsOf tracer outer

def contextsOf (frames : List (Frame Tracer)) : List (Context Tracer) :=
  frames.flatMap (·.contexts)

section Follow

variable (config : Tracer → Config Object)

/-- The hooks inside contexts. -/
def hooksOf : List (Context Tracer) → Hooks Tracer
  | [] => { trace := none, profile := none }
  | context :: rest =>
      Thread.install (hooksOf rest) (config context.tracer).useProfile (some context.tracer)

/-- The hooks that the contexts of a tracer have saved. -/
def originalsOf
    (tracer : Tracer)
    (contexts : List (Context Tracer)) : List (Option Tracer) :=
  (contexts.filter (·.tracer = tracer)).map (·.entry.hooks.trace)

/-- The contexts of a frame found the hooks of the contexts around them. -/
def ContextsFollow
    (depth : Int)
    (around : List (Context Tracer)) : List (Context Tracer) → Prop
  | [] => True
  | context :: rest =>
      context.entry = { hooks := hooksOf config (rest ++ around), depth := depth } ∧
        ((config context.tracer).useProfile = true →
          context.entry.hooks.profile = context.entry.hooks.trace) ∧
        ContextsFollow depth around rest

/-- A call was recorded by the tracer whose hook was installed then. -/
def FramesFollow : List (Frame Tracer) → Prop
  | [] => True
  | frame :: outer =>
      (∀ trace ∈ frame.atCall, ∃ tracer, trace = .traceLite tracer ∧
        (hooksOf config (contextsOf outer)).trace = some tracer) ∧
      ContextsFollow config (recordedCount (frame :: outer)) (contextsOf outer)
        frame.contexts ∧
      FramesFollow outer

theorem depth_lt_of_mem_callsOf
    {tracer : Tracer}
    {frames : List (Frame Tracer)}
    {call : Code × Int}
    (member : call ∈ callsOf tracer frames) :
    call.2 < recordedCount frames := by
  induction frames with
  | nil =>
      simp [callsOf] at member
  | cons frame outer inductionHypothesis =>
      rw [callsOf] at member
      rw [recordedCount]
      split at member
      · rename_i recorded
        rw [recorded]
        rcases List.mem_cons.mp member with rfl | earlier
        · simp only [Option.isSome_some, ↓reduceIte]
          omega
        · have below := inductionHypothesis earlier
          simp
          omega
      · have below := inductionHypothesis member
        split <;> omega

theorem callsOf_sublist
    (tracer : Tracer)
    (frames : List (Frame Tracer)) :
    ((callsOf tracer frames).map (·.1)).Sublist (frames.map (·.code)) := by
  induction frames with
  | nil =>
      exact .slnil
  | cons frame outer inductionHypothesis =>
      rw [callsOf]
      split
      · exact inductionHypothesis.cons_cons _
      · exact inductionHypothesis.cons _

/-- The call of the outermost frame is not recorded. -/
theorem FramesFollow.length_callsOf_lt
    {frames : List (Frame Tracer)}
    (follow : FramesFollow config frames)
    (tracer : Tracer)
    (nonempty : frames ≠ []) :
    (callsOf tracer frames).length < frames.length := by
  induction frames with
  | nil =>
      exact absurd rfl nonempty
  | cons frame outer inductionHypothesis =>
      obtain ⟨hooked, -, follows⟩ := follow
      rw [callsOf]
      cases outer with
      | nil =>
          split
          · rename_i recorded
            obtain ⟨other, -, installed⟩ := hooked _ recorded
            simp [contextsOf, hooksOf] at installed
          · simp [callsOf]
      | cons caller rest =>
          have below := inductionHypothesis follows (List.cons_ne_nil _ _)
          split
          · simpa using below
          · exact Nat.lt_succ_of_lt below

end Follow

/-! ## The invariant -/

section Invariant

open Thread

variable (config : Tracer → Config Object) (verdict : Tracer → Code → Bool)

/-- The invariant of a thread between two events. -/
structure Inv (thread : Thread Tracer) : Prop where
  nonempty : thread.frames ≠ []
  caches :
    ∀ tracer code answers,
      (thread.codeRes tracer).get? code = some answers →
      answers.1 = (config tracer).expected (verdict tracer) code
  decisions : ∀ decision ∈ thread.decisions, decision.1 = decision.2
  left : ∀ context ∈ thread.left, context.1 = context.2
  depth : thread.depth = recordedCount thread.frames
  calls : ∀ tracer, thread.openCalls tracer = some (callsOf tracer thread.frames)
  hooks : thread.hooks = hooksOf config (contextsOf thread.frames)
  originals :
    ∀ tracer,
      thread.originalTraceFunctions tracer =
        originalsOf tracer (contextsOf thread.frames)
  frames : FramesFollow config thread.frames

variable {config verdict} {thread : Thread Tracer}

theorem Inv.isBracketed (inv : Inv config verdict thread) : thread.IsBracketed where
  records tracer :=
    ⟨callsOf tracer thread.frames, inv.calls tracer,
      inv.frames.length_callsOf_lt config tracer inv.nonempty,
      callsOf_sublist tracer thread.frames⟩
  contexts := inv.left
  decisions := inv.decisions

theorem inv_init (code : Code) : Inv config verdict (Thread.init code) where
  nonempty := List.cons_ne_nil _ _
  caches tracer other answers found := by simp [Thread.init] at found
  decisions decision member := by simp [Thread.init] at member
  left context member := by simp [Thread.init] at member
  depth := rfl
  calls tracer := rfl
  hooks := rfl
  originals tracer := rfl
  frames := by simp [Thread.init, FramesFollow, Frame.new, ContextsFollow]

/-! ### The filter -/

omit [DecidableEq Tracer] in
/-- The filter answers as expected, whether it has seen the function or not. -/
theorem Config.filterFrame_expected
    (asks : Config Object)
    {verdictOf : Code → Bool}
    {codeRes : Dict Code (Bool × Bool)}
    {code : Code}
    {self : Option Object}
    (back : Option Code)
    (cached :
      ∀ answers, codeRes.get? code = some answers →
        answers.1 = asks.expected verdictOf code)
    (alike : asks.answerByCode code = none → asks.isTraced code self = verdictOf code) :
    (asks.filterFrame codeRes code self back).1 = asks.expected verdictOf code := by
  unfold Config.filterFrame
  split
  · rename_i answers found
    exact cached answers found
  · split
    · rename_i answer byCode
      simp [Config.expected, byCode]
    · rename_i notByCode
      simp [Config.expected, notByCode, alike notByCode]

/-- What the filter stores is what it is expected to answer. -/
theorem Config.filterFrame_caches
    (asks : Config Object)
    {verdictOf : Code → Bool}
    {codeRes : Dict Code (Bool × Bool)}
    {code : Code}
    {self : Option Object}
    {back : Option Code}
    (cached :
      ∀ other answers, codeRes.get? other = some answers →
        answers.1 = asks.expected verdictOf other)
    (alike :
      asks.answerByCode code = none →
        asks.isTraced code self = verdictOf code ∧
          (codeRes.get? code = none → asks.keepOneFrame codeRes code back = false))
    (other : Code)
    (answers : Bool × Bool)
    (found : (asks.filterFrame codeRes code self back).2.get? other = some answers) :
    answers.1 = asks.expected verdictOf other := by
  unfold Config.filterFrame at found
  split at found
  · exact cached other answers found
  · rename_i fresh
    split at found
    · rename_i answer byCode
      rw [Dict.get?_set] at found
      split at found
      · rename_i same
        cases found
        simp [Config.expected, same, byCode]
      · exact cached other answers found
    · rename_i notByCode
      obtain ⟨traced, notKept⟩ := alike notByCode
      rw [Dict.get?_set] at found
      split at found
      · rename_i same
        cases found
        simp [Config.expected, same, notByCode, traced, notKept fresh]
      · exact cached other answers found

/-- Only the stored answers of a tracer change. -/
theorem Inv.setCodeRes
    (inv : Inv config verdict thread)
    {tracer : Tracer}
    {codeRes : Dict Code (Bool × Bool)}
    (cached :
      ∀ code answers, codeRes.get? code = some answers →
        answers.1 = (config tracer).expected (verdict tracer) code) :
    Inv config verdict
      { thread with codeRes := Function.update thread.codeRes tracer codeRes } :=
  { inv with
    caches := fun other code answers found => by
      by_cases same : other = tracer
      · subst same
        simp only [Function.update_self] at found
        exact cached code answers found
      · simp only [Function.update_of_ne same] at found
        exact inv.caches other code answers found }

section Filtered

variable {tracer : Tracer} {frame : Frame Tracer} {outer : List (Frame Tracer)}
variable {self : Option Object}

theorem Inv.filterFrame
    (inv : Inv config verdict thread)
    (alike : thread.FiltersAlike config verdict tracer frame outer self)
    (near : (config tracer).isNear tracer frame outer = true) :
    Inv config verdict (thread.filterFrame config tracer frame outer self).2 :=
  inv.setCodeRes (Config.filterFrame_caches _ (inv.caches tracer) (alike near))

/-- Both answers of the filter about a call are the expected one. -/
theorem Inv.answers
    (inv : Inv config verdict thread)
    (alike : thread.FiltersAlike config verdict tracer frame outer self)
    (near : (config tracer).isNear tracer frame outer = true) :
    (thread.filterFrame config tracer frame outer self).1 =
        (config tracer).expected (verdict tracer) frame.code ∧
      ((config tracer).filterFrame ((thread.codeRes tracer).erase frame.code)
          frame.code self (outer.head?.map (·.code))).1 =
        (config tracer).expected (verdict tracer) frame.code := by
  have traced := fun notByCode => (alike near notByCode).1
  constructor
  · exact Config.filterFrame_expected _ _ (inv.caches tracer frame.code) traced
  · refine Config.filterFrame_expected _ _ ?_ traced
    intro answers found
    simp at found

theorem Inv.traceReturnFunc
    (inv : Inv config verdict thread)
    (alike : thread.FiltersAlike config verdict tracer frame outer self) :
    Inv config verdict (thread.traceReturnFunc config tracer frame outer self).2 := by
  unfold Thread.traceReturnFunc
  split
  · rename_i near
    exact inv.filterFrame alike near
  · exact inv

theorem Inv.decided
    (inv : Inv config verdict thread)
    {answer afresh : Bool}
    (same : answer = afresh) :
    Inv config verdict { thread with decisions := (answer, afresh) :: thread.decisions } :=
  { inv with
    decisions := fun other member => by
      rcases List.mem_cons.mp member with rfl | earlier
      · exact same
      · exact inv.decisions other earlier }

/-- A hook that filters a call out records nothing. -/
theorem Inv.traceCall_refused
    (inv : Inv config verdict thread)
    (alike : thread.FiltersAlike config verdict tracer frame outer self)
    (refused :
      (config tracer).isNear tracer frame outer = true →
        (config tracer).expected (verdict tracer) frame.code = false) :
    Inv config verdict (thread.traceCall config tracer frame outer self).2 := by
  unfold Thread.traceCall
  split
  · rename_i near
    obtain ⟨answer, afresh⟩ := inv.answers alike near
    simp only [answer, afresh, refused near]
    exact (inv.filterFrame alike near).decided rfl
  · exact inv

theorem Inv.profileEvent
    (inv : Inv config verdict thread)
    (alike :
      ∀ tracer ∈ thread.hooks.profile,
        thread.FiltersAlike config verdict tracer frame outer self) :
    Inv config verdict (thread.profileEvent config frame outer self) := by
  unfold Thread.profileEvent
  split
  · exact inv
  · rename_i tracer installed
    exact inv.traceReturnFunc (alike tracer installed)

end Filtered

/-! ### Frames come and go -/

/-- The local trace function and the tracers of the innermost frame change. -/
theorem Inv.retrace
    (inv : Inv config verdict thread)
    {frame : Frame Tracer}
    {outer : List (Frame Tracer)}
    (shape : thread.frames = frame :: outer)
    (trace : Option (LocalTrace Tracer))
    (targetOf : List Tracer) :
    Inv config verdict
      { thread with frames := { frame with trace, targetOf } :: outer } := by
  obtain ⟨_, caches, decisions, left, depth, calls, hooks, originals, frames⟩ := inv
  rw [shape] at depth calls hooks originals frames
  exact ⟨List.cons_ne_nil _ _, caches, decisions, left, depth, calls, hooks, originals,
    frames⟩

/-- A call that no hook has recorded. -/
theorem Inv.push
    (inv : Inv config verdict thread)
    (code : Code) :
    Inv config verdict (thread.push code none) := by
  obtain ⟨_, caches, decisions, left, depth, calls, hooks, originals, frames⟩ := inv
  refine ⟨List.cons_ne_nil _ _, caches, decisions, left, ?_, fun tracer => ?_, hooks,
    originals, ?_⟩
  · simpa [Thread.push, recordedCount] using depth
  · rw [Thread.push, callsOf, if_neg (by simp)]
    exact calls tracer
  · simpa [Thread.push, FramesFollow, Frame.new, ContextsFollow] using frames

/-- A call that the trace hook has recorded. -/
theorem Inv.pushRecorded
    (inv : Inv config verdict thread)
    {tracer : Tracer}
    (installed : thread.hooks.trace = some tracer)
    (code : Code) :
    Inv config verdict
      (Thread.push
        { thread.callback tracer (.opening (code, thread.depth)) with
          depth := thread.depth + 1 }
        code (some (.traceLite tracer))) := by
  obtain ⟨_, caches, decisions, left, depth, calls, hooks, originals, frames⟩ := inv
  refine ⟨List.cons_ne_nil _ _, caches, decisions, left, ?_, fun other => ?_, hooks,
    originals, fun trace isTrace => ?_, trivial, frames⟩
  · simp only [Thread.push, recordedCount, Option.isSome_some, ↓reduceIte]
    exact (congrArg (· + 1) depth).trans (Int.add_comm _ _)
  · have known := calls other
    simp only [Thread.push, Thread.openCalls, Thread.callback, callsOf, Option.some.injEq,
      LocalTrace.traceLite.injEq, ← depth] at known ⊢
    by_cases same : other = tracer
    · subst same
      rw [Function.update_self, if_pos rfl]
      refine Bracket.stillOpen_opening Deeper known (fun call member => ?_)
      have below := depth_lt_of_mem_callsOf member
      rwa [← depth] at below
    · rwa [Function.update_of_ne same, if_neg (Ne.symm same)]
  · cases isTrace
    exact ⟨tracer, rfl, hooks ▸ installed⟩

section Innermost

variable {frame : Frame Tracer} {outer : List (Frame Tracer)}

/-- A frame ends whose call was not recorded. -/
theorem Inv.pop
    (inv : Inv config verdict thread)
    (shape : thread.frames = frame :: outer)
    (outside : frame.contexts = [])
    (inner : outer ≠ [])
    (unrecorded : frame.atCall = none) :
    Inv config verdict { thread with frames := outer } := by
  obtain ⟨_, caches, decisions, left, depth, calls, hooks, originals, frames⟩ := inv
  rw [shape] at depth calls hooks originals frames
  simp only [contextsOf, List.flatMap_cons, outside, List.nil_append] at hooks originals
  simp only [callsOf, unrecorded, reduceCtorEq, ↓reduceIte] at calls
  exact ⟨inner, caches, decisions, left, by simpa [recordedCount, unrecorded] using depth,
    calls, hooks, originals, frames.2.2⟩

/-- A frame ends whose call was recorded, and the return is. -/
theorem Inv.popRecorded
    (inv : Inv config verdict thread)
    (shape : thread.frames = frame :: outer)
    (outside : frame.contexts = [])
    (inner : outer ≠ [])
    {tracer : Tracer}
    (recorded : frame.atCall = some (.traceLite tracer)) :
    Inv config verdict { thread.traceLiteReturn tracer frame with frames := outer } := by
  obtain ⟨_, caches, decisions, left, depth, calls, hooks, originals, frames⟩ := inv
  rw [shape] at depth calls hooks originals frames
  simp only [contextsOf, List.flatMap_cons, outside, List.nil_append] at hooks originals
  have atDepth : thread.depth - 1 = recordedCount outer := by
    rw [depth, recordedCount, recorded]
    simp only [Option.isSome_some, ↓reduceIte]
    omega
  refine ⟨inner, caches, decisions, left, atDepth, fun other => ?_, hooks, originals,
    frames.2.2⟩
  have known := calls other
  simp only [callsOf, recorded, Option.some.injEq, LocalTrace.traceLite.injEq,
    Thread.openCalls, Thread.traceLiteReturn, Thread.callback, atDepth] at known ⊢
  by_cases same : other = tracer
  · subst same
    rw [if_pos rfl] at known
    rw [Function.update_self]
    exact Bracket.stillOpen_closing Deeper known
  · rw [if_neg (Ne.symm same)] at known
    rwa [Function.update_of_ne same]

end Innermost

/-! ### Events -/

section Events

variable {frame : Frame Tracer} {outer : List (Frame Tracer)} {self : Option Object}

theorem frames_traceReturnFunc (tracer : Tracer) :
    (thread.traceReturnFunc config tracer frame outer self).2.frames = thread.frames := by
  unfold Thread.traceReturnFunc
  split <;> rfl

theorem Inv.hookCall
    (inv : Inv config verdict thread)
    {code : Code}
    (alike :
      ∀ tracer ∈ thread.hooks.trace,
        thread.FiltersAlike config verdict tracer (.new code) thread.frames self) :
    Inv config verdict (thread.hookCall config code self) := by
  unfold Thread.hookCall
  split
  · exact inv.push code
  · rename_i tracer installed
    simp only [Thread.traceCall]
    split
    · rename_i near
      obtain ⟨answer, afresh⟩ := inv.answers (alike tracer installed) near
      have decided :=
        (inv.filterFrame (alike tracer installed) near).decided (answer.trans afresh.symm)
      split
      · exact decided.pushRecorded installed code
      · exact decided.push code
    · exact inv.push code

theorem Inv.call
    (inv : Inv config verdict thread)
    {code : Code}
    (meets : thread.Meets config verdict (.call code self)) :
    Inv config verdict (thread.call config code self) := by
  have hooked := inv.hookCall meets.1
  simp only [Thread.call]
  split
  · exact hooked
  · rename_i tracer installed
    obtain ⟨alike, refused⟩ := meets.2 tracer installed
    exact hooked.traceCall_refused alike refused

theorem Inv.line
    (inv : Inv config verdict thread)
    (shape : thread.frames = frame :: outer)
    (alike :
      ∀ tracer ∈ thread.asked frame,
        thread.FiltersAlike config verdict tracer frame outer self) :
    Inv config verdict (thread.line config frame outer self) := by
  unfold Thread.line
  split
  · rename_i hook tracer installed asks
    have traced :=
      inv.traceReturnFunc (alike tracer (by simp [Thread.asked, installed, asks,
        LocalTrace.asked]))
    simp only []
    split
    · exact traced.retrace ((frames_traceReturnFunc tracer).trans shape) _ _
    · exact traced
  · exact inv

/-- The return of a frame is recorded if its call was, and only then. -/
theorem Inv.localReturn
    (inv : Inv config verdict thread)
    (shape : thread.frames = frame :: outer)
    (outside : frame.contexts = [])
    (inner : outer ≠ [])
    (keeps : thread.hooks.trace.isSome = true → frame.KeepsTrace)
    (alike :
      ∀ tracer ∈ thread.asked frame,
        thread.FiltersAlike config verdict tracer frame outer self) :
    Inv config verdict (thread.localReturn config frame outer self) := by
  cases recorded : frame.atCall with
  | some trace =>
      have hooks := inv.hooks
      have follow := inv.frames
      rw [shape] at hooks follow
      simp only [contextsOf, List.flatMap_cons, outside, List.nil_append] at hooks
      obtain ⟨tracer, rfl, installed⟩ := follow.1 trace recorded
      rw [contextsOf, ← hooks] at installed
      have kept : frame.trace = some (.traceLite tracer) := by
        rcases keeps (by simp [installed]) with same | ⟨missing, -⟩
        · rw [same, recorded]
        · simp [recorded] at missing
      simp only [Thread.localReturn, installed, kept]
      exact inv.popRecorded shape outside inner recorded
  | none =>
      unfold Thread.localReturn
      split
      · rename_i hook tracer installed lite
        rcases keeps (by simp [installed]) with same | ⟨-, full⟩
        · simp [lite, recorded] at same
        · simp [lite, LocalTrace.isTraceReturnFunc] at full
      · rename_i hook tracer installed asks
        have traced :=
          inv.traceReturnFunc (alike tracer (by simp [Thread.asked, installed, asks,
            LocalTrace.asked]))
        exact traced.pop ((frames_traceReturnFunc tracer).trans shape) outside inner recorded
      · exact inv.pop shape outside inner recorded

omit [DecidableEq Tracer] in
theorem install_restores
    (hooks : Hooks Tracer)
    (useProfile : Bool)
    (tracer : Tracer)
    (unprofiled : useProfile = true → hooks.profile = hooks.trace) :
    Thread.install (Thread.install hooks useProfile (some tracer)) useProfile hooks.trace =
      hooks := by
  cases useProfile with
  | false =>
      rfl
  | true =>
      obtain ⟨trace, profile⟩ := hooks
      cases unprofiled rfl
      rfl

/-- A context is entered, and the hook that it found is saved. -/
theorem Inv.enter
    (inv : Inv config verdict thread)
    (shape : thread.frames = frame :: outer)
    {tracer : Tracer}
    (unprofiled :
      (config tracer).useProfile = true → thread.hooks.profile = thread.hooks.trace) :
    Inv config verdict (thread.enter config frame outer tracer) := by
  have entry : thread.snapshot =
      { hooks := hooksOf config (frame.contexts ++ contextsOf outer)
        depth := recordedCount (frame :: outer) } := by
    simp only [Thread.snapshot, inv.hooks, inv.depth, shape, contextsOf, List.flatMap_cons]
  obtain ⟨_, caches, decisions, left, depth, calls, hooks, originals, frames⟩ := inv
  rw [shape] at depth calls hooks originals frames
  have entered :
      Inv config verdict
        { thread with
          hooks := Thread.install thread.hooks (config tracer).useProfile (some tracer)
          originalTraceFunctions :=
            Function.update thread.originalTraceFunctions tracer
              (thread.hooks.trace :: thread.originalTraceFunctions tracer)
          frames :=
            { frame with
              contexts := { tracer, entry := thread.snapshot } :: frame.contexts } ::
              outer } := by
    refine ⟨List.cons_ne_nil _ _, caches, decisions, left, depth, calls, ?_, fun other => ?_,
      frames.1, ⟨entry, unprofiled, frames.2.1⟩, frames.2.2⟩
    · rw [hooks]
      rfl
    · have known := originals other
      by_cases same : other = tracer
      · subst same
        simpa [contextsOf, originalsOf, Thread.snapshot] using known
      · simpa [contextsOf, originalsOf, same, Ne.symm same] using known
  simp only [Thread.enter]
  split
  · exact entered
  · exact entered.retrace rfl _ _

/-- A context is left, and finds the hook again that it has saved. -/
theorem Inv.exit
    (inv : Inv config verdict thread)
    (shape : thread.frames = frame :: outer)
    {after : Thread Tracer}
    (exits : thread.exit config frame outer = some after) :
    Inv config verdict after := by
  unfold Thread.exit at exits
  split at exits
  · cases exits
  · rename_i context rest contexts
    split at exits
    · cases exits
    · rename_i original others saved
      obtain ⟨_, caches, decisions, left, depth, calls, hooks, originals, frames⟩ := inv
      rw [shape] at depth calls hooks originals frames
      obtain ⟨called, inside, follow⟩ := frames
      rw [contexts] at inside
      obtain ⟨entry, unprofiled, insideRest⟩ := inside
      simp only [contextsOf, List.flatMap_cons, contexts, List.cons_append] at hooks originals
      have found := originals context.tracer
      rw [saved, originalsOf, List.filter_cons_of_pos (by simp), List.map_cons] at found
      obtain ⟨rfl, rfl⟩ := List.cons.inj found
      have restored :
          Thread.install thread.hooks (config context.tracer).useProfile
              context.entry.hooks.trace = context.entry.hooks := by
        have found := congrArg Snapshot.hooks entry
        simp only [contextsOf] at found
        rw [hooks, hooksOf, ← found]
        exact install_restores _ _ _ unprofiled
      cases exits
      rw [restored]
      refine ⟨List.cons_ne_nil _ _, caches, decisions, ?_, depth, calls, ?_, fun other => ?_,
        called, insideRest, follow⟩
      · intro pair member
        rcases List.mem_cons.mp member with rfl | earlier
        · rw [entry, depth]
        · exact left pair earlier
      · exact congrArg Snapshot.hooks entry
      · have known := originals other
        by_cases same : other = context.tracer
        · subst same
          simp [contextsOf, originalsOf]
        · simpa [contextsOf, originalsOf, same, Ne.symm same] using known

/-- Every event keeps the invariant; one case for each kind. -/
theorem Inv.step
    (inv : Inv config verdict thread)
    {event : Event Tracer Object}
    (meets : thread.Meets config verdict event)
    {after : Thread Tracer}
    (stepped : thread.step config event = some after) :
    Inv config verdict after := by
  cases shape : thread.frames with
  | nil =>
      exact absurd shape inv.nonempty
  | cons frame outer =>
      cases event with
      | call code self =>
          simp only [Thread.step, shape, Option.some.injEq] at stepped
          exact stepped ▸ inv.call meets
      | line self =>
          simp only [Thread.step, Thread.Meets, shape, Option.some.injEq] at stepped meets
          exact stepped ▸ inv.line shape meets
      | cCall self =>
          simp only [Thread.step, Thread.Meets, shape, Option.some.injEq] at stepped meets
          exact stepped ▸ inv.profileEvent meets
      | ret self =>
          simp only [Thread.step, Thread.Meets, shape] at stepped meets
          split at stepped
          · rename_i ends
            obtain ⟨keeps, askedAlike, profileAlike⟩ := meets
            cases stepped
            exact (inv.localReturn shape ends.1 ends.2 keeps askedAlike).profileEvent
              profileAlike
          · cases stepped
      | enter tracer =>
          simp only [Thread.step, shape, Option.some.injEq] at stepped
          exact stepped ▸ inv.enter shape meets
      | exit =>
          simp only [Thread.step, shape] at stepped
          exact inv.exit shape stepped

end Events

end Invariant

/-! ## Whole runs -/

/-- A function of a user's file. -/
def sampleCode (coFirstlineno : Nat) : Code where
  coName := "f"
  coFilename := "/a/b.py"
  coFirstlineno := coFirstlineno

/-- Tracers without a filter; those above 1 use profile mode. -/
def sampleConfig (tracer : Nat) : Config Unit where
  depth := 5
  tracedTypes := none
  tracedNames := none
  ignoredNames := none
  tracedFolders := none
  innerFrameFnames := ["tracer.py"]
  useProfile := decide (1 < tracer)

def sampleEvents : List (Event Nat Unit) :=
  [.enter 0, .line none, .call (sampleCode 2) none, .line none, .call (sampleCode 3) none,
    .ret none, .ret none, .exit]

end TensorPC.Tracers.CallRecords
