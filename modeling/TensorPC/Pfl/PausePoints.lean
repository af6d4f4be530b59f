import TensorPC.Pfl.Evaluator

namespace TensorPC.Pfl

/-!
# Where the debugger pauses

The contract of the pause points, stated on the history of a thread, and the
invariant from which it follows: a registered control point may pause exactly
while its loop has not gone below the start of its range.
-/

/-! ## The contract -/

namespace Reached

/-- The test of `_check_enter_breakpoint`, before control points are looked at. -/
def requested (statement : Reached) : Bool :=
  statement.pauseNextLine ||
    statement.tempBkptLoc = statement.location ||
    statement.breakpoint.isSome

/-- The statement was paused at for its breakpoint, not for another request. -/
def byBreakpoint (statement : Reached) : Bool :=
  statement.paused &&
    !statement.pauseNextLine &&
    statement.tempBkptLoc ≠ statement.location

end Reached

/-- The breakpoint of a location has already paused the thread since it was set. -/
def spent : List Event → Location → Bool
  | [], _ => false
  | .synced :: _, _ => false
  | .added location :: earlier, query =>
      location ≠ query && spent earlier query
  | .reached statement :: earlier, query =>
      (statement.location = query && statement.byBreakpoint) || spent earlier query

/-- The breakpoint of a statement asks for a pause: it is enabled, and if it is
a one-shot breakpoint it has not paused before. -/
def breakpointAsks (earlier : List Event) (statement : Reached) : Bool :=
  match statement.breakpoint with
  | some breakpoint =>
      breakpoint.enabled && !(breakpoint.oneShot && spent earlier statement.location)
  | none => false

/-- The thread should pause at a statement. -/
def shouldPauseAt (earlier : List Event) (statement : Reached) : Bool :=
  statement.pauseNextLine ||
    statement.tempBkptLoc = statement.location ||
    breakpointAsks earlier statement

/-- A property of every statement in a history, with what happened before it. -/
def EveryStatement
    (holds : List Event → Reached → Prop) : List Event → Prop
  | [] => True
  | .reached statement :: earlier => holds earlier statement ∧ EveryStatement holds earlier
  | .synced :: earlier => EveryStatement holds earlier
  | .added _ :: earlier => EveryStatement holds earlier

instance EveryStatement.decidable
    (holds : List Event → Reached → Prop)
    [∀ earlier statement, Decidable (holds earlier statement)] :
    (history : List Event) → Decidable (EveryStatement holds history)
  | [] => .isTrue trivial
  | .reached _ :: earlier =>
      @instDecidableAnd _ _ _ (EveryStatement.decidable holds earlier)
  | .synced :: earlier => EveryStatement.decidable holds earlier
  | .added _ :: earlier => EveryStatement.decidable holds earlier

/-- What holds of every statement and implies another property gives the other
property of every statement. -/
theorem EveryStatement.imp
    {first second : List Event → Reached → Prop}
    {history : List Event}
    (implies : ∀ earlier statement, first earlier statement → second earlier statement)
    (every : EveryStatement first history) :
    EveryStatement second history := by
  induction history with
  | nil =>
      trivial
  | cons event earlier inductionHypothesis =>
      cases event with
      | synced =>
          exact inductionHypothesis every
      | added location =>
          exact inductionHypothesis every
      | reached statement =>
          exact ⟨implies _ _ every.1, inductionHypothesis every.2⟩

theorem EveryStatement.and
    {first second : List Event → Reached → Prop}
    {history : List Event}
    (everyFirst : EveryStatement first history)
    (everySecond : EveryStatement second history) :
    EveryStatement
      (fun earlier statement => first earlier statement ∧ second earlier statement)
      history := by
  induction history with
  | nil =>
      trivial
  | cons event earlier inductionHypothesis =>
      cases event with
      | synced =>
          exact inductionHypothesis everyFirst everySecond
      | added location =>
          exact inductionHypothesis everyFirst everySecond
      | reached statement =>
          exact ⟨⟨everyFirst.1, everySecond.1⟩,
            inductionHypothesis everyFirst.2 everySecond.2⟩

/-- The contract of the pause points over a history. -/
structure PausesOnRequest (history : List Event) : Prop where
  exactly :
    EveryStatement
      (fun earlier statement => statement.paused = shouldPauseAt earlier statement)
      history
  disabledNever :
    EveryStatement
      (fun _ statement => statement.byBreakpoint = true →
        ∀ breakpoint, statement.breakpoint = some breakpoint → breakpoint.enabled = true)
      history
  oneShotOnce :
    EveryStatement
      (fun earlier statement => statement.byBreakpoint = true →
        ∀ breakpoint, statement.breakpoint = some breakpoint →
          breakpoint.oneShot = true →
          spent earlier statement.location = false)
      history

/-- The condition on a statement reached: when only a breakpoint can ask for a
pause, it does ask; and when a pause is asked for, no registered range loop has
gone below the start of its range. -/
structure HonoursRequests (earlier : List Event) (statement : Reached) : Prop where
  asks :
    statement.pauseNextLine = false →
    statement.tempBkptLoc ≠ statement.location →
    statement.breakpoint.isSome = true →
    breakpointAsks earlier statement = true
  ascends :
    statement.requested = true →
    ∀ ctrl ∈ statement.loops, ctrl.range.start ≤ ctrl.current

instance (earlier : List Event) (statement : Reached) :
    Decidable (HonoursRequests earlier statement) :=
  decidable_of_iff
    ((statement.pauseNextLine = false →
        statement.tempBkptLoc ≠ statement.location →
        statement.breakpoint.isSome = true →
        breakpointAsks earlier statement = true) ∧
      (statement.requested = true →
        ∀ ctrl ∈ statement.loops, ctrl.range.start ≤ ctrl.current))
    ⟨fun holds => ⟨holds.1, holds.2⟩, fun holds => ⟨holds.asks, holds.ascends⟩⟩

/-! ## The invariant -/

/-- A control point may pause exactly while its loop is not below its start. -/
def RunnerCtrlFor.Tracked (ctrl : RunnerCtrlFor) : Prop :=
  ctrl.shouldPause = decide (ctrl.range.start ≤ ctrl.current)

/-- A statement was paused at exactly when that was requested and no registered
loop was below its start. -/
def PausedAsCoded (_ : List Event) (statement : Reached) : Prop :=
  statement.paused =
    (statement.requested &&
      statement.loops.all (fun ctrl => ctrl.range.start ≤ ctrl.current))

namespace ThreadState

variable {runtime : Runtime}

/-- Every registered control point, apart from those at `except`, is tracked. -/
def TrackedExcept (state : ThreadState runtime) (except : Nat → Prop) : Prop :=
  ∀ stmtId ref, state.curCtrlPoints.get? stmtId = some ref →
    ¬ except ref →
    ∃ ctrl, state.ctrlPoints[ref]? = some ctrl ∧ ctrl.Tracked

/-- The invariant of a thread between two statements. -/
structure Sound (state : ThreadState runtime) : Prop where
  tracked : state.TrackedExcept (fun _ => False)
  history : EveryStatement PausedAsCoded state.history

end ThreadState

/-- What an evaluation does to a thread: it keeps the invariant, and the control
point objects that were there stay as they were. -/
structure Moved {runtime : Runtime} (before after : ThreadState runtime) : Prop where
  sound : before.Sound → after.Sound
  objects :
    ∀ ref, ref < before.ctrlPoints.length →
      after.ctrlPoints[ref]? = before.ctrlPoints[ref]?
  grows : before.ctrlPoints.length ≤ after.ctrlPoints.length

section Invariant

variable {runtime : Runtime}

instance : IsPreorder (ThreadState runtime) Moved where
  refl _ := ⟨id, fun _ _ => rfl, Nat.le_refl _⟩
  trans _ _ _ movedFirst movedSecond :=
    { sound := movedSecond.sound ∘ movedFirst.sound
      objects := fun ref bound =>
        (movedSecond.objects ref (Nat.lt_of_lt_of_le bound movedFirst.grows)).trans
          (movedFirst.objects ref bound)
      grows := Nat.le_trans movedFirst.grows movedSecond.grows }

theorem Moved.of_objects
    {before after : ThreadState runtime}
    (sameObjects : after.ctrlPoints = before.ctrlPoints)
    (registered :
      ∀ stmtId ref, after.curCtrlPoints.get? stmtId = some ref →
        before.curCtrlPoints.get? stmtId = some ref)
    (history : before.Sound → EveryStatement PausedAsCoded after.history) :
    Moved before after where
  sound holds :=
    { tracked := by
        intro stmtId ref found notExcepted
        rw [sameObjects]
        exact holds.tracked stmtId ref (registered stmtId ref found) notExcepted
      history := history holds }
  objects ref _ := by rw [sameObjects]
  grows := Nat.le_of_eq (by rw [sameObjects])

theorem Moved.of_frame
    {before after : ThreadState runtime}
    (sameObjects : after.ctrlPoints = before.ctrlPoints)
    (sameRegistered : after.curCtrlPoints = before.curCtrlPoints)
    (sameHistory : after.history = before.history) :
    Moved before after :=
  Moved.of_objects sameObjects
    (fun stmtId ref found => by rwa [sameRegistered] at found)
    (fun holds => by
      rw [sameHistory]
      exact holds.history)

/-! ## Before a statement -/

variable (resolve : String → String)

theorem moved_applyEdit
    (state : ThreadState runtime)
    (edit : BreakpointEdit) :
    Moved state (state.applyEdit resolve edit) := by
  cases edit with
  | syncBreakpoints breakpoints =>
      exact Moved.of_objects rfl (fun _ _ found => found) (fun holds => holds.history)
  | addBreakpoint path lineno enabled oneShot =>
      exact Moved.of_objects rfl (fun _ _ found => found) (fun holds => holds.history)

theorem moved_applyCommand
    (state : ThreadState runtime)
    (command : Command) :
    Moved state (state.applyCommand resolve command) := by
  cases command with
  | edit edit =>
      exact moved_applyEdit resolve state edit
  | releaseBreakpoint stop =>
      simp only [ThreadState.applyCommand]
      split <;> exact Moved.of_frame rfl rfl rfl
  | continueUntil path lineno =>
      simp only [ThreadState.applyCommand]
      split <;> exact Moved.of_frame rfl rfl rfl
  | continueNextLine =>
      simp only [ThreadState.applyCommand]
      split <;> exact Moved.of_frame rfl rfl rfl

theorem moved_foldl
    {α : Type}
    {step : ThreadState runtime → α → ThreadState runtime}
    (moves : ∀ state item, Moved state (step state item))
    (items : List α)
    (state : ThreadState runtime) :
    Moved state (items.foldl step state) := by
  induction items generalizing state with
  | nil =>
      exact refl_of Moved state
  | cons item rest inductionHypothesis =>
      exact trans_of Moved (moves state item) (inductionHypothesis _)

theorem moved_takeEdits
    (state : ThreadState runtime) :
    Moved state (state.takeEdits resolve) := by
  simp only [ThreadState.takeEdits]
  split
  · exact refl_of Moved state
  · refine trans_of Moved ?_ (moved_foldl (moved_applyEdit resolve) _ _)
    exact Moved.of_frame rfl rfl rfl

/-- Waiting for a release keeps the invariant, also when the thread is stopped. -/
theorem moves_waitForRelease :
    Computation.Moves (@Moved runtime) (waitForRelease resolve) := by
  refine Computation.Moves.bind Computation.Moves.get (fun state => ?_)
  split
  · exact Computation.Moves.throw _
  · rename_i batch later _
    refine Computation.Moves.bind (Computation.Moves.modify (fun state => ?_)) (fun _ => ?_)
    · refine trans_of Moved ?_ (moved_foldl (moved_applyCommand resolve) _ _)
      exact Moved.of_frame rfl rfl rfl
    · split
      · refine Computation.Moves.bind Computation.Moves.get (fun released => ?_)
        have goesOn :
            Computation.Moves (@Moved runtime)
              (modify (fun state => { state with type := .running }) :
                ThreadM runtime PUnit) :=
          Computation.Moves.modify (fun _ => Moved.of_frame rfl rfl rfl)
        have stops :
            Computation.Moves (@Moved runtime)
              (modify (fun state =>
                { state with type := .idle, curCtrlPoints := Dict.empty }) :
                ThreadM runtime PUnit) :=
          Computation.Moves.modify (fun _ =>
            Moved.of_objects rfl (fun _ _ found => by simp at found)
              (fun holds => holds.history))
        split
        · exact Computation.Moves.bind stops
            (fun _ => Computation.Moves.bind (Computation.Moves.throw _) (fun _ => goesOn))
        · exact goesOn
      · exact Computation.Moves.throw _

/-- Where a thread is does not depend on its history. -/
@[simp] theorem ThreadState.locationOf_history
    (state : ThreadState runtime)
    (history : List Event)
    (line : Nat) :
    ({ state with history } : ThreadState runtime).locationOf line = state.locationOf line :=
  rfl

theorem ThreadState.Sound.tracked_registered
    {state : ThreadState runtime}
    (sound : state.Sound)
    {ctrl : RunnerCtrlFor}
    (registered : ctrl ∈ state.registered) :
    ctrl.Tracked := by
  obtain ⟨ref, listed, found⟩ := List.mem_filterMap.mp registered
  obtain ⟨stmtId, maps⟩ := Dict.mem_values_iff.mp listed
  obtain ⟨other, same, tracked⟩ := sound.tracked stmtId ref maps id
  rw [found] at same
  cases same
  exact tracked

/-- With every control point tracked, the test of the control points says that
no registered loop is below its start. -/
theorem ThreadState.Sound.all_shouldPause
    {state : ThreadState runtime}
    (sound : state.Sound) :
    state.registered.all (·.shouldPause) =
      state.registered.all (fun ctrl => ctrl.range.start ≤ ctrl.current) := by
  rw [Bool.eq_iff_iff, List.all_eq_true, List.all_eq_true]
  refine forall₂_congr (fun ctrl registered => ?_)
  rw [sound.tracked_registered registered]

/-- A requested pause, decided by the control points. -/
theorem moved_pauseByCtrlPoints
    {before start : ThreadState runtime}
    {statement : Reached}
    (sameObjects : start.ctrlPoints = before.ctrlPoints)
    (sameRegistered : start.curCtrlPoints = before.curCtrlPoints)
    (atStatement : start.history = .reached statement :: before.history)
    (requested : statement.requested = true)
    (loops : statement.loops = before.registered)
    (notYet : statement.paused = false) :
    Moved before (Computation.stateAfter (pauseByCtrlPoints resolve) start) := by
  have sameLoops : start.registered = before.registered := by
    simp only [ThreadState.registered, sameObjects, sameRegistered]
  simp only [pauseByCtrlPoints, Computation.stateAfter_get_bind, sameLoops]
  split
  · rename_i mayPause
    rw [enterBreakpoint, Computation.stateAfter_modify_bind]
    refine trans_of Moved ?_ (moves_waitForRelease resolve _)
    refine Moved.of_objects ?_ ?_ ?_
    · simpa [ThreadState.markPaused, atStatement] using sameObjects
    · intro stmtId ref found
      simpa [ThreadState.markPaused, atStatement, sameRegistered] using found
    · intro sound
      simp only [ThreadState.markPaused, atStatement]
      refine ⟨?_, sound.history⟩
      rw [sound.all_shouldPause] at mayPause
      simp only [PausedAsCoded, Reached.requested] at requested ⊢
      rw [requested, loops, mayPause]
      rfl
  · rename_i mayNotPause
    rw [Computation.stateAfter_pure]
    refine Moved.of_objects sameObjects (fun _ _ found => by rwa [sameRegistered] at found) ?_
    intro sound
    rw [atStatement]
    refine ⟨?_, sound.history⟩
    rw [sound.all_shouldPause] at mayNotPause
    rw [PausedAsCoded, requested, loops, notYet]
    simpa using mayNotPause

theorem moved_unrequested
    {before : ThreadState runtime}
    {statement : Reached}
    (notRequested : statement.requested = false)
    (notPaused : statement.paused = false) :
    Moved before { before with history := .reached statement :: before.history } := by
  refine Moved.of_objects rfl (fun _ _ found => found) ?_
  intro sound
  refine ⟨?_, sound.history⟩
  rw [PausedAsCoded, notRequested, notPaused]
  rfl

/-- `_check_enter_breakpoint`, at a statement that was just reached. -/
theorem moved_checkEnterBreakpoint
    (before : ThreadState runtime)
    (line : Nat) :
    Moved before
      (Computation.stateAfter (checkEnterBreakpoint resolve line)
        { before with history := .reached (before.reachedAt line) :: before.history }) := by
  simp only [checkEnterBreakpoint, Computation.stateAfter_get_bind]
  split
  · rename_i pauseNextLine
    simp only [Computation.stateAfter_set_bind]
    exact moved_pauseByCtrlPoints resolve rfl rfl rfl
      (by simp [Reached.requested, ThreadState.reachedAt, pauseNextLine]) rfl rfl
  · rename_i notNextLine
    split
    · rename_i atTemp
      simp only [Computation.stateAfter_set_bind]
      exact moved_pauseByCtrlPoints resolve rfl rfl rfl
        (by
          rw [ThreadState.locationOf_history] at atTemp
          simp [Reached.requested, ThreadState.reachedAt, atTemp])
        rfl rfl
    · rename_i notTemp
      split
      · rename_i hasBreakpoint
        exact moved_pauseByCtrlPoints resolve rfl rfl rfl
          (by
            simp only [Dict.contains, ThreadState.locationOf_history] at hasBreakpoint
            simp [Reached.requested, ThreadState.reachedAt, hasBreakpoint])
          rfl rfl
      · rename_i noBreakpoint
        refine moved_unrequested ?_ rfl
        rw [ThreadState.locationOf_history] at notTemp
        simp only [Dict.contains, ThreadState.locationOf_history, Bool.not_eq_true]
          at noBreakpoint
        simpa [Reached.requested, ThreadState.reachedAt, noBreakpoint, notTemp]
          using notNextLine

/-- What precedes a statement keeps the invariant. -/
theorem moves_beforeStatement
    (line : Nat) :
    Computation.Moves (@Moved runtime) (beforeStatement resolve line) := by
  intro start
  rw [beforeStatement, Computation.stateAfter_modify_bind]
  refine trans_of Moved (moved_takeEdits resolve start) ?_
  generalize start.takeEdits resolve = state
  simp only [Computation.stateAfter_get_bind, Computation.stateAfter_set_bind]
  split
  · exact moved_checkEnterBreakpoint resolve state line
  · rename_i nothingSet
    refine moved_unrequested ?_ rfl
    simp only [Bool.or_eq_true, Bool.not_eq_true', bne_iff_ne, ne_eq, not_or, not_not,
      Bool.not_eq_false, Bool.not_eq_true] at nothingSet
    obtain ⟨⟨noBreakpoints, notNextLine⟩, noTemp⟩ := nothingSet
    have notTemp : state.tempBkptLoc ≠ state.locationOf line := by
      intro same
      rw [same] at noTemp
      simp [ThreadState.locationOf] at noTemp
    have noBreakpoint : state.breakpoints.get? (state.locationOf line) = none := by
      simp only [Dict.get?, List.isEmpty_iff.mp noBreakpoints, List.lookup_nil]
    simp [Reached.requested, ThreadState.reachedAt, notNextLine, notTemp, noBreakpoint]

end Invariant

end TensorPC.Pfl
