import TensorPC.Pfl.PausePoints

namespace TensorPC.Pfl

/-!
# The pause points of whole runs

Every evaluator keeps the invariant of the pause points if the evaluators one
layer below do, so the contract holds of the history of every run whose
statements meet the condition.
-/

variable {runtime : Runtime}

/-- Every evaluator of a layer keeps the invariant, whatever it returns. -/
structure LayerMoves (layer : Evaluators runtime) : Prop where
  runExpr : ∀ expr scope, Computation.Moves Moved (layer.runExpr expr scope)
  runBody : ∀ body scope, Computation.Moves Moved (layer.runBody body scope)
  runWhile : ∀ test body scope, Computation.Moves Moved (layer.runWhile test body scope)
  runList :
    ∀ target list index body scope,
      Computation.Moves Moved (layer.runList target list index body scope)
  runFunc : ∀ funcUid scope, Computation.Moves Moved (layer.runFunc funcUid scope)

/-! ## Operations on values -/

theorem moves_liftResult
    {α : Type}
    (result : PyResult α) :
    Computation.Moves (@Moved runtime) (liftResult result) := by
  cases result with
  | ok value =>
      exact Computation.Moves.pure value
  | error raised =>
      exact Computation.Moves.throw _

theorem moves_readStore
    {α : Type}
    (operation : runtime.Store → PyResult α) :
    Computation.Moves Moved (readStore operation) :=
  .bind .get (fun _ => moves_liftResult _)

theorem moves_withStore
    {α : Type}
    (operation : runtime.Store → PyResult (α × runtime.Store)) :
    Computation.Moves Moved (withStore operation) :=
  .bind (moves_readStore operation) (fun _ =>
    .bind (.modify (fun _ => Moved.of_frame rfl rfl rfl)) (fun _ => .pure _))

theorem moves_perform
    (operation : Operation)
    (operands : List runtime.Value) :
    Computation.Moves Moved (perform operation operands) :=
  moves_withStore _

theorem moves_truthy (value : runtime.Value) :
    Computation.Moves Moved (truthy value) :=
  moves_readStore _

theorem moves_updateStore
    (change : runtime.Store → PyResult runtime.Store) :
    Computation.Moves Moved (updateStore change) :=
  moves_withStore _

theorem moves_ite
    {α : Type}
    {condition : Prop}
    [Decidable condition]
    {first second : ThreadM runtime α}
    (firstMoves : Computation.Moves Moved first)
    (secondMoves : Computation.Moves Moved second) :
    Computation.Moves Moved (if condition then first else second) := by
  split
  · exact firstMoves
  · exact secondMoves

/-! ## Expressions -/

section Expressions

variable {lower : Evaluators runtime} (below : LayerMoves lower) (scope : Scope runtime)

include below

theorem moves_runBound (bound : Option (PFLExpr runtime.Value)) :
    Computation.Moves Moved (runBound lower scope bound) := by
  cases bound with
  | none =>
      exact .pure _
  | some expr =>
      exact below.runExpr expr scope

theorem moves_runDictItem
    (entries : runtime.Entries)
    (item : PFLDictItem runtime.Value) :
    Computation.Moves Moved (runDictItem lower scope entries item) := by
  cases item with
  | keyed key value =>
      exact .bind (below.runExpr _ _) (fun _ =>
        .bind (below.runExpr _ _) (fun _ => moves_readStore _))
  | spread value =>
      exact .bind (below.runExpr _ _) (fun _ => moves_readStore _)

omit below in
theorem moves_allTruthy (values : List runtime.Value) :
    Computation.Moves Moved (allTruthy values) := by
  induction values with
  | nil =>
      exact .pure _
  | cons value rest inductionHypothesis =>
      exact .bind (moves_truthy value) (fun _ => moves_ite inductionHypothesis (.pure _))

omit below in
theorem moves_anyTruthy (values : List runtime.Value) :
    Computation.Moves Moved (anyTruthy values) := by
  induction values with
  | nil =>
      exact .pure _
  | cons value rest inductionHypothesis =>
      exact .bind (moves_truthy value) (fun _ => moves_ite (.pure _) inductionHypothesis)

theorem moves_runOperands
    (op : BoolOpType)
    (resArr : List runtime.Value)
    (values : List (PFLExpr runtime.Value)) :
    Computation.Moves Moved (runOperands lower scope op resArr values) := by
  induction values generalizing resArr with
  | nil =>
      exact .pure _
  | cons expr rest inductionHypothesis =>
      exact .bind (below.runExpr _ _) (fun _ =>
        .bind (moves_truthy _) (fun _ => moves_ite (inductionHypothesis _) (.pure _)))

omit below in
theorem moves_finishBoolOp
    (op : BoolOpType)
    (resArr : Option (List runtime.Value)) :
    Computation.Moves Moved (finishBoolOp op resArr) := by
  cases resArr with
  | none =>
      exact .pure _
  | some resArr =>
      refine .bind ?_ (fun _ => .pure _)
      cases op with
      | andOp =>
          exact moves_allTruthy resArr
      | orOp =>
          exact moves_anyTruthy resArr

/-- Expressions keep the invariant; one case for each constructor. -/
theorem moves_runExpr (expr : PFLExpr runtime.Value) :
    Computation.Moves Moved (runExpr lower scope expr) := by
  have operands (exprs : List (PFLExpr runtime.Value)) :
      Computation.Moves Moved (exprs.mapM (lower.runExpr · scope)) :=
    .mapM (fun expr => below.runExpr expr scope) exprs
  cases expr with
  | name id =>
      exact moves_liftResult _
  | attr value attr =>
      exact .bind (below.runExpr _ _) (fun _ => moves_perform _ _)
  | constant value =>
      exact .pure _
  | slice lo hi step =>
      exact .bind (moves_runBound below scope lo) (fun _ =>
        .bind (moves_runBound below scope hi) (fun _ =>
          .bind (moves_runBound below scope step) (fun _ => moves_perform _ _)))
  | subscript value index =>
      exact .bind (below.runExpr _ _) (fun _ =>
        .bind (below.runExpr _ _) (fun _ => moves_perform _ _))
  | array elts =>
      exact .bind (operands elts) (fun _ => moves_perform _ _)
  | tuple elts =>
      exact .bind (operands elts) (fun _ => moves_perform _ _)
  | dict items =>
      exact .bind (.foldlM (moves_runDictItem below scope) items _)
        (fun _ => moves_withStore _)
  | boolOp op values =>
      exact .bind (moves_runOperands below scope op [] values) (moves_finishBoolOp op)
  | binOp op left right =>
      exact .bind (below.runExpr _ _) (fun _ =>
        .bind (below.runExpr _ _) (fun _ => moves_perform _ _))
  | compare op left right =>
      exact .bind (below.runExpr _ _) (fun _ =>
        .bind (below.runExpr _ _) (fun _ => moves_perform _ _))
  | unaryOp op operand =>
      exact .bind (below.runExpr _ _) (fun _ => moves_perform _ _)
  | callFunc funcUid parameters args =>
      exact .bind (operands args) (fun _ => below.runFunc _ _)
  | call func args keys vals =>
      exact .bind (below.runExpr _ _) (fun _ =>
        .bind (operands args) (fun _ =>
          .bind (operands vals) (fun _ => moves_withStore _)))
  | ifExp test body orelse =>
      exact .bind (below.runExpr _ _) (fun _ =>
        .bind (moves_truthy _) (fun _ =>
          moves_ite (below.runExpr _ _) (below.runExpr _ _)))

end Expressions

/-! ## Statements -/

section Statements

variable {lower : Evaluators runtime} (below : LayerMoves lower)

include below

theorem moves_runAssign
    (target : PFLTarget runtime.Value)
    (value : runtime.Value)
    (scope : Scope runtime) :
    Computation.Moves Moved (runAssign lower target value scope) := by
  cases target with
  | name id =>
      exact .pure _
  | attr object attr =>
      exact .bind (below.runExpr _ _) (fun _ =>
        .bind (moves_updateStore _) (fun _ => .pure _))
  | subscript object index =>
      exact .bind (below.runExpr _ _) (fun _ =>
        .bind (below.runExpr _ _) (fun _ =>
          .bind (below.runExpr _ _) (fun _ =>
            .bind (moves_updateStore _) (fun _ => .pure _))))
  | tuple ids =>
      exact .foldlM (fun _ _ => .bind (moves_perform _ _) (fun _ => .pure _)) _ _

theorem moves_runAugAssign
    (target : PFLTarget runtime.Value)
    (op : BinOpType)
    (value : runtime.Value)
    (scope : Scope runtime) :
    Computation.Moves Moved (runAugAssign lower target op value scope) := by
  cases target with
  | name id =>
      exact .bind (moves_liftResult _) (fun _ =>
        .bind (moves_withStore _) (fun _ => .pure _))
  | attr object attr =>
      exact .bind (below.runExpr _ _) (fun _ =>
        .bind (moves_perform _ _) (fun _ =>
          .bind (moves_withStore _) (fun _ =>
            .bind (moves_updateStore _) (fun _ => .pure _))))
  | subscript object index =>
      exact .bind (below.runExpr _ _) (fun _ =>
        .bind (below.runExpr _ _) (fun _ =>
          .bind (below.runExpr _ _) (fun _ =>
            .bind (moves_perform _ _) (fun _ =>
              .bind (moves_withStore _) (fun _ =>
                .bind (moves_updateStore _) (fun _ => .pure _))))))
  | tuple ids =>
      exact .throw _

theorem moves_runTest
    (scope : Scope runtime)
    (test : Option (PFLExpr runtime.Value)) :
    Computation.Moves Moved (runTest lower scope test) := by
  cases test with
  | none =>
      exact .pure _
  | some test =>
      exact .bind (below.runExpr _ _) (fun _ => moves_truthy _)

theorem moves_runBranch
    (newNames : List String)
    (body : List (PFLStmt runtime.Value))
    (scope : Scope runtime) :
    Computation.Moves Moved (runBranch lower newNames body scope) :=
  .bind (below.runBody _ _) (fun _ =>
    .bind (moves_liftResult _) (fun _ => moves_liftResult _))

theorem moves_runIf
    (newNames : List String)
    (scope : Scope runtime)
    (branches :
      List (Option (PFLExpr runtime.Value) × List (PFLStmt runtime.Value))) :
    Computation.Moves Moved (runIf lower newNames scope branches) := by
  induction branches with
  | nil =>
      exact .pure _
  | cons branch rest inductionHypothesis =>
      obtain ⟨test, body⟩ := branch
      refine .bind (moves_runTest below scope test) (fun _ => ?_)
      exact moves_ite (moves_runBranch below newNames body scope) inductionHypothesis

omit below in
theorem moves_closeLoop
    (scope : Scope runtime)
    (outcome : BodyResult runtime) :
    Computation.Moves (@Moved runtime) (closeLoop scope outcome) := by
  obtain ⟨result, privateScope⟩ := outcome
  cases result with
  | some result =>
      exact .pure _
  | none =>
      exact .bind (moves_liftResult _) (fun _ => .pure _)

end Statements

/-! ## Range loops -/

/-- The values that remain go up from the step of the control point, or none of
them is above the start of the range. -/
def RunnerCtrlFor.Follows (ctrl : RunnerCtrlFor) (values : List Int) : Prop :=
  (ctrl.range.start ≤ ctrl.step ∧
      values.Pairwise (· ≤ ·) ∧
      ∀ value ∈ values, ctrl.step ≤ value) ∨
    (ctrl.step = ctrl.range.start ∧
      ∀ value ∈ values, value ≤ ctrl.range.start)

theorem RunnerCtrlFor.follows_start (range : PyRange) :
    (RunnerCtrlFor.start range).Follows range.values := by
  by_cases positive : 0 < range.step
  · obtain ⟨sorted, above⟩ := PyRange.ascending positive
    exact .inl ⟨Int.le_refl _, sorted, above⟩
  · exact .inr ⟨rfl, fun value member => PyRange.le_start positive member⟩

/-- Moving to the next value keeps the control point tracked and followed. -/
theorem RunnerCtrlFor.atValue_tracked
    {ctrl : RunnerCtrlFor}
    {value : Int}
    {rest : List Int}
    (enabled : ctrl.enabled = true)
    (follows : ctrl.Follows (value :: rest)) :
    (ctrl.atValue value).Tracked ∧
      (ctrl.atValue value).enabled = true ∧
      (ctrl.atValue value).Follows rest := by
  simp only [atValue, enabled, ↓reduceIte, Tracked, Follows, true_and]
  rcases follows with ⟨aboveStart, sorted, above⟩ | ⟨atStart, below⟩
  · have reached := above value (by simp)
    have stepIsValue : (if ctrl.step < value then value else ctrl.step) = value := by
      split
      · rfl
      · omega
    rw [stepIsValue]
    refine ⟨by simp; omega, .inl ⟨by omega, (List.pairwise_cons.mp sorted).2, ?_⟩⟩
    exact (List.pairwise_cons.mp sorted).1
  · have reached := below value (by simp)
    have stepIsStart : (if ctrl.step < value then value else ctrl.step) = ctrl.range.start := by
      split
      · omega
      · exact atStart
    rw [stepIsStart]
    refine ⟨?_, .inr ⟨rfl, fun other member => below other (List.mem_cons_of_mem _ member)⟩⟩
    rw [decide_eq_decide]
    omega

namespace ThreadState

/-- The invariant while the control point `ref` has not been brought up to date. -/
structure SoundExcept (state : ThreadState runtime) (ref : Nat) : Prop where
  tracked : state.TrackedExcept (· = ref)
  history : EveryStatement PausedAsCoded state.history

theorem Sound.soundExcept
    {state : ThreadState runtime}
    (sound : state.Sound)
    (ref : Nat) :
    state.SoundExcept ref where
  tracked stmtId other found _ := sound.tracked stmtId other found id
  history := sound.history

theorem SoundExcept.setCtrlPoint
    {state : ThreadState runtime}
    {ref : Nat}
    {ctrl : RunnerCtrlFor}
    (sound : state.SoundExcept ref)
    (present : ref < state.ctrlPoints.length)
    (tracked : ctrl.Tracked) :
    ({ state with ctrlPoints := state.ctrlPoints.set ref ctrl } : ThreadState runtime).Sound where
  tracked stmtId other found _ := by
    by_cases same : other = ref
    · subst same
      exact ⟨ctrl, List.getElem?_set_self present, tracked⟩
    · obtain ⟨old, isOld, trackedOld⟩ := sound.tracked stmtId other found same
      exact ⟨old, by rwa [List.getElem?_set_ne (Ne.symm same)], trackedOld⟩
  history := sound.history

theorem Sound.register
    {state : ThreadState runtime}
    (sound : state.Sound)
    (stmtId : Nat)
    (ctrl : RunnerCtrlFor) :
    ({ state with
        ctrlPoints := state.ctrlPoints ++ [ctrl]
        curCtrlPoints := state.curCtrlPoints.set stmtId state.ctrlPoints.length } :
      ThreadState runtime).SoundExcept state.ctrlPoints.length where
  tracked other ref found notNew := by
    rw [Dict.get?_set] at found
    split at found
    · cases found
      exact absurd rfl notNew
    · obtain ⟨old, isOld, trackedOld⟩ := sound.tracked other ref found id
      exact ⟨old, by
        rw [List.getElem?_append_left (List.getElem?_eq_some_iff.mp isOld).1]
        exact isOld, trackedOld⟩
  history := sound.history

end ThreadState

/-- What the iterations of a range loop do to a thread: they may only change
the control point of the loop. -/
structure RangeMoved
    (ref : Nat)
    (values : List Int)
    (before after : ThreadState runtime) : Prop where
  sound : (before.Sound ∨ values ≠ [] ∧ before.SoundExcept ref) → after.Sound
  objects :
    ∀ other, other < before.ctrlPoints.length →
      other ≠ ref →
      after.ctrlPoints[other]? = before.ctrlPoints[other]?
  grows : before.ctrlPoints.length ≤ after.ctrlPoints.length

theorem RangeMoved.of_iteration
    {ref : Nat}
    (value : Int)
    (rest : List Int)
    {ctrl : RunnerCtrlFor}
    {before after : ThreadState runtime}
    (present : ref < before.ctrlPoints.length)
    (tracked : ctrl.Tracked)
    (moved :
      Moved { before with ctrlPoints := before.ctrlPoints.set ref ctrl } after) :
    RangeMoved ref (value :: rest) before after where
  sound ready := by
    refine moved.sound (ThreadState.SoundExcept.setCtrlPoint ?_ present tracked)
    rcases ready with sound | ⟨_, sound⟩
    · exact sound.soundExcept ref
    · exact sound
  objects other bound different := by
    rw [moved.objects other (by simpa using bound)]
    exact List.getElem?_set_ne (Ne.symm different)
  grows := by simpa using moved.grows

theorem RangeMoved.then
    {ref : Nat}
    {value : Int}
    {rest : List Int}
    {before middle after : ThreadState runtime}
    (first : RangeMoved ref (value :: rest) before middle)
    (others : RangeMoved ref rest middle after) :
    RangeMoved ref (value :: rest) before after where
  sound ready := others.sound (.inl (first.sound ready))
  objects other bound different := by
    rw [others.objects other (Nat.lt_of_lt_of_le bound first.grows) different,
      first.objects other bound different]
  grows := Nat.le_trans first.grows others.grows

section Loops

variable {lower : Evaluators runtime} (below : LayerMoves lower)

include below

/-- The iterations of a range loop, by induction on the values that remain. -/
theorem rangeMoved_runRange
    (target : String)
    (ref : Nat)
    (body : List (PFLStmt runtime.Value))
    (values : List Int)
    (privateScope : Scope runtime)
    (state : ThreadState runtime)
    {ctrl : RunnerCtrlFor}
    (isCtrl : state.ctrlPoints[ref]? = some ctrl)
    (enabled : ctrl.enabled = true)
    (follows : ctrl.Follows values) :
    RangeMoved ref values state
      (Computation.stateAfter (runRange lower target ref body values privateScope) state) := by
  induction values generalizing privateScope state ctrl with
  | nil =>
      exact {
        sound := fun ready => by
          rcases ready with sound | ⟨nonempty, _⟩
          · exact sound
          · exact absurd rfl nonempty
        objects := fun _ _ _ => rfl
        grows := Nat.le_refl _ }
  | cons value rest inductionHypothesis =>
      have present := (List.getElem?_eq_some_iff.mp isCtrl).1
      obtain ⟨tracked, stillEnabled, followsRest⟩ :=
        RunnerCtrlFor.atValue_tracked enabled follows
      have read : getCtrlPoint ref state = .ok ctrl state := by
        simp [getCtrlPoint, isCtrl, bind, EStateM.bind, Computation.get_apply, pure,
          EStateM.pure]
      rw [runRange, Computation.stateAfter_bind, read]
      simp only [setCtrlPoint, Computation.stateAfter_modify_bind]
      rw [Computation.stateAfter_bind]
      have moved := below.runBody body (privateScope.set target (runtime.ofInt value))
        { state with ctrlPoints := state.ctrlPoints.set ref (ctrl.atValue value) }
      rw [Computation.stateAfter] at moved
      have iteration
          {after : ThreadState runtime}
          (moved :
            Moved { state with ctrlPoints := state.ctrlPoints.set ref (ctrl.atValue value) }
              after) :=
        RangeMoved.of_iteration value rest present tracked moved
      split
      · rename_i outcome middle ran
        simp only [ran] at moved
        obtain ⟨result, privateScope⟩ := outcome
        have sameCtrl : middle.ctrlPoints[ref]? = some (ctrl.atValue value) := by
          rw [moved.objects ref (by simpa using present)]
          exact List.getElem?_set_self present
        have goesOn := (iteration moved).then
          (inductionHypothesis privateScope middle sameCtrl stillEnabled followsRest)
        cases result with
        | none =>
            exact goesOn
        | some result =>
            cases result with
            | breakLoop =>
                exact iteration moved
            | continueLoop =>
                exact goesOn
            | returnData data =>
                exact iteration moved
      · rename_i raised middle ran
        simp only [ran] at moved
        exact iteration moved

omit below in
theorem moves_popCtrlPoint (stmtId : Nat) :
    Computation.Moves (@Moved runtime) (popCtrlPoint stmtId) := by
  intro start
  simp only [popCtrlPoint, Computation.stateAfter_get_bind]
  split
  · rw [Computation.stateAfter_set]
    refine Moved.of_objects rfl (fun other ref found => ?_) (fun holds => holds.history)
    rw [Dict.get?_erase] at found
    split at found
    · cases found
    · exact found
  · rw [Computation.stateAfter_throw]
    exact refl_of Moved start

omit below in
theorem moves_finishRange
    (stmtId : Nat)
    (scope : Scope runtime)
    (outcome : BodyResult runtime) :
    Computation.Moves (@Moved runtime) (finishRange stmtId scope outcome) := by
  refine .bind (moves_closeLoop scope outcome) (fun flow => ?_)
  cases flow with
  | next scope =>
      exact .bind (moves_popCtrlPoint stmtId) (fun _ => .pure _)
  | leave result scope =>
      exact .pure _

omit below in
theorem finishRange_unchanged
    (stmtId : Nat)
    (scope : Scope runtime)
    (state : ThreadState runtime)
    (registered : state.curCtrlPoints.contains stmtId = true) :
    Computation.stateAfter (finishRange stmtId scope (none, scope)) state =
      { state with curCtrlPoints := state.curCtrlPoints.erase stmtId } := by
  have present : ∀ name ∈ scope.keys, (scope.get? name).isSome :=
    fun name member => Dict.mem_keys_iff.mp member
  obtain ⟨result, copied, _⟩ := Scope.copyFrom_eq_ok scope present
  have closed : closeLoop scope (none, scope) state = .ok (.next result) state := by
    simp [closeLoop, copied, liftResult, bind, EStateM.bind, pure, EStateM.pure]
  rw [finishRange, Computation.stateAfter_bind, closed]
  simp only [popCtrlPoint]
  rw [Computation.stateAfter_bind]
  simp [registered, bind, EStateM.bind, Computation.get_apply, Computation.set_apply]

/-- A range loop, from its registration to its end. -/
theorem moves_rangeLoop
    (stmtId : Nat)
    (target : String)
    (range : PyRange)
    (body : List (PFLStmt runtime.Value))
    (scope : Scope runtime) :
    Computation.Moves Moved (do
      let ref ← registerCtrlPoint stmtId range
      let outcome ← runRange lower target ref body range.values scope
      finishRange stmtId scope outcome) := by
  intro start
  let registered : ThreadState runtime :=
    { start with
      ctrlPoints := start.ctrlPoints ++ [RunnerCtrlFor.start range]
      curCtrlPoints := start.curCtrlPoints.set stmtId start.ctrlPoints.length }
  have isCtrl :
      registered.ctrlPoints[start.ctrlPoints.length]? = some (RunnerCtrlFor.start range) := by
    simp [registered]
  have ranged :=
    rangeMoved_runRange below target start.ctrlPoints.length body range.values scope registered
      isCtrl rfl (RunnerCtrlFor.follows_start range)
  have oldObjects (ref : Nat) (bound : ref < start.ctrlPoints.length) :
      registered.ctrlPoints[ref]? = start.ctrlPoints[ref]? :=
    List.getElem?_append_left bound
  change Moved start
    (Computation.stateAfter
      (runRange lower target start.ctrlPoints.length body range.values scope >>=
        finishRange stmtId scope) registered)
  by_cases noValues : range.values = []
  · have ended :
        Computation.stateAfter
          (runRange lower target start.ctrlPoints.length body range.values scope >>=
            finishRange stmtId scope) registered =
          { registered with curCtrlPoints := registered.curCtrlPoints.erase stmtId } := by
      rw [noValues]
      exact finishRange_unchanged stmtId scope registered (by simp [registered, Dict.contains])
    rw [ended]
    exact {
      sound := fun sound =>
        { tracked := by
            intro other ref found _
            rw [Dict.get?_erase] at found
            split at found
            · cases found
            · rename_i different
              rw [Dict.get?_set_ne _ _ different] at found
              obtain ⟨ctrl, isOld, tracked⟩ := sound.tracked other ref found id
              have bound := (List.getElem?_eq_some_iff.mp isOld).1
              exact ⟨ctrl, (oldObjects ref bound).trans isOld, tracked⟩
          history := sound.history }
      objects := oldObjects
      grows := by simp [registered] }
  · have iterated :
        Moved start
          (Computation.stateAfter
            (runRange lower target start.ctrlPoints.length body range.values scope)
            registered) :=
      { sound := fun sound =>
          ranged.sound (.inr ⟨noValues, sound.register stmtId (RunnerCtrlFor.start range)⟩)
        objects := fun ref bound =>
          (ranged.objects ref (by simp [registered]; omega) (Nat.ne_of_lt bound)).trans
            (oldObjects ref bound)
        grows := Nat.le_trans (by simp [registered]) ranged.grows }
    rw [Computation.stateAfter] at iterated
    rw [Computation.stateAfter_bind]
    split
    · rename_i outcome middle ran
      simp only [ran] at iterated
      exact trans_of Moved iterated (moves_finishRange stmtId scope outcome middle)
    · rename_i raised middle ran
      simpa only [ran] using iterated

theorem moves_runLoop
    (stmtId : Nat)
    (target : String)
    (iterObj : runtime.Value)
    (body : List (PFLStmt runtime.Value))
    (scope : Scope runtime) :
    Computation.Moves Moved (runLoop lower stmtId target iterObj body scope) := by
  refine .bind (moves_readStore _) (fun iterable => ?_)
  cases iterable with
  | range range =>
      exact moves_rangeLoop below stmtId target range body scope
  | list =>
      exact .bind (below.runList _ _ _ _ _) (fun outcome => moves_closeLoop scope outcome)
  | other =>
      exact .throw _

theorem moves_runFor
    (stmtId : Nat)
    (target : PFLTarget runtime.Value)
    (iter : PFLExpr runtime.Value)
    (body : List (PFLStmt runtime.Value))
    (scope : Scope runtime) :
    Computation.Moves Moved (runFor lower stmtId target iter body scope) := by
  refine .bind (below.runExpr _ _) (fun iterObj => ?_)
  split
  · exact moves_runLoop below stmtId _ iterObj body scope
  · exact .throw _

/-- Statements keep the invariant; one case for each constructor. -/
theorem moves_runStmt
    (stmt : PFLStmt runtime.Value)
    (scope : Scope runtime) :
    Computation.Moves Moved (runStmt lower stmt scope) := by
  cases stmt with
  | exprStmt line value =>
      exact .bind (below.runExpr _ _) (fun _ => .pure _)
  | assign line target annoType value =>
      cases value with
      | none =>
          exact .pure _
      | some value =>
          exact .bind (below.runExpr _ _) (fun _ =>
            .bind (moves_runAssign below _ _ _) (fun _ => .pure _))
  | augAssign line target op value =>
      exact .bind (below.runExpr _ _) (fun _ =>
        .bind (moves_runAugAssign below _ _ _ _) (fun _ => .pure _))
  | ifStmt line test body orelse newNames =>
      exact .bind (moves_runIf below _ _ _) (fun _ => .pure _)
  | forStmt line stmtId target iter body =>
      exact moves_runFor below stmtId target iter body scope
  | whileStmt line test body =>
      exact .bind (below.runWhile _ _ _) (fun outcome => moves_closeLoop scope outcome)
  | returnStmt line value =>
      cases value with
      | none =>
          exact .pure _
      | some value =>
          exact .bind (below.runExpr _ _) (fun _ => .pure _)
  | breakStmt line =>
      exact .pure _
  | continueStmt line =>
      exact .pure _

theorem moves_runBody
    (resolve : String → String)
    (body : List (PFLStmt runtime.Value))
    (scope : Scope runtime) :
    Computation.Moves Moved (runBody lower resolve body scope) := by
  induction body generalizing scope with
  | nil =>
      exact .pure _
  | cons stmt rest inductionHypothesis =>
      refine .bind (moves_beforeStatement resolve stmt.line) (fun _ => ?_)
      refine .bind (moves_runStmt below stmt scope) (fun flow => ?_)
      cases flow with
      | next scope =>
          exact inductionHypothesis scope
      | leave result scope =>
          exact .pure _

omit below in
theorem moves_nextIteration
    {next : Scope runtime → ThreadM runtime (BodyResult runtime)}
    (nextMoves : ∀ scope, Computation.Moves Moved (next scope))
    (outcome : BodyResult runtime) :
    Computation.Moves Moved (nextIteration next outcome) := by
  obtain ⟨result, scope⟩ := outcome
  cases result with
  | none =>
      exact nextMoves scope
  | some result =>
      cases result with
      | breakLoop =>
          exact .pure _
      | continueLoop =>
          exact nextMoves scope
      | returnData data =>
          exact .pure _

theorem moves_runWhile
    (test : PFLExpr runtime.Value)
    (body : List (PFLStmt runtime.Value))
    (privateScope : Scope runtime) :
    Computation.Moves Moved (runWhile lower test body privateScope) :=
  .bind (below.runExpr _ _) (fun _ =>
    .bind (moves_truthy _) (fun _ =>
      moves_ite
        (.bind (below.runBody _ _)
          (moves_nextIteration (below.runWhile test body)))
        (.pure _)))

theorem moves_runList
    (target : String)
    (list : runtime.Value)
    (index : Nat)
    (body : List (PFLStmt runtime.Value))
    (privateScope : Scope runtime) :
    Computation.Moves Moved (runList lower target list index body privateScope) := by
  refine .bind (moves_readStore _) (fun item => ?_)
  cases item with
  | none =>
      exact .pure _
  | some item =>
      exact .bind (below.runBody _ _)
        (moves_nextIteration (below.runList target list (index + 1) body))

theorem moves_runFunc
    (program : Program runtime)
    (funcUid : String)
    (scope : Scope runtime) :
    Computation.Moves Moved (runFunc lower program funcUid scope) := by
  refine .bind (moves_liftResult _) (fun funcNode => ?_)
  refine .bind (.modify (fun _ => Moved.of_frame rfl rfl rfl)) (fun _ => ?_)
  refine .bind (below.runBody _ _) (fun outcome => ?_)
  refine .bind (.modify (fun _ => Moved.of_frame rfl rfl rfl)) (fun _ => ?_)
  split
  · exact .pure _
  · exact .pure _

end Loops

/-! ## Whole runs -/

theorem layerMoves_evaluators
    (program : Program runtime)
    (depth : Nat) :
    LayerMoves (evaluators program depth) := by
  induction depth with
  | zero =>
      exact {
        runExpr := fun _ _ => .throw _
        runBody := fun _ _ => .throw _
        runWhile := fun _ _ _ => .throw _
        runList := fun _ _ _ _ _ => .throw _
        runFunc := fun _ _ => .throw _ }
  | succ depth below =>
      exact {
        runExpr := fun expr scope => moves_runExpr below scope expr
        runBody := fun body scope => moves_runBody below program.resolve body scope
        runWhile := fun test body scope => moves_runWhile below test body scope
        runList := fun target list index body scope =>
          moves_runList below target list index body scope
        runFunc := fun funcUid scope => moves_runFunc below program funcUid scope }

/-- A statement that was paused at as coded, and where requests were honoured,
was paused at exactly when it should have been. -/
theorem PausedAsCoded.shouldPauseAt_eq
    {earlier : List Event}
    {statement : Reached}
    (coded : PausedAsCoded earlier statement)
    (honours : HonoursRequests earlier statement) :
    statement.paused = shouldPauseAt earlier statement := by
  have pausedIfRequested : statement.paused = statement.requested := by
    rw [coded]
    cases requested : statement.requested with
    | false =>
        rfl
    | true =>
        simpa using honours.ascends requested
  rw [pausedIfRequested, Reached.requested, shouldPauseAt]
  by_cases nextLine : statement.pauseNextLine = true
  · simp [nextLine]
  · by_cases atTemp : statement.tempBkptLoc = statement.location
    · simp [atTemp]
    · cases breakpoint : statement.breakpoint with
      | none =>
          simp [breakpointAsks, breakpoint]
      | some desc =>
          simp [honours.asks (by simpa using nextLine) atTemp (by simp [breakpoint])]

theorem HonoursRequests.breakpointAsks_of_byBreakpoint
    {earlier : List Event}
    {statement : Reached}
    (honours : HonoursRequests earlier statement)
    (byBreakpoint : statement.byBreakpoint = true)
    {breakpoint : BreakpointDesc}
    (found : statement.breakpoint = some breakpoint) :
    breakpoint.enabled = true ∧
      (breakpoint.oneShot = true → spent earlier statement.location = false) := by
  simp only [Reached.byBreakpoint, Bool.and_eq_true, Bool.not_eq_true', decide_eq_true_eq]
    at byBreakpoint
  obtain ⟨⟨_, notNextLine⟩, notTemp⟩ := byBreakpoint
  have asked := honours.asks notNextLine notTemp (by simp [found])
  simp only [breakpointAsks, found, Bool.and_eq_true, Bool.not_eq_true',
    Bool.and_eq_false_iff] at asked
  refine ⟨asked.1, fun oneShot => ?_⟩
  simpa [oneShot] using asked.2

/-- The contract of the pause points holds of every run in which requests are
honoured at every statement, whatever the program and the user do. -/
theorem pausesOnRequest_of_honoursRequests
    (program : Program runtime)
    (depth : Nat)
    (funcUid : String)
    (scope : Scope runtime)
    (store : runtime.Store)
    (breakpoints : Dict Location BreakpointDesc)
    (tempBkptLoc : Location)
    (edits : List (List BreakpointEdit))
    (commands : List (List Command))
    (honours :
      EveryStatement HonoursRequests
        (Computation.stateAfter ((evaluators program depth).runFunc funcUid scope)
          (ThreadState.new store breakpoints tempBkptLoc edits commands)).history) :
    PausesOnRequest
      (Computation.stateAfter ((evaluators program depth).runFunc funcUid scope)
        (ThreadState.new store breakpoints tempBkptLoc edits commands)).history := by
  have startSound :
      (ThreadState.new store breakpoints tempBkptLoc edits commands :
        ThreadState runtime).Sound :=
    { tracked := by
        intro stmtId ref found _
        simp [ThreadState.new] at found
      history := trivial }
  have coded :=
    (((layerMoves_evaluators program depth).runFunc funcUid scope _).sound startSound).history
  exact {
    exactly := (coded.and honours).imp
      (fun _ _ holds => holds.1.shouldPauseAt_eq holds.2)
    disabledNever := honours.imp
      (fun _ _ holds byBreakpoint _ found =>
        (holds.breakpointAsks_of_byBreakpoint byBreakpoint found).1)
    oneShotOnce := honours.imp
      (fun _ _ holds byBreakpoint _ found =>
        (holds.breakpointAsks_of_byBreakpoint byBreakpoint found).2) }

/-- In every run a thread pauses before a statement exactly when that is requested and
no registered range loop is at a value below its start, whatever the user does. -/
theorem run_pausedAsCoded
    (program : Program runtime)
    (depth : Nat)
    (funcUid : String)
    (scope : Scope runtime)
    (store : runtime.Store)
    (breakpoints : Dict Location BreakpointDesc)
    (tempBkptLoc : Location)
    (edits : List (List BreakpointEdit))
    (commands : List (List Command)) :
    EveryStatement PausedAsCoded
      (Computation.stateAfter ((evaluators program depth).runFunc funcUid scope)
        (ThreadState.new store breakpoints tempBkptLoc edits commands)).history := by
  refine (((layerMoves_evaluators program depth).runFunc funcUid scope _).sound ?_).history
  exact {
    tracked := fun stmtId ref found _ => by simp [ThreadState.new] at found
    history := trivial }

/-! ### Runs over immutable values -/

/-- `for i in range(..): i`, at lines 1 and 2, then `return 0` at line 3. -/
def loopProgram (bounds : List Int) : Program scalarRuntime where
  library := Dict.ofList [("main", {
    name := "main"
    path := "<main>"
    args := []
    body := [
      .forStmt 1 0 (.name "i")
        (.call (.name "range") (bounds.map (fun bound => .constant (.int bound))) [] [])
        [.exprStmt 2 (.name "i")],
      .returnStmt 3 (some (.constant (.int 0)))] })]
  stdScope := Dict.ofList [("range", .rangeType)]
  resolve := id

/-- The history of a run of `loopProgram` with one breakpoint on line 2. -/
def loopHistory
    (bounds : List Int)
    (breakpoint : BreakpointDesc)
    (commands : List (List Command)) : List Event :=
  (Computation.stateAfter
    ((evaluators (loopProgram bounds) 6).runFunc "main" Dict.empty)
    (ThreadState.new () (Dict.ofList [(("<main>", 2), breakpoint)]) ("", -1) []
      commands)).history

/-- `for i in range(0, 4, 2)` with a breakpoint in the loop and a step over the
last iteration. -/
theorem pausesOnRequest_ascending :
    PausesOnRequest
      (loopHistory [0, 4, 2] { lineno := 2 }
        [[.releaseBreakpoint false], [.continueNextLine], [.releaseBreakpoint false]]) :=
  pausesOnRequest_of_honoursRequests (loopProgram [0, 4, 2]) 6 "main" Dict.empty ()
    (Dict.ofList [(("<main>", 2), { lineno := 2 })]) ("", -1) []
    [[.releaseBreakpoint false], [.continueNextLine], [.releaseBreakpoint false]]
    (by decide +kernel)

theorem not_pausesOnRequest_of_not_exactly
    {history : List Event}
    (violated :
      ¬ EveryStatement
        (fun earlier statement => statement.paused = shouldPauseAt earlier statement)
        history) :
    ¬ PausesOnRequest history :=
  fun contract => violated contract.exactly

/-- A descending loop is paused in its first iteration only; a disabled breakpoint
pauses; and a one-shot breakpoint pauses in each iteration. -/
theorem not_pausesOnRequest :
    ¬ PausesOnRequest
        (loopHistory [2, 0, -1] { lineno := 2 } [[.releaseBreakpoint false]]) ∧
      ¬ PausesOnRequest
        (loopHistory [1] { lineno := 2, enabled := false } [[.releaseBreakpoint false]]) ∧
      ¬ PausesOnRequest
        (loopHistory [2] { lineno := 2, oneShot := true }
          [[.releaseBreakpoint false], [.releaseBreakpoint false]]) :=
  ⟨not_pausesOnRequest_of_not_exactly (by decide +kernel),
    not_pausesOnRequest_of_not_exactly (by decide +kernel),
    not_pausesOnRequest_of_not_exactly (by decide +kernel)⟩

end TensorPC.Pfl
