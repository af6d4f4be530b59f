import TensorPC.Autossh.ResourceAccounting

namespace TensorPC.Autossh.Scheduler

/-!
# The life cycle of a task

`TaskChange` says what one step can do to one task.  From it follow, for every
run, the single launch after a submission, the terminal statuses and the fate of
a cancel request; each needs that the calls that write a status without looking
at the old one come at the right time.
-/

open Computation

variable {numCpu numGpu : Nat} {scheduler after : Scheduler} {taskId : String}

/-- The step is a submission under this id, and it is accepted. -/
def Submits
    (taskId : String)
    (scheduler : Scheduler) :
    SchedulerEvent → Prop
  | .submitTask task uuid now _ =>
      (submittedTask task uuid now).id = taskId ∧
        scheduler.checkTaskStatus taskId ∉ allRunningStatus
  | _ => False

/-- What one step can do to the task under one id. -/
inductive TaskChange
    (taskId : String)
    (scheduler after : Scheduler) :
    SchedulerEvent → Prop
  | unchanged
      {event : SchedulerEvent}
      (status : after.checkTaskStatus taskId = scheduler.checkTaskStatus taskId)
      (launches : after.launches taskId = scheduler.launches taskId)
      (table : after.tasks.get? taskId = none ↔ scheduler.tasks.get? taskId = none) :
      TaskChange taskId scheduler after event
  | scheduled
      {event : SchedulerEvent}
      (pending : scheduler.checkTaskStatus taskId = .pending)
      (status : after.checkTaskStatus taskId = .booting)
      (launches : after.launches taskId = scheduler.launches taskId + 1) :
      TaskChange taskId scheduler after event
  | submitted
      {event : SchedulerEvent}
      (submits : Submits taskId scheduler event)
      (status :
        (after.checkTaskStatus taskId = .pending ∧
          after.launches taskId = scheduler.launches taskId) ∨
        (after.checkTaskStatus taskId = .booting ∧
          after.launches taskId = scheduler.launches taskId + 1)) :
      TaskChange taskId scheduler after event
  | run
      (present : scheduler.tasks.get? taskId ≠ none)
      (notRunning : scheduler.checkTaskStatus taskId ∉ allRunningStatus)
      (status : after.checkTaskStatus taskId = .booting)
      (launches : after.launches taskId = scheduler.launches taskId + 1) :
      TaskChange taskId scheduler after (.runTask taskId)
  | initialised
      {pid : Int}
      (present : scheduler.tasks.get? taskId ≠ none)
      (status : after.checkTaskStatus taskId = .running)
      (launches : after.launches taskId = scheduler.launches taskId) :
      TaskChange taskId scheduler after (.initTask taskId pid)
  | cancelRequested
      {event : SchedulerEvent}
      (running : scheduler.checkTaskStatus taskId ∈ allRunningStatus)
      (status : after.checkTaskStatus taskId = .needToCancel)
      (launches : after.launches taskId = scheduler.launches taskId) :
      TaskChange taskId scheduler after event
  | finished
      (present : scheduler.tasks.get? taskId ≠ none)
      (status : after.checkTaskStatus taskId ∈ [TaskStatus.almostFinished, .almostCanceled])
      (launches : after.launches taskId = scheduler.launches taskId) :
      TaskChange taskId scheduler after (.setTaskFinished taskId)
  | failed
      {exceptionStr : String}
      {order : SetOrder Resource}
      (present : scheduler.tasks.get? taskId ≠ none)
      (status : after.checkTaskStatus taskId = .failed)
      (launches : after.launches taskId = scheduler.launches taskId) :
      TaskChange taskId scheduler after (.setTaskException taskId exceptionStr order)
  | calledOff
      {event : SchedulerEvent}
      (pending : scheduler.checkTaskStatus taskId = .pending)
      (status : after.checkTaskStatus taskId = .canceled)
      (launches : after.launches taskId = scheduler.launches taskId) :
      TaskChange taskId scheduler after event
  | deleted
      {event : SchedulerEvent}
      (notRunning : scheduler.checkTaskStatus taskId ∉ allRunningStatus)
      (table : after.tasks.get? taskId = none)
      (launches : after.launches taskId = scheduler.launches taskId) :
      TaskChange taskId scheduler after event
  | ended
      {event : SchedulerEvent}
      (checked : scheduler.checkTaskStatus taskId ∈ checkedStatus)
      (status : after.checkTaskStatus taskId ∈ terminalStatus)
      (launches : after.launches taskId = scheduler.launches taskId) :
      TaskChange taskId scheduler after event

/-! ## What scheduling does to one task -/

/-- A pending task may be launched; any other one is left alone. -/
inductive ScheduleChange
    (taskId : String)
    (scheduler after : Scheduler) : Prop
  | unchanged
      (status : after.checkTaskStatus taskId = scheduler.checkTaskStatus taskId)
      (launches : after.launches taskId = scheduler.launches taskId)
      (table : after.tasks.get? taskId = none ↔ scheduler.tasks.get? taskId = none)
  | scheduled
      (pending : scheduler.checkTaskStatus taskId = .pending)
      (status : after.checkTaskStatus taskId = .booting)
      (launches : after.launches taskId = scheduler.launches taskId + 1)

/-- What scheduling does to one task. -/
theorem doSchedule_change
    (keyed : scheduler.Keyed)
    (order : SetOrder Resource)
    (taskId : String) :
    ScheduleChange taskId scheduler (stateAfter (doSchedule order) scheduler) := by
  apply doSchedule_invariant (ScheduleChange taskId scheduler) _ _ order keyed
  · exact .unchanged rfl rfl Iff.rfl
  · intro before manager change _
    cases change with
    | unchanged status launches table =>
        exact .unchanged status launches table
    | scheduled pending status launches =>
        exact .scheduled pending status launches
  · intro before manager task resources change found pending _ _
    by_cases isTask : taskId = task.id
    · subst isTask
      have status := checkTaskStatus_of_get? found
      have booting :
          (before.started manager task resources).checkTaskStatus task.id = .booting := by
        rw [started, checkTaskStatus_launchTmuxTask, checkTaskStatus_setState, if_pos rfl]
      have counted :
          (before.started manager task resources).launches task.id =
            before.launches task.id + 1 := by
        rw [started, launches_launchTmuxTask, if_pos rfl]
        rfl
      cases change with
      | unchanged same launches _ =>
          rw [launches] at counted
          exact .scheduled (by rw [← same, status, pending]) booting counted
      | scheduled _ wasBooting _ =>
          rw [status, pending] at wasBooting
          cases wasBooting
    · have sameStatus :
          (before.started manager task resources).checkTaskStatus taskId =
            before.checkTaskStatus taskId := by
        rw [started, checkTaskStatus_launchTmuxTask, checkTaskStatus_setState, if_neg isTask]
        rfl
      have sameLaunches :
          (before.started manager task resources).launches taskId =
            before.launches taskId := by
        rw [started, launches_launchTmuxTask, if_neg isTask]
        rfl
      have sameTable :
          (before.started manager task resources).tasks.get? taskId =
            before.tasks.get? taskId :=
        (get?_setState _ _ _ _ _).trans (if_neg isTask)
      cases change with
      | unchanged status launches table =>
          exact .unchanged (sameStatus.trans status) (sameLaunches.trans launches)
            (sameTable ▸ table)
      | scheduled wasPending status launches =>
          exact .scheduled wasPending (sameStatus.trans status)
            (sameLaunches.trans launches)

theorem ScheduleChange.afterUnchanged
    {middle : Scheduler}
    {event : SchedulerEvent}
    (change : ScheduleChange taskId middle after)
    (status : middle.checkTaskStatus taskId = scheduler.checkTaskStatus taskId)
    (launches : middle.launches taskId = scheduler.launches taskId)
    (table : middle.tasks.get? taskId = none ↔ scheduler.tasks.get? taskId = none) :
    TaskChange taskId scheduler after event := by
  cases change with
  | unchanged sameStatus sameLaunches sameTable =>
      exact .unchanged (sameStatus.trans status) (sameLaunches.trans launches)
        (sameTable.trans table)
  | scheduled pending booting counted =>
      exact .scheduled (status.symm.trans pending) booting
        (counted.trans (congrArg (· + 1) launches))

theorem ScheduleChange.of_ne_pending
    (change : ScheduleChange taskId scheduler after)
    (notPending : scheduler.checkTaskStatus taskId ≠ .pending) :
    after.checkTaskStatus taskId = scheduler.checkTaskStatus taskId ∧
      after.launches taskId = scheduler.launches taskId := by
  cases change with
  | unchanged status launches _ =>
      exact ⟨status, launches⟩
  | scheduled pending _ _ =>
      exact absurd pending notPending

/-! ## What the periodic check does to one task -/

/-- The loop of the periodic check leaves a task alone, or ends it. -/
theorem checkTasks_change
    (taskIds : List String)
    (taskId : String) :
    let after := taskIds.foldl checkTask scheduler
    (after.checkTaskStatus taskId = scheduler.checkTaskStatus taskId ∧
        (after.tasks.get? taskId = none ↔ scheduler.tasks.get? taskId = none) ∨
      scheduler.checkTaskStatus taskId ∈ checkedStatus ∧
        after.checkTaskStatus taskId ∈ terminalStatus) ∧
      after.launches taskId = scheduler.launches taskId := by
  induction taskIds generalizing scheduler with
  | nil =>
      exact ⟨.inl ⟨rfl, Iff.rfl⟩, rfl⟩
  | cons first rest inductionHypothesis =>
      obtain ⟨change, launches⟩ := @inductionHypothesis (scheduler.checkTask first)
      simp only [List.foldl_cons]
      rcases checkTask_cases scheduler first with
        same | ⟨task, state, found, _, checked, _, ended, same⟩
      · rw [same] at change launches ⊢
        exact ⟨change, launches⟩
      · have released
            (query : String) :
            (scheduler.checkTask first).checkTaskStatus query =
              if query = first then state.status else scheduler.checkTaskStatus query := by
          rw [same]
          exact checkTaskStatus_setState scheduler first query task
            { state with resources := [] }
        have sameLaunches :
            (scheduler.checkTask first).launches taskId = scheduler.launches taskId := by
          rw [same]
          rfl
        refine ⟨?_, launches.trans sameLaunches⟩
        by_cases isFirst : taskId = first
        · subst isFirst
          rw [released, if_pos rfl] at change
          right
          refine ⟨?_, ?_⟩
          · rw [checkTaskStatus_of_get? found]
            exact checked
          · rcases change with ⟨status, _⟩ | ⟨_, status⟩
            · rw [status]
              exact ended
            · exact status
        · have sameTable :
              (scheduler.checkTask first).tasks.get? taskId =
                scheduler.tasks.get? taskId := by
            rw [same]
            exact (get?_setState _ _ _ _ _).trans (if_neg isFirst)
          rw [released, if_neg isFirst, sameTable] at change
          exact change

/-! ## What one step does to one task -/

theorem TaskChange.setStateOther
    {event : SchedulerEvent}
    {written : String}
    (other : taskId ≠ written)
    (task : Task)
    (state : TaskState) :
    TaskChange taskId scheduler (scheduler.setState written task state) event := by
  apply TaskChange.unchanged
  · rw [checkTaskStatus_setState, if_neg other]
  · rfl
  · rw [get?_setState, if_neg other]

theorem TaskChange.refl
    {event : SchedulerEvent} :
    TaskChange taskId scheduler scheduler event :=
  .unchanged rfl rfl Iff.rfl

theorem TaskChange.cancelPending
    {event : SchedulerEvent}
    {written : String}
    {task : Task}
    (found : scheduler.tasks.get? written = some task)
    (pending : task.state.status = .pending) :
    TaskChange taskId scheduler
      (scheduler.setState written task { task.state with status := .canceled }) event := by
  by_cases isTask : taskId = written
  · subst isTask
    apply TaskChange.calledOff
    · rw [checkTaskStatus_of_get? found, pending]
    · rw [checkTaskStatus_setState, if_pos rfl]
    · rfl
  · exact .setStateOther isTask task _

theorem TaskChange.replaceOther
    {event : SchedulerEvent}
    {tasks : Dict String Task}
    (same : tasks.get? taskId = scheduler.tasks.get? taskId) :
    TaskChange taskId scheduler { scheduler with tasks := tasks } event := by
  apply TaskChange.unchanged
  · simp only [checkTaskStatus, same]
  · rfl
  · dsimp only
    rw [same]

/-- What a submission does to one task. -/
theorem submitTask_change
    (keyed : scheduler.Keyed)
    (task : Task)
    (uuid : String)
    (now : Int)
    (order : SetOrder Resource)
    (taskId : String) :
    TaskChange taskId scheduler
      (stateAfter (submitTask task uuid now order) scheduler)
      (.submitTask task uuid now order) := by
  rw [stateAfter_submitTask]
  split
  · exact .refl
  · rename_i notRunning
    have keyedAfter :
        { scheduler with
          tasks :=
            scheduler.tasks.set (submittedTask task uuid now).id
              (submittedTask task uuid now) }.Keyed := by
      intro query other found
      dsimp only at found
      rw [Dict.get?_set] at found
      split at found
      · rename_i same
        cases found
        exact same.symm
      · exact keyed query other found
    have change := doSchedule_change keyedAfter order taskId
    by_cases isTask : taskId = (submittedTask task uuid now).id
    · have submits :
          Submits taskId scheduler (.submitTask task uuid now order) :=
        ⟨isTask.symm, isTask ▸ notRunning⟩
      have pending :
          { scheduler with
            tasks :=
              scheduler.tasks.set (submittedTask task uuid now).id
                (submittedTask task uuid now) }.checkTaskStatus taskId = .pending := by
        simp only [checkTaskStatus, isTask, Dict.get?_set_self]
        rfl
      apply TaskChange.submitted submits
      cases change with
      | unchanged status launches _ =>
          exact .inl ⟨status.trans pending, launches⟩
      | scheduled _ status launches =>
          exact .inr ⟨status, launches⟩
    · have same := scheduler.tasks.get?_set_ne (submittedTask task uuid now) isTask
      apply change.afterUnchanged
      · simp only [checkTaskStatus, same]
      · rfl
      · dsimp only
        rw [same]

/-- What an exception report does to one task. -/
theorem setTaskException_change
    (keyed : scheduler.Keyed)
    (written exceptionStr : String)
    (order : SetOrder Resource)
    (taskId : String) :
    TaskChange taskId scheduler
      (stateAfter (setTaskException written exceptionStr order) scheduler)
      (.setTaskException written exceptionStr order) := by
  rw [stateAfter_setTaskException]
  split
  · rename_i task found
    have keyedAfter :
        (scheduler.releaseTaskResources written task
          { task.state with status := .failed, exceptionStr := exceptionStr }).Keyed :=
      keyed.setState found _
    have status :=
      checkTaskStatus_setState scheduler written taskId task
        { task.state with status := .failed, exceptionStr := exceptionStr, resources := [] }
    have change := doSchedule_change keyedAfter order taskId
    by_cases isTask : taskId = written
    · subst isTask
      rw [if_pos rfl] at status
      have notPending :
          (scheduler.releaseTaskResources taskId task
            { task.state with status := .failed, exceptionStr := exceptionStr }).checkTaskStatus
              taskId ≠ .pending := by
        intro pending
        exact absurd (status.symm.trans pending) (by simp)
      obtain ⟨sameStatus, sameLaunches⟩ := change.of_ne_pending notPending
      apply TaskChange.failed
      · simp [found]
      · exact sameStatus.trans status
      · exact sameLaunches
    · rw [if_neg isTask] at status
      apply change.afterUnchanged
      · exact status
      · rfl
      · change (scheduler.setState written task _).tasks.get? taskId = none ↔ _
        rw [get?_setState, if_neg isTask]
  · exact .refl

theorem periodCheck_change
    (keyed : (scheduler.tasks.keys.foldl checkTask scheduler).Keyed)
    (order : SetOrder Resource)
    (taskId : String) :
    TaskChange taskId scheduler
      (stateAfter (periodCheckTaskStatus order) scheduler)
      (.periodCheck order) := by
  have change := doSchedule_change keyed order taskId
  obtain ⟨checked, launches⟩ := @checkTasks_change scheduler scheduler.tasks.keys taskId
  rw [stateAfter_periodCheckTaskStatus]
  rcases checked with ⟨status, table⟩ | ⟨checked, ended⟩
  · exact change.afterUnchanged status launches table
  · have notPending :
        (scheduler.tasks.keys.foldl checkTask scheduler).checkTaskStatus taskId ≠
          .pending := by
      intro pending
      rw [pending] at ended
      simp [terminalStatus] at ended
    obtain ⟨sameStatus, sameLaunches⟩ := change.of_ne_pending notPending
    exact .ended checked (sameStatus ▸ ended) (sameLaunches.trans launches)

/-- What one step does to one task. -/
theorem step_change
    {event : SchedulerEvent}
    (accounted : scheduler.Accounted numCpu numGpu)
    (stepped : scheduler.step event = some after)
    (taskId : String) :
    TaskChange taskId scheduler after event := by
  cases event with
  | submitTask task uuid now order =>
      cases stepped
      exact submitTask_change accounted.keyed task uuid now order taskId
  | runTask written =>
      cases stepped
      rw [stateAfter_runTask]
      split
      · rename_i task found
        split
        · exact .refl
        · rename_i notRunning
          by_cases isTask : taskId = written
          · subst isTask
            apply TaskChange.run
            · simp [found]
            · rw [checkTaskStatus_of_get? found]
              exact notRunning
            · rw [checkTaskStatus_launchTmuxTask, checkTaskStatus_setState, if_pos rfl]
            · rw [launches_launchTmuxTask, if_pos rfl]
              rfl
          · apply TaskChange.unchanged
            · rw [checkTaskStatus_launchTmuxTask, checkTaskStatus_setState, if_neg isTask]
            · rw [launches_launchTmuxTask, if_neg isTask]
              rfl
            · change (scheduler.setState written task _).tasks.get? taskId = none ↔ _
              rw [get?_setState, if_neg isTask]
      · exact .refl
  | initTask written pid =>
      cases stepped
      rw [stateAfter_initTask]
      split
      · rename_i task found
        by_cases isTask : taskId = written
        · subst isTask
          apply TaskChange.initialised
          · simp [found]
          · rw [checkTaskStatus_setState, if_pos rfl]
          · rfl
        · exact .setStateOther isTask task _
      · exact .refl
  | updateTask written progress output =>
      cases stepped
      rw [stateAfter_updateTask]
      split
      · rename_i task found
        by_cases isTask : taskId = written
        · subst isTask
          apply TaskChange.unchanged
          · rw [checkTaskStatus_setState, if_pos rfl, checkTaskStatus_of_get? found]
          · rfl
          · simp [get?_setState, found]
        · exact .setStateOther isTask task _
      · exact .refl
  | setTaskStatus written status =>
      cases stepped
      rw [stateAfter_setTaskStatus]
      split
      · rename_i task found
        split
        · rename_i accepted
          by_cases isTask : taskId = written
          · subst isTask
            apply TaskChange.cancelRequested
            · rw [checkTaskStatus_of_get? found]
              exact accepted.2
            · rw [checkTaskStatus_setState, if_pos rfl]
            · rfl
          · exact .setStateOther isTask task _
        · exact .refl
      · exact .refl
  | setTaskFinished written =>
      cases stepped
      rw [stateAfter_setTaskFinished]
      split
      · rename_i task found
        by_cases isTask : taskId = written
        · subst isTask
          apply TaskChange.finished
          · simp [found]
          · split
            · simp [checkTaskStatus_setState]
            · simp [checkTaskStatus_setState]
          · split <;> rfl
        · split
          · exact .setStateOther isTask task _
          · exact .setStateOther isTask task _
      · exact .refl
  | setTaskException written exceptionStr order =>
      cases stepped
      exact setTaskException_change accounted.keyed written exceptionStr order taskId
  | cancelTask written =>
      cases stepped
      rw [stateAfter_cancelTask]
      split
      · rename_i task found
        split
        · rename_i pending
          exact .cancelPending found pending
        · exact .refl
      · exact .refl
  | killTask written =>
      cases stepped
      rw [stateAfter_killTask]
      split
      · rename_i task found
        split
        · rcases stateAfter_tmuxKillTask scheduler written task.state.pid with
            same | same | same
          · rw [same]
            exact .refl
          · rw [same]
            exact .unchanged rfl rfl Iff.rfl
          · rw [same]
            exact .unchanged rfl rfl Iff.rfl
        · split
          · rename_i pending
            exact .cancelPending found pending
          · exact .refl
      · exact .refl
  | deleteTask written =>
      cases stepped
      rw [stateAfter_deleteTask]
      split
      · rename_i task found
        split
        · exact .refl
        · rename_i notRunning
          by_cases isTask : taskId = written
          · subst isTask
            apply TaskChange.deleted
            · rw [checkTaskStatus_of_get? found]
              exact notRunning
            · exact Dict.get?_erase_self _ _
            · rfl
          · apply TaskChange.replaceOther
            rw [Dict.get?_erase, if_neg isTask]
      · exact .refl
  | periodCheck order =>
      cases stepped
      exact periodCheck_change (accounted.checkTasks _).keyed order taskId
  | processDies pid =>
      simp only [Scheduler.step] at stepped
      split at stepped
      · cases stepped
        exact .unchanged rfl rfl Iff.rfl
      · cases stepped
  | sessionEnds written =>
      simp only [Scheduler.step] at stepped
      split at stepped
      · cases stepped
        exact .unchanged rfl rfl Iff.rfl
      · cases stepped

/-! ## Runs -/

/-- The steps that do not write over a status that is to be kept. -/
def Orderly (scheduler : Scheduler) : SchedulerEvent → Prop
  -- A process reports its start while its task waits for it.
  | .initTask taskId _ =>
      scheduler.checkTaskStatus taskId ≠ .needToCancel ∧
        scheduler.checkTaskStatus taskId ∉ terminalStatus
  | .setTaskFinished taskId =>
      scheduler.checkTaskStatus taskId ∉ terminalStatus
  | .setTaskException taskId _ _ =>
      scheduler.checkTaskStatus taskId ∉ [TaskStatus.finished, .canceled]
  -- Nobody runs again a task that has ended.
  | .runTask taskId =>
      scheduler.checkTaskStatus taskId ∉ terminalStatus
  | _ => True

instance (scheduler : Scheduler) :
    (event : SchedulerEvent) → Decidable (scheduler.Orderly event)
  | .initTask taskId _ =>
      inferInstanceAs (Decidable (scheduler.checkTaskStatus taskId ≠ .needToCancel ∧ _))
  | .setTaskFinished taskId =>
      inferInstanceAs (Decidable (scheduler.checkTaskStatus taskId ∉ terminalStatus))
  | .setTaskException taskId _ _ =>
      inferInstanceAs (Decidable (scheduler.checkTaskStatus taskId ∉ _))
  | .runTask taskId =>
      inferInstanceAs (Decidable (scheduler.checkTaskStatus taskId ∉ terminalStatus))
  | .submitTask .. | .deleteTask _ | .updateTask .. | .setTaskStatus .. |
    .cancelTask _ | .killTask _ | .periodCheck _ | .processDies _ | .sessionEnds _ =>
      inferInstanceAs (Decidable True)

/-- The task itself reports how it ended. -/
def Reports (taskId : String) : SchedulerEvent → Prop
  | .setTaskFinished reporting => reporting = taskId
  | .setTaskException reporting _ _ => reporting = taskId
  | _ => False

/-- The requests that call off a task. -/
def cancelRequests (taskId : String) : List (SchedulerM Bool) :=
  [setTaskStatus taskId .needToCancel, cancelTask taskId, killTask taskId]

/-- What is promised about the task under one id from a reached state on. -/
structure LifeCycle
    (allowed : Scheduler → SchedulerEvent → Prop)
    (scheduler : Scheduler)
    (taskId : String) : Prop where
  /-- Between two submissions the task is launched at most once. -/
  launchedOnce :
    ∀ event submitted events after,
      allowed scheduler event →
      Submits taskId scheduler event →
      scheduler.step event = some submitted →
      Transition.Run step
        (fun state event => allowed state event ∧ ¬Submits taskId state event)
        submitted events after →
      after.launches taskId ≤ scheduler.launches taskId + 1
  /-- A terminal status stays until the task is deleted or submitted again. -/
  terminalKept :
    scheduler.checkTaskStatus taskId ∈ terminalStatus →
    ∀ events after,
      Transition.Run step
        (fun state event => allowed state event ∧ ¬Submits taskId state event)
        scheduler events after →
      after.checkTaskStatus taskId = scheduler.checkTaskStatus taskId ∨
        after.tasks.get? taskId = none
  /-- An accepted request to cancel is seen until the task reports its end. -/
  cancelKept :
    ∀ accepted events after,
      setTaskStatus taskId .needToCancel scheduler = .ok true accepted →
      Transition.Run step
        (fun state event => allowed state event ∧ ¬Reports taskId event)
        accepted events after →
      after.checkTaskStatus taskId = .needToCancel
  /-- A pending task that is called off is never launched, and is canceled. -/
  pendingCanceled :
    scheduler.checkTaskStatus taskId = .pending →
    ∀ request ∈ cancelRequests taskId, ∀ accepted events after,
      request scheduler = .ok true accepted →
      Transition.Run step
        (fun state event => allowed state event ∧ ¬Submits taskId state event)
        accepted events after →
      after.launches taskId = scheduler.launches taskId ∧
        (after.checkTaskStatus taskId = .canceled ∨ after.tasks.get? taskId = none)

/-- The accounts, and a status for every task in the table. -/
structure Known
    (numCpu numGpu : Nat)
    (scheduler : Scheduler) : Prop where
  accounted : scheduler.Accounted numCpu numGpu
  known :
    ∀ taskId,
      scheduler.checkTaskStatus taskId = .unknown →
      scheduler.tasks.get? taskId = none

theorem known_init (numCpu numGpu : Nat) :
    (init numCpu numGpu).Known numCpu numGpu where
  accounted := accounted_init numCpu numGpu
  known _ _ := rfl

/-- Every step keeps the tasks' statuses known. -/
theorem Known.step
    {event : SchedulerEvent}
    (known : scheduler.Known numCpu numGpu)
    (stepped : scheduler.step event = some after) :
    after.Known numCpu numGpu := by
  refine ⟨known.accounted.step stepped, fun taskId isUnknown => ?_⟩
  cases step_change known.accounted stepped taskId with
  | unchanged status _ table =>
      exact table.mpr (known.known taskId (status.symm.trans isUnknown))
  | deleted _ table _ =>
      exact table
  | submitted _ status =>
      rcases status with ⟨pending, _⟩ | ⟨booting, _⟩
      · rw [pending] at isUnknown
        cases isUnknown
      · rw [booting] at isUnknown
        cases isUnknown
  | scheduled _ status _ | run _ _ status _ | initialised _ status _
  | cancelRequested _ status _ | failed _ status _ | calledOff _ status _ =>
      rw [status] at isUnknown
      cases isUnknown
  | finished _ status _ | ended _ status _ =>
      rw [isUnknown] at status
      simp [terminalStatus] at status

/-! ## One launch -/

/-- The launches of a task so far, with the one that a pending task waits for. -/
def launchesDue (scheduler : Scheduler) (taskId : String) : Nat :=
  scheduler.launches taskId + if scheduler.checkTaskStatus taskId = .pending then 1 else 0

theorem launchesDue_le
    {event : SchedulerEvent}
    (change : TaskChange taskId scheduler after event) :
    after.launchesDue taskId ≤ scheduler.launches taskId + 1 := by
  unfold launchesDue
  cases change with
  | unchanged _ launches _ | deleted _ _ launches | ended _ _ launches
  | finished _ _ launches =>
      rw [launches]
      split <;> omega
  | scheduled _ status launches | run _ _ status launches
  | initialised _ status launches | cancelRequested _ status launches
  | failed _ status launches | calledOff _ status launches =>
      simp [status, launches]
  | submitted _ status =>
      rcases status with ⟨pending, launches⟩ | ⟨booting, launches⟩
      · simp [pending, launches]
      · simp [booting, launches]

/-- An orderly step that is no submission makes no further launch due. -/
theorem launchesDue_step
    {event : SchedulerEvent}
    (known : scheduler.Known numCpu numGpu)
    (orderly : scheduler.Orderly event)
    (notSubmitted : ¬Submits taskId scheduler event)
    (change : TaskChange taskId scheduler after event) :
    after.launchesDue taskId ≤ scheduler.launchesDue taskId := by
  unfold launchesDue
  cases change with
  | unchanged status launches _ =>
      rw [status, launches]
  | scheduled pending status launches =>
      simp [pending, status, launches]
  | submitted submits _ =>
      exact absurd submits notSubmitted
  | run present notRunning status launches =>
      have pending : scheduler.checkTaskStatus taskId = .pending := by
        have isKnown := mt (known.known taskId) present
        have notEnded : scheduler.checkTaskStatus taskId ∉ terminalStatus := orderly
        generalize scheduler.checkTaskStatus taskId = status
          at notRunning isKnown notEnded ⊢
        cases status <;> simp_all [allRunningStatus, terminalStatus]
      simp [pending, status, launches]
  | initialised _ status launches | cancelRequested _ status launches
  | failed _ status launches | calledOff _ status launches =>
      simp [status, launches]
  | finished _ status launches | ended _ status launches =>
      rw [launches, if_neg]
      · omega
      · intro pending
        simp [pending, terminalStatus] at status
  | deleted _ table launches =>
      simp [checkTaskStatus, table, launches]

/-! ## Terminal statuses -/

/-- The task is as it was when it ended, or deleted. -/
def EndedAs
    (status : TaskStatus)
    (launches : Nat)
    (taskId : String)
    (scheduler : Scheduler) : Prop :=
  (scheduler.checkTaskStatus taskId = status ∨ scheduler.tasks.get? taskId = none) ∧
    scheduler.launches taskId = launches

/-- An orderly step that is no submission leaves an ended task ended. -/
theorem EndedAs.step
    {event : SchedulerEvent}
    {status : TaskStatus}
    {launches : Nat}
    (ended : EndedAs status launches taskId scheduler)
    (terminal : status ∈ terminalStatus)
    (orderly : scheduler.Orderly event)
    (notSubmitted : ¬Submits taskId scheduler event)
    (change : TaskChange taskId scheduler after event) :
    EndedAs status launches taskId after := by
  obtain ⟨standing, count⟩ := ended
  have isEnded
      (present : scheduler.tasks.get? taskId ≠ none) :
      scheduler.checkTaskStatus taskId = status :=
    standing.resolve_right present
  -- A status that only a task in the table has.
  have contradictory
      (other : TaskStatus)
      (isOther : scheduler.checkTaskStatus taskId = other)
      (inTable : other ≠ .unknown)
      (notTerminal : other ∉ terminalStatus) :
      False := by
    have present : scheduler.tasks.get? taskId ≠ none := by
      intro absent
      apply inTable
      rw [← isOther]
      simp [checkTaskStatus, absent]
    rw [isEnded present] at isOther
    exact notTerminal (isOther ▸ terminal)
  cases change with
  | unchanged same sameLaunches table =>
      refine ⟨?_, sameLaunches.trans count⟩
      rcases standing with isStatus | absent
      · exact .inl (same.trans isStatus)
      · exact .inr (table.mpr absent)
  | scheduled pending _ _ | calledOff pending _ _ =>
      exact (contradictory _ pending (by simp) (by simp [terminalStatus])).elim
  | submitted submits _ =>
      exact absurd submits notSubmitted
  | run present _ _ _ =>
      have notEnded : scheduler.checkTaskStatus taskId ∉ terminalStatus := orderly
      exact absurd (isEnded present ▸ terminal) notEnded
  | initialised present _ _ =>
      exact absurd (isEnded present ▸ terminal) orderly.2
  | cancelRequested running _ _ =>
      apply (contradictory _ rfl _ _).elim
      · intro isUnknown
        simp [isUnknown, allRunningStatus] at running
      · intro isTerminal
        generalize scheduler.checkTaskStatus taskId = current at running isTerminal
        cases current <;> simp_all [allRunningStatus, terminalStatus]
  | finished present _ _ =>
      have notEnded : scheduler.checkTaskStatus taskId ∉ terminalStatus := orderly
      exact absurd (isEnded present ▸ terminal) notEnded
  | failed present isFailed sameLaunches =>
      have notOver :
          scheduler.checkTaskStatus taskId ∉ [TaskStatus.finished, .canceled] := orderly
      rw [isEnded present] at notOver
      have wasFailed : status = .failed := by
        cases status <;> simp_all [terminalStatus]
      exact ⟨.inl (isFailed.trans wasFailed.symm), sameLaunches.trans count⟩
  | deleted _ table sameLaunches =>
      exact ⟨.inr table, sameLaunches.trans count⟩
  | ended checked _ _ =>
      apply (contradictory _ rfl _ _).elim
      · intro isUnknown
        simp [isUnknown, checkedStatus] at checked
      · intro isTerminal
        generalize scheduler.checkTaskStatus taskId = current at checked isTerminal
        cases current <;> simp_all [checkedStatus, terminalStatus]

theorem EndedAs.run
    {events : List SchedulerEvent}
    {status : TaskStatus}
    {launches : Nat}
    (known : scheduler.Known numCpu numGpu)
    (ended : EndedAs status launches taskId scheduler)
    (terminal : status ∈ terminalStatus)
    (run :
      Transition.Run Scheduler.step
        (fun state event => Orderly state event ∧ ¬Submits taskId state event)
        scheduler events after) :
    EndedAs status launches taskId after := by
  have kept :
      after.Known numCpu numGpu ∧ EndedAs status launches taskId after := by
    apply run.invariant ⟨known, ended⟩
    rintro before event later ⟨known, ended⟩ ⟨orderly, notSubmitted⟩ stepped
    refine ⟨known.step stepped, ?_⟩
    exact ended.step terminal orderly notSubmitted
      (step_change known.accounted stepped taskId)
  exact kept.2

/-! ## Requests to cancel -/

/-- An orderly step that is no report leaves a request to cancel standing. -/
theorem needToCancel_step
    {event : SchedulerEvent}
    (requested : scheduler.checkTaskStatus taskId = .needToCancel)
    (orderly : scheduler.Orderly event)
    (notReported : ¬Reports taskId event)
    (change : TaskChange taskId scheduler after event) :
    after.checkTaskStatus taskId = .needToCancel := by
  cases change with
  | unchanged status _ _ =>
      exact status.trans requested
  | cancelRequested _ status _ =>
      exact status
  | scheduled pending _ _ | calledOff pending _ _ =>
      rw [requested] at pending
      cases pending
  | submitted submits _ =>
      cases event <;> simp [Submits, requested, allRunningStatus] at submits
  | run _ notRunning _ _ | deleted notRunning _ _ =>
      simp [requested, allRunningStatus] at notRunning
  | initialised _ _ _ =>
      exact absurd requested orderly.1
  | finished _ _ _ | failed _ _ _ =>
      exact absurd rfl notReported
  | ended checked _ _ =>
      simp [requested, checkedStatus] at checked

theorem get_bind_eq_ok
    {next : Scheduler → SchedulerM Bool}
    {result : Bool}
    {accepted : Scheduler} :
    (get >>= next) scheduler = .ok result accepted ↔
      next scheduler scheduler = .ok result accepted :=
  Iff.rfl

theorem modify_bind_pure_eq_ok
    {change : Scheduler → Scheduler}
    {answer result : Bool}
    {accepted : Scheduler} :
    (modify change >>= fun _ => (pure answer : SchedulerM Bool)) scheduler =
        .ok result accepted ↔
      answer = result ∧ change scheduler = accepted := by
  change EStateM.Result.ok answer (change scheduler) = .ok result accepted ↔ _
  simp

/-- An accepted `set_task_status` leaves its status with the task. -/
theorem status_of_setTaskStatus
    {accepted : Scheduler}
    (returned : setTaskStatus taskId .needToCancel scheduler = .ok true accepted) :
    scheduler.checkTaskStatus taskId ∈ allRunningStatus ∧
      accepted.checkTaskStatus taskId = .needToCancel ∧
      scheduler.step (.setTaskStatus taskId .needToCancel) = some accepted := by
  have stepped : scheduler.step (.setTaskStatus taskId .needToCancel) = some accepted := by
    simp [Scheduler.step, stateAfter, returned]
  rw [setTaskStatus, if_neg (by simp [supportedSetStatus]), get_bind_eq_ok] at returned
  cases found : scheduler.tasks.get? taskId with
  | none =>
      simp [found] at returned
  | some task =>
      simp only [found] at returned
      by_cases running : task.state.status ∈ allRunningStatus
      · rw [if_neg (fun refused => refused.2 running), modify_bind_pure_eq_ok] at returned
        obtain ⟨_, rfl⟩ := returned
        refine ⟨?_, ?_, stepped⟩
        · rw [checkTaskStatus_of_get? found]
          exact running
        · rw [checkTaskStatus_setState, if_pos rfl]
      · simp [running] at returned

/-- A pending task that a request was accepted for is canceled. -/
theorem canceled_of_request
    {accepted : Scheduler}
    {request : SchedulerM Bool}
    (pending : scheduler.checkTaskStatus taskId = .pending)
    (isRequest : request ∈ cancelRequests taskId)
    (returned : request scheduler = .ok true accepted) :
    EndedAs .canceled (scheduler.launches taskId) taskId accepted ∧
      ∃ event, scheduler.step event = some accepted := by
  simp only [cancelRequests, List.mem_cons, List.not_mem_nil, or_false] at isRequest
  rcases isRequest with rfl | rfl | rfl
  · have running := (status_of_setTaskStatus returned).1
    simp [pending, allRunningStatus] at running
  · have stepped : scheduler.step (.cancelTask taskId) = some accepted := by
      simp [Scheduler.step, stateAfter, returned]
    refine ⟨?_, _, stepped⟩
    rw [cancelTask, get_bind_eq_ok] at returned
    cases found : scheduler.tasks.get? taskId with
    | none =>
        simp [found] at returned
    | some task =>
        simp only [found] at returned
        have isPending := checkTaskStatus_of_get? found
        rw [pending] at isPending
        rw [if_neg (by simp [← isPending, allCtrlCCancelableStatus]), if_pos isPending.symm,
          modify_bind_pure_eq_ok] at returned
        obtain ⟨_, rfl⟩ := returned
        refine ⟨.inl ?_, rfl⟩
        rw [checkTaskStatus_setState, if_pos rfl]
  · have stepped : scheduler.step (.killTask taskId) = some accepted := by
      simp [Scheduler.step, stateAfter, returned]
    refine ⟨?_, _, stepped⟩
    rw [killTask, get_bind_eq_ok] at returned
    cases found : scheduler.tasks.get? taskId with
    | none =>
        simp [found] at returned
    | some task =>
        simp only [found] at returned
        have isPending := checkTaskStatus_of_get? found
        rw [pending] at isPending
        rw [if_neg (by simp [← isPending, allKillableStatus, allRunningStatus]),
          if_pos isPending.symm, modify_bind_pure_eq_ok] at returned
        obtain ⟨_, rfl⟩ := returned
        refine ⟨.inl ?_, rfl⟩
        rw [checkTaskStatus_setState, if_pos rfl]

/-! ## The life cycle -/

/-- In every run of orderly steps every task goes through its life cycle. -/
theorem schedulerRun_lifeCycle
    {events : List SchedulerEvent}
    (run : Transition.Run step Orderly (init numCpu numGpu) events scheduler)
    (taskId : String) :
    LifeCycle Orderly scheduler taskId := by
  have known : scheduler.Known numCpu numGpu :=
    run.invariant (known_init numCpu numGpu) fun _ _ _ known _ stepped => known.step stepped
  constructor
  · intro event submitted later after _ _ stepped segment
    have first := launchesDue_le (step_change known.accounted stepped taskId)
    have bounded :
        after.Known numCpu numGpu ∧
          after.launchesDue taskId ≤ submitted.launchesDue taskId := by
      apply segment.invariant ⟨known.step stepped, Nat.le_refl _⟩
      rintro before event next ⟨knownBefore, bounded⟩ ⟨orderly, notSubmitted⟩ stepped
      have change := step_change knownBefore.accounted stepped taskId
      refine ⟨knownBefore.step stepped, ?_⟩
      exact (launchesDue_step knownBefore orderly notSubmitted change).trans bounded
    have counted : after.launches taskId ≤ after.launchesDue taskId :=
      Nat.le_add_right _ _
    exact counted.trans (bounded.2.trans first)
  · intro terminal later after segment
    have ended :
        EndedAs (scheduler.checkTaskStatus taskId) (scheduler.launches taskId) taskId
          scheduler :=
      ⟨.inl rfl, rfl⟩
    exact (ended.run known terminal segment).1
  · intro accepted later after returned segment
    obtain ⟨_, status, stepped⟩ := status_of_setTaskStatus returned
    have requested :
        after.Known numCpu numGpu ∧ after.checkTaskStatus taskId = .needToCancel := by
      apply segment.invariant ⟨known.step stepped, status⟩
      rintro before event next ⟨knownBefore, requested⟩ ⟨orderly, notReported⟩ stepped
      have change := step_change knownBefore.accounted stepped taskId
      exact ⟨knownBefore.step stepped, needToCancel_step requested orderly notReported change⟩
    exact requested.2
  · intro pending request isRequest accepted later after returned segment
    obtain ⟨ended, event, stepped⟩ := canceled_of_request pending isRequest returned
    have final :=
      ended.run (known.step stepped) (by simp [terminalStatus]) segment
    exact ⟨final.2, final.1⟩

theorem schedulerRun_lifeCycle_sample :
    ∃ scheduler,
      Transition.execute step Orderly (init 2 1) sampleEvents = some scheduler ∧
        LifeCycle Orderly scheduler "a" := by
  have completes : (Transition.execute step Orderly (init 2 1) sampleEvents).isSome := by
    decide
  obtain ⟨scheduler, executed⟩ := Option.isSome_iff_exists.mp completes
  exact ⟨scheduler, executed, schedulerRun_lifeCycle (.of_execute executed) "a"⟩

/-- A request to cancel a booting task is overwritten when the task reports its start. -/
theorem schedulerRun_not_lifeCycle :
    ¬∀ numCpu numGpu events scheduler,
      Transition.Run step (fun _ _ => True) (init numCpu numGpu) events scheduler →
      ∀ taskId, LifeCycle (fun _ _ => True) scheduler taskId := by
  intro cycles
  let booted :=
    stateAfter (submitTask (sampleTask "a") "" 0 .asStored) (init 1 1)
  let requested := stateAfter (setTaskStatus "a" .needToCancel) booted
  let initialised := stateAfter (initTask "a" 1) requested
  have submitted :
      Transition.Run step (fun _ _ => True) (init 1 1)
        [.submitTask (sampleTask "a") "" 0 .asStored] booted :=
    .next .start trivial rfl
  have accepted : setTaskStatus "a" .needToCancel booted = .ok true requested := by
    rfl
  have segment :
      Transition.Run step (fun _ event => True ∧ ¬Reports "a" event) requested
        [.initTask "a" 1] initialised :=
    .next .start ⟨trivial, id⟩ rfl
  have status :=
    (cycles 1 1 _ _ submitted "a").cancelKept requested _ initialised accepted segment
  have isRunning : initialised.checkTaskStatus "a" = .running := by
    decide
  rw [isRunning] at status
  cases status

end TensorPC.Autossh.Scheduler
