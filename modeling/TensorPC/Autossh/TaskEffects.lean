import TensorPC.Autossh.TaskScheduler

namespace TensorPC.Autossh.Scheduler

/-!
# What the scheduler's methods change

The state is looked at through the status, the resources and the pid of each
task and through the process launched last for it.  One lemma for each method
says in which state it ends; the scheduling loop has an induction rule of its
own.
-/

open Computation

/-- The resources that a task lists. -/
def resourcesOf (scheduler : Scheduler) (taskId : String) : List Resource :=
  match scheduler.tasks.get? taskId with
  | some task => task.state.resources
  | none => []

/-- The pid that a task has reported. -/
def pidOf (scheduler : Scheduler) (taskId : String) : Int :=
  match scheduler.tasks.get? taskId with
  | some task => task.state.pid
  | none => -1

/-- The process that was launched last for an id. -/
def processOf (scheduler : Scheduler) (taskId : String) : Option Process :=
  scheduler.processes.find? (·.taskId = taskId)

/-- How many processes were launched for an id. -/
def launches (scheduler : Scheduler) (taskId : String) : Nat :=
  scheduler.processes.countP (·.taskId = taskId)

/-! ## Writing the state of a task -/

section Views

variable (scheduler : Scheduler) (taskId query : String)

section SetState

variable (task : Task) (state : TaskState)

@[simp] theorem processes_setState :
    (scheduler.setState taskId task state).processes = scheduler.processes :=
  rfl

@[simp] theorem processOf_setState :
    (scheduler.setState taskId task state).processOf query = scheduler.processOf query :=
  rfl

theorem get?_setState :
    (scheduler.setState taskId task state).tasks.get? query =
      if query = taskId then
        some { task with state := state }
      else
        scheduler.tasks.get? query :=
  scheduler.tasks.get?_set taskId query _

theorem checkTaskStatus_setState :
    (scheduler.setState taskId task state).checkTaskStatus query =
      if query = taskId then state.status else scheduler.checkTaskStatus query := by
  by_cases same : query = taskId
  · simp [checkTaskStatus, get?_setState, same]
  · simp [checkTaskStatus, get?_setState, same]

theorem resourcesOf_setState :
    (scheduler.setState taskId task state).resourcesOf query =
      if query = taskId then state.resources else scheduler.resourcesOf query := by
  by_cases same : query = taskId
  · simp [resourcesOf, get?_setState, same]
  · simp [resourcesOf, get?_setState, same]

theorem pidOf_setState :
    (scheduler.setState taskId task state).pidOf query =
      if query = taskId then state.pid else scheduler.pidOf query := by
  by_cases same : query = taskId
  · simp [pidOf, get?_setState, same]
  · simp [pidOf, get?_setState, same]

end SetState

theorem checkTaskStatus_of_get?
    {scheduler : Scheduler}
    {taskId : String}
    {task : Task}
    (found : scheduler.tasks.get? taskId = some task) :
    scheduler.checkTaskStatus taskId = task.state.status := by
  simp [checkTaskStatus, found]

theorem resourcesOf_of_get?
    {scheduler : Scheduler}
    {taskId : String}
    {task : Task}
    (found : scheduler.tasks.get? taskId = some task) :
    scheduler.resourcesOf taskId = task.state.resources := by
  simp [resourcesOf, found]

/-! ## Where the methods end -/

/-- A task that is given resources and launched. -/
def started
    (manager : ResourceManager)
    (task : Task)
    (resources : List Resource) :
    Scheduler :=
  ({ scheduler with resourceManager := manager }.setState task.id task
      { task.state with status := .booting, resources := resources })
    |>.launchTmuxTask task.id
      s!"python -m tensorpc.autossh.scheduler.runtask {task.type.value}"
      resources

theorem stateAfter_initTask (pid : Int) :
    stateAfter (initTask taskId pid) scheduler =
      match scheduler.tasks.get? taskId with
      | some task =>
          scheduler.setState taskId task { task.state with status := .running, pid := pid }
      | none => scheduler := by
  rw [initTask, stateAfter_get_bind]
  cases scheduler.tasks.get? taskId <;> rfl

/-- Where `run_task` ends. -/
theorem stateAfter_runTask :
    stateAfter (runTask taskId) scheduler =
      match scheduler.tasks.get? taskId with
      | some task =>
          if task.state.status ∈ allRunningStatus then
            scheduler
          else
            (scheduler.setState taskId task { task.state with status := .booting })
              |>.launchTmuxTask taskId
                s!"python -m tensorpc.autossh.scheduler.runtask {task.type.value}"
                task.state.resources
      | none => scheduler := by
  rw [runTask, stateAfter_get_bind]
  cases scheduler.tasks.get? taskId with
  | none =>
      rfl
  | some task =>
      dsimp only
      by_cases running : task.state.status ∈ allRunningStatus
      · rw [if_pos running, if_neg (fun absent => absent running)]
        rfl
      · rw [if_neg running, if_pos running]
        rfl

theorem stateAfter_updateTask
    (progress : Float)
    (output : Option TaskOutput) :
    stateAfter (updateTask taskId progress output) scheduler =
      match scheduler.tasks.get? taskId with
      | some task =>
          scheduler.setState taskId task
            { task.state with
              progress := max (min progress 1.0) 0.0
              outputs := task.state.outputs ++ output.toList }
      | none => scheduler := by
  rw [updateTask, stateAfter_get_bind]
  cases scheduler.tasks.get? taskId <;> rfl

/-- Where `set_task_status` ends. -/
theorem stateAfter_setTaskStatus (status : TaskStatus) :
    stateAfter (setTaskStatus taskId status) scheduler =
      match scheduler.tasks.get? taskId with
      | some task =>
          if status = .needToCancel ∧ task.state.status ∈ allRunningStatus then
            scheduler.setState taskId task { task.state with status := .needToCancel }
          else
            scheduler
      | none => scheduler := by
  unfold setTaskStatus
  by_cases supported : status = .needToCancel
  · subst supported
    rw [if_neg (by simp [supportedSetStatus]), stateAfter_get_bind]
    cases scheduler.tasks.get? taskId with
    | none =>
        rfl
    | some task =>
        dsimp only
        by_cases running : task.state.status ∈ allRunningStatus
        · rw [if_neg (fun refused => refused.2 running), if_pos ⟨rfl, running⟩]
          rfl
        · rw [if_pos ⟨rfl, running⟩, if_neg (fun accepted => running accepted.2)]
          rfl
  · rw [if_pos (by simpa [supportedSetStatus] using supported), stateAfter_throw]
    cases scheduler.tasks.get? taskId with
    | none =>
        rfl
    | some task =>
        simp [supported]

theorem stateAfter_setTaskFinished :
    stateAfter (setTaskFinished taskId) scheduler =
      match scheduler.tasks.get? taskId with
      | some task =>
          if task.state.status = .needToCancel then
            scheduler.setState taskId task { task.state with status := .almostCanceled }
          else
            scheduler.setState taskId task
              { task.state with status := .almostFinished, progress := 1.0 }
      | none => scheduler := by
  rw [setTaskFinished, stateAfter_get_bind]
  cases scheduler.tasks.get? taskId with
  | none =>
      rfl
  | some task =>
      dsimp only
      split <;> rfl

theorem stateAfter_setTaskException
    (exceptionStr : String)
    (order : SetOrder Resource) :
    stateAfter (setTaskException taskId exceptionStr order) scheduler =
      match scheduler.tasks.get? taskId with
      | some task =>
          stateAfter (doSchedule order)
            (scheduler.releaseTaskResources taskId task
              { task.state with status := .failed, exceptionStr := exceptionStr })
      | none => scheduler := by
  rw [setTaskException, stateAfter_get_bind]
  cases scheduler.tasks.get? taskId <;> rfl

/-- `assert s.has_session` changes nothing. -/
@[simp] theorem stateAfter_assertSession :
    stateAfter (assertSession taskId) scheduler = scheduler := by
  rw [assertSession, stateAfter_get_bind]
  split <;> rfl

/-- Where `cancel_task` ends. -/
theorem stateAfter_cancelTask :
    stateAfter (cancelTask taskId) scheduler =
      match scheduler.tasks.get? taskId with
      | some task =>
          if task.state.status = .pending then
            scheduler.setState taskId task { task.state with status := .canceled }
          else
            scheduler
      | none => scheduler := by
  rw [cancelTask, stateAfter_get_bind]
  cases scheduler.tasks.get? taskId with
  | none =>
      rfl
  | some task =>
      dsimp only
      by_cases cancelable : task.state.status ∈ allCtrlCCancelableStatus
      · have notPending : task.state.status ≠ .pending := by
          intro pending
          simp [pending, allCtrlCCancelableStatus] at cancelable
        rw [if_pos cancelable, if_neg notPending, stateAfter_bind]
        have unchanged := stateAfter_assertSession scheduler taskId
        simp only [stateAfter] at unchanged
        split at unchanged <;> simp_all
      · rw [if_neg cancelable]
        split <;> rfl

theorem stateAfter_tmuxKillTask (pid : Int) :
    stateAfter (tmuxKillTask taskId pid) scheduler = scheduler ∨
      stateAfter (tmuxKillTask taskId pid) scheduler = scheduler.endProcess pid ∨
      stateAfter (tmuxKillTask taskId pid) scheduler = scheduler.endSession taskId := by
  unfold tmuxKillTask
  split
  · rw [stateAfter_get_bind]
    split
    · exact .inr (.inl rfl)
    · exact .inl rfl
  · rw [stateAfter_bind, assertSession]
    by_cases present : taskId ∈ scheduler.sessions
    · right
      right
      simp [bind, EStateM.bind, Computation.get_apply, present, pure, EStateM.pure]
    · left
      simp [bind, EStateM.bind, Computation.get_apply, present, Computation.throw_apply]

/-- Where `kill_task` ends. -/
theorem stateAfter_killTask :
    stateAfter (killTask taskId) scheduler =
      match scheduler.tasks.get? taskId with
      | some task =>
          if task.state.status ∈ allKillableStatus then
            stateAfter (tmuxKillTask taskId task.state.pid) scheduler
          else if task.state.status = .pending then
            scheduler.setState taskId task { task.state with status := .canceled }
          else
            scheduler
      | none => scheduler := by
  rw [killTask, stateAfter_get_bind]
  cases scheduler.tasks.get? taskId with
  | none =>
      rfl
  | some task =>
      dsimp only
      split
      · rw [stateAfter_bind, stateAfter]
        cases tmuxKillTask taskId task.state.pid scheduler <;> rfl
      · split <;> rfl

/-- Where `delete_task` ends. -/
theorem stateAfter_deleteTask :
    stateAfter (deleteTask taskId) scheduler =
      match scheduler.tasks.get? taskId with
      | some task =>
          if task.state.status ∈ allRunningStatus then
            scheduler
          else
            { scheduler with tasks := scheduler.tasks.erase taskId }
      | none => scheduler := by
  rw [deleteTask, stateAfter_get_bind]
  cases scheduler.tasks.get? taskId with
  | none =>
      rfl
  | some task =>
      dsimp only
      split
      · rfl
      · rw [stateAfter_modify_bind, stateAfter_bind]
        have unchanged :=
          stateAfter_assertSession
            { scheduler with tasks := scheduler.tasks.erase taskId } taskId
        simp only [stateAfter] at unchanged
        split at unchanged <;> simp_all

theorem stateAfter_submitTask
    (task : Task)
    (uuid : String)
    (now : Int)
    (order : SetOrder Resource) :
    stateAfter (submitTask task uuid now order) scheduler =
      if scheduler.checkTaskStatus (submittedTask task uuid now).id ∈ allRunningStatus then
        scheduler
      else
        stateAfter (doSchedule order)
          { scheduler with
            tasks :=
              scheduler.tasks.set (submittedTask task uuid now).id
                (submittedTask task uuid now) } := by
  rw [submitTask, stateAfter_get_bind]
  split <;> rfl

theorem stateAfter_periodCheckTaskStatus (order : SetOrder Resource) :
    stateAfter (periodCheckTaskStatus order) scheduler =
      stateAfter (doSchedule order) (scheduler.tasks.keys.foldl checkTask scheduler) :=
  rfl

/-- The statuses that the periodic check looks at. -/
def checkedStatus : List TaskStatus :=
  [.running, .almostFinished, .almostCanceled]

/-- The statuses of a task that has ended. -/
def terminalStatus : List TaskStatus :=
  [.finished, .failed, .canceled]

/-- A turn of the periodic check ends a task whose reported pid is gone. -/
theorem checkTask_cases :
    scheduler.checkTask taskId = scheduler ∨
      ∃ task state,
        scheduler.tasks.get? taskId = some task ∧
        state.resources = task.state.resources ∧
        task.state.status ∈ checkedStatus ∧
        task.state.pid ∉ scheduler.livePids ∧
        state.status ∈ terminalStatus ∧
        scheduler.checkTask taskId = scheduler.releaseTaskResources taskId task state := by
  unfold checkTask
  split
  · exact .inl rfl
  · rename_i task found
    split
    · exact .inl rfl
    · rename_i gone
      have dead : task.state.pid ∉ scheduler.livePids := by
        simpa [pidExists] using gone
      split
      · rename_i status
        exact .inr ⟨task, { task.state with status := .failed }, found, rfl,
          by simp [status, checkedStatus], dead, by simp [terminalStatus], rfl⟩
      · rename_i status
        exact .inr ⟨task, { task.state with status := .finished }, found, rfl,
          by simp [status, checkedStatus], dead, by simp [terminalStatus], rfl⟩
      · rename_i status
        exact .inr ⟨task, { task.state with status := .canceled }, found, rfl,
          by simp [status, checkedStatus], dead, by simp [terminalStatus], rfl⟩
      · exact .inl rfl

theorem checkTask_of_dead
    {scheduler : Scheduler}
    {taskId : String}
    {task : Task}
    (found : scheduler.tasks.get? taskId = some task)
    (checked : task.state.status ∈ checkedStatus)
    (dead : task.state.pid ∉ scheduler.livePids) :
    ∃ state,
      scheduler.checkTask taskId = scheduler.releaseTaskResources taskId task state := by
  have gone : scheduler.pidExists task.state.pid = false := by
    simpa [pidExists] using dead
  simp only [checkTask, found, gone, Bool.false_eq_true, if_false]
  simp only [checkedStatus, List.mem_cons, List.not_mem_nil, or_false] at checked
  rcases checked with status | status | status
  · rw [status]
    exact ⟨_, rfl⟩
  · rw [status]
    exact ⟨_, rfl⟩
  · rw [status]
    exact ⟨_, rfl⟩

end Views

/-! ## Launching -/

section Launch

variable (scheduler : Scheduler) (taskId query windowCommand : String)
variable (resources : List Resource)

theorem processOf_launchTmuxTask :
    (scheduler.launchTmuxTask taskId windowCommand resources).processOf query =
      if query = taskId then
        some {
          pid := scheduler.processes.length + 1
          taskId := taskId
          command := windowCommand
          resources := resources }
      else
        scheduler.processOf query := by
  by_cases same : query = taskId
  · simp [processOf, launchTmuxTask, same]
  · simp [processOf, launchTmuxTask, same, Ne.symm same]

theorem launches_launchTmuxTask :
    (scheduler.launchTmuxTask taskId windowCommand resources).launches query =
      scheduler.launches query + if query = taskId then 1 else 0 := by
  by_cases same : query = taskId
  · simp [launches, launchTmuxTask, same]
  · simp [launches, launchTmuxTask, same, Ne.symm same]

@[simp] theorem checkTaskStatus_launchTmuxTask :
    (scheduler.launchTmuxTask taskId windowCommand resources).checkTaskStatus query =
      scheduler.checkTaskStatus query :=
  rfl

@[simp] theorem resourcesOf_launchTmuxTask :
    (scheduler.launchTmuxTask taskId windowCommand resources).resourcesOf query =
      scheduler.resourcesOf query :=
  rfl

@[simp] theorem pidOf_launchTmuxTask :
    (scheduler.launchTmuxTask taskId windowCommand resources).pidOf query =
      scheduler.pidOf query :=
  rfl

end Launch

/-! ## The scheduling loop -/

section Schedule

variable {scheduler : Scheduler}

theorem stateAfter_requestIdle_bind
    (order : SetOrder Resource)
    (type : ResourceType)
    (num : Nat)
    (next : List Resource → SchedulerM Unit) :
    stateAfter (requestIdle order type num >>= next) scheduler =
      stateAfter
        (next (scheduler.resourceManager.requestIdleResources order type num).1)
        { scheduler with
          resourceManager :=
            (scheduler.resourceManager.requestIdleResources order type num).2 } :=
  rfl

/-- A pending task that is given resources is launched with them. -/
theorem startTask_eq
    {task : Task}
    (pending : task.state.status = .pending)
    (resources : List Resource) :
    startTask task resources scheduler =
      .ok () (scheduler.started scheduler.resourceManager task resources) := by
  have notRunning : task.state.status ∉ allRunningStatus := by
    simp [pending, allRunningStatus]
  have found :
      (scheduler.setState task.id task
          { task.state with resources := resources }).tasks.get? task.id =
        some { task with state := { task.state with resources := resources } } := by
    simp [get?_setState]
  have launched :
      runTask task.id
          (scheduler.setState task.id task { task.state with resources := resources }) =
        .ok true (scheduler.started scheduler.resourceManager task resources) := by
    simp only [runTask, bind, EStateM.bind, Computation.get_apply, found, notRunning,
      not_false_eq_true, if_true, Computation.modify_apply, pure, EStateM.pure]
    simp [started, setState]
  simp only [startTask, bind, EStateM.bind, Computation.modify_apply, launched, pure,
    EStateM.pure]

/-- What the loop over the pending tasks keeps, if giving and launching keep it. -/
theorem scheduleTasks_invariant
    {holds : Scheduler → Prop}
    (rearranged :
      ∀ before manager,
        holds before →
        (before.resourceManager.WellFiled →
          before.resourceManager.SameSlots manager) →
        holds { before with resourceManager := manager })
    (starts :
      ∀ before manager task resources,
        holds before →
        before.tasks.get? task.id = some task →
        task.state.status = .pending →
        resources ≠ [] →
        (before.resourceManager.WellFiled →
          ResourceManager.Takes resources before.resourceManager manager) →
        holds (before.started manager task resources))
    (order : SetOrder Resource)
    {tasks : List Task}
    (distinct : (tasks.map (·.id)).Nodup)
    (present :
      ∀ task ∈ tasks,
        scheduler.tasks.get? task.id = some task ∧ task.state.status = .pending)
    (initially : holds scheduler) :
    holds (stateAfter (scheduleTasks order tasks) scheduler) := by
  induction tasks generalizing scheduler with
  | nil =>
      exact initially
  | cons task rest inductionHypothesis =>
      obtain ⟨apart, distinctRest⟩ := List.nodup_cons.mp distinct
      obtain ⟨found, pending⟩ := present task List.mem_cons_self
      have presentRest
          (manager : ResourceManager)
          (resources : List Resource) :
          ∀ other ∈ rest,
            (scheduler.started manager task resources).tasks.get? other.id =
                some other ∧
              other.state.status = .pending := by
        intro other member
        obtain ⟨otherFound, otherPending⟩ := present other (List.mem_cons_of_mem _ member)
        refine ⟨?_, otherPending⟩
        have different : other.id ≠ task.id := by
          intro same
          exact apart (List.mem_map.mpr ⟨other, member, same⟩)
        change
          (scheduler.setState task.id task _).tasks.get? other.id = some other
        rw [get?_setState, if_neg different, otherFound]
      have takesCpus
          (filed : scheduler.resourceManager.WellFiled) :=
        ResourceManager.takes_requestIdleResources filed order .cpu 1
      rw [scheduleTasks, stateAfter_requestIdle_bind]
      generalize
        scheduler.resourceManager.requestIdleResources order .cpu 1 = answer at takesCpus ⊢
      rcases answer with ⟨cpus, afterCpus⟩
      dsimp only at takesCpus ⊢
      by_cases noCpus : cpus = []
      · subst noCpus
        rw [if_pos rfl]
        exact rearranged _ _ initially fun filed => (takesCpus filed).sameSlots
      rw [if_neg noCpus]
      by_cases needsGpus : 0 < task.numGpuUsed
      · have takesGpus
            (filed : scheduler.resourceManager.WellFiled) :=
          ResourceManager.takes_requestIdleResources
            ((takesCpus filed).wellFiled filed) order .gpu task.numGpuUsed.toNat
        rw [if_pos needsGpus, stateAfter_requestIdle_bind]
        dsimp only at takesGpus ⊢
        generalize
          afterCpus.requestIdleResources order .gpu task.numGpuUsed.toNat = answer
            at takesGpus ⊢
        rcases answer with ⟨gpus, afterGpus⟩
        dsimp only at takesGpus ⊢
        by_cases noGpus : gpus = []
        · subst noGpus
          rw [if_pos rfl, stateAfter_modify_bind]
          apply inductionHypothesis distinctRest
          · intro other member
            exact present other (List.mem_cons_of_mem _ member)
          · apply rearranged _ _ initially
            intro filed
            have takes := (takesCpus filed).append (takesGpus filed)
            rw [List.append_nil] at takes
            exact takes.release filed
        · rw [if_neg noGpus, stateAfter_bind, startTask_eq pending]
          apply inductionHypothesis distinctRest (presentRest _ _)
          apply starts _ _ _ _ initially found pending
          · simp [noCpus]
          · intro filed
            exact (takesCpus filed).append (takesGpus filed)
      · rw [if_neg needsGpus, stateAfter_bind, startTask_eq pending]
        apply inductionHypothesis distinctRest (presentRest _ _)
        exact starts _ _ _ _ initially found pending noCpus takesCpus

/-- The keys of the table are the ids of its tasks. -/
def Keyed (scheduler : Scheduler) : Prop :=
  ∀ taskId task, scheduler.tasks.get? taskId = some task → task.id = taskId

theorem Keyed.map_id_values
    (keyed : scheduler.Keyed) :
    scheduler.tasks.values.map (·.id) = scheduler.tasks.keys := by
  rw [Dict.values, Dict.keys, List.map_map]
  apply List.map_congr_left
  intro entry member
  exact keyed entry.1 entry.2 ((Dict.mem_entries_iff _).mp member)

/-- What `_do_schedule` keeps, if giving resources and launching keep it. -/
theorem doSchedule_invariant
    (holds : Scheduler → Prop)
    (rearranged :
      ∀ before manager,
        holds before →
        (before.resourceManager.WellFiled →
          before.resourceManager.SameSlots manager) →
        holds { before with resourceManager := manager })
    (starts :
      ∀ before manager task resources,
        holds before →
        before.tasks.get? task.id = some task →
        task.state.status = .pending →
        resources ≠ [] →
        (before.resourceManager.WellFiled →
          ResourceManager.Takes resources before.resourceManager manager) →
        holds (before.started manager task resources))
    (order : SetOrder Resource)
    (keyed : scheduler.Keyed)
    (initially : holds scheduler) :
    holds (stateAfter (doSchedule order) scheduler) := by
  have sorted := List.perm_insertionSort
    (fun first second : Task => first.createTimestamp ≤ second.createTimestamp)
    (scheduler.tasks.values.filter (·.state.status = .pending))
  rw [doSchedule, stateAfter_get_bind]
  apply scheduleTasks_invariant rearranged starts order _ _ initially
  · rw [pendingTasks, (sorted.map _).nodup_iff]
    apply List.Nodup.sublist (List.filter_sublist.map _)
    rw [keyed.map_id_values]
    exact scheduler.tasks.nodup_keys
  · intro task member
    obtain ⟨listed, pending⟩ := List.mem_filter.mp (sorted.mem_iff.mp member)
    obtain ⟨taskId, found⟩ := Dict.mem_values_iff.mp listed
    refine ⟨?_, of_decide_eq_true pending⟩
    rw [keyed taskId task found]
    exact found

end Schedule

end TensorPC.Autossh.Scheduler
