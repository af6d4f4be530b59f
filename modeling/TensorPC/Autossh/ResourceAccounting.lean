import TensorPC.Autossh.TaskEffects

namespace TensorPC.Autossh.Scheduler

/-!
# Every resource is accounted for

Idle and occupied resources partition the initial ones and each occupied one is
listed by exactly one task: that holds in every run.  That nothing is given away
under a living process, and that nothing stays with a dead one, needs reports
that come from the task's own process and no exception report from a process
that is still alive.
-/

open Computation

variable {numCpu numGpu : Nat} {scheduler : Scheduler}

/-! ## Idle, occupied and listed resources -/

/-- The manager's sets and the resources that the tasks list agree. -/
structure Accounted
    (numCpu numGpu : Nat)
    (scheduler : Scheduler) : Prop where
  keyed : scheduler.Keyed
  filed : scheduler.resourceManager.WellFiled
  partition :
    ∀ kind resource,
      resource ∈ initialResources numCpu numGpu kind ↔
        resource ∈ scheduler.resourceManager.idleResources kind ∨
          resource ∈ scheduler.resourceManager.occupiedResources kind
  listed :
    ∀ taskId, ∀ resource ∈ scheduler.resourcesOf taskId,
      resource ∈ scheduler.resourceManager.occupiedResources resource.1
  holder :
    ∀ kind, ∀ resource ∈ scheduler.resourceManager.occupiedResources kind,
      ∃ taskId, resource ∈ scheduler.resourcesOf taskId
  unique :
    ∀ first second resource,
      resource ∈ scheduler.resourcesOf first →
      resource ∈ scheduler.resourcesOf second →
      first = second
  running :
    ∀ taskId,
      scheduler.resourcesOf taskId ≠ [] →
      scheduler.checkTaskStatus taskId ∈ allRunningStatus

theorem accounted_init (numCpu numGpu : Nat) :
    (init numCpu numGpu).Accounted numCpu numGpu where
  keyed _ _ found := nomatch found
  filed := ResourceManager.wellFiled_init numCpu numGpu
  partition kind resource := by
    simp [init, ResourceManager.init]
  listed _ _ member := nomatch member
  holder _ resource member := absurd member (PySet.not_mem_empty resource)
  unique _ _ _ member := nomatch member
  running _ nonempty := absurd rfl nonempty

theorem Keyed.setState
    (keyed : scheduler.Keyed)
    {taskId : String}
    {task : Task}
    (found : scheduler.tasks.get? taskId = some task)
    (state : TaskState) :
    (scheduler.setState taskId task state).Keyed := by
  intro query other otherFound
  rw [get?_setState] at otherFound
  split at otherFound
  · rename_i same
    cases otherFound
    rw [same]
    exact keyed taskId task found
  · exact keyed query other otherFound

namespace Accounted

theorem congr
    {other : Scheduler}
    (accounted : scheduler.Accounted numCpu numGpu)
    (sameTasks : other.tasks = scheduler.tasks)
    (sameManager : other.resourceManager = scheduler.resourceManager) :
    other.Accounted numCpu numGpu := by
  rcases scheduler with ⟨tasks, manager, _, _, _⟩
  rcases other with ⟨otherTasks, otherManager, _, _, _⟩
  dsimp only at sameTasks sameManager
  subst sameTasks sameManager
  exact
    ⟨accounted.keyed, accounted.filed, accounted.partition, accounted.listed,
      accounted.holder, accounted.unique, accounted.running⟩

/-- A write that keeps the listed resources, and drops none of a running task. -/
theorem setState
    (accounted : scheduler.Accounted numCpu numGpu)
    {taskId : String}
    {task : Task}
    {state : TaskState}
    (found : scheduler.tasks.get? taskId = some task)
    (sameResources : state.resources = task.state.resources)
    (running : state.resources ≠ [] → state.status ∈ allRunningStatus) :
    (scheduler.setState taskId task state).Accounted numCpu numGpu := by
  have same (query : String) :
      (scheduler.setState taskId task state).resourcesOf query =
        scheduler.resourcesOf query := by
    rw [resourcesOf_setState]
    split
    · rename_i isTask
      rw [isTask, resourcesOf_of_get? found, sameResources]
    · rfl
  constructor
  · exact accounted.keyed.setState found state
  · exact accounted.filed
  · exact accounted.partition
  · intro query resource member
    rw [same] at member
    exact accounted.listed query resource member
  · intro kind resource occupied
    obtain ⟨holder, member⟩ := accounted.holder kind resource occupied
    exact ⟨holder, (same holder).symm ▸ member⟩
  · intro first second resource
    rw [same, same]
    exact accounted.unique first second resource
  · intro query nonempty
    rw [checkTaskStatus_setState]
    rw [resourcesOf_setState] at nonempty
    split
    · rename_i isTask
      rw [if_pos isTask] at nonempty
      exact running nonempty
    · rename_i other
      rw [if_neg other] at nonempty
      exact accounted.running query nonempty

/-- Giving back what a task lists. -/
theorem release
    (accounted : scheduler.Accounted numCpu numGpu)
    {taskId : String}
    {task : Task}
    {state : TaskState}
    (found : scheduler.tasks.get? taskId = some task)
    (sameResources : state.resources = task.state.resources) :
    (scheduler.releaseTaskResources taskId task state).Accounted numCpu numGpu := by
  have released :=
    ResourceManager.releases_releaseResources state.resources scheduler.resourceManager
  have listedHere (resource : Resource) :
      resource ∈ state.resources ↔ resource ∈ scheduler.resourcesOf taskId := by
    rw [resourcesOf_of_get? found, sameResources]
  have resources (query : String) :
      (scheduler.releaseTaskResources taskId task state).resourcesOf query =
        if query = taskId then [] else scheduler.resourcesOf query :=
    resourcesOf_setState scheduler taskId query task { state with resources := [] }
  constructor
  · exact accounted.keyed.setState found _
  · exact released.wellFiled accounted.filed
  · intro kind resource
    change
      _ ↔ resource ∈ (scheduler.resourceManager.releaseResources _).idleResources kind ∨
        resource ∈ (scheduler.resourceManager.releaseResources _).occupiedResources kind
    rw [accounted.partition, released.idle, released.occupied]
    tauto
  · intro query resource member
    rw [resources] at member
    split at member
    · exact absurd member List.not_mem_nil
    · rename_i other
      apply (released.occupied _ _).mpr
      refine ⟨accounted.listed query resource member, fun inTask => other ?_⟩
      exact accounted.unique _ _ resource member ((listedHere resource).mp inTask)
  · intro kind resource occupied
    obtain ⟨wasOccupied, kept⟩ := (released.occupied _ _).mp occupied
    obtain ⟨holder, member⟩ := accounted.holder kind resource wasOccupied
    refine ⟨holder, ?_⟩
    rw [resources, if_neg]
    · exact member
    · intro isTask
      apply kept
      rw [listedHere, ← isTask]
      exact member
  · intro first second resource inFirst inSecond
    rw [resources] at inFirst inSecond
    split at inFirst
    · exact absurd inFirst List.not_mem_nil
    · split at inSecond
      · exact absurd inSecond List.not_mem_nil
      · exact accounted.unique first second resource inFirst inSecond
  · intro query nonempty
    rw [resources] at nonempty
    split at nonempty
    · exact absurd rfl nonempty
    · rename_i other
      change (scheduler.setState taskId task _).checkTaskStatus query ∈ allRunningStatus
      rw [checkTaskStatus_setState, if_neg other]
      exact accounted.running query nonempty

theorem resources_of_notRunning
    (accounted : scheduler.Accounted numCpu numGpu)
    {taskId : String}
    (notRunning : scheduler.checkTaskStatus taskId ∉ allRunningStatus) :
    scheduler.resourcesOf taskId = [] :=
  of_not_not fun nonempty => notRunning (accounted.running taskId nonempty)

theorem rearranged
    (accounted : scheduler.Accounted numCpu numGpu)
    {manager : ResourceManager}
    (same : scheduler.resourceManager.SameSlots manager) :
    { scheduler with resourceManager := manager }.Accounted numCpu numGpu := by
  constructor
  · exact accounted.keyed
  · exact same.wellFiled accounted.filed
  · intro kind resource
    rw [accounted.partition, same.idle, same.occupied]
  · intro query resource member
    exact (same.occupied _ _).mpr (accounted.listed query resource member)
  · intro kind resource occupied
    exact accounted.holder kind resource ((same.occupied _ _).mp occupied)
  · exact accounted.unique
  · exact accounted.running

/-- Giving idle resources to a pending task and launching it. -/
theorem started
    (accounted : scheduler.Accounted numCpu numGpu)
    {manager : ResourceManager}
    {task : Task}
    {resources : List Resource}
    (found : scheduler.tasks.get? task.id = some task)
    (pending : task.state.status = .pending)
    (takes : ResourceManager.Takes resources scheduler.resourceManager manager) :
    (scheduler.started manager task resources).Accounted numCpu numGpu := by
  have nothing : scheduler.resourcesOf task.id = [] := by
    apply accounted.resources_of_notRunning
    simp [checkTaskStatus_of_get? found, pending, allRunningStatus]
  have given (query : String) :
      (scheduler.started manager task resources).resourcesOf query =
        if query = task.id then resources else scheduler.resourcesOf query :=
    resourcesOf_setState _ _ _ _ _
  have wasFree
      (query : String)
      (resource : Resource)
      (member : resource ∈ scheduler.resourcesOf query) :
      resource ∉ resources := by
    intro taken
    exact accounted.filed.disjoint _ _ (takes.wasIdle resource taken)
      (accounted.listed query resource member)
  constructor
  · exact accounted.keyed.setState found _
  · exact takes.wellFiled accounted.filed
  · intro kind resource
    change _ ↔ resource ∈ manager.idleResources kind ∨
      resource ∈ manager.occupiedResources kind
    rw [accounted.partition, takes.idle, takes.occupied]
    constructor
    · rintro (idle | occupied)
      · by_cases taken : resource ∈ resources
        · exact .inr (.inr ⟨(accounted.filed.idleKind _ _ idle).symm, taken⟩)
        · exact .inl ⟨idle, taken⟩
      · exact .inr (.inl occupied)
    · rintro (⟨idle, _⟩ | occupied | ⟨rfl, taken⟩)
      · exact .inl idle
      · exact .inr occupied
      · exact .inl (takes.wasIdle resource taken)
  · intro query resource member
    apply (takes.occupied _ _).mpr
    rw [given] at member
    split at member
    · exact .inr ⟨rfl, member⟩
    · exact .inl (accounted.listed query resource member)
  · intro kind resource occupied
    rcases (takes.occupied _ _).mp occupied with wasOccupied | ⟨_, taken⟩
    · obtain ⟨holder, member⟩ := accounted.holder kind resource wasOccupied
      refine ⟨holder, ?_⟩
      rw [given, if_neg]
      · exact member
      · intro isTask
        rw [isTask, nothing] at member
        exact List.not_mem_nil member
    · exact ⟨task.id, by rw [given, if_pos rfl]; exact taken⟩
  · intro first second resource inFirst inSecond
    rw [given] at inFirst inSecond
    split at inFirst
    · rename_i isFirst
      split at inSecond
      · rename_i isSecond
        exact isFirst.trans isSecond.symm
      · exact absurd inFirst (wasFree second resource inSecond)
    · split at inSecond
      · exact absurd inSecond (wasFree first resource inFirst)
      · exact accounted.unique first second resource inFirst inSecond
  · intro query nonempty
    change
      ({ scheduler with resourceManager := manager }.setState task.id task _).checkTaskStatus
        query ∈ allRunningStatus
    rw [checkTaskStatus_setState]
    split
    · simp [allRunningStatus]
    · rename_i other
      rw [given, if_neg other] at nonempty
      exact accounted.running query nonempty

theorem doSchedule
    (accounted : scheduler.Accounted numCpu numGpu)
    (order : SetOrder Resource) :
    (stateAfter (doSchedule order) scheduler).Accounted numCpu numGpu := by
  apply doSchedule_invariant (Accounted numCpu numGpu) _ _ order accounted.keyed accounted
  · intro before manager holds same
    exact holds.rearranged (same holds.filed)
  · intro before manager task resources holds found pending _ takes
    exact holds.started found pending (takes holds.filed)

/-- A task that lists nothing leaves the table, or is replaced by a new one. -/
theorem replace
    (accounted : scheduler.Accounted numCpu numGpu)
    {taskId : String}
    {tasks : Dict String Task}
    (nothing : scheduler.resourcesOf taskId = [])
    (others :
      ∀ query, query ≠ taskId → tasks.get? query = scheduler.tasks.get? query)
    (here :
      ∀ task, tasks.get? taskId = some task →
        task.id = taskId ∧ task.state.resources = []) :
    { scheduler with tasks := tasks }.Accounted numCpu numGpu := by
  have resources (query : String) :
      { scheduler with tasks := tasks }.resourcesOf query = scheduler.resourcesOf query := by
    by_cases isTask : query = taskId
    · subst isTask
      rw [nothing, resourcesOf]
      split
      · rename_i task found
        exact (here task found).2
      · rfl
    · simp only [resourcesOf, others query isTask]
  constructor
  · intro query task found
    by_cases isTask : query = taskId
    · subst isTask
      exact (here task found).1
    · exact accounted.keyed query task ((others query isTask).symm.trans found)
  · exact accounted.filed
  · exact accounted.partition
  · intro query resource member
    rw [resources] at member
    exact accounted.listed query resource member
  · intro kind resource occupied
    obtain ⟨holder, member⟩ := accounted.holder kind resource occupied
    exact ⟨holder, (resources holder).symm ▸ member⟩
  · intro first second resource
    rw [resources, resources]
    exact accounted.unique first second resource
  · intro query nonempty
    rw [resources] at nonempty
    have notTask : query ≠ taskId := by
      rintro rfl
      exact nonempty nothing
    have running := accounted.running query nonempty
    simpa only [checkTaskStatus, others query notTask] using running

theorem checkTask
    (accounted : scheduler.Accounted numCpu numGpu)
    (taskId : String) :
    (scheduler.checkTask taskId).Accounted numCpu numGpu := by
  rcases checkTask_cases scheduler taskId with same |
    ⟨task, state, found, resources, _, _, _, same⟩
  · rw [same]
    exact accounted
  · rw [same]
    exact accounted.release found resources

theorem checkTasks
    (accounted : scheduler.Accounted numCpu numGpu)
    (taskIds : List String) :
    (taskIds.foldl Scheduler.checkTask scheduler).Accounted numCpu numGpu := by
  induction taskIds generalizing scheduler with
  | nil =>
      exact accounted
  | cons taskId rest inductionHypothesis =>
      exact inductionHypothesis (accounted.checkTask taskId)

theorem nothing_of_get?
    (accounted : scheduler.Accounted numCpu numGpu)
    {taskId : String}
    {task : Task}
    (found : scheduler.tasks.get? taskId = some task)
    (notRunning : task.state.status ∉ allRunningStatus) :
    task.state.resources = [] := by
  rw [← resourcesOf_of_get? found]
  apply accounted.resources_of_notRunning
  rw [checkTaskStatus_of_get? found]
  exact notRunning

theorem cancelPending
    (accounted : scheduler.Accounted numCpu numGpu)
    {taskId : String}
    {task : Task}
    (found : scheduler.tasks.get? taskId = some task)
    (pending : task.state.status = .pending) :
    (scheduler.setState taskId task { task.state with status := .canceled }).Accounted
      numCpu numGpu := by
  have nothing : task.state.resources = [] := by
    apply accounted.nothing_of_get? found
    simp [pending, allRunningStatus]
  apply accounted.setState found
  · rfl
  · exact fun nonempty => absurd nothing nonempty

/-- Every step keeps the accounts. -/
theorem step
    {after : Scheduler}
    {event : SchedulerEvent}
    (accounted : scheduler.Accounted numCpu numGpu)
    (stepped : scheduler.step event = some after) :
    after.Accounted numCpu numGpu := by
  cases event with
  | submitTask task uuid now order =>
      cases stepped
      rw [stateAfter_submitTask]
      split
      · exact accounted
      · rename_i notRunning
        apply doSchedule
        apply accounted.replace (accounted.resources_of_notRunning notRunning)
        · intro query other
          exact Dict.get?_set_ne _ _ other
        · intro found isFound
          rw [Dict.get?_set_self] at isFound
          cases isFound
          exact ⟨rfl, rfl⟩
  | runTask taskId =>
      cases stepped
      rw [stateAfter_runTask]
      split
      · rename_i task found
        split
        · exact accounted
        · rename_i notRunning
          have written :
              (scheduler.setState taskId task
                { task.state with status := .booting }).Accounted numCpu numGpu :=
            accounted.setState found rfl fun _ => by simp [allRunningStatus]
          exact written.congr rfl rfl
      · exact accounted
  | initTask taskId pid =>
      cases stepped
      rw [stateAfter_initTask]
      split
      · rename_i task found
        exact accounted.setState found rfl fun _ => by simp [allRunningStatus]
      · exact accounted
  | updateTask taskId progress output =>
      cases stepped
      rw [stateAfter_updateTask]
      split
      · rename_i task found
        have running := accounted.running taskId
        rw [resourcesOf_of_get? found, checkTaskStatus_of_get? found] at running
        apply accounted.setState found
        · rfl
        · exact running
      · exact accounted
  | setTaskStatus taskId status =>
      cases stepped
      rw [stateAfter_setTaskStatus]
      split
      · rename_i task found
        split
        · exact accounted.setState found rfl fun _ => by simp [allRunningStatus]
        · exact accounted
      · exact accounted
  | setTaskFinished taskId =>
      cases stepped
      rw [stateAfter_setTaskFinished]
      split
      · rename_i task found
        split
        · exact accounted.setState found rfl fun _ => by simp [allRunningStatus]
        · exact accounted.setState found rfl fun _ => by simp [allRunningStatus]
      · exact accounted
  | setTaskException taskId exceptionStr order =>
      cases stepped
      rw [stateAfter_setTaskException]
      split
      · rename_i task found
        apply doSchedule
        apply accounted.release found
        rfl
      · exact accounted
  | cancelTask taskId =>
      cases stepped
      rw [stateAfter_cancelTask]
      split
      · rename_i task found
        split
        · rename_i pending
          exact accounted.cancelPending found pending
        · exact accounted
      · exact accounted
  | killTask taskId =>
      cases stepped
      rw [stateAfter_killTask]
      split
      · rename_i task found
        split
        · rcases stateAfter_tmuxKillTask scheduler taskId task.state.pid with
            same | same | same
          · rw [same]
            exact accounted
          · rw [same]
            exact accounted.congr rfl rfl
          · rw [same]
            exact accounted.congr rfl rfl
        · split
          · rename_i pending
            exact accounted.cancelPending found pending
          · exact accounted
      · exact accounted
  | deleteTask taskId =>
      cases stepped
      rw [stateAfter_deleteTask]
      split
      · rename_i task found
        split
        · exact accounted
        · rename_i notRunning
          have nothing : scheduler.resourcesOf taskId = [] := by
            rw [resourcesOf_of_get? found]
            exact accounted.nothing_of_get? found notRunning
          apply accounted.replace nothing
          · intro query other
            rw [Dict.get?_erase, if_neg other]
          · intro gone isFound
            rw [Dict.get?_erase_self] at isFound
            cases isFound
      · exact accounted
  | periodCheck order =>
      cases stepped
      exact (accounted.checkTasks _).doSchedule order
  | processDies pid =>
      simp only [Scheduler.step] at stepped
      split at stepped
      · cases stepped
        exact accounted.congr rfl rfl
      · cases stepped
  | sessionEnds taskId =>
      simp only [Scheduler.step] at stepped
      split at stepped
      · cases stepped
        exact accounted.congr rfl rfl
      · cases stepped

end Accounted

/-! ## Resources and processes -/

/-- The launched processes and the resources that the tasks list agree. -/
structure Tracked (scheduler : Scheduler) : Prop where
  pidsBelow :
    ∀ process ∈ scheduler.processes, process.pid ≤ scheduler.processes.length
  launched :
    ∀ taskId,
      scheduler.resourcesOf taskId ≠ [] →
      ∃ process, scheduler.processOf taskId = some process
  held :
    ∀ process ∈ scheduler.processes,
      process.pid ∈ scheduler.livePids →
      ∀ resource ∈ process.resources,
        resource ∈ scheduler.resourcesOf process.taskId ∧
          scheduler.processOf process.taskId = some process
  pidKnown :
    ∀ taskId,
      scheduler.resourcesOf taskId ≠ [] →
      scheduler.checkTaskStatus taskId ∈ checkedStatus →
      (scheduler.processOf taskId).map (·.pid) = some (scheduler.pidOf taskId)

/-- What a task lists, if anything, is in use by a process that is alive. -/
def LiveHolder (scheduler : Scheduler) (taskId : String) : Prop :=
  scheduler.resourcesOf taskId ≠ [] →
    ∃ process,
      scheduler.processOf taskId = some process ∧ process.pid ∈ scheduler.livePids

/-- What a task lists, if anything, is in use by no process that is alive. -/
def DeadHolder (scheduler : Scheduler) (taskId : String) : Prop :=
  scheduler.resourcesOf taskId ≠ [] →
    ∀ process, scheduler.processOf taskId = some process →
      process.pid ∉ scheduler.livePids

instance (scheduler : Scheduler) (taskId : String) :
    Decidable (scheduler.LiveHolder taskId) :=
  decidable_of_iff
    (scheduler.resourcesOf taskId ≠ [] →
      (scheduler.processOf taskId).any (·.pid ∈ scheduler.livePids))
    (by simp [LiveHolder, Option.any_eq_true])

instance (scheduler : Scheduler) (taskId : String) :
    Decidable (scheduler.DeadHolder taskId) :=
  decidable_of_iff
    (scheduler.resourcesOf taskId ≠ [] →
      (scheduler.processOf taskId).all (·.pid ∉ scheduler.livePids))
    (by simp [DeadHolder, Option.all_eq_true])

theorem tracked_init (numCpu numGpu : Nat) : (init numCpu numGpu).Tracked where
  pidsBelow _ member := nomatch member
  launched _ nonempty := absurd rfl nonempty
  held _ member := nomatch member
  pidKnown _ nonempty := absurd rfl nonempty

namespace Tracked

/-- A write that keeps the listed resources, and the pid where it is looked at. -/
theorem setState
    (tracked : scheduler.Tracked)
    {taskId : String}
    {task : Task}
    {state : TaskState}
    (found : scheduler.tasks.get? taskId = some task)
    (sameResources : state.resources = task.state.resources)
    (pidKnown :
      state.resources ≠ [] →
      state.status ∈ checkedStatus →
      (scheduler.processOf taskId).map (·.pid) = some state.pid) :
    (scheduler.setState taskId task state).Tracked := by
  have same (query : String) :
      (scheduler.setState taskId task state).resourcesOf query =
        scheduler.resourcesOf query := by
    rw [resourcesOf_setState]
    split
    · rename_i isTask
      rw [isTask, resourcesOf_of_get? found, sameResources]
    · rfl
  constructor
  · exact tracked.pidsBelow
  · intro query nonempty
    rw [same] at nonempty
    exact tracked.launched query nonempty
  · intro process member alive resource given
    rw [same]
    exact tracked.held process member alive resource given
  · intro query nonempty checked
    rw [resourcesOf_setState] at nonempty
    rw [checkTaskStatus_setState] at checked
    rw [pidOf_setState, processOf_setState]
    split
    · rename_i isTask
      rw [if_pos isTask] at nonempty checked
      rw [isTask]
      exact pidKnown nonempty checked
    · rename_i other
      rw [if_neg other] at nonempty checked
      exact tracked.pidKnown query nonempty checked

/-- Giving back what no living process uses. -/
theorem release
    (tracked : scheduler.Tracked)
    {taskId : String}
    (task : Task)
    (state : TaskState)
    (dead : scheduler.DeadHolder taskId) :
    (scheduler.releaseTaskResources taskId task state).Tracked := by
  have resources (query : String) :
      (scheduler.releaseTaskResources taskId task state).resourcesOf query =
        if query = taskId then [] else scheduler.resourcesOf query :=
    resourcesOf_setState scheduler taskId query task { state with resources := [] }
  constructor
  · exact tracked.pidsBelow
  · intro query nonempty
    rw [resources] at nonempty
    split at nonempty
    · exact absurd rfl nonempty
    · exact tracked.launched query nonempty
  · intro process member alive resource given
    obtain ⟨listed, current⟩ := tracked.held process member alive resource given
    refine ⟨?_, current⟩
    rw [resources, if_neg]
    · exact listed
    · intro isTask
      rw [isTask] at listed current
      exact dead (List.ne_nil_of_mem listed) process current alive
  · intro query nonempty checked
    rw [resources] at nonempty
    split at nonempty
    · exact absurd rfl nonempty
    · rename_i other
      change (scheduler.setState taskId task _).checkTaskStatus query ∈ _ at checked
      change _ = some ((scheduler.setState taskId task _).pidOf query)
      rw [checkTaskStatus_setState, if_neg other] at checked
      rw [pidOf_setState, if_neg other]
      exact tracked.pidKnown query nonempty checked

theorem fewer
    {other : Scheduler}
    (tracked : scheduler.Tracked)
    (sameTasks : other.tasks = scheduler.tasks)
    (sameProcesses : other.processes = scheduler.processes)
    (fewer : ∀ pid ∈ other.livePids, pid ∈ scheduler.livePids) :
    other.Tracked := by
  rcases scheduler with ⟨tasks, manager, sessions, processes, livePids⟩
  rcases other with ⟨otherTasks, otherManager, otherSessions, otherProcesses, otherPids⟩
  dsimp only at sameTasks sameProcesses fewer
  subst sameTasks sameProcesses
  constructor
  · exact tracked.pidsBelow
  · exact tracked.launched
  · intro process member alive
    exact tracked.held process member (fewer _ alive)
  · exact tracked.pidKnown

/-- A task that lists nothing leaves the table, or is replaced by a new one. -/
theorem replace
    (tracked : scheduler.Tracked)
    {taskId : String}
    {tasks : Dict String Task}
    (nothing : scheduler.resourcesOf taskId = [])
    (others :
      ∀ query, query ≠ taskId → tasks.get? query = scheduler.tasks.get? query)
    (here :
      ∀ task, tasks.get? taskId = some task → task.state.resources = []) :
    { scheduler with tasks := tasks }.Tracked := by
  have resources (query : String) :
      { scheduler with tasks := tasks }.resourcesOf query = scheduler.resourcesOf query := by
    by_cases isTask : query = taskId
    · subst isTask
      rw [nothing, resourcesOf]
      split
      · rename_i task found
        exact here task found
      · rfl
    · simp only [resourcesOf, others query isTask]
  constructor
  · exact tracked.pidsBelow
  · intro query nonempty
    rw [resources] at nonempty
    exact tracked.launched query nonempty
  · intro process member alive resource given
    rw [resources]
    exact tracked.held process member alive resource given
  · intro query nonempty checked
    rw [resources] at nonempty
    have notTask : query ≠ taskId := by
      rintro rfl
      exact nonempty nothing
    have known := tracked.pidKnown query nonempty
    simp only [checkTaskStatus, pidOf, others query notTask] at checked known ⊢
    exact known checked

theorem unused
    (tracked : scheduler.Tracked)
    {taskId : String}
    (nothing : scheduler.resourcesOf taskId = []) :
    ∀ process ∈ scheduler.processes,
      process.pid ∈ scheduler.livePids →
      process.taskId = taskId →
      process.resources = [] := by
  intro process member alive isTask
  apply List.eq_nil_iff_forall_not_mem.mpr
  intro resource given
  have listed := (tracked.held process member alive resource given).1
  rw [isTask, nothing] at listed
  exact List.not_mem_nil listed

/-- Giving resources to a task that lists none, and launching it. -/
theorem started
    (tracked : scheduler.Tracked)
    (manager : ResourceManager)
    {task : Task}
    (resources : List Resource)
    (nothing : scheduler.resourcesOf task.id = []) :
    (scheduler.started manager task resources).Tracked := by
  have given (query : String) :
      (scheduler.started manager task resources).resourcesOf query =
        if query = task.id then resources else scheduler.resourcesOf query :=
    resourcesOf_setState _ _ _ _ _
  have older
      (process : Process)
      (member : process ∈ scheduler.processes) :
      process.pid ≠ scheduler.processes.length + 1 := by
    have below := tracked.pidsBelow process member
    omega
  constructor
  · intro process member
    rcases List.mem_cons.mp member with rfl | member
    · simp [Scheduler.started, launchTmuxTask]
    · have below := tracked.pidsBelow process member
      simp only [Scheduler.started, launchTmuxTask, processes_setState, List.length_cons]
      omega
  · intro query nonempty
    rw [Scheduler.started, processOf_launchTmuxTask]
    split
    · exact ⟨_, rfl⟩
    · rename_i other
      rw [given, if_neg other] at nonempty
      exact tracked.launched query nonempty
  · intro process member alive resource used
    rw [given, Scheduler.started, processOf_launchTmuxTask]
    rcases List.mem_cons.mp member with rfl | member
    · rw [if_pos rfl, if_pos rfl]
      exact ⟨used, rfl⟩
    · have aliveBefore : process.pid ∈ scheduler.livePids :=
        (List.mem_cons.mp alive).resolve_left (older process member)
      have other : process.taskId ≠ task.id := by
        intro isTask
        rw [tracked.unused nothing process member aliveBefore isTask] at used
        exact List.not_mem_nil used
      rw [if_neg other, if_neg other]
      exact tracked.held process member aliveBefore resource used
  · intro query nonempty checked
    rw [Scheduler.started, checkTaskStatus_launchTmuxTask, checkTaskStatus_setState] at checked
    rw [Scheduler.started, processOf_launchTmuxTask, pidOf_launchTmuxTask, pidOf_setState]
    by_cases isTask : query = task.id
    · rw [if_pos isTask] at checked
      exact absurd checked (by simp [checkedStatus])
    · rw [if_neg isTask] at checked
      rw [given, if_neg isTask] at nonempty
      rw [if_neg isTask, if_neg isTask]
      exact tracked.pidKnown query nonempty checked

end Tracked

/-- The accounts and the processes agree, as every step under the condition keeps it. -/
structure Consistent
    (numCpu numGpu : Nat)
    (scheduler : Scheduler) : Prop where
  accounted : scheduler.Accounted numCpu numGpu
  tracked : scheduler.Tracked

/-! ## Holders that are alive -/

theorem LiveHolder.started
    (manager : ResourceManager)
    (task : Task)
    (resources : List Resource)
    {taskId : String}
    (live : scheduler.LiveHolder taskId) :
    (scheduler.started manager task resources).LiveHolder taskId := by
  intro nonempty
  rw [Scheduler.started, processOf_launchTmuxTask]
  split
  · exact ⟨_, rfl, List.mem_cons_self⟩
  · rename_i other
    have same :
        (scheduler.started manager task resources).resourcesOf taskId =
          scheduler.resourcesOf taskId := by
      rw [Scheduler.started, resourcesOf_launchTmuxTask, resourcesOf_setState, if_neg other]
      rfl
    rw [same] at nonempty
    obtain ⟨process, current, alive⟩ := live nonempty
    exact ⟨process, current, List.mem_cons_of_mem _ alive⟩

namespace Consistent

theorem nothing_of_pending
    (consistent : scheduler.Consistent numCpu numGpu)
    {task : Task}
    (found : scheduler.tasks.get? task.id = some task)
    (pending : task.state.status = .pending) :
    scheduler.resourcesOf task.id = [] := by
  apply consistent.accounted.resources_of_notRunning
  simp [checkTaskStatus_of_get? found, pending, allRunningStatus]

/-- Scheduling keeps the agreement, and leaves no resource with a dead process. -/
theorem doSchedule
    (consistent : scheduler.Consistent numCpu numGpu)
    (order : SetOrder Resource) :
    (stateAfter (Scheduler.doSchedule order) scheduler).Consistent numCpu numGpu ∧
      ∀ taskId,
        scheduler.LiveHolder taskId →
        (stateAfter (Scheduler.doSchedule order) scheduler).LiveHolder taskId := by
  apply doSchedule_invariant
    (fun state =>
      state.Consistent numCpu numGpu ∧
        ∀ taskId, scheduler.LiveHolder taskId → state.LiveHolder taskId)
    _ _ order consistent.accounted.keyed
  · exact ⟨consistent, fun _ live => live⟩
  · rintro before manager ⟨⟨accounted, tracked⟩, live⟩ same
    refine ⟨⟨accounted.rearranged (same accounted.filed), ?_⟩, live⟩
    exact tracked.fewer rfl rfl fun _ alive => alive
  · rintro before manager task resources ⟨holds, live⟩ found pending _ takes
    have nothing := holds.nothing_of_pending found pending
    refine ⟨⟨?_, ?_⟩, ?_⟩
    · exact holds.accounted.started found pending (takes holds.accounted.filed)
    · exact holds.tracked.started manager resources nothing
    · intro taskId wasLive
      exact (live taskId wasLive).started manager task resources

theorem deadHolder
    (tracked : scheduler.Tracked)
    {taskId : String}
    {task : Task}
    (found : scheduler.tasks.get? taskId = some task)
    (checked : task.state.status ∈ checkedStatus)
    (dead : task.state.pid ∉ scheduler.livePids) :
    scheduler.DeadHolder taskId := by
  intro nonempty process current
  have known := tracked.pidKnown taskId nonempty
  rw [checkTaskStatus_of_get? found, current] at known
  have samePid := known checked
  simp only [Option.map_some, Option.some.injEq, pidOf, found] at samePid
  rw [samePid]
  exact dead

theorem checkTask
    (consistent : scheduler.Consistent numCpu numGpu)
    (taskId : String) :
    (scheduler.checkTask taskId).Consistent numCpu numGpu := by
  refine ⟨consistent.accounted.checkTask taskId, ?_⟩
  rcases checkTask_cases scheduler taskId with same |
    ⟨task, state, found, _, checked, dead, _, same⟩
  · rw [same]
    exact consistent.tracked
  · rw [same]
    exact consistent.tracked.release task state
      (deadHolder consistent.tracked found checked dead)

end Consistent

/-! ## The periodic check -/

/-- A task that holds resources without a living process is one that the check looks at. -/
def Checkable (scheduler : Scheduler) (taskId : String) : Prop :=
  scheduler.checkTaskStatus taskId ∉ checkedStatus → scheduler.LiveHolder taskId

instance (scheduler : Scheduler) (taskId : String) :
    Decidable (scheduler.Checkable taskId) :=
  inferInstanceAs (Decidable (_ → _))

theorem LiveHolder.release
    {taskId query : String}
    (task : Task)
    (state : TaskState)
    (live : query ≠ taskId → scheduler.LiveHolder query) :
    (scheduler.releaseTaskResources taskId task state).LiveHolder query := by
  intro nonempty
  change (scheduler.setState taskId task _).resourcesOf query ≠ [] at nonempty
  rw [resourcesOf_setState] at nonempty
  split at nonempty
  · exact absurd rfl nonempty
  · rename_i other
    exact live other nonempty

theorem LiveHolder.checkTask
    {query : String}
    (live : scheduler.LiveHolder query)
    (taskId : String) :
    (scheduler.checkTask taskId).LiveHolder query := by
  rcases checkTask_cases scheduler taskId with same | ⟨task, state, _, _, _, _, _, same⟩
  · rw [same]
    exact live
  · rw [same]
    exact LiveHolder.release task state fun _ => live

theorem Checkable.checkTask
    {query : String}
    (checkable : scheduler.Checkable query)
    (taskId : String) :
    (scheduler.checkTask taskId).Checkable query := by
  rcases checkTask_cases scheduler taskId with same | ⟨task, state, _, _, _, _, _, same⟩
  · rw [same]
    exact checkable
  · rw [same]
    intro unchecked
    apply LiveHolder.release task state
    intro other
    change (scheduler.setState taskId task _).checkTaskStatus query ∉ _ at unchecked
    rw [checkTaskStatus_setState, if_neg other] at unchecked
    exact checkable unchecked

/-- After its turn a task holds nothing without a living process. -/
theorem Checkable.liveHolder_checkTask
    {taskId : String}
    (tracked : scheduler.Tracked)
    (checkable : scheduler.Checkable taskId) :
    (scheduler.checkTask taskId).LiveHolder taskId := by
  by_cases checked : scheduler.checkTaskStatus taskId ∈ checkedStatus
  · cases found : scheduler.tasks.get? taskId with
    | none =>
        apply LiveHolder.checkTask
        intro nonempty
        simp [resourcesOf, found] at nonempty
    | some task =>
        by_cases alive : task.state.pid ∈ scheduler.livePids
        · apply LiveHolder.checkTask
          intro nonempty
          obtain ⟨process, current⟩ := tracked.launched taskId nonempty
          have known := tracked.pidKnown taskId nonempty checked
          simp only [current, Option.map_some, Option.some.injEq, pidOf, found] at known
          exact ⟨process, current, known ▸ alive⟩
        · rw [checkTaskStatus_of_get? found] at checked
          obtain ⟨state, released⟩ := checkTask_of_dead found checked alive
          rw [released]
          exact LiveHolder.release task state fun other => absurd rfl other
  · exact (checkable checked).checkTask taskId

/-- After the loop no task it looked at holds anything without a living process. -/
theorem liveHolder_checkTasks
    (consistent : scheduler.Consistent numCpu numGpu)
    (checkable : ∀ taskId, scheduler.Checkable taskId)
    (taskIds : List String) :
    (taskIds.foldl Scheduler.checkTask scheduler).Consistent numCpu numGpu ∧
      ∀ taskId,
        taskId ∈ taskIds ∨ scheduler.LiveHolder taskId →
        (taskIds.foldl Scheduler.checkTask scheduler).LiveHolder taskId := by
  induction taskIds generalizing scheduler with
  | nil =>
      refine ⟨consistent, ?_⟩
      rintro taskId (member | live)
      · exact absurd member List.not_mem_nil
      · exact live
  | cons first rest inductionHypothesis =>
      have later :=
        inductionHypothesis (consistent.checkTask first)
          fun taskId => (checkable taskId).checkTask first
      refine ⟨later.1, ?_⟩
      rintro taskId (member | live)
      · rcases List.mem_cons.mp member with rfl | inRest
        · exact later.2 taskId
            (.inr ((checkable taskId).liveHolder_checkTask consistent.tracked))
        · exact later.2 taskId (.inl inRest)
      · exact later.2 taskId (.inr (live.checkTask first))

/-! ## Runs -/

/-- The steps that give nothing away under a living process and leave nothing with a dead one. -/
def ReleasesSafely (scheduler : Scheduler) : SchedulerEvent → Prop
  -- The pid reported for a task that holds resources is that of its process.
  | .initTask taskId pid =>
      scheduler.resourcesOf taskId ≠ [] →
        (scheduler.processOf taskId).map (·.pid) = some pid
  -- The end is reported after the pid.
  | .setTaskFinished taskId =>
      scheduler.resourcesOf taskId ≠ [] →
        (scheduler.processOf taskId).map (·.pid) = some (scheduler.pidOf taskId)
  -- The exception is reported when the process is gone.
  | .setTaskException taskId _ _ =>
      scheduler.DeadHolder taskId
  -- No process is gone while its task is booting or asked to cancel.
  | .periodCheck _ =>
      ∀ taskId ∈ scheduler.tasks.keys, scheduler.Checkable taskId
  | _ => True

instance (scheduler : Scheduler) (event : SchedulerEvent) :
    Decidable (scheduler.ReleasesSafely event) := by
  cases event <;> unfold ReleasesSafely <;> infer_instance

theorem resourcesOf_of_notMem
    {taskId : String}
    (absent : taskId ∉ scheduler.tasks.keys) :
    scheduler.resourcesOf taskId = [] := by
  rw [Dict.mem_keys_iff, Option.not_isSome_iff_eq_none] at absent
  simp [resourcesOf, absent]

/-- A periodic check under the condition leaves no resource with a dead process. -/
theorem Consistent.periodCheck
    (consistent : scheduler.Consistent numCpu numGpu)
    (checkable : ∀ taskId ∈ scheduler.tasks.keys, scheduler.Checkable taskId)
    (order : SetOrder Resource) :
    (stateAfter (periodCheckTaskStatus order) scheduler).Consistent numCpu numGpu ∧
      ∀ taskId, (stateAfter (periodCheckTaskStatus order) scheduler).LiveHolder taskId := by
  have absentLive
      (taskId : String)
      (absent : taskId ∉ scheduler.tasks.keys) :
      scheduler.LiveHolder taskId :=
    fun nonempty => absurd (resourcesOf_of_notMem absent) nonempty
  have allCheckable (taskId : String) : scheduler.Checkable taskId := by
    by_cases member : taskId ∈ scheduler.tasks.keys
    · exact checkable taskId member
    · exact fun _ => absentLive taskId member
  obtain ⟨checked, live⟩ :=
    liveHolder_checkTasks consistent allCheckable scheduler.tasks.keys
  obtain ⟨scheduled, kept⟩ := checked.doSchedule order
  rw [stateAfter_periodCheckTaskStatus]
  refine ⟨scheduled, fun taskId => kept taskId (live taskId ?_)⟩
  by_cases member : taskId ∈ scheduler.tasks.keys
  · exact .inl member
  · exact .inr (absentLive taskId member)

theorem Tracked.rewrite
    (tracked : scheduler.Tracked)
    {taskId : String}
    {task : Task}
    {state : TaskState}
    (found : scheduler.tasks.get? taskId = some task)
    (sameResources : state.resources = task.state.resources)
    (samePid : state.pid = task.state.pid)
    (unchecked : state.status ∈ checkedStatus → task.state.status ∈ checkedStatus) :
    (scheduler.setState taskId task state).Tracked := by
  apply tracked.setState found sameResources
  intro nonempty checked
  have known := tracked.pidKnown taskId
  rw [resourcesOf_of_get? found, checkTaskStatus_of_get? found, pidOf, found] at known
  rw [samePid]
  exact known (sameResources ▸ nonempty) (unchecked checked)

theorem Tracked.cancelPending
    (tracked : scheduler.Tracked)
    {taskId : String}
    {task : Task}
    (found : scheduler.tasks.get? taskId = some task) :
    (scheduler.setState taskId task { task.state with status := .canceled }).Tracked := by
  apply tracked.rewrite found
  · rfl
  · rfl
  · simp [checkedStatus]

/-- Every step under the condition keeps the agreement. -/
theorem Consistent.step
    {after : Scheduler}
    {event : SchedulerEvent}
    (consistent : scheduler.Consistent numCpu numGpu)
    (safely : scheduler.ReleasesSafely event)
    (stepped : scheduler.step event = some after) :
    after.Consistent numCpu numGpu := by
  have accounted := consistent.accounted.step stepped
  have tracked := consistent.tracked
  cases event with
  | submitTask task uuid now order =>
      cases stepped
      rw [stateAfter_submitTask]
      split
      · exact consistent
      · rename_i notRunning
        have nothing := consistent.accounted.resources_of_notRunning notRunning
        have others
            (query : String)
            (other : query ≠ (submittedTask task uuid now).id) :=
          scheduler.tasks.get?_set_ne (submittedTask task uuid now) other
        refine (Consistent.doSchedule ⟨?_, ?_⟩ order).1
        · apply consistent.accounted.replace nothing others
          intro found isFound
          rw [Dict.get?_set_self] at isFound
          cases isFound
          exact ⟨rfl, rfl⟩
        · apply tracked.replace nothing others
          intro found isFound
          rw [Dict.get?_set_self] at isFound
          cases isFound
          rfl
  | runTask taskId =>
      cases stepped
      refine ⟨accounted, ?_⟩
      rw [stateAfter_runTask]
      split
      · rename_i task found
        split
        · exact tracked
        · rename_i notRunning
          have keyed := consistent.accounted.keyed taskId task found
          subst keyed
          have nothing : scheduler.resourcesOf task.id = [] := by
            rw [resourcesOf_of_get? found]
            exact consistent.accounted.nothing_of_get? found notRunning
          exact tracked.started scheduler.resourceManager task.state.resources nothing
      · exact tracked
  | initTask taskId pid =>
      cases stepped
      refine ⟨accounted, ?_⟩
      rw [stateAfter_initTask]
      split
      · rename_i task found
        apply tracked.setState found
        · rfl
        · intro nonempty _
          apply safely
          rw [resourcesOf_of_get? found]
          exact nonempty
      · exact tracked
  | updateTask taskId progress output =>
      cases stepped
      refine ⟨accounted, ?_⟩
      rw [stateAfter_updateTask]
      split
      · rename_i task found
        apply tracked.rewrite found
        · rfl
        · rfl
        · exact id
      · exact tracked
  | setTaskStatus taskId status =>
      cases stepped
      refine ⟨accounted, ?_⟩
      rw [stateAfter_setTaskStatus]
      split
      · rename_i task found
        split
        · apply tracked.rewrite found
          · rfl
          · rfl
          · simp [checkedStatus]
        · exact tracked
      · exact tracked
  | setTaskFinished taskId =>
      cases stepped
      refine ⟨accounted, ?_⟩
      rw [stateAfter_setTaskFinished]
      split
      · rename_i task found
        have known
            (nonempty : task.state.resources ≠ []) :
            (scheduler.processOf taskId).map (·.pid) = some task.state.pid := by
          rw [← resourcesOf_of_get? found] at nonempty
          have reported := safely nonempty
          rw [pidOf, found] at reported
          exact reported
        split
        · apply tracked.setState found
          · rfl
          · exact fun nonempty _ => known nonempty
        · apply tracked.setState found
          · rfl
          · exact fun nonempty _ => known nonempty
      · exact tracked
  | setTaskException taskId exceptionStr order =>
      cases stepped
      rw [stateAfter_setTaskException]
      split
      · rename_i task found
        refine (Consistent.doSchedule ⟨?_, ?_⟩ order).1
        · apply consistent.accounted.release found
          rfl
        · exact tracked.release task _ safely
      · exact consistent
  | cancelTask taskId =>
      cases stepped
      refine ⟨accounted, ?_⟩
      rw [stateAfter_cancelTask]
      split
      · rename_i task found
        split
        · exact tracked.cancelPending found
        · exact tracked
      · exact tracked
  | killTask taskId =>
      cases stepped
      refine ⟨accounted, ?_⟩
      rw [stateAfter_killTask]
      split
      · rename_i task found
        split
        · rcases stateAfter_tmuxKillTask scheduler taskId task.state.pid with
            same | same | same
          · rw [same]
            exact tracked
          · rw [same]
            exact tracked.fewer rfl rfl fun _ => List.mem_of_mem_filter
          · rw [same]
            exact tracked.fewer rfl rfl fun _ => List.mem_of_mem_filter
        · split
          · exact tracked.cancelPending found
          · exact tracked
      · exact tracked
  | deleteTask taskId =>
      cases stepped
      refine ⟨accounted, ?_⟩
      rw [stateAfter_deleteTask]
      split
      · rename_i task found
        split
        · exact tracked
        · rename_i notRunning
          have nothing : scheduler.resourcesOf taskId = [] := by
            rw [resourcesOf_of_get? found]
            exact consistent.accounted.nothing_of_get? found notRunning
          apply tracked.replace nothing
          · intro query other
            rw [Dict.get?_erase, if_neg other]
          · intro gone isFound
            rw [Dict.get?_erase_self] at isFound
            cases isFound
      · exact tracked
  | periodCheck order =>
      cases stepped
      exact (consistent.periodCheck safely order).1
  | processDies pid =>
      refine ⟨accounted, ?_⟩
      simp only [Scheduler.step] at stepped
      split at stepped
      · cases stepped
        exact tracked.fewer rfl rfl fun _ => List.mem_of_mem_filter
      · cases stepped
  | sessionEnds taskId =>
      refine ⟨accounted, ?_⟩
      simp only [Scheduler.step] at stepped
      split at stepped
      · cases stepped
        exact tracked.fewer rfl rfl fun _ => List.mem_of_mem_filter
      · cases stepped

/-- What is promised about the resources in a state that a run has reached. -/
structure ResourcesAccounted
    (numCpu numGpu : Nat)
    (events : List SchedulerEvent)
    (scheduler : Scheduler) : Prop where
  /-- Idle and occupied resources are disjoint. -/
  disjoint :
    ∀ kind resource,
      resource ∈ scheduler.resourceManager.idleResources kind →
      resource ∉ scheduler.resourceManager.occupiedResources kind
  /-- Idle and occupied resources together are the initial ones. -/
  partition :
    ∀ kind resource,
      resource ∈ initialResources numCpu numGpu kind ↔
        resource ∈ scheduler.resourceManager.idleResources kind ∨
          resource ∈ scheduler.resourceManager.occupiedResources kind
  /-- Every occupied resource is listed by exactly one task. -/
  oneHolder :
    ∀ kind, ∀ resource ∈ scheduler.resourceManager.occupiedResources kind,
      ∃! taskId, resource ∈ scheduler.resourcesOf taskId
  /-- Every listed resource is occupied. -/
  occupied :
    ∀ taskId, ∀ resource ∈ scheduler.resourcesOf taskId,
      resource ∈ scheduler.resourceManager.occupiedResources resource.1
  /-- A living process that was given a listed resource is the lister's own. -/
  notShared :
    ∀ taskId, ∀ resource ∈ scheduler.resourcesOf taskId,
      ∀ process ∈ scheduler.processes,
        process.pid ∈ scheduler.livePids →
        resource ∈ process.resources →
        scheduler.processOf taskId = some process
  /-- After a periodic check whatever is listed is in use by a living process. -/
  notLeaked :
    ∀ order,
      events.getLast? = some (.periodCheck order) →
      ∀ taskId, scheduler.LiveHolder taskId

/-- Consistent accounts give each resource to one living process at most. -/
theorem Consistent.resourcesAccounted
    {events : List SchedulerEvent}
    (consistent : scheduler.Consistent numCpu numGpu)
    (checked :
      ∀ order,
        events.getLast? = some (.periodCheck order) →
        ∀ taskId, scheduler.LiveHolder taskId) :
    ResourcesAccounted numCpu numGpu events scheduler := by
  have accounted := consistent.accounted
  constructor
  · exact accounted.filed.disjoint
  · exact accounted.partition
  · intro kind resource occupied
    obtain ⟨taskId, member⟩ := accounted.holder kind resource occupied
    refine ⟨taskId, member, ?_⟩
    intro other otherMember
    exact accounted.unique other taskId resource otherMember member
  · exact accounted.listed
  · intro taskId resource member process launched alive given
    obtain ⟨listed, current⟩ :=
      consistent.tracked.held process launched alive resource given
    rw [accounted.unique taskId process.taskId resource member listed]
    exact current
  · exact checked

/-- In every run of safely releasing steps the resources are accounted for. -/
theorem schedulerRun_resourcesAccounted
    {events : List SchedulerEvent}
    (run : Transition.Run step ReleasesSafely (init numCpu numGpu) events scheduler) :
    ResourcesAccounted numCpu numGpu events scheduler := by
  have consistent
      {events : List SchedulerEvent}
      {scheduler : Scheduler}
      (run : Transition.Run step ReleasesSafely (init numCpu numGpu) events scheduler) :
      scheduler.Consistent numCpu numGpu :=
    run.invariant
      ⟨accounted_init numCpu numGpu, tracked_init numCpu numGpu⟩
      fun _ _ _ holds safely stepped => holds.step safely stepped
  apply (consistent run).resourcesAccounted
  intro order last taskId
  cases run with
  | start =>
      simp at last
  | next earlier permitted stepped =>
      rw [List.getLast?_append, List.getLast?_singleton] at last
      cases last
      cases stepped
      exact ((consistent earlier).periodCheck permitted order).2 taskId

/-- A task as a user submits it. -/
def sampleTask (taskId : String) : Task where
  type := .command
  command := "true"
  params := none
  id := taskId
  createTimestamp := -1
  numGpuUsed := 1
  state := .fresh

/-- Two tasks that share the only GPU one after the other. -/
def sampleEvents : List SchedulerEvent :=
  [ .submitTask (sampleTask "a") "" 0 .asStored,
    .submitTask (sampleTask "b") "" 1 .asStored,
    .initTask "a" 1,
    .setTaskFinished "a",
    .processDies 1,
    .periodCheck .asStored ]

theorem schedulerRun_resourcesAccounted_sample :
    ∃ scheduler,
      Transition.execute step ReleasesSafely (init 2 1) sampleEvents = some scheduler ∧
        ResourcesAccounted 2 1 sampleEvents scheduler := by
  have completes :
      (Transition.execute step ReleasesSafely (init 2 1) sampleEvents).isSome := by
    decide
  obtain ⟨scheduler, executed⟩ := Option.isSome_iff_exists.mp completes
  exact ⟨scheduler, executed, schedulerRun_resourcesAccounted (.of_execute executed)⟩

/-- A task that reports an exception, and one that waits for the same GPU. -/
def exceptionEvents : List SchedulerEvent :=
  [ .submitTask (sampleTask "a") "" 0 .asStored,
    .submitTask (sampleTask "b") "" 1 .asStored,
    .initTask "a" 1,
    .setTaskException "a" "" .asStored ]

/-- The GPU of a task that reports an exception is given away under its process. -/
theorem schedulerRun_not_resourcesAccounted :
    ¬∀ numCpu numGpu events scheduler,
      Transition.Run step (fun _ _ => True) (init numCpu numGpu) events scheduler →
      ResourcesAccounted numCpu numGpu events scheduler := by
  intro accounted
  have completes :
      (Transition.execute step (fun _ _ => True) (init 2 1) exceptionEvents).isSome := by
    decide
  obtain ⟨scheduler, executed⟩ := Option.isSome_iff_exists.mp completes
  have shared :
      ∀ state ∈ Transition.execute step (fun _ _ => True) (init 2 1) exceptionEvents,
        (ResourceType.gpu, 0) ∈ state.resourcesOf "b" ∧
          (state.processOf "b").map (·.pid) = some 2 ∧
            ∃ process ∈ state.processes,
              process.pid ∈ state.livePids ∧
                (ResourceType.gpu, 0) ∈ process.resources ∧ process.pid = 1 := by
    decide
  obtain ⟨listed, current, process, launched, alive, given, isFirst⟩ :=
    shared scheduler executed
  have own :=
    (accounted 2 1 exceptionEvents scheduler (.of_execute executed)).notShared
      "b" _ listed process launched alive given
  rw [own, Option.map_some, isFirst] at current
  simp at current

end TensorPC.Autossh.Scheduler
