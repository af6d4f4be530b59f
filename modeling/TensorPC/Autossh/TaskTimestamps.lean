import TensorPC.Autossh.TaskScheduler
import Mathlib

namespace TensorPC.Autossh

/-!
# Timestamps of tasks

A client of the scheduler keeps a copy of its tasks.  A poll sends the timestamps
of the copies, and gets back the tasks whose timestamps have grown.  The methods of
the scheduler are modelled here with every update of a timestamp, and with the
launch of a tmux session that raises; what else tmux does is not visible in tasks.
-/

/-- `time.time_ns`, with the number of readings so far. -/
structure Clock where
  timeNs : Nat → Int
  increases : StrictMono timeNs
  reads : Nat

/-- A task with `state.timestamp`. -/
structure TimedTask where
  task : Task
  timestamp : Int

structure TimedScheduler where
  tasks : Dict String TimedTask
  resourceManager : ResourceManager
  clock : Clock

namespace TimedScheduler

/-- What the next reading of the clock gives. -/
def now (scheduler : TimedScheduler) : Int :=
  scheduler.clock.timeNs scheduler.clock.reads

def tick (scheduler : TimedScheduler) : TimedScheduler :=
  { scheduler with clock := { scheduler.clock with reads := scheduler.clock.reads + 1 } }

/-- Fields of the state of a task are written. -/
def setState
    (taskId : String)
    (change : TaskState → TaskState)
    (scheduler : TimedScheduler) :
    TimedScheduler :=
  match scheduler.tasks.get? taskId with
  | some timed =>
      { scheduler with
        tasks :=
          scheduler.tasks.set taskId
            { timed with task := { timed.task with state := change timed.task.state } } }
  | none => scheduler

/-- `_update_task_timestamp`. -/
def updateTaskTimestamp (taskId : String) (scheduler : TimedScheduler) : TimedScheduler :=
  match scheduler.tasks.get? taskId with
  | some timed =>
      { scheduler with
        tasks := scheduler.tasks.set taskId { timed with timestamp := scheduler.now } }.tick
  | none => scheduler

/-- `_release_task_resources`. -/
def releaseTaskResources (taskId : String) (scheduler : TimedScheduler) : TimedScheduler :=
  match scheduler.tasks.get? taskId with
  | some timed =>
      { scheduler with
        resourceManager :=
          scheduler.resourceManager.releaseResources timed.task.state.resources }.setState
        taskId ({ · with resources := [] })
  | none => scheduler

/-- The status of a task. -/
def statusOf (scheduler : TimedScheduler) (taskId : String) : Option TaskStatus :=
  (scheduler.tasks.get? taskId).map fun timed => timed.task.state.status

/-- `run_task`, and whether it raises. -/
def runTask
    (launchRaises : String → Bool)
    (taskId : String)
    (scheduler : TimedScheduler) :
    TimedScheduler × Bool :=
  match scheduler.statusOf taskId with
  | none => (scheduler, true)
  | some status =>
      if status ∉ allRunningStatus then
        let booting := scheduler.setState taskId ({ · with status := .booting })
        if launchRaises taskId then
          (booting, true)
        else
          (booting.updateTaskTimestamp taskId, false)
      else
        (scheduler, false)

/-- The loop of `_do_schedule`; it ends when a launch raises. -/
def scheduleTasks
    (order : SetOrder Resource)
    (launchRaises : String → Bool) :
    List Task → TimedScheduler → TimedScheduler
  | [], scheduler => scheduler
  | task :: rest, scheduler =>
      let cpus := scheduler.resourceManager.requestIdleResources order .cpu 1
      let gpus := cpus.2.requestIdleResources order .gpu task.numGpuUsed.toNat
      let start (resources : List Resource) (manager : ResourceManager) : TimedScheduler :=
        let assigned := { scheduler with resourceManager := manager }.setState task.id
          ({ · with resources := resources })
        let launched := assigned.runTask launchRaises task.id
        if launched.2 then
          launched.1
        else
          scheduleTasks order launchRaises rest launched.1
      if cpus.1 = [] then
        { scheduler with resourceManager := cpus.2 }
      else if 0 < task.numGpuUsed then
        if gpus.1 = [] then
          scheduleTasks order launchRaises rest
            { scheduler with resourceManager := gpus.2.releaseResources cpus.1 }
        else
          start (cpus.1 ++ gpus.1) gpus.2
      else
        start cpus.1 cpus.2

/-- The pending tasks, oldest first. -/
def pendingTasks (scheduler : TimedScheduler) : List Task :=
  ((scheduler.tasks.values.map TimedTask.task).filter (·.state.status = .pending)).insertionSort
    fun first second => first.createTimestamp ≤ second.createTimestamp

/-- `_do_schedule`. -/
def doSchedule
    (order : SetOrder Resource)
    (launchRaises : String → Bool)
    (scheduler : TimedScheduler) :
    TimedScheduler :=
  scheduler.scheduleTasks order launchRaises scheduler.pendingTasks

/-- `init_task`. -/
def initTask (taskId : String) (pid : Int) (scheduler : TimedScheduler) : TimedScheduler :=
  (scheduler.setState taskId ({ · with status := .running, pid := pid })).updateTaskTimestamp
    taskId

/-- One turn of the loop of `_period_check_task_status`. -/
def checkTask
    (pidExists : Int → Bool)
    (scheduler : TimedScheduler)
    (taskId : String) :
    TimedScheduler :=
  match scheduler.tasks.get? taskId with
  | none => scheduler
  | some timed =>
      if pidExists timed.task.state.pid then
        scheduler
      else
        match timed.task.state.status with
        | .running =>
            ((scheduler.setState taskId ({ · with status := .failed })).releaseTaskResources
              taskId).updateTaskTimestamp taskId
        | .almostFinished =>
            ((scheduler.setState taskId ({ · with status := .finished })).updateTaskTimestamp
              taskId).releaseTaskResources taskId
        | .almostCanceled =>
            ((scheduler.setState taskId ({ · with status := .canceled })).updateTaskTimestamp
              taskId).releaseTaskResources taskId
        | _ => scheduler

/-- `_period_check_task_status`. -/
def periodCheckTaskStatus
    (pidExists : Int → Bool)
    (order : SetOrder Resource)
    (launchRaises : String → Bool)
    (scheduler : TimedScheduler) :
    TimedScheduler :=
  (scheduler.tasks.keys.foldl (checkTask pidExists) scheduler).doSchedule order launchRaises

/-- `submit_task`, with the id that `uuid4` gives. -/
def submitTask
    (task : Task)
    (uuid : String)
    (order : SetOrder Resource)
    (launchRaises : String → Bool)
    (scheduler : TimedScheduler) :
    TimedScheduler :=
  let submitted := Scheduler.submittedTask task uuid scheduler.now
  if (scheduler.statusOf submitted.id).any (· ∈ allRunningStatus) then
    scheduler
  else
    ({ scheduler with
        tasks :=
          scheduler.tasks.set submitted.id
            { task := submitted
              timestamp := scheduler.now } }.tick).doSchedule order launchRaises

/-- `set_task_status`. -/
def setTaskStatus
    (taskId : String)
    (status : TaskStatus)
    (scheduler : TimedScheduler) :
    TimedScheduler :=
  if status ∉ supportedSetStatus then
    scheduler
  else if status = .needToCancel ∧ (scheduler.statusOf taskId).all (· ∉ allRunningStatus) then
    scheduler
  else
    (scheduler.setState taskId ({ · with status := status })).updateTaskTimestamp taskId

/-- What `cancel_task` and `kill_task` do to a task that they do not pass to tmux. -/
def cancelPending
    (sentToTmux : List TaskStatus)
    (taskId : String)
    (scheduler : TimedScheduler) :
    TimedScheduler :=
  match scheduler.statusOf taskId with
  | none => scheduler
  | some status =>
      if status ∈ sentToTmux then
        scheduler
      else if status = .pending then
        (scheduler.setState taskId ({ · with status := .canceled })).updateTaskTimestamp taskId
      else
        scheduler

/-- `cancel_task`. -/
def cancelTask (taskId : String) (scheduler : TimedScheduler) : TimedScheduler :=
  scheduler.cancelPending allCtrlCCancelableStatus taskId

/-- `kill_task`. -/
def killTask (taskId : String) (scheduler : TimedScheduler) : TimedScheduler :=
  scheduler.cancelPending allKillableStatus taskId

/-- `delete_task`. -/
def deleteTask (taskId : String) (scheduler : TimedScheduler) : TimedScheduler :=
  if (scheduler.statusOf taskId).any (· ∈ allRunningStatus) then
    scheduler
  else
    { scheduler with tasks := scheduler.tasks.erase taskId }

/-- `set_task_exception`. -/
def setTaskException
    (taskId exceptionStr : String)
    (order : SetOrder Resource)
    (launchRaises : String → Bool)
    (scheduler : TimedScheduler) :
    TimedScheduler :=
  if (scheduler.tasks.get? taskId).isSome then
    (((scheduler.setState taskId
          ({ · with status := .failed, exceptionStr := exceptionStr })).updateTaskTimestamp
        taskId).releaseTaskResources taskId).doSchedule order launchRaises
  else
    scheduler

/-- `update_task`. -/
def updateTask
    (taskId : String)
    (progress : Float)
    (output : Option TaskOutput)
    (scheduler : TimedScheduler) :
    TimedScheduler :=
  (scheduler.setState taskId fun state =>
    { state with
      progress := max (min progress 1.0) 0.0
      outputs := state.outputs ++ output.toList }).updateTaskTimestamp taskId

/-- `set_task_finished`. -/
def setTaskFinished (taskId : String) (scheduler : TimedScheduler) : TimedScheduler :=
  (scheduler.setState taskId fun state =>
    if state.status = .needToCancel then
      { state with status := .almostCanceled }
    else
      { state with status := .almostFinished, progress := 1.0 }).updateTaskTimestamp taskId

/-- `query_task_updates`, without the texts of the panes. -/
def queryTaskUpdates
    (tsUids : List (Int × String))
    (scheduler : TimedScheduler) :
    List TimedTask × List String :=
  let known := tsUids.filterMap fun query =>
    (scheduler.tasks.get? query.2).filter fun timed => timed.timestamp > query.1
  let added := scheduler.tasks.entries.filterMap fun entry =>
    if entry.1 ∈ tsUids.map Prod.snd then none else some entry.2
  let deletedUids := (tsUids.map Prod.snd).filter fun uid => uid ∉ scheduler.tasks.keys
  (known ++ added, deletedUids)

end TimedScheduler

/-! ## The client -/

/-- The table `tasks` of `SchedulerClient`. -/
abbrev TaskCopies := Dict String TimedTask

/-- `update_tasks`, with what it returns. -/
def TaskCopies.updateTasks
    (copies : TaskCopies)
    (scheduler : TimedScheduler) :
    TaskCopies × List TimedTask × List String :=
  let tsUids := copies.values.map fun timed => (timed.timestamp, timed.task.id)
  let answer := scheduler.queryTaskUpdates tsUids
  let updated := answer.1.foldl (fun copies timed => copies.set timed.task.id timed) copies
  (updated.eraseAll answer.2, answer)

/-- A scheduler with a client. -/
structure PolledScheduler where
  scheduler : TimedScheduler
  copies : TaskCopies

/-- What can happen.  Calls that schedule tasks come with the tasks whose launch
raises. -/
inductive PolledEvent
  | submitTask
      (task : Task) (uuid : String) (order : SetOrder Resource) (launchRaises : String → Bool)
  | runTask (taskId : String) (launchRaises : String → Bool)
  | initTask (taskId : String) (pid : Int)
  | updateTask (taskId : String) (progress : Float) (output : Option TaskOutput)
  | setTaskStatus (taskId : String) (status : TaskStatus)
  | setTaskFinished (taskId : String)
  | setTaskException
      (taskId exceptionStr : String) (order : SetOrder Resource) (launchRaises : String → Bool)
  | cancelTask (taskId : String)
  | killTask (taskId : String)
  | deleteTask (taskId : String)
  | periodCheck
      (pidExists : Int → Bool) (order : SetOrder Resource) (launchRaises : String → Bool)
  /-- `async_init` of a client fetches all tasks. -/
  | connect
  | poll

namespace PolledScheduler

def mapScheduler
    (system : PolledScheduler)
    (change : TimedScheduler → TimedScheduler) :
    PolledScheduler :=
  { system with scheduler := change system.scheduler }

def step (system : PolledScheduler) : PolledEvent → Option PolledScheduler
  | .submitTask task uuid order launchRaises =>
      some (system.mapScheduler (·.submitTask task uuid order launchRaises))
  | .runTask taskId launchRaises =>
      some (system.mapScheduler fun scheduler => (scheduler.runTask launchRaises taskId).1)
  | .initTask taskId pid => some (system.mapScheduler (·.initTask taskId pid))
  | .updateTask taskId progress output =>
      some (system.mapScheduler (·.updateTask taskId progress output))
  | .setTaskStatus taskId status =>
      some (system.mapScheduler (·.setTaskStatus taskId status))
  | .setTaskFinished taskId => some (system.mapScheduler (·.setTaskFinished taskId))
  | .setTaskException taskId exceptionStr order launchRaises =>
      some (system.mapScheduler (·.setTaskException taskId exceptionStr order launchRaises))
  | .cancelTask taskId => some (system.mapScheduler (·.cancelTask taskId))
  | .killTask taskId => some (system.mapScheduler (·.killTask taskId))
  | .deleteTask taskId => some (system.mapScheduler (·.deleteTask taskId))
  | .periodCheck pidExists order launchRaises =>
      some (system.mapScheduler (·.periodCheckTaskStatus pidExists order launchRaises))
  | .connect => some { system with copies := system.scheduler.tasks }
  | .poll => some { system with copies := (system.copies.updateTasks system.scheduler).1 }

/-- A scheduler without tasks, and a client that has just connected. -/
def init (numCpu numGpu : Nat) (clock : Clock) : PolledScheduler where
  scheduler :=
    { tasks := Dict.empty
      resourceManager := ResourceManager.init numCpu numGpu
      clock := clock }
  copies := Dict.empty

end PolledScheduler

end TensorPC.Autossh
