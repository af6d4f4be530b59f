import TensorPC.Autossh.ResourceManager
import TensorPC.Lib.Computation
import TensorPC.Lib.Transition
import TensorPC.Py.Dict
import TensorPC.Py.Value
import Mathlib.Data.List.Sort

namespace TensorPC.Autossh

/-!
# The task scheduler

`Scheduler` starts each task in a tmux session of its own, where a `runtask`
process reports back.  Its methods are called by users and by those processes
in any order; a background task checks the processes periodically.  The tmux
sessions and the processes, with the resources each was started with, are part
of the state.
-/

open Computation

/-- `TaskStatus`. -/
inductive TaskStatus
  | unknown
  | pending
  | running
  | finished
  | failed
  | almostFinished
  | needToCancel
  | almostCanceled
  | canceled
  | booting
  deriving DecidableEq, Repr

/-- `ALL_RUNNING_STATUS`. -/
def allRunningStatus : List TaskStatus :=
  [.running, .almostFinished, .almostCanceled, .booting, .needToCancel]

/-- `ALL_CTRL_C_CANCELABLE_STATUS`. -/
def allCtrlCCancelableStatus : List TaskStatus :=
  [.running, .booting, .needToCancel]

/-- `ALL_KILLABLE_STATUS`. -/
def allKillableStatus : List TaskStatus :=
  allRunningStatus

/-- `_SUPPORTED_SET_STATUS`. -/
def supportedSetStatus : List TaskStatus :=
  [.needToCancel]

/-- `TaskType`. -/
inductive TaskType
  | command
  | functionId
  deriving DecidableEq, Repr

/-- `TaskType.value`. -/
def TaskType.value : TaskType → Nat
  | .command => 0
  | .functionId => 1

/-- `TaskOutput`. -/
structure TaskOutput where
  userdata : Dict String (Value Float)
  paths : List String
  timestamp : Int
  progress : Float

/-- `TaskState`. -/
structure TaskState where
  status : TaskStatus
  progress : Float
  outputs : List TaskOutput
  pid : Int
  exceptionStr : String
  resources : List Resource

/-- `TaskState(TaskStatus.Pending, 0.0, [], -1, "")`. -/
def TaskState.fresh : TaskState where
  status := .pending
  progress := 0.0
  outputs := []
  pid := -1
  exceptionStr := ""
  resources := []

/-- `Task`. -/
structure Task where
  type : TaskType
  command : String
  params : Option (List (Dict String (Value Float)))
  id : String
  createTimestamp : Int
  numGpuUsed : Int
  state : TaskState

/-- `Task.empty_state`. -/
def Task.emptyState (task : Task) : Task :=
  { task with state := .fresh }

/-- A `runtask` process: whose it is and what it was started with. -/
structure Process where
  pid : Int
  taskId : String
  command : String
  resources : List Resource
  deriving DecidableEq

/-- `Scheduler`, with the tmux sessions and the processes, newest first. -/
structure Scheduler where
  tasks : Dict String Task
  resourceManager : ResourceManager
  sessions : List String
  processes : List Process
  livePids : List Int

/-- A method of the scheduler: it may raise, and keeps what it changed before. -/
abbrev SchedulerM (α : Type) := EStateM PyError Scheduler α

namespace Scheduler

/-- `Scheduler()` on a machine with these resources. -/
def init (numCpu numGpu : Nat) : Scheduler where
  tasks := Dict.empty
  resourceManager := ResourceManager.init numCpu numGpu
  sessions := []
  processes := []
  livePids := []

/-- `psutil.pid_exists(pid)`. -/
def pidExists (scheduler : Scheduler) (pid : Int) : Bool :=
  pid ∈ scheduler.livePids

/-- The state of a task is written. -/
def setState
    (scheduler : Scheduler)
    (taskId : String)
    (task : Task)
    (state : TaskState) :
    Scheduler :=
  { scheduler with tasks := scheduler.tasks.set taskId { task with state := state } }

/-! ## tmux -/

/-- `launch_tmux_task`: a session is created or reused, and a process started in it. -/
def launchTmuxTask
    (scheduler : Scheduler)
    (taskId : String)
    (windowCommand : String)
    (resources : List Resource) :
    Scheduler :=
  { scheduler with
    sessions :=
      if taskId ∈ scheduler.sessions then
        scheduler.sessions
      else
        scheduler.sessions ++ [taskId]
    processes :=
      { pid := scheduler.processes.length + 1
        taskId := taskId
        command := windowCommand
        resources := resources } :: scheduler.processes
    livePids := (scheduler.processes.length + 1) :: scheduler.livePids }

/-- A session ends, and with it what runs in it. -/
def endSession (scheduler : Scheduler) (taskId : String) : Scheduler :=
  { scheduler with
    sessions := scheduler.sessions.filter (· ≠ taskId)
    livePids :=
      scheduler.livePids.filter fun pid =>
        ¬∃ process ∈ scheduler.processes, process.pid = pid ∧ process.taskId = taskId }

/-- A process ends. -/
def endProcess (scheduler : Scheduler) (pid : Int) : Scheduler :=
  { scheduler with livePids := scheduler.livePids.filter (· ≠ pid) }

/-- `assert s.has_session(sess_name)`. -/
def assertSession (taskId : String) : SchedulerM Unit := do
  if taskId ∈ (← get).sessions then
    return ()
  else
    throw (.assertionError "")

/-- `tmux.kill_task`; `psutil.Process` raises for a process that is gone. -/
def tmuxKillTask (taskId : String) (pid : Int) : SchedulerM Unit := do
  if 0 < pid then
    if (← get).pidExists pid then
      modify (·.endProcess pid)
    else
      throw (.runtimeError "process PID not found")
  else
    assertSession taskId
    modify (·.endSession taskId)

/-! ## The methods -/

/-- `init_task`. -/
def initTask
    (taskId : String)
    (pid : Int) :
    SchedulerM (Option (String × Option (List (Dict String (Value Float))))) := do
  match (← get).tasks.get? taskId with
  | some task =>
      modify (·.setState taskId task { task.state with status := .running, pid := pid })
      return some (task.command, task.params)
  | none =>
      return none

/-- `_release_task_resources`, on a task whose state was just written. -/
def releaseTaskResources
    (scheduler : Scheduler)
    (taskId : String)
    (task : Task)
    (state : TaskState) :
    Scheduler :=
  { scheduler.setState taskId task { state with resources := [] } with
    resourceManager := scheduler.resourceManager.releaseResources state.resources }

/-- `check_task_status`. -/
def checkTaskStatus (scheduler : Scheduler) (taskId : String) : TaskStatus :=
  match scheduler.tasks.get? taskId with
  | some task => task.state.status
  | none => .unknown

/-- `run_task`. -/
def runTask (taskId : String) : SchedulerM Bool := do
  match (← get).tasks.get? taskId with
  | none =>
      throw (.keyError taskId)
  | some task =>
      if task.state.status ∉ allRunningStatus then
        modify fun scheduler =>
          (scheduler.setState taskId task { task.state with status := .booting })
            |>.launchTmuxTask taskId
              s!"python -m tensorpc.autossh.scheduler.runtask {task.type.value}"
              task.state.resources
        return true
      else
        return false

/-- `request_idle_cpus` and `request_idle_gpus`. -/
def requestIdle
    (order : SetOrder Resource)
    (type : ResourceType)
    (num : Nat) :
    SchedulerM (List Resource) :=
  modifyGet fun scheduler =>
    let (resources, manager) :=
      scheduler.resourceManager.requestIdleResources order type num
    (resources, { scheduler with resourceManager := manager })

/-- `task.state.resources = resources` and `self.run_task(task.id)`. -/
def startTask (task : Task) (resources : List Resource) : SchedulerM Unit := do
  modify (·.setState task.id task { task.state with resources := resources })
  let _ ← runTask task.id

/-- The loop of `_do_schedule` over the pending tasks. -/
def scheduleTasks (order : SetOrder Resource) : List Task → SchedulerM Unit
  | [] => return ()
  | task :: rest => do
      let cpus ← requestIdle order .cpu 1
      if cpus = [] then
        return ()
      else if 0 < task.numGpuUsed then
        let gpus ← requestIdle order .gpu task.numGpuUsed.toNat
        if gpus = [] then
          modify fun scheduler =>
            { scheduler with
              resourceManager := scheduler.resourceManager.releaseResources cpus }
          scheduleTasks order rest
        else
          startTask task (cpus ++ gpus)
          scheduleTasks order rest
      else
        startTask task cpus
        scheduleTasks order rest

/-- The pending tasks, oldest first. -/
def pendingTasks (scheduler : Scheduler) : List Task :=
  (scheduler.tasks.values.filter (·.state.status = .pending)).insertionSort
    fun first second => first.createTimestamp ≤ second.createTimestamp

/-- `_do_schedule`. -/
def doSchedule (order : SetOrder Resource) : SchedulerM Unit := do
  scheduleTasks order (← get).pendingTasks

/-- One turn of the loop of `_period_check_task_status`. -/
def checkTask (scheduler : Scheduler) (taskId : String) : Scheduler :=
  match scheduler.tasks.get? taskId with
  | none => scheduler
  | some task =>
      if scheduler.pidExists task.state.pid then
        scheduler
      else
        match task.state.status with
        | .running =>
            scheduler.releaseTaskResources taskId task
              { task.state with status := .failed }
        | .almostFinished =>
            scheduler.releaseTaskResources taskId task
              { task.state with status := .finished }
        | .almostCanceled =>
            scheduler.releaseTaskResources taskId task
              { task.state with status := .canceled }
        | _ => scheduler

/-- `_period_check_task_status`. -/
def periodCheckTaskStatus (order : SetOrder Resource) : SchedulerM Unit := do
  modify fun scheduler => scheduler.tasks.keys.foldl checkTask scheduler
  doSchedule order

/-- The task that `submit_task` puts into the table. -/
def submittedTask (task : Task) (uuid : String) (now : Int) : Task :=
  { task.emptyState with
    id := if task.id = "" then uuid else task.id
    params :=
      if task.type = .functionId ∧ task.params.isNone then
        some [Dict.empty]
      else
        task.params
    createTimestamp := now }

/-- `submit_task`, with the id `uuid4` gives and the clock. -/
def submitTask
    (task : Task)
    (uuid : String)
    (now : Int)
    (order : SetOrder Resource) :
    SchedulerM Unit := do
  let task := submittedTask task uuid now
  if (← get).checkTaskStatus task.id ∈ allRunningStatus then
    throw (.runtimeError s!"task {task.id} is already running or pending")
  else
    modify fun scheduler => { scheduler with tasks := scheduler.tasks.set task.id task }
    doSchedule order

/-- `set_task_status`. -/
def setTaskStatus (taskId : String) (status : TaskStatus) : SchedulerM Bool := do
  if status ∉ supportedSetStatus then
    throw (.assertionError "only support set to [<TaskStatus.NeedToCancel: 6>]")
  else
    match (← get).tasks.get? taskId with
    | some task =>
        if status = .needToCancel ∧ task.state.status ∉ allRunningStatus then
          return false
        else
          modify (·.setState taskId task { task.state with status := status })
          return true
    | none =>
        return false

/-- `cancel_task`: the keys are sent to the session. -/
def cancelTask (taskId : String) : SchedulerM Bool := do
  match (← get).tasks.get? taskId with
  | none =>
      throw (.keyError taskId)
  | some task =>
      if task.state.status ∈ allCtrlCCancelableStatus then
        assertSession taskId
        return true
      else if task.state.status = .pending then
        modify (·.setState taskId task { task.state with status := .canceled })
        return true
      else
        return false

/-- `kill_task`. -/
def killTask (taskId : String) : SchedulerM Bool := do
  match (← get).tasks.get? taskId with
  | none =>
      throw (.keyError taskId)
  | some task =>
      if task.state.status ∈ allKillableStatus then
        tmuxKillTask taskId task.state.pid
        return true
      else if task.state.status = .pending then
        modify (·.setState taskId task { task.state with status := .canceled })
        return true
      else
        return false

/-- `delete_task`: the session is told to exit. -/
def deleteTask (taskId : String) : SchedulerM Bool := do
  match (← get).tasks.get? taskId with
  | some task =>
      if task.state.status ∈ allRunningStatus then
        throw (.assertionError "you can't delete a running task")
      else
        modify fun scheduler => { scheduler with tasks := scheduler.tasks.erase taskId }
        assertSession taskId
        return true
  | none =>
      return false

/-- `set_task_exception`. -/
def setTaskException
    (taskId : String)
    (exceptionStr : String)
    (order : SetOrder Resource) :
    SchedulerM Unit := do
  match (← get).tasks.get? taskId with
  | some task =>
      modify (·.releaseTaskResources taskId task
        { task.state with status := .failed, exceptionStr := exceptionStr })
      doSchedule order
  | none =>
      return ()

/-- `update_task`. -/
def updateTask
    (taskId : String)
    (progress : Float)
    (output : Option TaskOutput) :
    SchedulerM Unit := do
  match (← get).tasks.get? taskId with
  | some task =>
      modify (·.setState taskId task
        { task.state with
          progress := max (min progress 1.0) 0.0
          outputs := task.state.outputs ++ output.toList })
  | none =>
      return ()

/-- `set_task_finished`. -/
def setTaskFinished (taskId : String) : SchedulerM Unit := do
  match (← get).tasks.get? taskId with
  | some task =>
      if task.state.status = .needToCancel then
        modify (·.setState taskId task { task.state with status := .almostCanceled })
      else
        modify (·.setState taskId task
          { task.state with status := .almostFinished, progress := 1.0 })
  | none =>
      return ()

end Scheduler

/-- What can happen: a call, a periodic check, or the end of a process or a session. -/
inductive SchedulerEvent
  | submitTask (task : Task) (uuid : String) (now : Int) (order : SetOrder Resource)
  | runTask (taskId : String)
  | initTask (taskId : String) (pid : Int)
  | updateTask (taskId : String) (progress : Float) (output : Option TaskOutput)
  | setTaskStatus (taskId : String) (status : TaskStatus)
  | setTaskFinished (taskId : String)
  | setTaskException (taskId exceptionStr : String) (order : SetOrder Resource)
  | cancelTask (taskId : String)
  | killTask (taskId : String)
  | deleteTask (taskId : String)
  | periodCheck (order : SetOrder Resource)
  | processDies (pid : Int)
  | sessionEnds (taskId : String)

namespace Scheduler

/-- The next state; a call that raises keeps what it changed before. -/
def step (scheduler : Scheduler) : SchedulerEvent → Option Scheduler
  | .submitTask task uuid now order =>
      some (stateAfter (submitTask task uuid now order) scheduler)
  | .runTask taskId => some (stateAfter (runTask taskId) scheduler)
  | .initTask taskId pid => some (stateAfter (initTask taskId pid) scheduler)
  | .updateTask taskId progress output =>
      some (stateAfter (updateTask taskId progress output) scheduler)
  | .setTaskStatus taskId status =>
      some (stateAfter (setTaskStatus taskId status) scheduler)
  | .setTaskFinished taskId => some (stateAfter (setTaskFinished taskId) scheduler)
  | .setTaskException taskId exceptionStr order =>
      some (stateAfter (setTaskException taskId exceptionStr order) scheduler)
  | .cancelTask taskId => some (stateAfter (cancelTask taskId) scheduler)
  | .killTask taskId => some (stateAfter (killTask taskId) scheduler)
  | .deleteTask taskId => some (stateAfter (deleteTask taskId) scheduler)
  | .periodCheck order => some (stateAfter (periodCheckTaskStatus order) scheduler)
  | .processDies pid =>
      if scheduler.pidExists pid then
        some (scheduler.endProcess pid)
      else
        none
  | .sessionEnds taskId =>
      if taskId ∈ scheduler.sessions then
        some (scheduler.endSession taskId)
      else
        none

end Scheduler

end TensorPC.Autossh
