import TensorPC.Flowplus.FlowGraph

namespace TensorPC.Flowplus

/-!
# The schedule loop of a compute flow

Requests, the coroutines of `_schedule` that they start, the tasks of nodes, and
what comes from outside.  Between two suspension points a coroutine runs alone,
so a run is a sequence of such stretches.  Which values were asked for, which
inputs a node was given in a round and which nodes a round started is recorded.
-/

variable {V : Type}

/-- How the compute function of a node ends. -/
inductive Outcome (V : Type) where
  | returnsDict (output : Dict String V)
  | returnsNone
  | returnsOther
  | raises
  /-- The generator has no further value. -/
  | stopsIteration
  /-- An exception that is not an `Exception`, such as `CancelledError`. -/
  | raisesBase
  deriving DecidableEq

/-- A task of a node, with its outcome once it is done. -/
structure NodeTask (V : Type) where
  node : FlowNode
  outcome : Option (Outcome V)
  deriving DecidableEq

/-- Where a `_schedule` stands. -/
inductive LoopPhase where
  /-- In `save_graph`, before the first round. -/
  | saving
  /-- The nodes of a round are started, one after the other, and waited for. -/
  | running
  /-- The tasks are done and their results are worked through. -/
  | collecting
  /-- The flow was stopped and the tasks are cancelled. -/
  | stopping
  | ended
  | raised
  deriving DecidableEq

/-- The local variables of a `_schedule`. -/
structure ScheduleLoop (V : Type) where
  phase : LoopPhase
  nodesToSchedule : List FlowNode
  curNodeInputs : InputsByNode V
  /-- The keys of `cur_anode_iters`. -/
  curAnodeIters : List String
  nodeInputsInFuture : InputsByNode V
  /-- The nodes of the round that are still to be started. -/
  remaining : List FlowNode
  tasks : List (NodeTask V)
  nodeOutputs : Dict String (Dict String V)
  /-- `shutdown_ev` was set while the loop waits for it. -/
  shutdown : Bool
  round : Nat
  deriving DecidableEq

/-- Values by node and handle. -/
abbrev Owed (V : Type) := String → String → Option (HandleValue V)

/-- The inputs that a node was given in a round, and those it was owed. -/
structure Passed (V : Type) where
  node : String
  inputs : NodeInputs V
  owed : String → Option (HandleValue V)

/-- The start of a node in a round of a loop. -/
structure NodeStart where
  loop : Nat
  round : Nat
  node : String
  deriving DecidableEq

/-- A compute flow, with a record of what was asked for and what was started. -/
structure ComputeFlow (V : Type) where
  graph : FlowGraph
  /-- `graph_ctx._wait_node_inputs`. -/
  waitNodeInputs : InputsByNode V
  /-- `_schedule_task is not None`. -/
  hasScheduleTask : Bool
  loops : List (ScheduleLoop V)
  owed : Owed V
  passed : List (Passed V)
  starts : List NodeStart

/-- A request to schedule nodes. -/
inductive Request (V : Type) where
  /-- `_schedule_roots_by_node_id_or_run_cache`. -/
  | run (nodeId : String)
  | scheduleNode (nodeId : String) (nodeInputs : NodeInputs V) (sync : Bool)
  | scheduleNext (nodeId : String) (nodeOutput : Dict String V) (sync : Bool)

/-- A stretch between two suspension points, or what comes from outside. -/
inductive FlowEvent (V : Type) where
  | request (request : Request V)
  | stop
  | deleteNode (nodeId : String)
  /-- `save_graph` returns. -/
  | saved (loop : Nat)
  /-- The next node of a round is started; a plain function ends with the outcome. -/
  | startNode (loop : Nat) (outcome : Outcome V)
  | taskDone (loop : Nat) (task : Nat) (outcome : Outcome V)
  /-- `asyncio.wait` returns, with or without the shutdown task among the done ones. -/
  | wake (loop : Nat) (sawShutdown : Bool)
  /-- The last result has been worked through. -/
  | collected (loop : Nat)
  /-- The last task has been cancelled. -/
  | cancelled (loop : Nat)

/-! ## What a request asks for -/

/-- The nodes and inputs of a loop, and the inputs that wait while one runs. -/
structure Asked (V : Type) where
  nodes : List FlowNode
  inputs : InputsByNode V
  waiting : InputsByNode V
  sync : Bool

/-- Inputs by node, without values. -/
def noInputs (nodes : List FlowNode) : InputsByNode V :=
  .ofList (nodes.map fun node => (node.id, .empty))

/-- What a request asks for; a request that raises asks for nothing. -/
def Request.asked (graph : FlowGraph) : Request V → Option (Asked V)
  | .run nodeId => do
      let roots ← graph.roots nodeId
      some ⟨roots, .empty, noInputs roots, false⟩
  | .scheduleNode nodeId nodeInputs sync => do
      let node ← graph.getNodeById nodeId
      let inputs := Dict.empty.set nodeId nodeInputs
      some ⟨[node], inputs, inputs, sync⟩
  | .scheduleNext nodeId nodeOutput sync => do
      let inputs ← getNextNodeInputs graph (Dict.empty.set nodeId nodeOutput)
      let nodes ← inputs.keys.mapM graph.getNodeById
      some ⟨nodes, inputs, inputs, sync⟩

/-- `{**first, **second}`. -/
def mergeInputs (first second : InputsByNode V) : InputsByNode V :=
  first.update second.entries

/-- What is owed after values were asked for. -/
def Owed.add (owed : Owed V) (inputs : InputsByNode V) : Owed V :=
  fun node handle => (valueAt inputs node handle).or (owed node handle)

/-- What is owed without what some nodes were owed. -/
def Owed.remove (owed : Owed V) (ids : List String) : Owed V :=
  fun node handle => if node ∈ ids then none else owed node handle

/-! ## Rounds -/

/-- How the top of the `while` loop leaves it, or goes on. -/
inductive RoundTop (V : Type) where
  | leaves
  /-- The inputs that are left waiting when it raises. -/
  | raises (waitNodeInputs : InputsByNode V)
  | starts
      (roundNodes validNodes : List FlowNode)
      (curNodeInputs nodeInputsInFuture : InputsByNode V)

namespace ScheduleLoop

variable (loop : ScheduleLoop V)

/-- A loop that was started and has not begun. -/
def init (nodes : List FlowNode) (inputs : InputsByNode V) : ScheduleLoop V where
  phase := .saving
  nodesToSchedule := nodes
  curNodeInputs := inputs
  curAnodeIters := []
  nodeInputsInFuture := .empty
  remaining := []
  tasks := []
  nodeOutputs := .empty
  shutdown := false
  round := 0

/-- The loop runs. -/
def isLive : Bool :=
  loop.phase ≠ .ended ∧ loop.phase ≠ .raised

/-- From the condition of the `while` loop to the choice of the nodes of a round. -/
def top (graph : FlowGraph) (waitNodeInputs : InputsByNode V) : RoundTop V :=
  if loop.nodesToSchedule.isEmpty && waitNodeInputs.keys.isEmpty then
    .leaves
  else
    match waitNodeInputs.keys.mapM graph.getNodeById with
    | none => .raises waitNodeInputs
    | some waitNodes =>
        let roundNodes := loop.nodesToSchedule ++ waitNodes
        let curNodeInputs := mergeInputs loop.curNodeInputs waitNodeInputs
        match
          filterNodeCantSchedule graph roundNodes curNodeInputs loop.curAnodeIters with
        | none => .raises .empty
        | some (validNodes, inFuture) =>
            if validNodes.isEmpty && inFuture.keys.isEmpty then
              .leaves
            else
              .starts roundNodes validNodes curNodeInputs inFuture

/-- The result of a task: the outputs of its node, the running generators, or `none`
where the loop raises. -/
def collect
    (state : Dict String (Dict String V) × List String)
    (task : NodeTask V) :
    Option (Dict String (Dict String V) × List String) :=
  let (nodeOutputs, anodeIters) := state
  let valid (output : Dict String V) : Bool :=
    task.node.outHandles.all fun handle =>
      handle.isOptional || output.contains handle.name
  match task.outcome with
  | some .stopsIteration =>
      if anodeIters.contains task.node.id then
        some (nodeOutputs, anodeIters.erase task.node.id)
      else
        none
  | some .raises => some (nodeOutputs, anodeIters)
  | some .returnsNone =>
      if valid .empty then
        some (nodeOutputs.set task.node.id .empty, anodeIters)
      else
        some (nodeOutputs, anodeIters)
  | some .returnsOther => some (nodeOutputs, anodeIters)
  | some (.returnsDict output) =>
      if valid output then
        some (nodeOutputs.set task.node.id output, anodeIters)
      else
        some (nodeOutputs, anodeIters)
  | some .raisesBase => none
  | none => none

/-- The inputs of the next round: what was delivered, over what was kept. -/
def nextInputs (delivered : InputsByNode V) : InputsByNode V :=
  loop.nodeInputsInFuture.entries.foldl
    (fun inputs entry =>
      match inputs.get? entry.1 with
      | some new => inputs.set entry.1 (entry.2.update new.entries)
      | none => inputs.set entry.1 entry.2)
    delivered

/-- The end of a round: the loop at the top of the next one, and what was delivered. -/
def endRound
    (graph : FlowGraph) :
    Option (ScheduleLoop V × InputsByNode V) := do
  let (nodeOutputs, anodeIters) ←
    loop.tasks.foldlM collect (loop.nodeOutputs, loop.curAnodeIters)
  let delivered ← getNextNodeInputs graph nodeOutputs
  let newNodeInputs := loop.nextInputs delivered
  let newNodes ← newNodeInputs.keys.mapM graph.getNodeById
  let generators := loop.nodesToSchedule.filter fun node => anodeIters.contains node.id
  some
    ({ loop with
        nodesToSchedule := newNodes ++ generators
        curNodeInputs := newNodeInputs
        curAnodeIters := anodeIters
        nodeInputsInFuture := .empty
        tasks := []
        nodeOutputs := .empty },
      delivered)

end ScheduleLoop

namespace ComputeFlow

variable (flow : ComputeFlow V)

/-- A flow before any request. -/
def init (graph : FlowGraph) : ComputeFlow V where
  graph := graph
  waitNodeInputs := .empty
  hasScheduleTask := false
  loops := []
  owed _ _ := none
  passed := []
  starts := []

/-- The record of a loop is replaced. -/
def setLoop (number : Nat) (loop : ScheduleLoop V) : ComputeFlow V :=
  { flow with loops := flow.loops.set number loop }

/-- The `while` loop is left: `self._schedule_task = None`. -/
def leave (number : Nat) (loop : ScheduleLoop V) : ComputeFlow V :=
  { flow.setLoop number { loop with phase := .ended } with hasScheduleTask := false }

/-- An exception leaves `_schedule`. -/
def raise (number : Nat) (loop : ScheduleLoop V) : ComputeFlow V :=
  flow.setLoop number { loop with phase := .raised }

/-- What the nodes of a round are given, but for those whose generator is running. -/
def passedNow
    (owed : Owed V)
    (loop : ScheduleLoop V)
    (validNodes : List FlowNode)
    (curNodeInputs : InputsByNode V) :
    List (Passed V) :=
  (validNodes.filter fun node => !loop.curAnodeIters.contains node.id).map fun node =>
    ⟨node.id, (curNodeInputs.get? node.id).getD .empty, owed node.id⟩

/-- The nodes of the next round are chosen. -/
def runTop (number : Nat) (loop : ScheduleLoop V) : ComputeFlow V :=
  match loop.top flow.graph flow.waitNodeInputs with
  | .leaves => { flow with waitNodeInputs := .empty }.leave number loop
  | .raises waitNodeInputs =>
      { flow with waitNodeInputs := waitNodeInputs }.raise number loop
  | .starts roundNodes validNodes curNodeInputs inFuture =>
      let given := passedNow flow.owed loop validNodes curNodeInputs
      { flow with
          waitNodeInputs := .empty
          loops :=
            flow.loops.set number
              { loop with
                phase := .running
                nodesToSchedule := roundNodes
                curNodeInputs := curNodeInputs
                nodeInputsInFuture := inFuture
                remaining := validNodes
                round := loop.round + 1 }
          owed := flow.owed.remove (given.map (·.node))
          passed := flow.passed ++ given }

/-- A request: the inputs wait while `_schedule_task` is there, or a loop is started. -/
def handleRequest (request : Request V) : Option (ComputeFlow V) := do
  let asked ← request.asked flow.graph
  if flow.hasScheduleTask && !asked.sync then
    some
      { flow with
        waitNodeInputs := mergeInputs flow.waitNodeInputs asked.waiting
        owed := flow.owed.add asked.waiting }
  else
    some
      { flow with
        loops := flow.loops ++ [.init asked.nodes asked.inputs]
        hasScheduleTask := flow.hasScheduleTask || !asked.sync
        owed := flow.owed.add asked.inputs }

/-- The stretch after `save_graph`, up to the first node of the first round. -/
def saved (number : Nat) (loop : ScheduleLoop V) : ComputeFlow V :=
  match flow.waitNodeInputs.keys.mapM flow.graph.getNodeById with
  | none => flow.raise number loop
  | some waitNodes =>
      { flow with waitNodeInputs := .empty }.runTop number
        { loop with
          nodesToSchedule := loop.nodesToSchedule ++ waitNodes
          curNodeInputs := mergeInputs flow.waitNodeInputs loop.curNodeInputs
          shutdown := false }

/-- A node of the round is started. -/
def startNode
    (number : Nat)
    (loop : ScheduleLoop V)
    (outcome : Outcome V) :
    Option (ComputeFlow V) :=
  match loop.remaining with
  | [] => none
  | node :: rest =>
      let started : ComputeFlow V :=
        { flow with starts := flow.starts ++ [⟨number, loop.round, node.id⟩] }
      let loop := { loop with remaining := rest }
      let withTask := { loop with tasks := loop.tasks ++ [⟨node, none⟩] }
      if loop.curAnodeIters.contains node.id then
        some (started.setLoop number withTask)
      else
        match node.kind, outcome with
        | .asyncGenerator, _ =>
            some
              (started.setLoop number
                { withTask with curAnodeIters := loop.curAnodeIters ++ [node.id] })
        | .coroutine, _ => some (started.setLoop number withTask)
        | .function, .returnsDict output =>
            some
              (started.setLoop number
                { loop with nodeOutputs := loop.nodeOutputs.set node.id output })
        | .function, .raises => some (started.setLoop number loop)
        | .function, .stopsIteration => some (started.setLoop number loop)
        | .function, _ => some (started.raise number loop)

/-- A task of a loop is done. -/
def taskDone
    (number : Nat)
    (loop : ScheduleLoop V)
    (taskNumber : Nat)
    (outcome : Outcome V) :
    Option (ComputeFlow V) := do
  let task ← loop.tasks[taskNumber]?
  if task.outcome.isNone then
    some
      (flow.setLoop number
        { loop with
          tasks := loop.tasks.set taskNumber { task with outcome := some outcome } })
  else
    none

/-- `asyncio.wait` returns for the last time in a round. -/
def wake
    (number : Nat)
    (loop : ScheduleLoop V)
    (sawShutdown : Bool) :
    Option (ComputeFlow V) :=
  if sawShutdown then
    if loop.shutdown && !loop.tasks.isEmpty then
      some (flow.setLoop number { loop with phase := .stopping })
    else
      none
  else if loop.tasks.all (·.outcome.isSome) then
    some (flow.setLoop number { loop with phase := .collecting })
  else
    none

/-- The end of a round, up to the first node of the next one. -/
def collected (number : Nat) (loop : ScheduleLoop V) : ComputeFlow V :=
  match loop.endRound flow.graph with
  | none => flow.raise number loop
  | some (next, delivered) =>
      { flow with owed := flow.owed.add delivered }.runTop number next

/-- `_shutdown_ev.set()`: the loops that wait for it see it. -/
def stop : ComputeFlow V :=
  { flow with
    loops :=
      flow.loops.map fun loop =>
        if loop.phase = .saving then loop else { loop with shutdown := true } }

/-- A node is deleted; nothing is owed to it any more. -/
def deleteNode (nodeId : String) : ComputeFlow V :=
  { flow with
    graph := flow.graph.deleteNode nodeId
    owed := flow.owed.remove [nodeId] }

/-- A loop that is in some phase. -/
def loopIn (number : Nat) (phase : LoopPhase) : Option (ScheduleLoop V) :=
  flow.loops[number]?.filter (·.phase = phase)

/-- One stretch, where it can happen. -/
def step (flow : ComputeFlow V) : FlowEvent V → Option (ComputeFlow V)
  | .request request => flow.handleRequest request
  | .stop => some flow.stop
  | .deleteNode nodeId => some (flow.deleteNode nodeId)
  | .saved number => (flow.loopIn number .saving).map (flow.saved number)
  | .startNode number outcome =>
      (flow.loopIn number .running).bind (flow.startNode number · outcome)
  | .taskDone number task outcome =>
      (flow.loopIn number .running).bind (flow.taskDone number · task outcome)
  | .wake number sawShutdown =>
      (flow.loopIn number .running).bind fun loop =>
        if loop.remaining.isEmpty then
          flow.wake number loop sawShutdown
        else
          none
  | .collected number => (flow.loopIn number .collecting).map (flow.collected number)
  | .cancelled number => (flow.loopIn number .stopping).map (flow.leave number)

end ComputeFlow

/-!
# When no request is lost

What it means that requests are kept, and the steps that keep them: those in
which the loop raises nothing, overwrites no inputs with others, drops none and
starts no node twice.
-/

/-! ## Kept requests -/

/-- The inputs that a loop keeps for a later round. -/
def ScheduleLoop.held (loop : ScheduleLoop V) : InputsByNode V :=
  match loop.phase with
  | .saving => loop.curNodeInputs
  | .running => loop.nodeInputsInFuture
  | .collecting => loop.nodeInputsInFuture
  | _ => .empty

/-- No request was lost. -/
structure RequestsKept (flow : ComputeFlow V) : Prop where
  /-- While no loop runs, the next request starts one. -/
  idle :
    (∀ loop ∈ flow.loops, loop.isLive = false) → flow.hasScheduleTask = false
  /-- A round gave a node everything that the node was owed. -/
  passed :
    ∀ given ∈ flow.passed, ∀ handle value,
      given.owed handle = some value → given.inputs.get? handle = some value
  /-- What a node is owed waits or is kept by a running loop. -/
  held :
    ∀ node handle value, flow.owed node handle = some value →
      valueAt flow.waitNodeInputs node handle = some value ∨
        ∃ loop ∈ flow.loops, valueAt loop.held node handle = some value
  /-- No round of a loop started a node twice. -/
  once : flow.starts.Nodup

/-! ## Conditions -/

/-- Inputs hold no value for a node. -/
def NoValues (inputs : InputsByNode V) (node : String) : Prop :=
  ((inputs.get? node).getD .empty).keys = []

instance (inputs : InputsByNode V) (node : String) :
    Decidable (NoValues inputs node) :=
  inferInstanceAs (Decidable (_ = _))

/-- Every value of the first inputs of some node is one of the second inputs. -/
def KeepsValues (first second : InputsByNode V) (node : String) : Prop :=
  ∀ entry ∈ ((first.get? node).getD .empty).entries,
    valueAt second node entry.1 = some entry.2

instance [DecidableEq V] (first second : InputsByNode V) (node : String) :
    Decidable (KeepsValues first second node) :=
  inferInstanceAs (Decidable (∀ entry ∈ _, _))

/-- Waiting inputs are replaced only by inputs for the same handles. -/
def QueueFits (flow : ComputeFlow V) (waiting : InputsByNode V) : Prop :=
  ∀ node ∈ waiting.keys,
    ∀ handle ∈ ((flow.waitNodeInputs.get? node).getD .empty).keys,
      (valueAt waiting node handle).isSome = true

instance (flow : ComputeFlow V) (waiting : InputsByNode V) :
    Decidable (QueueFits flow waiting) :=
  inferInstanceAs (Decidable (∀ node ∈ _, ∀ handle ∈ _, _))

section Top

variable (flow : ComputeFlow V) (number : Nat) (loop : ScheduleLoop V)

/-- The nodes that wait, as far as they still exist. -/
def waitingNodes : List FlowNode :=
  (flow.waitNodeInputs.keys.mapM flow.graph.getNodeById).getD []

/-- The nodes that the next round considers. -/
def nextNodes : List FlowNode :=
  loop.nodesToSchedule ++ waitingNodes flow

/-- The inputs of the next round. -/
def nextNodeInputs : InputsByNode V :=
  mergeInputs loop.curNodeInputs flow.waitNodeInputs

/-- The nodes that the next round starts. -/
def runnable : List FlowNode :=
  (nextNodes flow loop).filter (canRun (nextNodeInputs flow loop) loop.curAnodeIters)

/-- Whether a node that lacks an input has an ancestor that the next round starts. -/
def HasRunnableParent (node : FlowNode) : Prop :=
  ∃ parent ∈ (flow.graph.getAllParentNodes node.id).getD [],
    parent ∈ (runnable flow loop).map (·.id)

instance (node : FlowNode) : Decidable (HasRunnableParent flow loop node) :=
  inferInstanceAs (Decidable (∃ parent ∈ _, _))

/-- The next round loses nothing. -/
structure TopFits : Prop where
  /-- Every waiting node still exists. -/
  found : ∀ node ∈ flow.waitNodeInputs.keys, flow.graph.idToNode.contains node = true
  /-- So does every node that lacks an input. -/
  parents :
    ∀ node ∈ nextNodes flow loop,
      canRun (nextNodeInputs flow loop) loop.curAnodeIters node = false →
        (flow.graph.getAllParentNodes node.id).isSome = true
  /-- Waiting inputs replace no others. -/
  merged : ∀ node ∈ flow.waitNodeInputs.keys,
    KeepsValues loop.curNodeInputs flow.waitNodeInputs node
  /-- No node that can run is listed twice. -/
  distinct : ((runnable flow loop).map (·.id)).Nodup
  /-- A running generator is given no inputs. -/
  generators :
    ∀ id ∈ loop.curAnodeIters, NoValues (nextNodeInputs flow loop) id
  /-- A node that lacks an input is given others only while an ancestor runs. -/
  lacking :
    ∀ node ∈ nextNodes flow loop,
      canRun (nextNodeInputs flow loop) loop.curAnodeIters node = false →
        HasRunnableParent flow loop node ∨ NoValues (nextNodeInputs flow loop) node.id
  /-- No other loop keeps inputs for a node that is started. -/
  others :
    ∀ other ∈ flow.loops.zipIdx, other.2 ≠ number →
      ∀ node ∈ runnable flow loop, NoValues other.1.held node.id

/-- `TopFits` can be computed. -/
instance [DecidableEq V] : Decidable (TopFits flow number loop) :=
  decidable_of_iff
    ((∀ node ∈ flow.waitNodeInputs.keys, flow.graph.idToNode.contains node = true) ∧
      (∀ node ∈ nextNodes flow loop,
        canRun (nextNodeInputs flow loop) loop.curAnodeIters node = false →
          (flow.graph.getAllParentNodes node.id).isSome = true) ∧
      (∀ node ∈ flow.waitNodeInputs.keys,
        KeepsValues loop.curNodeInputs flow.waitNodeInputs node) ∧
      ((runnable flow loop).map (·.id)).Nodup ∧
      (∀ id ∈ loop.curAnodeIters, NoValues (nextNodeInputs flow loop) id) ∧
      (∀ node ∈ nextNodes flow loop,
        canRun (nextNodeInputs flow loop) loop.curAnodeIters node = false →
          HasRunnableParent flow loop node ∨
            NoValues (nextNodeInputs flow loop) node.id) ∧
      (∀ other ∈ flow.loops.zipIdx, other.2 ≠ number →
        ∀ node ∈ runnable flow loop, NoValues other.1.held node.id))
    ⟨fun ⟨found, parents, merged, distinct, generators, lacking, others⟩ =>
        ⟨found, parents, merged, distinct, generators, lacking, others⟩,
      fun fits =>
        ⟨fits.found, fits.parents, fits.merged, fits.distinct, fits.generators,
          fits.lacking, fits.others⟩⟩

end Top

/-- A loop begins: what waits replaces none of its inputs and none is replaced. -/
def SavedFits (flow : ComputeFlow V) (number : Nat) (loop : ScheduleLoop V) : Prop :=
  (∀ node ∈ flow.waitNodeInputs.keys, flow.graph.idToNode.contains node = true) ∧
    (∀ node ∈ loop.curNodeInputs.keys,
      KeepsValues flow.waitNodeInputs loop.curNodeInputs node) ∧
    TopFits { flow with waitNodeInputs := .empty } number
      { loop with
        nodesToSchedule := loop.nodesToSchedule ++ waitingNodes flow
        curNodeInputs := mergeInputs flow.waitNodeInputs loop.curNodeInputs
        shutdown := false }

instance
    [DecidableEq V]
    (flow : ComputeFlow V)
    (number : Nat)
    (loop : ScheduleLoop V) :
    Decidable (SavedFits flow number loop) :=
  inferInstanceAs (Decidable (_ ∧ _ ∧ _))

/-- A round ends: its results can be worked through, and the next round loses nothing. -/
def EndFits (flow : ComputeFlow V) (number : Nat) (loop : ScheduleLoop V) : Prop :=
  (loop.endRound flow.graph).isSome = true ∧
    ∀ next ∈ loop.endRound flow.graph, TopFits flow number next.1

instance
    [DecidableEq V]
    (flow : ComputeFlow V)
    (number : Nat)
    (loop : ScheduleLoop V) :
    Decidable (EndFits flow number loop) :=
  inferInstanceAs (Decidable (_ ∧ _))

/-- A plain function returns a dictionary or raises. -/
def StartFits (loop : ScheduleLoop V) (outcome : Outcome V) : Prop :=
  ∀ node ∈ loop.remaining.head?, node.kind = .function →
    loop.curAnodeIters.contains node.id = false →
      outcome ≠ .returnsNone ∧ outcome ≠ .returnsOther ∧ outcome ≠ .raisesBase

instance [DecidableEq V] (loop : ScheduleLoop V) (outcome : Outcome V) :
    Decidable (StartFits loop outcome) :=
  inferInstanceAs (Decidable (∀ node ∈ _, _))

/-- The steps that lose no request. -/
def Permitted (flow : ComputeFlow V) : FlowEvent V → Prop
  | .request request =>
      ∀ asked ∈ request.asked flow.graph,
        (flow.hasScheduleTask && !asked.sync) = true → QueueFits flow asked.waiting
  | .stop => True
  | .deleteNode _ => True
  | .saved number => ∀ loop ∈ flow.loops[number]?, SavedFits flow number loop
  | .startNode number outcome => ∀ loop ∈ flow.loops[number]?, StartFits loop outcome
  | .taskDone _ _ _ => True
  -- A stop drops what the round has kept for later.
  | .wake number sawShutdown =>
      sawShutdown = true →
        ∀ loop ∈ flow.loops[number]?,
        ∀ node ∈ loop.nodeInputsInFuture.keys, NoValues loop.nodeInputsInFuture node
  | .collected number => ∀ loop ∈ flow.loops[number]?, EndFits flow number loop
  | .cancelled _ => True

instance [DecidableEq V] (flow : ComputeFlow V) (event : FlowEvent V) :
    Decidable (Permitted flow event) :=
  match event with
  | .request request =>
      inferInstanceAs (Decidable (∀ asked ∈ request.asked flow.graph, _ → _))
  | .stop => inferInstanceAs (Decidable True)
  | .deleteNode _ => inferInstanceAs (Decidable True)
  | .saved number =>
      inferInstanceAs (Decidable (∀ loop ∈ flow.loops[number]?, SavedFits flow number loop))
  | .startNode number outcome =>
      inferInstanceAs (Decidable (∀ loop ∈ flow.loops[number]?, StartFits loop outcome))
  | .taskDone _ _ _ => inferInstanceAs (Decidable True)
  | .wake number sawShutdown =>
      inferInstanceAs
        (Decidable
          (sawShutdown = true →
            ∀ loop ∈ flow.loops[number]?,
            ∀ node ∈ loop.nodeInputsInFuture.keys,
              NoValues loop.nodeInputsInFuture node))
  | .collected number =>
      inferInstanceAs (Decidable (∀ loop ∈ flow.loops[number]?, EndFits flow number loop))
  | .cancelled _ => inferInstanceAs (Decidable True)

end TensorPC.Flowplus
