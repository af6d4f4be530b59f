import TensorPC.Py.Dict

namespace TensorPC.Flowplus

/-!
# Compute graphs

The graph of a `ComputeFlow`: nodes with their handles, edges between handles,
and the walks through the graph that the scheduler makes.  A lookup of a node
that was deleted raises a `KeyError`, which is `none` here.
-/

/-- An input handle of a compute node. -/
structure InputHandle where
  name : String
  isOptional : Bool
  /-- Its annotation type is `handledictsource`. -/
  isDictSource : Bool
  deriving DecidableEq

/-- An output handle of a compute node. -/
structure OutputHandle where
  name : String
  isOptional : Bool
  deriving DecidableEq

/-- What calling the compute function of a node gives. -/
inductive ComputeKind where
  | function
  | coroutine
  | asyncGenerator
  deriving DecidableEq

/-- A compute node. -/
structure FlowNode where
  id : String
  inpHandles : List InputHandle
  outHandles : List OutputHandle
  kind : ComputeKind
  deriving DecidableEq

/-- An edge from an output handle to an input handle. -/
structure FlowEdge where
  source : String
  sourceHandle : String
  target : String
  targetHandle : String
  deriving DecidableEq

/-- `id_to_node` and the edges. -/
structure FlowGraph where
  idToNode : Dict String FlowNode
  edges : List FlowEdge
  /-- Nodes are kept under their ids. -/
  keyed : ∀ id node, idToNode.get? id = some node → node.id = id
  deriving DecidableEq

/-- What an input handle is given: an output, or outputs by source handle. -/
inductive HandleValue (V : Type) where
  | value (value : V)
  | dict (entries : Dict String V)
  deriving DecidableEq

/-- The inputs of a node by handle. -/
abbrev NodeInputs (V : Type) := Dict String (HandleValue V)

/-- `dict[str, dict[str, Any]]` of inputs. -/
abbrev InputsByNode (V : Type) := Dict String (NodeInputs V)

variable {V : Type}

namespace FlowGraph

variable (graph : FlowGraph)

/-- A graph without nodes. -/
def empty : FlowGraph where
  idToNode := .empty
  edges := []
  keyed _ _ found := nomatch found

/-- `add_node`. -/
def addNode (node : FlowNode) : FlowGraph where
  idToNode := graph.idToNode.set node.id node
  edges := graph.edges
  keyed id found isFound := by
    rw [Dict.get?_set] at isFound
    split at isFound
    · cases isFound
      exact Eq.symm ‹_›
    · exact graph.keyed id found isFound

/-- `get_node_by_id`. -/
def getNodeById (id : String) : Option FlowNode :=
  graph.idToNode.get? id

/-- `get_source_nodes`. -/
def getSourceNodes (id : String) : Option (List String) :=
  if graph.idToNode.contains id then
    some ((graph.edges.filter (·.target = id)).map (·.source))
  else
    none

/-- `get_target_nodes`. -/
def getTargetNodes (id : String) : Option (List String) :=
  if graph.idToNode.contains id then
    some ((graph.edges.filter (·.source = id)).map (·.target))
  else
    none

/-- `delete_nodes_by_ids`, of one node. -/
def deleteNode (id : String) : FlowGraph where
  idToNode := graph.idToNode.erase id
  edges := graph.edges.filter fun edge => edge.source ≠ id ∧ edge.target ≠ id
  keyed other node found := by
    rw [Dict.get?_erase] at found
    split at found
    · cases found
    · exact graph.keyed other node found

/-- The nodes that a walk has not met. -/
def unmet (met : List String) : List String :=
  graph.idToNode.keys.filter (· ∉ met)

theorem length_unmet_cons_lt
    {id : String}
    {met : List String}
    (inGraph : graph.idToNode.contains id = true)
    (isNew : id ∉ met) :
    (graph.unmet (id :: met)).length < (graph.unmet met).length := by
  have fewer : graph.unmet (id :: met) = (graph.unmet met).filter (· ≠ id) := by
    simp only [unmet, List.filter_filter, List.mem_cons, not_or]
    refine List.filter_congr fun other _ => ?_
    by_cases same : other = id <;> simp [same]
  have member : id ∈ graph.unmet met := by
    simp only [unmet, List.mem_filter, decide_eq_true_eq]
    exact ⟨Dict.mem_keys_iff.mpr inGraph, isNew⟩
  rw [fewer]
  refine List.length_filter_lt_length_iff_exists.mpr ⟨id, member, ?_⟩
  simp

/-- What is left of a walk: the list it works off, and what unmet nodes can add. -/
def workLeft (perNode : Nat) (list met : List String) : Nat :=
  (graph.unmet met).length * (perNode + 1) + list.length

theorem workLeft_lt
    {perNode : Nat}
    {id : String}
    {list met added : List String}
    (inGraph : graph.idToNode.contains id = true)
    (isNew : id ∉ met)
    (few : added.length ≤ perNode + list.length) :
    graph.workLeft perNode added (id :: met) <
      graph.workLeft perNode (id :: list) met := by
  have fewer := graph.length_unmet_cons_lt inGraph isNew
  have product :
      ((graph.unmet (id :: met)).length + 1) * (perNode + 1) ≤
        (graph.unmet met).length * (perNode + 1) :=
    Nat.mul_le_mul_right _ fewer
  rw [Nat.add_mul] at product
  simp only [workLeft, List.length_cons]
  omega

theorem length_getSourceNodes_le (id : String) :
    ((graph.getSourceNodes id).getD []).length ≤ graph.edges.length := by
  unfold getSourceNodes
  split
  · simpa using List.length_filter_le _ graph.edges
  · exact Nat.zero_le _

theorem length_getTargetNodes_le (id : String) :
    ((graph.getTargetNodes id).getD []).length ≤ graph.edges.length := by
  unfold getTargetNodes
  split
  · simpa using List.length_filter_le _ graph.edges
  · exact Nat.zero_le _

/-- The loop of `get_all_parent_nodes`, which goes through its lists in order. -/
def parentsFrom
    (queue accessed : List String) :
    Option (List String) :=
  match queue with
  | [] => some []
  | parent :: rest =>
      if parent ∈ accessed then
        (parentsFrom rest accessed).map (parent :: ·)
      else if graph.idToNode.contains parent then
        let sources := (graph.getSourceNodes parent).getD []
        (parentsFrom (rest ++ sources) (parent :: accessed)).map (parent :: ·)
      else
        none
termination_by graph.workLeft graph.edges.length queue accessed
decreasing_by
  · simp [workLeft]
  · refine graph.workLeft_lt ‹_› ‹_› ?_
    have few := graph.length_getSourceNodes_le parent
    rw [List.length_append]
    omega

/-- `get_all_parent_nodes`. -/
def getAllParentNodes (id : String) : Option (List String) := do
  let parents ← graph.getSourceNodes id
  graph.parentsFrom parents []

/-- The loop of `get_all_nodes_in_connected_graph`; the head of the stack is its top. -/
def connectedFrom
    (stack visited : List String) :
    Option (List String) :=
  match stack with
  | [] => some []
  | current :: rest =>
      if current ∈ visited then
        connectedFrom rest visited
      else if graph.idToNode.contains current then
        let connected :=
          (graph.getSourceNodes current).getD [] ++
            (graph.getTargetNodes current).getD []
        (connectedFrom (connected.reverse ++ rest) (current :: visited)).map
          (current :: ·)
      else
        none
termination_by graph.workLeft (graph.edges.length + graph.edges.length) stack visited
decreasing_by
  · simp [workLeft]
  · refine graph.workLeft_lt ‹_› ‹_› ?_
    have sources := graph.length_getSourceNodes_le current
    have targets := graph.length_getTargetNodes_le current
    simp only [List.length_append, List.length_reverse]
    omega

/-- The nodes of a connected graph that no edge leads to. -/
def roots (id : String) : Option (List FlowNode) := do
  let connected ← graph.connectedFrom [id] []
  let roots ← connected.filterM fun id => do
    let sources ← graph.getSourceNodes id
    pure sources.isEmpty
  roots.mapM graph.getNodeById

end FlowGraph

/-! ## Delivering outputs -/

/-- What an input handle holds after an output was delivered to it. -/
def InputHandle.accept
    (handle : InputHandle)
    (held : Option (HandleValue V))
    (sourceHandle : String)
    (output : V) :
    HandleValue V :=
  if handle.isDictSource then
    match held with
    | some (.dict entries) => .dict (entries.set sourceHandle output)
    | _ => .dict (Dict.empty.set sourceHandle output)
  else
    .value output

/-- An edge in the loop of `_get_next_node_inputs`. -/
def deliverAlong
    (graph : FlowGraph)
    (output : Dict String V)
    (newNodeInputs : InputsByNode V)
    (edge : FlowEdge) :
    Option (InputsByNode V) :=
  match output.get? edge.sourceHandle with
  | none => some newNodeInputs
  | some value => do
      let target ← graph.getNodeById edge.target
      let handle ← target.inpHandles.find? (·.name = edge.targetHandle)
      let inputs := (newNodeInputs.get? edge.target).getD .empty
      let given :=
        handle.accept (inputs.get? edge.targetHandle) edge.sourceHandle value
      some (newNodeInputs.set edge.target (inputs.set edge.targetHandle given))

/-- `_get_next_node_inputs`. -/
def getNextNodeInputs
    (graph : FlowGraph)
    (nodeIdToOutputs : Dict String (Dict String V)) :
    Option (InputsByNode V) :=
  nodeIdToOutputs.entries.foldlM
    (fun newNodeInputs entry =>
      if graph.idToNode.contains entry.1 then
        (graph.edges.filter (·.source = entry.1)).foldlM
          (deliverAlong graph entry.2) newNodeInputs
      else
        none)
    .empty

/-! ## Which nodes can run -/

/-- Some input handle that is not optional has no value. -/
def lacksInput (nodeInputs : InputsByNode V) (node : FlowNode) : Bool :=
  node.inpHandles.any fun handle =>
    !handle.isOptional &&
      !((nodeInputs.get? node.id).getD .empty).contains handle.name

/-- A node runs when its generator is running or it has its inputs. -/
def canRun
    (nodeInputs : InputsByNode V)
    (anodeIters : List String)
    (node : FlowNode) :
    Bool :=
  anodeIters.contains node.id || !lacksInput nodeInputs node

/-- A node without enough inputs waits if one of its parents runs now. -/
def scheduleInFuture
    (graph : FlowGraph)
    (nodeInputs : InputsByNode V)
    (newNodesIds : List String)
    (inFuture : InputsByNode V)
    (node : FlowNode) :
    Option (InputsByNode V) := do
  let allParents ← graph.getAllParentNodes node.id
  if allParents.any newNodesIds.contains then
    some (inFuture.set node.id ((nodeInputs.get? node.id).getD .empty))
  else
    some inFuture

/-- `_filter_node_cant_schedule`. -/
def filterNodeCantSchedule
    (graph : FlowGraph)
    (nodes : List FlowNode)
    (nodeInputs : InputsByNode V)
    (anodeIters : List String) :
    Option (List FlowNode × InputsByNode V) := do
  let newNodes := nodes.filter (canRun nodeInputs anodeIters)
  let lacking := nodes.filter (!canRun nodeInputs anodeIters ·)
  let inFuture ←
    lacking.foldlM (scheduleInFuture graph nodeInputs (newNodes.map (·.id))) .empty
  some (newNodes, inFuture)

/-! ## Values of inputs -/

/-- The value that inputs have for a handle of a node. -/
def valueAt
    (inputs : InputsByNode V)
    (node handle : String) :
    Option (HandleValue V) :=
  (inputs.get? node).bind (·.get? handle)

end TensorPC.Flowplus
