import TensorPC.Cflow.Node
import Mathlib.Data.List.Sort

namespace TensorPC.Cflow

/-!
# Assigning executors to nodes

`assign_node_executor` groups the nodes that can be scheduled by the executor
they name, and gives each group to that executor or, failing that, to the first
one that can take the group's largest request.
-/

/-- An executor with the resources it currently has left. -/
structure Executor where
  id : String
  isLocal : Bool
  rc : ResourceDesc
  deriving DecidableEq, Repr

/-- Where a node is to run: an executor of the list, or one made for the node. -/
inductive AssignedExecutor
  | executor (index : Nat)
  | tempExecutorCreator
  deriving DecidableEq, Repr

abbrev Assignment := Dict NodeId AssignedExecutor

/-- A node of a group with the request it is sorted by. -/
abbrev GroupedNode := ComputeNodeModel × ResourceDesc

abbrev NodeGroups := Dict String (List GroupedNode)

/-- Lexicographic comparison of the sort keys `(GPU, GPUMem, CPU, Mem)`. -/
def sortKeyLe (first second : ResourceDesc) : Prop :=
  first.GPU < second.GPU ∨ first.GPU = second.GPU ∧
    (first.GPUMem < second.GPUMem ∨ first.GPUMem = second.GPUMem ∧
      (first.CPU < second.CPU ∨ first.CPU = second.CPU ∧
        first.Mem ≤ second.Mem))

instance (first second : ResourceDesc) : Decidable (sortKeyLe first second) :=
  inferInstanceAs (Decidable (_ ∨ _))

/-- `node_group.sort(key=..., reverse=True)`. -/
def sortGroup (group : List GroupedNode) : List GroupedNode :=
  group.insertionSort (fun first second => sortKeyLe second.2 first.2)

/-- The first pass: place the nodes that do not choose by resources, group the others. -/
def groupNode
    (executors : List Executor)
    (state : Assignment × NodeGroups)
    (node : ComputeNodeModel) :
    PyResult (Assignment × NodeGroups) :=
  if node.runtime.cfg.hasTempExecutorCreator then
    .ok (state.1.set node.id .tempExecutorCreator, state.2)
  else if node.runtime.cfg.execAlwaysLocal then
    match executors.findIdx? (·.isLocal) with
    | some index => .ok (state.1.set node.id (.executor index), state.2)
    | none =>
        .error (.assertionError "Local executor is required for observer nodes")
  else
    .ok (state.1,
      state.2.set node.vExecId
        ((state.2.get? node.vExecId).getD [] ++ [(node, node.assignResource)]))

/-- Give the nodes of a group to one executor, as long as the largest request fits. -/
def assignGroupTo
    (index : Nat)
    (maxNodeRcReq : ResourceDesc) :
    List GroupedNode → ResourceDesc → Assignment → Assignment
  | [], _, assigned => assigned
  | (node, nrc) :: rest, exRc, assigned =>
      if exRc.isRequestSufficient maxNodeRcReq then
        assignGroupTo index maxNodeRcReq rest (exRc.getRequestRemainRc nrc)
          (assigned.set node.id (.executor index))
      else
        assignGroupTo index maxNodeRcReq rest exRc assigned

/-- The executor that takes a group: the one it names if that one can take the
largest request, else the first one that can. -/
def groupExecutor?
    (executors : List Executor)
    (exId : String)
    (maxNodeRcReq : ResourceDesc) :
    Option Nat :=
  let named :=
    (executors.findIdx? (fun ex => ex.id = exId)).filter fun index =>
      (executors[index]?).any (fun ex => ex.rc.isRequestSufficient maxNodeRcReq)
  named <|> executors.findIdx? (fun ex => ex.rc.isRequestSufficient maxNodeRcReq)

/-- The second pass, for one group. -/
def assignGroup
    (executors : List Executor)
    (assigned : Assignment)
    (group : String × List GroupedNode) :
    Assignment :=
  match sortGroup group.2 with
  | [] => assigned
  | (largest, maxNodeRcReq) :: rest =>
      match groupExecutor? executors group.1 maxNodeRcReq with
      | none => assigned
      | some index =>
          match executors[index]? with
          | none => assigned
          | some ex =>
              assignGroupTo index maxNodeRcReq ((largest, maxNodeRcReq) :: rest) ex.rc assigned

/-- `assign_node_executor`. -/
def assignNodeExecutor
    (nodes : List ComputeNodeModel)
    (executors : List Executor) :
    PyResult Assignment := do
  if nodes.isEmpty then
    return Dict.empty
  let (assigned, groups) ← nodes.foldlM (groupNode executors) (Dict.empty, Dict.empty)
  let assigned := groups.entries.foldl (assignGroup executors) assigned
  pyAssert (!assigned.entries.isEmpty) "no executor can handle nodes"
  return assigned

end TensorPC.Cflow
