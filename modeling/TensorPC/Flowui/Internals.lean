import TensorPC.Py.Dict
import TensorPC.Py.PySet
import Mathlib.Data.List.Perm.Subperm

namespace TensorPC.Flowui

/-!
# Indices of a flow graph

A flow component keeps its graph as two lists, and `FlowInternals` keeps dictionaries
over them.  `set_from_nodes_edges` builds the dictionaries, `add_edge` and
`remove_edge` patch them.
-/

/-- A node: its id, the uid of its component if it has one, and its other properties. -/
structure Node where
  id : String
  component : Option String
  props : String
  deriving DecidableEq, Repr

/-- An edge: its id, the ends and handles, and its other properties. -/
structure Edge where
  id : String
  source : String
  target : String
  sourceHandle : Option String
  targetHandle : Option String
  props : String
  deriving DecidableEq, Repr

/-- A node at the other end of an edge, with the source and the target handle. -/
abbrev EdgeEnd :=
  String × Option String × Option String

/-- The entry of an edge in `node_id_to_targets`. -/
def Edge.targetEnd (edge : Edge) : EdgeEnd :=
  (edge.target, edge.sourceHandle, edge.targetHandle)

/-- The entry of an edge in `node_id_to_sources`. -/
def Edge.sourceEnd (edge : Edge) : EdgeEnd :=
  (edge.source, edge.sourceHandle, edge.targetHandle)

/-- The edges at the handles of every node. -/
abbrev HandleEdges :=
  Dict String (Dict (Option String) (List Edge))

/-- `FlowInternals`. -/
structure FlowInternals where
  idToNode : Dict String Node
  idToEdge : Dict String Edge
  nodeIdToSources : Dict String (List EdgeEnd)
  nodeIdToTargets : Dict String (List EdgeEnd)
  nodeIdToInpHandleToEdges : HandleEdges
  nodeIdToOutHandleToEdges : HandleEdges
  uniqueNamePoolNode : PySet String
  uniqueNamePoolEdge : PySet String
  deriving DecidableEq

/-- `FlowInternals()`. -/
def FlowInternals.new : FlowInternals where
  idToNode := .empty
  idToEdge := .empty
  nodeIdToSources := .empty
  nodeIdToTargets := .empty
  nodeIdToInpHandleToEdges := .empty
  nodeIdToOutHandleToEdges := .empty
  uniqueNamePoolNode := .empty
  uniqueNamePoolEdge := .empty

/-! ## Dictionaries of lists -/

section Lists

variable {α : Type}

/-- `dict[key].append(item)`. -/
def appendAt
    (dict : Dict String (List α))
    (key : String)
    (item : α) :
    PyResult (Dict String (List α)) :=
  match dict.get? key with
  | some items => .ok (dict.set key (items ++ [item]))
  | none => .error (.keyError key)

/-- `items.remove(item)`: the first equal element is removed. -/
def removeItem
    [DecidableEq α]
    (items : List α)
    (item : α) :
    PyResult (List α) :=
  if item ∈ items then
    .ok (items.erase item)
  else
    .error (.valueError "list.remove(x): x not in list")

/-- `dict[key].remove(item)`. -/
def removeAt
    [DecidableEq α]
    (dict : Dict String (List α))
    (key : String)
    (item : α) :
    PyResult (Dict String (List α)) :=
  match dict.get? key with
  | some items => do
      let remaining ← removeItem items item
      .ok (dict.set key remaining)
  | none => .error (.keyError key)

end Lists

/-- Append an edge at a handle of a node; the handle gets a list when it has none. -/
def appendAtHandle
    (dict : HandleEdges)
    (node : String)
    (handle : Option String)
    (edge : Edge) :
    PyResult HandleEdges :=
  match dict.get? node with
  | some handles =>
      .ok (dict.set node (handles.set handle ((handles.get? handle).getD [] ++ [edge])))
  | none => .error (.keyError node)

/-- `dict[node][handle].remove(edge)`. -/
def removeAtHandle
    (dict : HandleEdges)
    (node : String)
    (handle : Option String)
    (edge : Edge) :
    PyResult HandleEdges :=
  match dict.get? node with
  | some handles =>
      match handles.get? handle with
      | some edges => do
          let remaining ← removeItem edges edge
          .ok (dict.set node (handles.set handle remaining))
      | none => .error (.keyError (handle.getD "None"))
  | none => .error (.keyError node)

/-! ## Unique names -/

/-- The number behind the last underscore of a name, and the name before it. -/
def splitTail (name : String) : String × Int :=
  if name.contains '_' ∧ name.front ≠ '_' then
    let parts := name.splitOn "_"
    match (parts.getLastD "").toInt? with
    | some tail => ("_".intercalate parts.dropLast, tail)
    | none => (name, 0)
  else
    (name, 0)

/-- The first name with a number in the range that is not taken. -/
def firstFree
    (taken : PySet String)
    (nameWithoutTail : String) :
    List Int → PyResult String
  | [] => .error (.valueError "max count reached")
  | number :: rest =>
      let newName := nameWithoutTail ++ "_" ++ toString number
      if newName ∉ taken then .ok newName else firstFree taken nameWithoutTail rest

/-- `UniqueNamePool.max_count`. -/
def maxCount : Nat :=
  10000

/-- `_make_unique_name`, as `UniqueNamePool.__call__` uses it. -/
def makeUniqueName
    (taken : PySet String)
    (name : String) :
    PyResult (PySet String) :=
  if name ∉ taken then
    .ok (taken.add name)
  else do
    let (nameWithoutTail, tail) := splitTail name
    let newName ←
      firstFree taken nameWithoutTail
        ((List.range (maxCount - 1)).map fun offset => tail + 1 + offset)
    .ok (taken.add newName)

/-- `UniqueNamePool(init_set=names)`. -/
def poolOf (names : List String) : PySet String :=
  names.foldl PySet.add .empty

/-! ## Operations -/

namespace FlowInternals

/-- `add_edge`. -/
def addEdge
    (self : FlowInternals)
    (edge : Edge) :
    PyResult FlowInternals := do
  let _ ← pyAssert (!self.idToEdge.contains edge.id) ""
  if !self.idToNode.contains edge.source then
    .error (.valueError ("source node " ++ edge.source ++ " not found"))
  else if !self.idToNode.contains edge.target then
    .error (.valueError ("target node " ++ edge.target ++ " not found"))
  else
    let targets ← appendAt self.nodeIdToTargets edge.source edge.targetEnd
    let sources ← appendAt self.nodeIdToSources edge.target edge.sourceEnd
    let outEdges ←
      appendAtHandle self.nodeIdToOutHandleToEdges edge.source edge.sourceHandle edge
    let pool ← makeUniqueName self.uniqueNamePoolEdge edge.id
    .ok { self with
      idToEdge := self.idToEdge.set edge.id edge
      nodeIdToTargets := targets
      nodeIdToSources := sources
      nodeIdToOutHandleToEdges := outEdges
      uniqueNamePoolEdge := pool }

/-- `remove_edge`. -/
def removeEdge
    (self : FlowInternals)
    (edgeId : String) :
    PyResult FlowInternals :=
  match self.idToEdge.get? edgeId with
  | none => .error (.keyError edgeId)
  | some edge => do
      let targets ← removeAt self.nodeIdToTargets edge.source edge.targetEnd
      let sources ← removeAt self.nodeIdToSources edge.target edge.sourceEnd
      let outEdges ←
        removeAtHandle self.nodeIdToOutHandleToEdges edge.source edge.sourceHandle edge
      .ok { self with
        idToEdge := self.idToEdge.erase edgeId
        nodeIdToTargets := targets
        nodeIdToSources := sources
        nodeIdToOutHandleToEdges := outEdges
        uniqueNamePoolEdge := self.uniqueNamePoolEdge.discard edgeId }

/-- The loop body of `set_from_nodes_edges`. -/
def indexEdge
    (self : FlowInternals)
    (edge : Edge) :
    PyResult FlowInternals := do
  let targets ← appendAt self.nodeIdToTargets edge.source edge.targetEnd
  let sources ← appendAt self.nodeIdToSources edge.target edge.sourceEnd
  let outEdges ←
    appendAtHandle self.nodeIdToOutHandleToEdges edge.source edge.sourceHandle edge
  let inpEdges ←
    appendAtHandle self.nodeIdToInpHandleToEdges edge.target edge.targetHandle edge
  .ok { self with
    nodeIdToTargets := targets
    nodeIdToSources := sources
    nodeIdToOutHandleToEdges := outEdges
    nodeIdToInpHandleToEdges := inpEdges }

/-- The dictionaries of `set_from_nodes_edges` before its loop. -/
def unindexed
    (nodes : List Node)
    (edges : List Edge) :
    FlowInternals where
  idToNode := Dict.ofList (nodes.map fun node => (node.id, node))
  idToEdge := Dict.ofList (edges.map fun edge => (edge.id, edge))
  nodeIdToSources := Dict.ofList (nodes.map fun node => (node.id, []))
  nodeIdToTargets := Dict.ofList (nodes.map fun node => (node.id, []))
  nodeIdToInpHandleToEdges := Dict.ofList (nodes.map fun node => (node.id, .empty))
  nodeIdToOutHandleToEdges := Dict.ofList (nodes.map fun node => (node.id, .empty))
  uniqueNamePoolNode := poolOf (nodes.map Node.id)
  -- the source fills the pool of the edges with the node ids, too
  uniqueNamePoolEdge := poolOf (nodes.map Node.id)

/-- `set_from_nodes_edges`. -/
def setFromNodesEdges
    (nodes : List Node)
    (edges : List Edge) :
    PyResult FlowInternals := do
  let start := unindexed nodes edges
  let _ ← pyAssert (start.idToNode.entries.length = nodes.length) ""
  let _ ← pyAssert (start.idToEdge.entries.length = edges.length) ""
  edges.foldlM indexEdge start

end FlowInternals

end TensorPC.Flowui
