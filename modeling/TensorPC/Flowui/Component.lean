import TensorPC.Flowui.Indices

namespace TensorPC.Flowui

/-!
# The flow component

Frontend events and backend calls edit the node and edge lists of the component.  Most
of them build the indices anew, the events of the frontend on single edges patch them,
and a change of the node logic leaves them as they are.
-/

/--
The state of a `Flow`: its lists, the indices, the keys of the child components, those
of the extra childs among them, and the uid by which events of other flows are told.
-/
structure Flow where
  nodes : List Node
  edges : List Edge
  internals : FlowInternals
  childComps : PySet String
  extraChilds : PySet String
  flowUserUid : Option String
  deriving DecidableEq

namespace Flow

/-- The keys of the nodes that have a component. -/
def componentKeys (nodes : List Node) : List String :=
  (nodes.filter fun node => node.component.isSome).map Node.id

/-- `_update_graph_data`. -/
def updateGraphData (self : Flow) : PyResult Flow := do
  let internals ← FlowInternals.setFromNodesEdges self.nodes self.edges
  let _ ← pyAssert (self.nodes.all fun node => internals.idToNode.contains node.id) ""
  .ok { self with internals := internals }

/-- `Flow.__init__`, with the keys that the extra childs get and the uid property. -/
def init
    (nodes : List Node)
    (edges : List Edge)
    (extraChilds : PySet String)
    (flowUserUid : Option String) :
    PyResult Flow :=
  updateGraphData {
    nodes := nodes
    edges := edges
    internals := .new
    childComps := (componentKeys nodes).foldl PySet.add extraChilds
    extraChilds := extraChilds
    flowUserUid := flowUserUid }

/-- `_child_comps.pop(key)`. -/
def popChild
    (childComps : PySet String)
    (key : String) :
    PyResult (PySet String) :=
  if key ∈ childComps then
    .ok (childComps.discard key)
  else
    .error (.keyError key)

/-- `remove_childs_by_keys`. -/
def removeChildsByKeys
    (self : Flow)
    (keys : List String) :
    PyResult Flow := do
  let childComps ← keys.foldlM popChild self.childComps
  .ok { self with childComps := childComps }

/-- `update_childs`. -/
def updateChilds
    (self : Flow)
    (keys : List String) :
    Flow :=
  { self with childComps := keys.foldl PySet.add self.childComps }

/-- `set_new_layout`. -/
def setNewLayout
    (self : Flow)
    (keys : List String) :
    Flow :=
  { self with childComps := poolOf keys }

/-! ## Frontend events -/

/-- The debounced change of another flow, told by its uid, is dropped. -/
def isOtherFlow
    (self : Flow)
    (flowUserUid : Option String) :
    Bool :=
  match self.flowUserUid, flowUserUid with
  | some own, some other => own ≠ other
  | _, _ => false

/-- Raw nodes may only refer to components that current nodes have. -/
def checkComponents
    (self : Flow)
    (nodes : List Node) :
    PyResult Unit :=
  nodes.forM fun node =>
    match node.component with
    | some uid => pyAssert ((self.nodes.map Node.component).contains (some uid)) ""
    | none => .ok ()

/-- `_handle_node_logic_change`. -/
def handleNodeLogicChange
    (self : Flow)
    (flowUserUid : Option String)
    (nodes : List Node) :
    PyResult Flow :=
  if self.isOtherFlow flowUserUid then
    .ok self
  else do
    let _ ← self.checkComponents nodes
    .ok { self with nodes := nodes }

/-- The nodes after a visual change. -/
def visNodes
    (self : Flow)
    (nodes : Option (List Node)) :
    PyResult (List Node) :=
  match nodes with
  | some nodes => do
      let _ ← self.checkComponents nodes
      .ok nodes
  | none => .ok self.nodes

/-- `_handle_vis_change`. -/
def handleVisChange
    (self : Flow)
    (flowUserUid : Option String)
    (nodes : Option (List Node))
    (edges : Option (List Edge)) :
    PyResult Flow :=
  if self.isOtherFlow flowUserUid then
    .ok self
  else do
    let nodes ← self.visNodes nodes
    updateGraphData { self with nodes := nodes, edges := edges.getD self.edges }

/-- `_handle_new_edge`. -/
def handleNewEdge
    (self : Flow)
    (controlled : Bool)
    (newEdge : Edge) :
    PyResult Flow :=
  if controlled then
    .ok self
  else do
    let internals ← self.internals.addEdge newEdge
    .ok { self with edges := self.edges ++ [newEdge], internals := internals }

/-- `_handle_edge_delete`. -/
def handleEdgeDelete
    (self : Flow)
    (edgesToDel : List String) :
    PyResult Flow := do
  let internals ← edgesToDel.foldlM FlowInternals.removeEdge self.internals
  .ok { self with
    edges := self.edges.filter fun edge => edge.id ∉ edgesToDel
    internals := internals }

/-! ## Backend calls -/

/-- `add_nodes`. -/
def addNodes
    (self : Flow)
    (nodes : List Node) :
    PyResult Flow := do
  let _ ← nodes.forM fun node => pyAssert (!self.internals.idToNode.contains node.id) ""
  let updated ← updateGraphData { self with nodes := self.nodes ++ nodes }
  .ok (updated.updateChilds (componentKeys nodes))

/-- `delete_nodes_by_ids`; `_handle_node_delete` only sends another event. -/
def deleteNodesByIds
    (self : Flow)
    (nodeIds : List String) :
    PyResult Flow := do
  let updated ← updateGraphData { self with
    nodes := self.nodes.filter fun node => node.id ∉ nodeIds
    edges := self.edges.filter fun edge => edge.source ∉ nodeIds ∧ edge.target ∉ nodeIds }
  updated.removeChildsByKeys
    (componentKeys (self.nodes.filter fun node => node.id ∈ nodeIds))

/-- `delete_edges_by_ids`. -/
def deleteEdgesByIds
    (self : Flow)
    (edgeIds : List String) :
    PyResult Flow :=
  updateGraphData { self with edges := self.edges.filter fun edge => edge.id ∉ edgeIds }

/-- `add_edges`. -/
def addEdges
    (self : Flow)
    (edges : List Edge) :
    PyResult Flow :=
  updateGraphData { self with edges := self.edges ++ edges }

/--
`switch_flow`.  The layout keeps the extra childs; an empty one is not set, so that the
old child components stay registered.
-/
def switchFlow
    (self : Flow)
    (nodes : List Node)
    (edges : List Edge)
    (flowUserUid : Option String) :
    PyResult Flow := do
  let updated ← updateGraphData { self with nodes := nodes, edges := edges }
  let newLayout :=
    componentKeys nodes ++ self.childComps.toList.filter fun key => key ∈ self.extraChilds
  let renamed : Flow :=
    { updated with flowUserUid := flowUserUid.or updated.flowUserUid }
  .ok (if newLayout = [] then renamed else renamed.setNewLayout newLayout)

end Flow

/-- The events of the frontend and the calls of the backend. -/
inductive FlowEvent where
  | nodeLogicChange (flowUserUid : Option String) (nodes : List Node)
  | visChange
      (flowUserUid : Option String)
      (nodes : Option (List Node))
      (edges : Option (List Edge))
  | nodeDelete (nodesToDel : List String)
  | edgeConnection (controlled : Bool) (newEdge : Edge)
  | edgeDelete (edgesToDel : List String)
  | addNodes (nodes : List Node)
  | deleteNodesByIds (nodeIds : List String)
  | deleteEdgesByIds (edgeIds : List String)
  | addEdges (edges : List Edge)
  | switchFlow (nodes : List Node) (edges : List Edge) (flowUserUid : Option String)

/-- The handler of an event, or the call. -/
def Flow.handle
    (self : Flow) :
    FlowEvent → PyResult Flow
  | .nodeLogicChange flowUserUid nodes => self.handleNodeLogicChange flowUserUid nodes
  | .visChange flowUserUid nodes edges => self.handleVisChange flowUserUid nodes edges
  | .nodeDelete nodesToDel => self.deleteNodesByIds nodesToDel
  | .edgeConnection controlled newEdge => self.handleNewEdge controlled newEdge
  | .edgeDelete edgesToDel => self.handleEdgeDelete edgesToDel
  | .addNodes nodes => self.addNodes nodes
  | .deleteNodesByIds nodeIds => self.deleteNodesByIds nodeIds
  | .deleteEdgesByIds edgeIds => self.deleteEdgesByIds edgeIds
  | .addEdges edges => self.addEdges edges
  | .switchFlow nodes edges flowUserUid => self.switchFlow nodes edges flowUserUid

end TensorPC.Flowui
