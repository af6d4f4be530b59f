import TensorPC.Lib.Computation
import TensorPC.Flowui.Indices
import Mathlib.Data.Option.Basic

namespace TensorPC.Flowui

/-!
# Edits of a flow graph, with their effects

The edits of `FlowInternals` change its dictionaries one after the other, so a
call that raises in the middle has already made its first changes.  Here every
statement is a step of its own, and a raising call keeps the state it reached.
-/

/-- A computation on the internals of a graph. -/
abbrev GraphM :=
  EStateM PyError FlowInternals

/-- A statement that changes the internals or raises. -/
def statement (change : FlowInternals → PyResult FlowInternals) : GraphM Unit :=
  fun self =>
    match change self with
    | .ok after => .ok () after
    | .error raised => .error raised self

/-- An expression over the internals that may raise. -/
def evaluate (expression : FlowInternals → PyResult α) : GraphM α :=
  fun self =>
    match expression self with
    | .ok value => .ok value self
    | .error raised => .error raised self

/-- `dict[key]`. -/
def getAt (dict : Dict String α) (key : String) : PyResult α :=
  match dict.get? key with
  | some value => .ok value
  | none => .error (.keyError key)

/-- `dict.pop(key)`. -/
def popAt (dict : Dict String α) (key : String) : PyResult (Dict String α) :=
  match dict.get? key with
  | some _ => .ok (dict.erase key)
  | none => .error (.keyError key)

namespace GraphM

/-- `add_edge`. -/
def addEdge (edge : Edge) : GraphM Unit := do
  statement fun self => do
    let _ ← pyAssert (!self.idToEdge.contains edge.id) ""
    return { self with idToEdge := self.idToEdge.set edge.id edge }
  statement fun self =>
    if self.idToNode.contains edge.source then
      .ok self
    else
      .error (.valueError ("source node " ++ edge.source ++ " not found"))
  statement fun self =>
    if self.idToNode.contains edge.target then
      .ok self
    else
      .error (.valueError ("target node " ++ edge.target ++ " not found"))
  statement fun self => do
    let targets ← appendAt self.nodeIdToTargets edge.source edge.targetEnd
    return { self with nodeIdToTargets := targets }
  statement fun self => do
    let sources ← appendAt self.nodeIdToSources edge.target edge.sourceEnd
    return { self with nodeIdToSources := sources }
  statement fun self => do
    let outEdges ←
      appendAtHandle self.nodeIdToOutHandleToEdges edge.source edge.sourceHandle edge
    return { self with nodeIdToOutHandleToEdges := outEdges }
  statement fun self => do
    let pool ← makeUniqueName self.uniqueNamePoolEdge edge.id
    return { self with uniqueNamePoolEdge := pool }

/-- `remove_edge`. -/
def removeEdge (edgeId : String) : GraphM Unit := do
  let edge ← evaluate fun self => getAt self.idToEdge edgeId
  statement fun self => do
    let edges ← popAt self.idToEdge edgeId
    return { self with idToEdge := edges }
  statement fun self => do
    let targets ← removeAt self.nodeIdToTargets edge.source edge.targetEnd
    return { self with nodeIdToTargets := targets }
  statement fun self => do
    let sources ← removeAt self.nodeIdToSources edge.target edge.sourceEnd
    return { self with nodeIdToSources := sources }
  statement fun self => do
    let outEdges ←
      removeAtHandle self.nodeIdToOutHandleToEdges edge.source edge.sourceHandle edge
    return { self with nodeIdToOutHandleToEdges := outEdges }
  statement fun self =>
    .ok { self with uniqueNamePoolEdge := self.uniqueNamePoolEdge.discard edgeId }

/-- The edge has an end among the nodes. -/
def touches (nodeIds : List String) (edge : Edge) : Bool :=
  nodeIds.contains edge.source || nodeIds.contains edge.target

/-- `if edge.source in node_ids_set or edge.target in node_ids_set: self.remove_edge(edge.id)`. -/
def removeIfTouched (nodeIds : List String) (edge : Edge) : GraphM Unit :=
  if touches nodeIds edge then removeEdge edge.id else pure ()

/-- The pops of one node. -/
def removeNode (nodeId : String) : GraphM Unit := do
  statement fun self => do
    let nodes ← popAt self.idToNode nodeId
    return { self with idToNode := nodes }
  statement fun self => do
    let targets ← popAt self.nodeIdToTargets nodeId
    return { self with nodeIdToTargets := targets }
  statement fun self => do
    let sources ← popAt self.nodeIdToSources nodeId
    return { self with nodeIdToSources := sources }
  statement fun self => do
    let inpEdges ← popAt self.nodeIdToInpHandleToEdges nodeId
    return { self with nodeIdToInpHandleToEdges := inpEdges }
  statement fun self => do
    let outEdges ← popAt self.nodeIdToOutHandleToEdges nodeId
    return { self with nodeIdToOutHandleToEdges := outEdges }
  statement fun self =>
    .ok { self with uniqueNamePoolNode := self.uniqueNamePoolNode.discard nodeId }

/-- `remove_nodes`: the edges are listed before the first one is removed. -/
def removeNodes (nodeIds : List String) : GraphM Unit := do
  let edges ← evaluate fun self => .ok self.idToEdge.values
  edges.forM (removeIfTouched nodeIds)
  nodeIds.forM removeNode

/-- The order in which Python iterates over a set of handles. -/
structure HandleOrder where
  iterate : List (Option String) → List (Option String)
  perm : ∀ handles, (iterate handles).Perm handles

/-- The ids of the edges at the handles that are not among the new ones. -/
def droppedEdges
    (order : HandleOrder)
    (handles : Dict (Option String) (List Edge))
    (newHandles : List String) :
    List String :=
  ((order.iterate handles.keys).filter fun handle =>
    !(newHandles.map some).contains handle).flatMap fun handle =>
      ((handles.get? handle).getD []).map Edge.id

/-- `change_node_handles`. -/
def changeNodeHandles
    (order : HandleOrder)
    (nodeId : String)
    (newInpHandles newOutHandles : List String) :
    GraphM (List String) := do
  let inpHandles ← evaluate fun self => getAt self.nodeIdToInpHandleToEdges nodeId
  let outHandles ← evaluate fun self => getAt self.nodeIdToOutHandleToEdges nodeId
  let edgeIdToBeRemoved :=
    droppedEdges order inpHandles newInpHandles ++ droppedEdges order outHandles newOutHandles
  edgeIdToBeRemoved.forM removeEdge
  return edgeIdToBeRemoved

end GraphM

/-- A call of one of the four edits. -/
inductive GraphCall where
  | addEdge (edge : Edge)
  | removeEdge (edgeId : String)
  | removeNodes (nodeIds : List String)
  | changeNodeHandles
      (order : GraphM.HandleOrder)
      (nodeId : String)
      (newInpHandles newOutHandles : List String)

/-- The effect of a call. -/
def GraphCall.run : GraphCall → GraphM Unit
  | addEdge edge => GraphM.addEdge edge
  | removeEdge edgeId => GraphM.removeEdge edgeId
  | removeNodes nodeIds => GraphM.removeNodes nodeIds
  | changeNodeHandles order nodeId newInpHandles newOutHandles =>
      (fun _ => ()) <$> GraphM.changeNodeHandles order nodeId newInpHandles newOutHandles

/-!
# Indices that agree with a rebuild

The edits keep their indices only up to the order of the lists and up to lists
that became empty.  Internals equal a rebuild in this sense when every index
agrees with the remaining nodes and edges and both pools hold the right names.
-/

section Agreement

variable {α : Type} {ids : List String} {edges : List Edge}

/-- The lists at two keys are the same up to order. -/
def SameLists (first second : Dict String (List α)) : Prop :=
  ∀ id, Option.Rel List.Perm (first.get? id) (second.get? id)

/-- The edges at the handles are the same up to order and emptied lists. -/
def SameHandles (first second : HandleEdges) : Prop :=
  ∀ id, Option.Rel
    (fun handles others =>
      ∀ handle, ((handles.get? handle).getD []).Perm ((others.get? handle).getD []))
    (first.get? id) (second.get? id)

/-- A dictionary with the lists of the edges at every node, in some order. -/
def ListsAgree
    (dict : Dict String (List α))
    (ids : List String)
    (nodeOf : Edge → String)
    (entryOf : Edge → α)
    (edges : List Edge) : Prop :=
  ∀ id,
    if id ∈ ids then
      ∃ list, dict.get? id = some list ∧
        list.Perm ((edges.filter fun edge => nodeOf edge = id).map entryOf)
    else
      dict.get? id = none

/-- A dictionary with the edges at every handle, in some order; a handle without edges may
have an empty list. -/
def HandlesAgree
    (dict : HandleEdges)
    (ids : List String)
    (nodeOf : Edge → String)
    (handleOf : Edge → Option String)
    (edges : List Edge) : Prop :=
  ∀ id,
    if id ∈ ids then
      ∃ handles, dict.get? id = some handles ∧
        ∀ handle, ((handles.get? handle).getD []).Perm
          (edges.filter fun edge => nodeOf edge = id ∧ handleOf edge = handle)
    else
      dict.get? id = none

/-- To be the same as lists over the edges is to agree with the edges. -/
theorem sameLists_iff
    {dict rebuilt : Dict String (List α)}
    {nodeOf : Edge → String}
    {entryOf : Edge → α}
    (lists : ListsOf rebuilt ids nodeOf entryOf edges) :
    SameLists dict rebuilt ↔ ListsAgree dict ids nodeOf entryOf edges := by
  refine forall_congr' fun id => ?_
  rw [lists id]
  split
  · constructor
    · intro same
      cases found : dict.get? id with
      | none =>
          rw [found] at same
          cases same
      | some list =>
          rw [found] at same
          cases same with
          | some perm => exact ⟨list, rfl, perm⟩
    · rintro ⟨list, found, perm⟩
      rw [found]
      exact .some perm
  · constructor
    · intro same
      cases found : dict.get? id with
      | none => rfl
      | some list =>
          rw [found] at same
          cases same
    · intro missing
      rw [missing]
      exact .none

/-- The same for the edges at the handles. -/
theorem sameHandles_iff
    {dict rebuilt : HandleEdges}
    {nodeOf : Edge → String}
    {handleOf : Edge → Option String}
    (described : HandlesOf rebuilt ids nodeOf handleOf edges) :
    SameHandles dict rebuilt ↔ HandlesAgree dict ids nodeOf handleOf edges := by
  refine forall_congr' fun id => ?_
  have known := described.known id
  cases foundRebuilt : rebuilt.get? id with
  | none =>
      have unknown : id ∉ ids := by
        rw [← known, foundRebuilt]
        simp
      rw [if_neg unknown]
      constructor
      · intro same
        cases found : dict.get? id with
        | none => rfl
        | some handles =>
            rw [found] at same
            cases same
      · intro missing
        rw [missing]
        exact .none
  | some others =>
      have isKnown : id ∈ ids := by
        rw [← known, foundRebuilt]
        rfl
      have lists : ∀ handle,
          (others.get? handle).getD [] =
            edges.filter fun edge => nodeOf edge = id ∧ handleOf edge = handle := by
        intro handle
        rw [described.handles id others foundRebuilt handle, getD_handleList]
      rw [if_pos isKnown]
      constructor
      · intro same
        cases found : dict.get? id with
        | none =>
            rw [found] at same
            cases same
        | some handles =>
            rw [found] at same
            cases same with
            | some perm => exact ⟨handles, rfl, fun handle => by rw [← lists]; exact perm handle⟩
      · rintro ⟨handles, found, perm⟩
        rw [found]
        exact .some fun handle => by rw [lists]; exact perm handle

end Agreement

namespace FlowInternals

/-- `self.nodes`. -/
def nodes (self : FlowInternals) : List Node :=
  self.idToNode.values

/-- `self.edges`. -/
def edges (self : FlowInternals) : List Edge :=
  self.idToEdge.values

/-- The pools hold the names that a rebuild would put there, which are the existing ids. -/
structure PoolsExact (internals rebuilt : FlowInternals) : Prop where
  nodeRebuilt : ∀ name, name ∈ internals.uniqueNamePoolNode ↔ name ∈ rebuilt.uniqueNamePoolNode
  edgeRebuilt : ∀ name, name ∈ internals.uniqueNamePoolEdge ↔ name ∈ rebuilt.uniqueNamePoolEdge
  nodeIds : ∀ name, name ∈ internals.uniqueNamePoolNode ↔ name ∈ internals.idToNode.keys
  edgeIds : ∀ name, name ∈ internals.uniqueNamePoolEdge ↔ name ∈ internals.idToEdge.keys

/-- Every index and both pools equal what the remaining nodes and edges rebuild. -/
def EqualsRebuild (self : FlowInternals) : Prop :=
  ∃ rebuilt,
    setFromNodesEdges self.nodes self.edges = .ok rebuilt ∧
      SameLists self.nodeIdToSources rebuilt.nodeIdToSources ∧
      SameLists self.nodeIdToTargets rebuilt.nodeIdToTargets ∧
      SameHandles self.nodeIdToInpHandleToEdges rebuilt.nodeIdToInpHandleToEdges ∧
      SameHandles self.nodeIdToOutHandleToEdges rebuilt.nodeIdToOutHandleToEdges ∧
      self.PoolsExact rebuilt

/--
What the removals keep: nodes and edges under their own ids, edges between
nodes, three of the four indices, and the pool of the nodes.
-/
structure Linked (internals : FlowInternals) : Prop where
  nodeKeys : ∀ id node, internals.idToNode.get? id = some node → node.id = id
  edgeKeys : ∀ id edge, internals.idToEdge.get? id = some edge → edge.id = id
  ends :
    ∀ edge ∈ internals.edges,
      edge.source ∈ internals.idToNode.keys ∧ edge.target ∈ internals.idToNode.keys
  targets :
    ListsAgree internals.nodeIdToTargets internals.idToNode.keys Edge.source Edge.targetEnd internals.edges
  sources :
    ListsAgree internals.nodeIdToSources internals.idToNode.keys Edge.target Edge.sourceEnd internals.edges
  outEdges :
    HandlesAgree internals.nodeIdToOutHandleToEdges internals.idToNode.keys Edge.source
      Edge.sourceHandle internals.edges
  inpKeys :
    ∀ id, (internals.nodeIdToInpHandleToEdges.get? id).isSome = true ↔ id ∈ internals.idToNode.keys
  poolNode : ∀ name, name ∈ internals.uniqueNamePoolNode ↔ name ∈ internals.idToNode.keys

/-- The index over the input handles agrees with the edges. -/
def InpAgrees (self : FlowInternals) : Prop :=
  HandlesAgree self.nodeIdToInpHandleToEdges self.idToNode.keys Edge.target
    Edge.targetHandle self.edges

variable {self : FlowInternals}

theorem mem_values_iff_get?
    {β : Type}
    {dict : Dict String β}
    {idOf : β → String}
    (keyed : ∀ id value, dict.get? id = some value → idOf value = id)
    {value : β} :
    value ∈ dict.values ↔ dict.get? (idOf value) = some value := by
  rw [Dict.mem_values_iff]
  constructor
  · rintro ⟨id, found⟩
    rwa [keyed id value found]
  · intro found
    exact ⟨_, found⟩

theorem Linked.wellFormed
    (linked : self.Linked) :
    WellFormed self.nodes self.edges where
  nodeIds := by
    rw [nodes, Dict.map_values_eq_keys linked.nodeKeys]
    exact self.idToNode.nodup_keys
  edgeIds := by
    rw [edges, Dict.map_values_eq_keys linked.edgeKeys]
    exact self.idToEdge.nodup_keys
  ends := by
    rw [nodes, Dict.map_values_eq_keys linked.nodeKeys]
    exact linked.ends

/-- Linked internals equal a rebuild when the fourth index and the pool of the edges are right. -/
theorem Linked.equalsRebuild_iff
    (linked : self.Linked) :
    self.EqualsRebuild ↔
      self.InpAgrees ∧
        (∀ name, name ∈ self.uniqueNamePoolEdge ↔ name ∈ self.idToEdge.keys) ∧
        ∀ name, name ∈ self.idToEdge.keys ↔ name ∈ self.idToNode.keys := by
  obtain ⟨rebuilt, built, describes⟩ := setFromNodesEdges_describes linked.wellFormed
  have ids : self.nodes.map Node.id = self.idToNode.keys :=
    Dict.map_values_eq_keys linked.nodeKeys
  have indexes := describes.indexes
  have poolNode := describes.poolNode
  have poolEdge := describes.poolEdge
  rw [ids] at indexes poolNode poolEdge
  have parts :
      self.EqualsRebuild ↔
        (SameLists self.nodeIdToSources rebuilt.nodeIdToSources ∧
          SameLists self.nodeIdToTargets rebuilt.nodeIdToTargets ∧
          SameHandles self.nodeIdToInpHandleToEdges rebuilt.nodeIdToInpHandleToEdges ∧
          SameHandles self.nodeIdToOutHandleToEdges rebuilt.nodeIdToOutHandleToEdges ∧
          self.PoolsExact rebuilt) := by
    constructor
    · rintro ⟨other, otherBuilt, same⟩
      obtain rfl : rebuilt = other := Except.ok.inj (built.symm.trans otherBuilt)
      exact same
    · intro same
      exact ⟨rebuilt, built, same⟩
  rw [parts, sameLists_iff indexes.sources, sameLists_iff indexes.targets,
    sameHandles_iff indexes.inpEdges, sameHandles_iff indexes.outEdges]
  constructor
  · rintro ⟨-, -, inpAgrees, -, pools⟩
    refine ⟨inpAgrees, pools.edgeIds, fun name => ?_⟩
    rw [← pools.edgeIds, pools.edgeRebuilt, poolEdge]
  · rintro ⟨inpAgrees, edgeIds, sameIds⟩
    refine ⟨linked.sources, linked.targets, inpAgrees, linked.outEdges,
      fun name => ?_, fun name => ?_, linked.poolNode, edgeIds⟩
    · rw [linked.poolNode, poolNode]
    · rw [edgeIds, sameIds, poolEdge]

/-- What `set_from_nodes_edges` builds is linked, and all four indices agree. -/
theorem linked_of_setFromNodesEdges
    {nodes : List Node}
    {edges : List Edge}
    (built : setFromNodesEdges nodes edges = .ok self) :
    self.Linked ∧ self.InpAgrees := by
  have wellFormed := wellFormed_of_setFromNodesEdges built
  obtain ⟨again, builtAgain, describes⟩ := setFromNodesEdges_describes wellFormed
  obtain rfl : self = again := Except.ok.inj (built.symm.trans builtAgain)
  have nodeKeys : ∀ id node, self.idToNode.get? id = some node → node.id = id :=
    fun id node found => ((describes.node id node).mp found).2
  have edgeKeys : ∀ id edge, self.idToEdge.get? id = some edge → edge.id = id :=
    fun id edge found => ((describes.edge id edge).mp found).2
  have isId : ∀ id, id ∈ nodes.map Node.id ↔ id ∈ self.idToNode.keys := by
    intro id
    rw [Dict.mem_keys_iff, Option.isSome_iff_exists, List.mem_map]
    exact exists_congr fun node => (describes.node id node).symm
  have isEdge : ∀ edge, edge ∈ self.edges ↔ edge ∈ edges := by
    intro edge
    rw [FlowInternals.edges, mem_values_iff_get? edgeKeys, describes.edge]
    simp
  have sameEdges : edges.Perm self.edges := by
    have selfNodup : self.edges.Nodup := by
      refine List.Nodup.of_map Edge.id ?_
      rw [FlowInternals.edges, Dict.map_values_eq_keys edgeKeys]
      exact self.idToEdge.nodup_keys
    exact (List.perm_ext_iff_of_nodup (List.Nodup.of_map Edge.id wellFormed.edgeIds)
      selfNodup).mpr fun edge => (isEdge edge).symm
  have listsAgree :
      ∀ {α : Type} {dict : Dict String (List α)} {nodeOf : Edge → String} {entryOf : Edge → α},
        ListsOf dict (nodes.map Node.id) nodeOf entryOf edges →
        ListsAgree dict self.idToNode.keys nodeOf entryOf self.edges := by
    intro α dict nodeOf entryOf lists id
    have found := lists id
    by_cases known : id ∈ nodes.map Node.id
    · rw [if_pos known] at found
      rw [if_pos ((isId id).mp known)]
      exact ⟨_, found, (sameEdges.filter _).map _⟩
    · rw [if_neg known] at found
      rwa [if_neg fun isKey => known ((isId id).mpr isKey)]
  have handlesAgree :
      ∀ {dict : HandleEdges} {nodeOf : Edge → String} {handleOf : Edge → Option String},
        HandlesOf dict (nodes.map Node.id) nodeOf handleOf edges →
        HandlesAgree dict self.idToNode.keys nodeOf handleOf self.edges := by
    intro dict nodeOf handleOf described id
    by_cases known : id ∈ nodes.map Node.id
    · rw [if_pos ((isId id).mp known)]
      obtain ⟨handles, found⟩ := Option.isSome_iff_exists.mp ((described.known id).mpr known)
      refine ⟨handles, found, fun handle => ?_⟩
      rw [described.handles id handles found handle, getD_handleList]
      exact sameEdges.filter _
    · rw [if_neg fun isKey => known ((isId id).mpr isKey)]
      have missing := mt (described.known id).mp known
      simpa using missing
  have indexes := describes.indexes
  refine ⟨⟨nodeKeys, edgeKeys, fun edge member => ?_, listsAgree indexes.targets,
    listsAgree indexes.sources, handlesAgree indexes.outEdges, fun id => ?_, fun name => ?_⟩,
    handlesAgree indexes.inpEdges⟩
  · have ends := wellFormed.ends edge ((isEdge edge).mp member)
    exact ⟨(isId _).mp ends.1, (isId _).mp ends.2⟩
  · rw [indexes.inpEdges.known, isId]
  · rw [describes.poolNode, isId]

end FlowInternals

end TensorPC.Flowui
