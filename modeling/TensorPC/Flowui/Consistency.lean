import TensorPC.Flowui.Component
import TensorPC.Lib.Transition

namespace TensorPC.Flowui

/-!
# Consistency of the indices

Events that build the indices anew keep them equal to what is built for the lists.  A
new edge and an edge deletion of the frontend leave the index over the input handles
as it was, and a change of the node logic leaves all indices as they were.
-/

namespace Flow

variable
  {flow next : Flow}

/-- The internals are what `set_from_nodes_edges` builds for the lists. -/
def Consistent (self : Flow) : Prop :=
  ∃ rebuilt,
    FlowInternals.setFromNodesEdges self.nodes self.edges = .ok rebuilt ∧
      self.internals.Same rebuilt

/-- Every node with a component has it among the child components. -/
def ComponentsRegistered (self : Flow) : Prop :=
  ∀ key ∈ componentKeys self.nodes, key ∈ self.childComps

/-- Nodes carry no component but that of the current node with their id. -/
def KeepsComponents
    (self : Flow)
    (nodes : List Node) : Prop :=
  ∀ node ∈ nodes, ∀ uid, node.component = some uid →
    ∃ current ∈ self.nodes, current.id = node.id ∧ current.component = some uid

/-- The events that the frontend and the backend may send in a state. -/
def Enabled (self : Flow) : FlowEvent → Prop
  | .nodeLogicChange flowUserUid nodes =>
      self.isOtherFlow flowUserUid = true ∨
        (nodes.map Node.id).Nodup ∧ self.KeepsComponents nodes
  | .visChange flowUserUid nodes edges =>
      self.isOtherFlow flowUserUid = true ∨
        WellFormed (nodes.getD self.nodes) (edges.getD self.edges) ∧
          self.KeepsComponents (nodes.getD self.nodes)
  | .nodeDelete _ => True
  | .edgeConnection _ newEdge =>
      newEdge.source ∈ self.nodes.map Node.id ∧ newEdge.target ∈ self.nodes.map Node.id ∧
        newEdge.id ∉ self.edges.map Edge.id
  | .edgeDelete _ => True
  | .addNodes nodes => ((self.nodes ++ nodes).map Node.id).Nodup
  | .deleteNodesByIds _ => True
  | .deleteEdgesByIds _ => True
  | .addEdges edges => WellFormed self.nodes (self.edges ++ edges)
  | .switchFlow nodes edges _ => WellFormed nodes edges

/-- The events that leave the indices equal to what is built for the lists. -/
def KeepsIndices (self : Flow) : FlowEvent → Prop
  | .nodeLogicChange flowUserUid nodes =>
      self.isOtherFlow flowUserUid = true ∨ ∀ node, node ∈ nodes ↔ node ∈ self.nodes
  | .edgeConnection controlled _ => controlled = true
  | .edgeDelete edgesToDel => edgesToDel = []
  | _ => True

theorem consistent_iff :
    flow.Consistent ↔
      WellFormed flow.nodes flow.edges ∧ flow.internals.Describes flow.nodes flow.edges :=
  FlowInternals.same_setFromNodesEdges_iff

/-! ## Building the indices anew -/

theorem mem_componentKeys
    {nodes : List Node}
    {key : String} :
    key ∈ componentKeys nodes ↔ ∃ node ∈ nodes, node.component.isSome = true ∧ node.id = key := by
  simp [componentKeys, and_assoc]

theorem updateGraphData_of_wellFormed
    (wellFormed : WellFormed flow.nodes flow.edges) :
    ∃ internals,
      flow.updateGraphData = .ok { flow with internals := internals } ∧
        Consistent { flow with internals := internals } := by
  obtain ⟨internals, built, describes⟩ :=
    FlowInternals.setFromNodesEdges_describes wellFormed
  refine ⟨internals, ?_, consistent_iff.mpr ⟨wellFormed, describes⟩⟩
  have allKnown :
      (flow.nodes.all fun node => internals.idToNode.contains node.id) = true := by
    rw [List.all_eq_true]
    intro node member
    have found := (describes.node node.id node).mpr ⟨member, rfl⟩
    simp [Dict.contains, found]
  simp [updateGraphData, built, allKnown, pyAssert, bind, Except.bind]

theorem checkComponents_of_keeps
    {nodes : List Node}
    (keeps : flow.KeepsComponents nodes) :
    flow.checkComponents nodes = .ok () := by
  refine PyResult.forM_of_forall fun node member => ?_
  split
  · rename_i uid component
    obtain ⟨current, isCurrent, -, same⟩ := keeps node member uid component
    have known : (flow.nodes.map Node.component).contains (some uid) = true := by
      rw [List.contains_iff_mem, ← same]
      exact List.mem_map_of_mem isCurrent
    exact pyAssert_eq_ok.mpr known
  · rfl

theorem registered_of_keeps
    {nodes : List Node}
    (keeps : flow.KeepsComponents nodes)
    (registered : flow.ComponentsRegistered) :
    ∀ key ∈ componentKeys nodes, key ∈ flow.childComps := by
  intro key member
  obtain ⟨node, isNode, isSome, rfl⟩ := mem_componentKeys.mp member
  obtain ⟨uid, component⟩ := Option.isSome_iff_exists.mp isSome
  obtain ⟨current, isCurrent, sameId, sameComponent⟩ := keeps node isNode uid component
  exact registered _
    (mem_componentKeys.mpr ⟨current, isCurrent, by simp [sameComponent], sameId⟩)

/-- Registered keys that differ can be popped. -/
theorem foldlM_popChild
    {keys : List String}
    {childComps : PySet String}
    (nodup : keys.Nodup)
    (registered : ∀ key ∈ keys, key ∈ childComps) :
    ∃ remaining,
      keys.foldlM popChild childComps = .ok remaining ∧
        ∀ key, key ∈ remaining ↔ key ∈ childComps ∧ key ∉ keys := by
  induction keys generalizing childComps with
  | nil =>
      exact ⟨childComps, rfl, by simp⟩
  | cons first rest inductionHypothesis =>
      rw [List.nodup_cons] at nodup
      obtain ⟨remaining, popped, members⟩ :=
        @inductionHypothesis (childComps.discard first) nodup.2 fun key member => by
          refine PySet.mem_discard.mpr ⟨?_, registered key (List.mem_cons_of_mem _ member)⟩
          rintro rfl
          exact nodup.1 member
      refine ⟨remaining, ?_, fun key => ?_⟩
      · rw [List.foldlM_cons, popChild, if_pos (registered first List.mem_cons_self)]
        exact popped
      · rw [members, PySet.mem_discard, List.mem_cons]
        tauto

/-! ## What the events do -/

/-- The invariant of the runs. -/
structure Invariant (flow : Flow) : Prop where
  consistent : flow.Consistent
  registered : flow.ComponentsRegistered

theorem mem_foldl_add
    {keys : List String}
    {start : PySet String}
    {key : String} :
    key ∈ keys.foldl PySet.add start ↔ key ∈ start ∨ key ∈ keys := by
  induction keys generalizing start with
  | nil =>
      simp
  | cons first rest inductionHypothesis =>
      rw [List.foldl_cons, inductionHypothesis, PySet.mem_add, List.mem_cons]
      tauto

/-- A visual change builds the indices anew. -/
theorem handleVisChange_ok
    {flowUserUid : Option String}
    {nodes : Option (List Node)}
    {edges : Option (List Edge)}
    (invariant : flow.Invariant)
    (enabled : flow.Enabled (.visChange flowUserUid nodes edges)) :
    ∃ next, flow.handleVisChange flowUserUid nodes edges = .ok next ∧ next.Invariant := by
  unfold handleVisChange
  split
  · exact ⟨flow, rfl, invariant⟩
  · rename_i own
    obtain ⟨wellFormed, keeps⟩ := enabled.resolve_left own
    have current : flow.visNodes nodes = .ok (nodes.getD flow.nodes) := by
      cases nodes with
      | none =>
          rfl
      | some nodes =>
          have checked : flow.checkComponents nodes = .ok () := checkComponents_of_keeps keeps
          simp [visNodes, checked, bind, Except.bind]
    obtain ⟨internals, updated, consistent⟩ :=
      @updateGraphData_of_wellFormed
        { flow with nodes := nodes.getD flow.nodes, edges := edges.getD flow.edges } wellFormed
    have registered := registered_of_keeps keeps invariant.registered
    exact ⟨_, by simp only [current, bind, Except.bind]; exact updated, consistent, registered⟩

/-- Deleting nodes deletes their edges and their components. -/
theorem deleteNodesByIds_ok
    (nodeIds : List String)
    (invariant : flow.Invariant) :
    ∃ next, flow.deleteNodesByIds nodeIds = .ok next ∧ next.Invariant := by
  have wellFormed := (consistent_iff.mp invariant.consistent).1
  have remaining : WellFormed
      (flow.nodes.filter fun node => node.id ∉ nodeIds)
      (flow.edges.filter fun edge => edge.source ∉ nodeIds ∧ edge.target ∉ nodeIds) := by
    refine ⟨wellFormed.nodeIds.sublist (List.filter_sublist.map _),
      wellFormed.edgeIds.sublist (List.filter_sublist.map _), fun edge member => ?_⟩
    obtain ⟨isEdge, kept⟩ := List.mem_filter.mp member
    have kept : edge.source ∉ nodeIds ∧ edge.target ∉ nodeIds := by simpa using kept
    have ends := wellFormed.ends edge isEdge
    have stays : ∀ id, id ∈ flow.nodes.map Node.id → id ∉ nodeIds →
        id ∈ (flow.nodes.filter fun node => node.id ∉ nodeIds).map Node.id := by
      intro id isId notDeleted
      obtain ⟨node, isNode, rfl⟩ := List.mem_map.mp isId
      exact List.mem_map.mpr ⟨node, List.mem_filter.mpr ⟨isNode, by simpa using notDeleted⟩, rfl⟩
    exact ⟨stays _ ends.1 kept.1, stays _ ends.2 kept.2⟩
  obtain ⟨internals, updated, consistent⟩ :=
    @updateGraphData_of_wellFormed { flow with
      nodes := flow.nodes.filter fun node => node.id ∉ nodeIds
      edges := flow.edges.filter fun edge => edge.source ∉ nodeIds ∧ edge.target ∉ nodeIds }
      remaining
  have keysNodup :
      (componentKeys (flow.nodes.filter fun node => node.id ∈ nodeIds)).Nodup :=
    wellFormed.nodeIds.sublist
      ((List.filter_sublist.trans List.filter_sublist).map _)
  have keysRegistered :
      ∀ key ∈ componentKeys (flow.nodes.filter fun node => node.id ∈ nodeIds),
        key ∈ flow.childComps := by
    intro key member
    obtain ⟨node, isNode, isSome, rfl⟩ := mem_componentKeys.mp member
    exact invariant.registered _
      (mem_componentKeys.mpr ⟨node, (List.mem_filter.mp isNode).1, isSome, rfl⟩)
  obtain ⟨childComps, popped, members⟩ := foldlM_popChild keysNodup keysRegistered
  refine ⟨{ flow with
    nodes := flow.nodes.filter fun node => node.id ∉ nodeIds
    edges := flow.edges.filter fun edge => edge.source ∉ nodeIds ∧ edge.target ∉ nodeIds
    internals := internals
    childComps := childComps }, ?_, ⟨consistent, ?_⟩⟩
  · simp only [deleteNodesByIds, updated, removeChildsByKeys, popped, bind, Except.bind]
  · intro key member
    obtain ⟨node, isNode, isSome, rfl⟩ := mem_componentKeys.mp member
    obtain ⟨wasNode, kept⟩ := List.mem_filter.mp isNode
    refine (members _).mpr
      ⟨invariant.registered _ (mem_componentKeys.mpr ⟨node, wasNode, isSome, rfl⟩), ?_⟩
    intro deleted
    obtain ⟨other, isOther, -, sameId⟩ := mem_componentKeys.mp deleted
    have otherDeleted := (List.mem_filter.mp isOther).2
    rw [sameId] at otherDeleted
    simp_all

theorem deleteEdgesByIds_ok
    (edgeIds : List String)
    (invariant : flow.Invariant) :
    ∃ next, flow.deleteEdgesByIds edgeIds = .ok next ∧ next.Invariant := by
  have wellFormed := (consistent_iff.mp invariant.consistent).1
  obtain ⟨internals, updated, consistent⟩ :=
    @updateGraphData_of_wellFormed
      { flow with edges := flow.edges.filter fun edge => edge.id ∉ edgeIds }
      ⟨wellFormed.nodeIds, wellFormed.edgeIds.sublist (List.filter_sublist.map _),
        fun edge member => wellFormed.ends edge (List.mem_filter.mp member).1⟩
  exact ⟨_, updated, consistent, invariant.registered⟩

theorem addEdges_ok
    {edges : List Edge}
    (invariant : flow.Invariant)
    (enabled : flow.Enabled (.addEdges edges)) :
    ∃ next, flow.addEdges edges = .ok next ∧ next.Invariant := by
  obtain ⟨internals, updated, consistent⟩ :=
    @updateGraphData_of_wellFormed { flow with edges := flow.edges ++ edges } enabled
  exact ⟨_, updated, consistent, invariant.registered⟩

/-- Adding nodes builds the indices anew and registers their components. -/
theorem addNodes_ok
    {nodes : List Node}
    (invariant : flow.Invariant)
    (enabled : flow.Enabled (.addNodes nodes)) :
    ∃ next, flow.addNodes nodes = .ok next ∧ next.Invariant := by
  obtain ⟨wellFormed, describes⟩ := consistent_iff.mp invariant.consistent
  have nodup : ((flow.nodes ++ nodes).map Node.id).Nodup := enabled
  have fresh :
      (nodes.forM fun node =>
        pyAssert (!flow.internals.idToNode.contains node.id) "") = .ok () := by
    refine PyResult.forM_of_forall fun node member => pyAssert_eq_ok.mpr ?_
    rw [Bool.not_eq_true', Dict.contains, Option.isSome_eq_false_iff, Option.isNone_iff_eq_none,
      Option.eq_none_iff_forall_ne_some]
    intro other found
    obtain ⟨isNode, sameId⟩ := (describes.node _ _).mp found
    rw [List.map_append, List.nodup_append] at nodup
    exact nodup.2.2 other.id (List.mem_map_of_mem isNode) node.id (List.mem_map_of_mem member)
      sameId
  have extended : WellFormed (flow.nodes ++ nodes) flow.edges := by
    refine ⟨nodup, wellFormed.edgeIds, fun edge member => ?_⟩
    have ends := wellFormed.ends edge member
    rw [List.map_append]
    exact ⟨List.mem_append_left _ ends.1, List.mem_append_left _ ends.2⟩
  obtain ⟨internals, updated, consistent⟩ :=
    @updateGraphData_of_wellFormed { flow with nodes := flow.nodes ++ nodes } extended
  refine ⟨{ flow with
    nodes := flow.nodes ++ nodes
    internals := internals
    childComps := (componentKeys nodes).foldl PySet.add flow.childComps }, ?_, ⟨consistent, ?_⟩⟩
  · simp only [addNodes, fresh, updated, bind, Except.bind]
    rfl
  · intro key member
    refine mem_foldl_add.mpr ?_
    rw [componentKeys, List.filter_append, List.map_append] at member
    exact (List.mem_append.mp member).imp (invariant.registered key) id

theorem switchFlow_ok
    {nodes : List Node}
    {edges : List Edge}
    {flowUserUid : Option String}
    (enabled : flow.Enabled (.switchFlow nodes edges flowUserUid)) :
    ∃ next, flow.switchFlow nodes edges flowUserUid = .ok next ∧ next.Invariant := by
  obtain ⟨internals, updated, consistent⟩ :=
    @updateGraphData_of_wellFormed { flow with nodes := nodes, edges := edges } enabled
  refine ⟨_, by simp only [switchFlow, updated, bind, Except.bind]; rfl, ?_⟩
  split
  · rename_i empty
    refine ⟨consistent, fun key member => ?_⟩
    have none := (List.append_eq_nil_iff.mp empty).1
    have isKey : key ∈ componentKeys nodes := member
    rw [none] at isKey
    cases isKey
  · exact ⟨consistent, fun key member => mem_poolOf.mpr (List.mem_append_left _ member)⟩

/-! ## Events that leave an index behind -/

/-- A change of the node logic that carries the current nodes keeps the description. -/
theorem describes_congr
    {internals : FlowInternals}
    {nodes others : List Node}
    {edges : List Edge}
    (sameNodes : ∀ node, node ∈ others ↔ node ∈ nodes)
    (describes : internals.Describes nodes edges) :
    internals.Describes others edges := by
  have sameIds : ∀ id, id ∈ others.map Node.id ↔ id ∈ nodes.map Node.id := by
    intro id
    simp [sameNodes]
  refine ⟨fun id node => ?_, describes.edge, ⟨fun id => ?_, fun id => ?_, ?_, ?_⟩,
    fun name => ?_, fun name => ?_⟩
  · rw [describes.node, sameNodes]
  · rw [describes.indexes.targets id]
    simp only [sameIds]
  · rw [describes.indexes.sources id]
    simp only [sameIds]
  · exact ⟨fun id => (describes.indexes.outEdges.known id).trans (sameIds id).symm,
      describes.indexes.outEdges.handles⟩
  · exact ⟨fun id => (describes.indexes.inpEdges.known id).trans (sameIds id).symm,
      describes.indexes.inpEdges.handles⟩
  · exact (describes.poolNode name).trans (sameIds name).symm
  · exact (describes.poolEdge name).trans (sameIds name).symm

/-- A change of the node logic is consistent exactly when the nodes stay the same. -/
theorem handleNodeLogicChange_iff
    {flowUserUid : Option String}
    {nodes : List Node}
    (invariant : flow.Invariant)
    (enabled : flow.Enabled (.nodeLogicChange flowUserUid nodes)) :
    (∃ next, flow.handleNodeLogicChange flowUserUid nodes = .ok next ∧ next.Consistent) ↔
      flow.isOtherFlow flowUserUid = true ∨ ∀ node, node ∈ nodes ↔ node ∈ flow.nodes := by
  unfold handleNodeLogicChange
  by_cases other : flow.isOtherFlow flowUserUid = true
  · rw [if_pos other]
    exact iff_of_true ⟨flow, rfl, invariant.consistent⟩ (.inl other)
  · rw [if_neg other, or_iff_right other]
    obtain ⟨nodup, keeps⟩ := enabled.resolve_left other
    obtain ⟨wellFormed, describes⟩ := consistent_iff.mp invariant.consistent
    have checked := checkComponents_of_keeps keeps
    simp only [checked, bind, Except.bind, Except.ok.injEq, exists_eq_left']
    constructor
    · intro consistent node
      have after := (consistent_iff.mp consistent).2
      have inNext := after.node node.id node
      have inFlow := describes.node node.id node
      simp only [and_true] at inNext inFlow
      exact inNext.symm.trans inFlow
    · intro sameNodes
      refine consistent_iff.mpr ⟨⟨nodup, wellFormed.edgeIds, fun edge member => ?_⟩,
        describes_congr sameNodes describes⟩
      simpa [sameNodes] using wellFormed.ends edge member

theorem filter_eq_of_handlesOf
    {dict : HandleEdges}
    {ids others : List String}
    {nodeOf : Edge → String}
    {handleOf : Edge → Option String}
    {edges otherEdges : List Edge}
    {id : String}
    {handle : Option String}
    (described : HandlesOf dict ids nodeOf handleOf edges)
    (otherwise : HandlesOf dict others nodeOf handleOf otherEdges)
    (known : id ∈ ids) :
    (edges.filter fun edge => nodeOf edge = id ∧ handleOf edge = handle) =
      otherEdges.filter fun edge => nodeOf edge = id ∧ handleOf edge = handle := by
  obtain ⟨handles, found⟩ := Option.isSome_iff_exists.mp ((described.known id).mpr known)
  have first := described.handles id handles found handle
  have second := otherwise.handles id handles found handle
  have same := congrArg (fun list => Option.getD list []) (first.symm.trans second)
  simpa only [getD_handleList] using same

theorem inpEdges_addEdge
    {internals result : FlowInternals}
    {edge : Edge}
    (added : internals.addEdge edge = .ok result) :
    result.nodeIdToInpHandleToEdges = internals.nodeIdToInpHandleToEdges := by
  obtain ⟨_, -, added⟩ := PyResult.bind_eq_ok.mp added
  split at added
  · cases added
  · split at added
    · cases added
    · obtain ⟨_, -, added⟩ := PyResult.bind_eq_ok.mp added
      obtain ⟨_, -, added⟩ := PyResult.bind_eq_ok.mp added
      obtain ⟨_, -, added⟩ := PyResult.bind_eq_ok.mp added
      obtain ⟨_, -, made⟩ := PyResult.bind_eq_ok.mp added
      cases made
      rfl

/-- A new edge that the component takes is missing among the input handles. -/
theorem handleNewEdge_iff
    {controlled : Bool}
    {newEdge : Edge}
    (invariant : flow.Invariant) :
    (∃ next, flow.handleNewEdge controlled newEdge = .ok next ∧ next.Consistent) ↔
      controlled = true := by
  unfold handleNewEdge
  cases controlled with
  | true =>
      exact iff_of_true ⟨flow, rfl, invariant.consistent⟩ rfl
  | false =>
      simp only [Bool.false_eq_true, if_false, iff_false]
      rintro ⟨next, taken, consistent⟩
      obtain ⟨internals, added, made⟩ := PyResult.bind_eq_ok.mp taken
      cases made
      obtain ⟨wellFormed, after⟩ := consistent_iff.mp consistent
      have before := (consistent_iff.mp invariant.consistent).2
      have isEdge : newEdge ∈ flow.edges ++ [newEdge] := by simp
      have inpEdges := after.indexes.inpEdges
      rw [show internals.nodeIdToInpHandleToEdges = _ from inpEdges_addEdge added] at inpEdges
      have same :=
        @filter_eq_of_handlesOf _ _ _ _ _ _ _ newEdge.target newEdge.targetHandle inpEdges
          before.indexes.inpEdges (wellFormed.ends newEdge isEdge).2
      have longer := congrArg List.length same
      simp at longer

theorem inpEdges_removeEdge
    {internals result : FlowInternals}
    {edgeId : String}
    (removed : internals.removeEdge edgeId = .ok result) :
    result.nodeIdToInpHandleToEdges = internals.nodeIdToInpHandleToEdges ∧
      ∃ edge, internals.idToEdge.get? edgeId = some edge := by
  unfold FlowInternals.removeEdge at removed
  split at removed
  · cases removed
  · rename_i edge found
    obtain ⟨_, -, removed⟩ := PyResult.bind_eq_ok.mp removed
    obtain ⟨_, -, removed⟩ := PyResult.bind_eq_ok.mp removed
    obtain ⟨_, -, made⟩ := PyResult.bind_eq_ok.mp removed
    cases made
    exact ⟨rfl, edge, found⟩

theorem inpEdges_foldlM_removeEdge
    {internals result : FlowInternals}
    {edgeIds : List String}
    (removed : edgeIds.foldlM FlowInternals.removeEdge internals = .ok result) :
    result.nodeIdToInpHandleToEdges = internals.nodeIdToInpHandleToEdges := by
  induction edgeIds generalizing internals with
  | nil =>
      cases removed
      rfl
  | cons first rest inductionHypothesis =>
      rw [List.foldlM_cons] at removed
      obtain ⟨middle, removedFirst, removedRest⟩ := PyResult.bind_eq_ok.mp removed
      exact (inductionHypothesis removedRest).trans (inpEdges_removeEdge removedFirst).1

/-- A deleted edge stays among the input handles. -/
theorem handleEdgeDelete_iff
    {edgesToDel : List String}
    (invariant : flow.Invariant) :
    (∃ next, flow.handleEdgeDelete edgesToDel = .ok next ∧ next.Consistent) ↔
      edgesToDel = [] := by
  unfold handleEdgeDelete
  cases edgesToDel with
  | nil =>
      refine iff_of_true ⟨flow, ?_, invariant.consistent⟩ rfl
      simp [bind, Except.bind, pure, Except.pure]
  | cons first rest =>
      simp only [reduceCtorEq, iff_false]
      rintro ⟨next, deleted, consistent⟩
      obtain ⟨internals, removed, made⟩ := PyResult.bind_eq_ok.mp deleted
      cases made
      obtain ⟨-, after⟩ := consistent_iff.mp consistent
      obtain ⟨wellFormed, before⟩ := consistent_iff.mp invariant.consistent
      have inpEdges := after.indexes.inpEdges
      rw [show internals.nodeIdToInpHandleToEdges = _ from
        inpEdges_foldlM_removeEdge removed] at inpEdges
      rw [List.foldlM_cons] at removed
      obtain ⟨middle, removedFirst, -⟩ := PyResult.bind_eq_ok.mp removed
      obtain ⟨-, edge, found⟩ := inpEdges_removeEdge removedFirst
      obtain ⟨isEdge, sameId⟩ := (before.edge first edge).mp found
      have same :=
        @filter_eq_of_handlesOf _ _ _ _ _ _ _ edge.target edge.targetHandle
          before.indexes.inpEdges inpEdges (wellFormed.ends edge isEdge).2
      have stays : edge ∈ flow.edges.filter fun other =>
          other.target = edge.target ∧ other.targetHandle = edge.targetHandle :=
        List.mem_filter.mpr ⟨isEdge, by simp⟩
      rw [same] at stays
      have remains := (List.mem_filter.mp (List.mem_filter.mp stays).1).2
      simp [sameId] at remains

/-! ## Runs -/

/-- A handler that does not raise takes the component to its next state. -/
def step
    (self : Flow)
    (event : FlowEvent) :
    Option Flow :=
  match self.handle event with
  | .ok next => some next
  | .error _ => none

/-- An event keeps the indices consistent, without an exception, exactly under the condition. -/
theorem handle_iff
    {event : FlowEvent}
    (invariant : flow.Invariant)
    (enabled : flow.Enabled event) :
    (∃ next, flow.handle event = .ok next ∧ next.Consistent) ↔ flow.KeepsIndices event := by
  have rebuilt :
      ∀ {result : PyResult Flow},
        (∃ next, result = .ok next ∧ next.Invariant) →
          ((∃ next, result = .ok next ∧ next.Consistent) ↔ True) := by
    rintro result ⟨next, made, kept⟩
    exact iff_of_true ⟨next, made, kept.consistent⟩ trivial
  cases event with
  | nodeLogicChange flowUserUid nodes => exact handleNodeLogicChange_iff invariant enabled
  | visChange flowUserUid nodes edges => exact rebuilt (handleVisChange_ok invariant enabled)
  | nodeDelete nodesToDel => exact rebuilt (deleteNodesByIds_ok nodesToDel invariant)
  | edgeConnection controlled newEdge => exact handleNewEdge_iff invariant
  | edgeDelete edgesToDel => exact handleEdgeDelete_iff invariant
  | addNodes nodes => exact rebuilt (addNodes_ok invariant enabled)
  | deleteNodesByIds nodeIds => exact rebuilt (deleteNodesByIds_ok nodeIds invariant)
  | deleteEdgesByIds edgeIds => exact rebuilt (deleteEdgesByIds_ok edgeIds invariant)
  | addEdges edges => exact rebuilt (addEdges_ok invariant enabled)
  | switchFlow nodes edges flowUserUid => exact rebuilt (switchFlow_ok enabled)

/-- Events under the condition keep the invariant. -/
theorem invariant_of_handle
    {event : FlowEvent}
    (invariant : flow.Invariant)
    (enabled : flow.Enabled event)
    (keeps : flow.KeepsIndices event)
    (handled : flow.handle event = .ok next) :
    next.Invariant := by
  obtain ⟨result, made, consistent⟩ := (handle_iff invariant enabled).mpr keeps
  obtain rfl : next = result := Except.ok.inj (handled.symm.trans made)
  have rebuilt :
      (∃ result, flow.handle event = .ok result ∧ result.Invariant) → next.Invariant := by
    rintro ⟨result, madeAgain, kept⟩
    obtain rfl : next = result := Except.ok.inj (handled.symm.trans madeAgain)
    exact kept
  cases event with
  | nodeLogicChange flowUserUid nodes =>
      refine ⟨consistent, ?_⟩
      simp only [handle, handleNodeLogicChange] at handled
      split at handled
      · cases handled
        exact invariant.registered
      · rename_i own
        obtain ⟨_, -, made⟩ := PyResult.bind_eq_ok.mp handled
        cases made
        have registered :=
          registered_of_keeps (enabled.resolve_left own).2 invariant.registered
        exact registered
  | edgeConnection controlled newEdge =>
      refine ⟨consistent, ?_⟩
      have isControlled : controlled = true := keeps
      rw [handle, handleNewEdge, if_pos isControlled] at handled
      cases handled
      exact invariant.registered
  | edgeDelete edgesToDel =>
      refine ⟨consistent, ?_⟩
      obtain ⟨_, -, made⟩ := PyResult.bind_eq_ok.mp handled
      cases made
      exact invariant.registered
  | visChange flowUserUid nodes edges => exact rebuilt (handleVisChange_ok invariant enabled)
  | nodeDelete nodesToDel => exact rebuilt (deleteNodesByIds_ok nodesToDel invariant)
  | addNodes nodes => exact rebuilt (addNodes_ok invariant enabled)
  | deleteNodesByIds nodeIds => exact rebuilt (deleteNodesByIds_ok nodeIds invariant)
  | deleteEdgesByIds edgeIds => exact rebuilt (deleteEdgesByIds_ok edgeIds invariant)
  | addEdges edges => exact rebuilt (addEdges_ok invariant enabled)
  | switchFlow nodes edges flowUserUid => exact rebuilt (switchFlow_ok enabled)

theorem invariant_of_init
    {nodes : List Node}
    {edges : List Edge}
    {extraChilds : PySet String}
    {flowUserUid : Option String}
    {start : Flow}
    (created : init nodes edges extraChilds flowUserUid = .ok start) :
    start.Invariant := by
  obtain ⟨internals, built, updated⟩ := PyResult.bind_eq_ok.mp created
  have wellFormed := FlowInternals.wellFormed_of_setFromNodesEdges built
  obtain ⟨again, createdAgain, consistent⟩ :=
    @updateGraphData_of_wellFormed {
      nodes := nodes
      edges := edges
      internals := .new
      childComps := (componentKeys nodes).foldl PySet.add extraChilds
      extraChilds := extraChilds
      flowUserUid := flowUserUid } wellFormed
  obtain rfl := Except.ok.inj (created.symm.trans createdAgain)
  exact ⟨consistent, fun key member => mem_foldl_add.mpr (.inr member)⟩

/-- Two nodes, one with a component. -/
def sampleNodes : List Node := [
  { id := "load", component := some "flow.load", props := "" },
  { id := "show", component := none, props := "" }]

/-- An edge between them. -/
def sampleEdge : Edge where
  id := "load-show"
  source := "load"
  target := "show"
  sourceHandle := some "out"
  targetHandle := some "inp"
  props := ""

/-- A component with these two nodes and the edge. -/
def sampleFlow : Flow where
  nodes := sampleNodes
  edges := [sampleEdge]
  internals := {
    idToNode := Dict.ofList (sampleNodes.map fun node => (node.id, node))
    idToEdge := Dict.ofList [("load-show", sampleEdge)]
    nodeIdToSources :=
      Dict.ofList [("load", []), ("show", [("load", some "out", some "inp")])]
    nodeIdToTargets :=
      Dict.ofList [("load", [("show", some "out", some "inp")]), ("show", [])]
    nodeIdToInpHandleToEdges :=
      Dict.ofList [("load", .empty), ("show", Dict.ofList [(some "inp", [sampleEdge])])]
    nodeIdToOutHandleToEdges :=
      Dict.ofList [("load", Dict.ofList [(some "out", [sampleEdge])]), ("show", .empty)]
    uniqueNamePoolNode := poolOf ["load", "show"]
    uniqueNamePoolEdge := poolOf ["load", "show"] }
  childComps := poolOf ["load"]
  extraChilds := .empty
  flowUserUid := none

theorem init_sample :
    init sampleNodes [sampleEdge] .empty none = .ok sampleFlow := by
  rfl

/-- The edge in the other direction. -/
def backEdge : Edge where
  id := "show-load"
  source := "show"
  target := "load"
  sourceHandle := some "out"
  targetHandle := some "inp"
  props := ""

end Flow

end TensorPC.Flowui
