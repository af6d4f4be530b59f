import TensorPC.Flowui.GraphEditSteps
import TensorPC.Lib.Transition

namespace TensorPC.Flowui

/-!
# Runs of graph edits

No edit touches the index over the input handles except by dropping a whole
node.  So an edge that is added never gets there and one that is removed stays
there, unless the node it enters is removed as well; and the pool of the edges
starts with the ids of the nodes.
-/

open Computation

namespace GraphCall

variable {self after : FlowInternals}

/-- The call is `change_node_handles` for a node of the graph. -/
def ChangesNode (self : FlowInternals) : GraphCall → Prop
  | changeNodeHandles _ nodeId _ _ => nodeId ∈ self.idToNode.keys
  | _ => False

/--
A call that succeeds leaves what a rebuild gives, one that raises leaves
everything as it was, and `change_node_handles` raises for no node.
-/
def Right (self : FlowInternals) (call : GraphCall) : Prop :=
  match call.run self with
  | .ok _ after => after.EqualsRebuild
  | .error _ after => after = self ∧ ¬ call.ChangesNode self

/-- An edge of the graph has the id. -/
def IsEdgeId (self : FlowInternals) (keep : Edge → Bool) (name : String) : Prop :=
  ∃ edge ∈ self.edges, keep edge = true ∧ edge.id = name

/-- Removing the nodes leaves no trace: neither in the index over the input handles of another
node nor in the pool of the edges. -/
structure RemovesCleanly (internals : FlowInternals) (nodeIds : List String) : Prop where
  nodup : nodeIds.Nodup
  known : ∀ id ∈ nodeIds, id ∈ internals.idToNode.keys
  targets :
    ∀ edge ∈ internals.edges,
      GraphM.touches nodeIds edge = true → edge.target ∈ nodeIds
  poolEdge :
    ∀ name,
      (name ∈ internals.uniqueNamePoolEdge ∧
          ¬ IsEdgeId internals (GraphM.touches nodeIds) name) ↔
        IsEdgeId internals (fun edge => !GraphM.touches nodeIds edge) name
  sameIds :
    ∀ name,
      IsEdgeId internals (fun edge => !GraphM.touches nodeIds edge) name ↔
        name ∈ internals.idToNode.keys ∧ name ∉ nodeIds

/-- No edge has an end among the nodes, and the first of them is unknown. -/
def RemovesNothing (self : FlowInternals) (nodeIds : List String) : Prop :=
  (∀ edge ∈ self.edges, GraphM.touches nodeIds edge = false) ∧
    ∃ first rest, nodeIds = first :: rest ∧ first ∉ self.idToNode.keys

/-- Every handle with an edge stays, and the pool of the edges holds the ids that it should. -/
structure KeepsHandles
    (internals : FlowInternals)
    (nodeId : String)
    (newInpHandles newOutHandles : List String) : Prop where
  inpHandles :
    ∀ edge ∈ internals.edges,
      edge.target = nodeId → edge.targetHandle ∈ newInpHandles.map some
  outHandles :
    ∀ edge ∈ internals.edges,
      edge.source = nodeId → edge.sourceHandle ∈ newOutHandles.map some
  poolEdge : ∀ name, name ∈ internals.uniqueNamePoolEdge ↔ name ∈ internals.idToEdge.keys
  sameIds : ∀ name, name ∈ internals.idToEdge.keys ↔ name ∈ internals.idToNode.keys

/-- When a call does what it should. -/
def Fits (self : FlowInternals) : GraphCall → Prop
  | addEdge edge => edge.id ∈ self.idToEdge.keys
  | removeEdge edgeId => edgeId ∉ self.idToEdge.keys
  | removeNodes nodeIds => RemovesCleanly self nodeIds ∨ RemovesNothing self nodeIds
  | changeNodeHandles _ nodeId newInpHandles newOutHandles =>
      nodeId ∈ self.idToNode.keys → KeepsHandles self nodeId newInpHandles newOutHandles

theorem addEdge_known
    {edge : Edge}
    (known : edge.id ∈ self.idToEdge.keys) :
    GraphM.addEdge edge self = .error (.assertionError "") self := by
  rw [Dict.mem_keys_iff] at known
  have raises :
      statement (fun internals => do
        let _ ← pyAssert (!internals.idToEdge.contains edge.id) ""
        return { internals with idToEdge := internals.idToEdge.set edge.id edge }) self =
          .error (.assertionError "") self := by
    simp [statement, pyAssert, Dict.contains, known, bind, Except.bind]
  rw [GraphM.addEdge, bind_of_error raises]

/-- `add_edge` is right only when it refuses a known id. -/
theorem right_addEdge_iff
    (linked : self.Linked)
    (inpAgrees : self.InpAgrees)
    {edge : Edge} :
    Right self (addEdge edge) ↔ edge.id ∈ self.idToEdge.keys := by
  rw [Dict.mem_keys_iff]
  cases known : self.idToEdge.get? edge.id with
  | some other =>
      have refused := addEdge_known (Dict.mem_keys_iff.mpr (by rw [known]; rfl))
      simp [Right, run, refused, ChangesNode]
  | none =>
      have keeps :
          FlowInternals.KeepsEdges { self with idToEdge := self.idToEdge.set edge.id edge }
            (stateAfter (GraphM.addEdge edge) self) :=
        FlowInternals.stateAfter_addEdge known
      simp only [Option.isSome_none, Bool.false_eq_true, iff_false]
      intro right
      simp only [Right, run] at right
      unfold stateAfter at keeps
      split at right
      · rename_i after ran
        rw [ran] at keeps
        have listed : edge ∈ after.edges := by
          rw [FlowInternals.edges, keeps.edges, Dict.mem_values_iff]
          exact ⟨edge.id, Dict.get?_set_self _ _ _⟩
        have member := (right.mem_edges_iff linked inpAgrees keeps.inpEdges edge).mp listed
        rw [linked.mem_edges_iff, known] at member
        cases member
      · rename_i after ran
        rw [ran] at keeps
        have edges := keeps.edges
        rw [right.1] at edges
        have found : self.idToEdge.get? edge.id = some edge := by
          rw [edges]
          exact Dict.get?_set_self _ _ _
        rw [known] at found
        cases found

/-- `remove_edge` is right only when it does not know the edge. -/
theorem right_removeEdge_iff
    (linked : self.Linked)
    (inpAgrees : self.InpAgrees)
    {edgeId : String} :
    Right self (removeEdge edgeId) ↔ edgeId ∉ self.idToEdge.keys := by
  rw [Dict.mem_keys_iff]
  cases known : self.idToEdge.get? edgeId with
  | none =>
      simp [Right, run, FlowInternals.removeEdge_unknown known, ChangesNode]
  | some edge =>
      obtain rfl := linked.edgeKeys edgeId edge known
      obtain ⟨after, removed, -, removes⟩ := linked.removeEdge known
      simp only [Option.isSome_some, not_true_eq_false, iff_false]
      intro right
      simp only [Right, run, removed] at right
      have member := (right.mem_edges_iff linked inpAgrees removes.inpEdges edge).mpr
        (linked.mem_edges_iff.mpr known)
      rw [FlowInternals.edges, removes.idToEdge, Dict.mem_values_iff] at member
      obtain ⟨id, found⟩ := member
      rw [Dict.get?_eraseAll] at found
      split at found
      · cases found
      · rename_i other
        exact other (by simpa using (linked.edgeKeys id edge found).symm)

/-- No edge is dropped when every handle with an edge stays. -/
theorem droppedEdges_eq_nil_iff
    {order : GraphM.HandleOrder}
    {handles : Dict (Option String) (List Edge)}
    {newHandles : List String}
    {edges : List Edge}
    {nodeOf : Edge → String}
    {handleOf : Edge → Option String}
    {nodeId : String}
    (agree :
      ∀ handle, ((handles.get? handle).getD []).Perm
        (edges.filter fun edge => nodeOf edge = nodeId ∧ handleOf edge = handle)) :
    GraphM.droppedEdges order handles newHandles = [] ↔
      ∀ edge ∈ edges, nodeOf edge = nodeId → handleOf edge ∈ newHandles.map some := by
  constructor
  · intro none edge member isNode
    by_contra dropped
    have listed : edge ∈ (handles.get? (handleOf edge)).getD [] :=
      (agree (handleOf edge)).mem_iff.mpr (List.mem_filter.mpr ⟨member, by simp [isNode]⟩)
    have isKey : handleOf edge ∈ handles.keys := by
      rw [Dict.mem_keys_iff]
      cases found : handles.get? (handleOf edge) with
      | none =>
          rw [found] at listed
          cases listed
      | some list => rfl
    have isDropped : edge.id ∈ GraphM.droppedEdges order handles newHandles := by
      refine List.mem_flatMap.mpr ⟨handleOf edge, List.mem_filter.mpr ⟨?_, ?_⟩,
        List.mem_map_of_mem listed⟩
      · exact (order.perm handles.keys).mem_iff.mpr isKey
      · simpa using dropped
    rw [none] at isDropped
    cases isDropped
  · intro stays
    refine List.eq_nil_iff_forall_not_mem.mpr fun id isDropped => ?_
    obtain ⟨handle, isHandle, isId⟩ := List.mem_flatMap.mp isDropped
    obtain ⟨edge, listed, -⟩ := List.mem_map.mp isId
    have selected := List.mem_filter.mp ((agree handle).mem_iff.mp listed)
    simp only [decide_eq_true_eq] at selected
    have notNew := (List.mem_filter.mp isHandle).2
    have isNew := stays edge selected.1 selected.2.1
    rw [selected.2.2] at isNew
    simp only [List.contains_eq_mem, isNew, decide_true, Bool.not_true,
      Bool.false_eq_true] at notNew

/-- Removing edges one after the other is never right when it removes any. -/
theorem not_equalsRebuild_of_removes
    (linked : self.Linked)
    (inpAgrees : self.InpAgrees)
    {first : String}
    {rest : List String}
    (ran : (first :: rest).forM GraphM.removeEdge self = .ok () after) :
    ¬ after.EqualsRebuild := by
  intro equals
  obtain ⟨⟨⟩, middle, removed, ranRest⟩ := bind_eq_ok.mp ran
  cases known : self.idToEdge.get? first with
  | none =>
      rw [FlowInternals.removeEdge_unknown known] at removed
      cases removed
  | some edge =>
      obtain rfl := linked.edgeKeys first edge known
      obtain ⟨other, removedFirst, -, removes⟩ := linked.removeEdge known
      rw [removed] at removedFirst
      cases removedFirst
      have later : FlowInternals.Shrinks middle after := by
        have moved := Moves.forM FlowInternals.moves_removeEdge rest middle
        unfold stateAfter at moved
        rwa [ranRest] at moved
      have unchanged : after.nodeIdToInpHandleToEdges = self.nodeIdToInpHandleToEdges :=
        later.inpEdges.trans removes.inpEdges
      have member := (equals.mem_edges_iff linked inpAgrees unchanged edge).mpr
        (linked.mem_edges_iff.mpr known)
      obtain ⟨id, foundAfter⟩ := Dict.mem_values_iff.mp member
      have found := later.edges id edge foundAfter
      rw [removes.idToEdge, Dict.get?_eraseAll] at found
      split at found
      · cases found
      · rename_i other
        exact other (by simpa using (linked.edgeKeys id edge found).symm)

/-- `change_node_handles` of a node removes edges unless every handle with an edge stays. -/
theorem changeNodeHandles_known
    (linked : self.Linked)
    (inpAgrees : self.InpAgrees)
    (order : GraphM.HandleOrder)
    {nodeId : String}
    (newInpHandles newOutHandles : List String)
    (known : nodeId ∈ self.idToNode.keys) :
    ∃ dropped,
      GraphM.changeNodeHandles order nodeId newInpHandles newOutHandles self =
          (dropped.forM GraphM.removeEdge >>= fun _ => pure dropped) self ∧
        (dropped = [] ↔
          (∀ edge ∈ self.edges,
              edge.target = nodeId → edge.targetHandle ∈ newInpHandles.map some) ∧
            ∀ edge ∈ self.edges,
              edge.source = nodeId → edge.sourceHandle ∈ newOutHandles.map some) := by
  have hasInp := inpAgrees nodeId
  rw [if_pos known] at hasInp
  obtain ⟨inpHandles, foundInp, inpPerm⟩ := hasInp
  have hasOut := linked.outEdges nodeId
  rw [if_pos known] at hasOut
  obtain ⟨outHandles, foundOut, outPerm⟩ := hasOut
  refine ⟨GraphM.droppedEdges order inpHandles newInpHandles ++
    GraphM.droppedEdges order outHandles newOutHandles, ?_, ?_⟩
  · rw [GraphM.changeNodeHandles, bind_of_ok (evaluate_of_ok (by rw [getAt, foundInp])),
      bind_of_ok (evaluate_of_ok (by rw [getAt, foundOut]))]
  · rw [List.append_eq_nil_iff]
    exact and_congr (droppedEdges_eq_nil_iff inpPerm) (droppedEdges_eq_nil_iff outPerm)

theorem run_changeNodeHandles_unknown
    (linked : self.Linked)
    (order : GraphM.HandleOrder)
    {nodeId : String}
    (newInpHandles newOutHandles : List String)
    (unknown : nodeId ∉ self.idToNode.keys) :
    (changeNodeHandles order nodeId newInpHandles newOutHandles).run self =
      .error (.keyError nodeId) self := by
  have missing : self.nodeIdToInpHandleToEdges.get? nodeId = none := by
    simpa using mt (linked.inpKeys nodeId).mp unknown
  refine map_of_error ?_
  rw [GraphM.changeNodeHandles, bind_of_error (evaluate_of_error (by rw [getAt, missing]))]

/-- `change_node_handles` is right for a node only when it removes no edge. -/
theorem right_changeNodeHandles_iff
    (linked : self.Linked)
    (inpAgrees : self.InpAgrees)
    {order : GraphM.HandleOrder}
    {nodeId : String}
    {newInpHandles newOutHandles : List String} :
    Right self (changeNodeHandles order nodeId newInpHandles newOutHandles) ↔
      (nodeId ∈ self.idToNode.keys →
        KeepsHandles self nodeId newInpHandles newOutHandles) := by
  by_cases known : nodeId ∈ self.idToNode.keys
  · obtain ⟨dropped, read, stays⟩ :=
      changeNodeHandles_known linked inpAgrees order newInpHandles newOutHandles known
    cases dropped with
    | nil =>
        have keeps := stays.mp rfl
        have ran :
            (changeNodeHandles order nodeId newInpHandles newOutHandles).run self =
              .ok () self :=
          map_of_ok read
        simp only [Right, ran, linked.equalsRebuild_iff, inpAgrees, true_and, known,
          forall_const]
        exact ⟨fun pools => ⟨keeps.1, keeps.2, pools.1, pools.2⟩,
          fun fits => ⟨fits.poolEdge, fits.sameIds⟩⟩
    | cons first rest =>
        refine iff_of_false (fun right => ?_) fun fits => ?_
        · cases ran : (first :: rest).forM GraphM.removeEdge self with
          | ok value after =>
              have finished :
                  (changeNodeHandles order nodeId newInpHandles newOutHandles).run self =
                    .ok () after := by
                rw [bind_of_ok ran] at read
                exact map_of_ok read
              simp only [Right, finished] at right
              exact not_equalsRebuild_of_removes linked inpAgrees ran right
          | error raised after =>
              have failed :
                  (changeNodeHandles order nodeId newInpHandles newOutHandles).run self =
                    .error raised after := by
                rw [bind_of_error ran] at read
                exact map_of_error read
              simp only [Right, failed] at right
              exact right.2 known
        · have keeps := fits known
          have none := stays.mpr ⟨keeps.inpHandles, keeps.outHandles⟩
          cases none
  · have raises :=
      run_changeNodeHandles_unknown linked order newInpHandles newOutHandles known
    simp [Right, raises, ChangesNode, known]

/-- The first loop of `remove_nodes` leaves the edges without an end among the nodes. -/
theorem removesTouched
    (linked : self.Linked)
    (nodeIds : List String) :
    ∃ middle,
      self.edges.forM (GraphM.removeIfTouched nodeIds) self = .ok () middle ∧
        middle.Linked ∧
        self.RemovesEdges middle ((self.edges.filter (GraphM.touches nodeIds)).map Edge.id) ∧
        (∀ edge,
          edge ∈ middle.edges ↔ edge ∈ self.edges ∧ GraphM.touches nodeIds edge = false) ∧
        (removeNodes nodeIds).run self = (nodeIds.forM GraphM.removeNode) middle := by
  obtain ⟨middle, ran, middleLinked, removes⟩ :=
    linked.removeTouched nodeIds linked.wellFormed.edgeIds fun edge isEdge =>
      linked.mem_edges_iff.mp isEdge
  have listed :
      evaluate (fun internals => .ok internals.idToEdge.values) self = .ok self.edges self :=
    rfl
  refine ⟨middle, ran, middleLinked, removes, fun edge => ?_, ?_⟩
  swap
  · rw [run, GraphM.removeNodes, bind_of_ok listed, bind_of_ok ran]
  rw [middleLinked.mem_edges_iff, linked.mem_edges_iff, removes.idToEdge, Dict.get?_eraseAll]
  split
  · rename_i removed
    obtain ⟨other, selected, sameId⟩ := List.mem_map.mp removed
    obtain ⟨isEdge, touched⟩ := List.mem_filter.mp selected
    refine iff_of_false (by simp) ?_
    rintro ⟨found, untouched⟩
    have foundOther := linked.mem_edges_iff.mp isEdge
    rw [sameId, found] at foundOther
    rw [Option.some.inj foundOther, touched] at untouched
    cases untouched
  · rename_i stays
    refine ⟨fun found => ⟨found, ?_⟩, And.left⟩
    by_contra touched
    refine stays (List.mem_map_of_mem (List.mem_filter.mpr ⟨?_, by simpa using touched⟩))
    exact linked.mem_edges_iff.mpr found

theorem mem_keys_iff_isEdgeId
    (linked : self.Linked)
    {name : String} :
    name ∈ self.idToEdge.keys ↔ ∃ edge ∈ self.edges, edge.id = name := by
  rw [← Dict.map_values_eq_keys linked.edgeKeys, List.mem_map]
  rfl

/-- Removing known nodes is right when it leaves no trace. -/
theorem equalsRebuild_removed_iff
    {middle : FlowInternals}
    {nodeIds : List String}
    (linked : self.Linked)
    (inpAgrees : self.InpAgrees)
    (nodup : nodeIds.Nodup)
    (known : ∀ id ∈ nodeIds, id ∈ self.idToNode.keys)
    (removesEdges :
      self.RemovesEdges middle ((self.edges.filter (GraphM.touches nodeIds)).map Edge.id))
    (remaining :
      ∀ edge, edge ∈ middle.edges ↔ edge ∈ self.edges ∧ GraphM.touches nodeIds edge = false)
    (afterLinked : after.Linked)
    (removesNodes : middle.RemovesNodes after nodeIds) :
    after.EqualsRebuild ↔ RemovesCleanly self nodeIds := by
  have afterEdges : ∀ edge,
      edge ∈ after.edges ↔ edge ∈ self.edges ∧ GraphM.touches nodeIds edge = false := by
    intro edge
    rw [FlowInternals.edges, removesNodes.idToEdge]
    exact remaining edge
  have afterInp : ∀ id,
      after.nodeIdToInpHandleToEdges.get? id =
        if id ∈ nodeIds then none else self.nodeIdToInpHandleToEdges.get? id := by
    intro id
    rw [removesNodes.inpEdges, Dict.get?_eraseAll, removesEdges.inpEdges]
  have afterNodes : ∀ id,
      id ∈ after.idToNode.keys ↔ id ∈ self.idToNode.keys ∧ id ∉ nodeIds := by
    intro id
    rw [removesNodes.idToNode, removesEdges.idToNode, Dict.mem_keys_eraseAll, and_comm]
  have afterPool : ∀ name,
      name ∈ after.uniqueNamePoolEdge ↔
        name ∈ self.uniqueNamePoolEdge ∧ ¬ IsEdgeId self (GraphM.touches nodeIds) name := by
    intro name
    rw [removesNodes.poolEdge, removesEdges.poolEdge, and_comm, IsEdgeId, List.mem_map]
    simp only [List.mem_filter, and_assoc]
  have afterKeys : ∀ name,
      name ∈ after.idToEdge.keys ↔
        IsEdgeId self (fun edge => !GraphM.touches nodeIds edge) name := by
    intro name
    rw [mem_keys_iff_isEdgeId afterLinked, IsEdgeId]
    refine exists_congr fun edge => ?_
    rw [afterEdges, Bool.not_eq_true', and_assoc]
  have targets :
      after.InpAgrees ↔
        ∀ edge ∈ self.edges, GraphM.touches nodeIds edge = true → edge.target ∈ nodeIds := by
    constructor
    · intro agrees edge isEdge touched
      by_contra stays
      have listed : self.AtInputHandle edge :=
        (FlowInternals.atInputHandle_iff inpAgrees
          (fun other member => (linked.ends other member).2) edge).mpr isEdge
      have stillListed : after.AtInputHandle edge := by
        obtain ⟨handles, found, atHandle⟩ := listed
        refine ⟨handles, ?_, atHandle⟩
        rw [afterInp, if_neg stays, found]
      have isAfter := (FlowInternals.atInputHandle_iff agrees
        (fun other member => (afterLinked.ends other member).2) edge).mp stillListed
      rw [afterEdges, touched] at isAfter
      cases isAfter.2
    · intro enters id
      rw [afterInp]
      have before := inpAgrees id
      split
      · rename_i isAfter
        obtain ⟨isBefore, stays⟩ := (afterNodes id).mp isAfter
        rw [if_pos isBefore] at before
        obtain ⟨handles, found, perm⟩ := before
        rw [if_neg stays]
        refine ⟨handles, found, fun handle => (perm handle).trans ?_⟩
        refine (List.perm_ext_iff_of_nodup (linked.nodup_edges.filter _)
          (afterLinked.nodup_edges.filter _)).mpr fun edge => ?_
        rw [List.mem_filter, List.mem_filter, afterEdges, and_assoc]
        refine and_congr_right fun isEdge => (and_iff_right_of_imp ?_).symm
        intro selected
        by_contra touched
        have isTarget := enters edge isEdge (by simpa using touched)
        simp only [decide_eq_true_eq] at selected
        exact stays (selected.1 ▸ isTarget)
      · rename_i notAfter
        split
        · rfl
        · rename_i stays
          rwa [if_neg fun isBefore => notAfter ((afterNodes id).mpr ⟨isBefore, stays⟩)] at before
  rw [afterLinked.equalsRebuild_iff, targets]
  simp only [afterPool, afterKeys, afterNodes]
  constructor
  · rintro ⟨enters, poolEdge, sameIds⟩
    exact ⟨nodup, known, enters, poolEdge, sameIds⟩
  · intro clean
    exact ⟨clean.targets, clean.poolEdge, clean.sameIds⟩

/-- A `remove_nodes` that raises has changed nothing only where it had nothing to do before. -/
theorem unchanged_iff_removesNothing
    {middle : FlowInternals}
    {nodeIds : List String}
    {raised : PyError}
    (middleLinked : middle.Linked)
    (ranEdges : self.edges.forM (GraphM.removeIfTouched nodeIds) self = .ok () middle)
    (middleNodes : middle.idToNode = self.idToNode)
    (remaining :
      ∀ edge, edge ∈ middle.edges ↔ edge ∈ self.edges ∧ GraphM.touches nodeIds edge = false)
    (notAllKnown : ¬ (nodeIds.Nodup ∧ ∀ id ∈ nodeIds, id ∈ self.idToNode.keys))
    (ran : nodeIds.forM GraphM.removeNode middle = .error raised after) :
    after = self ↔ RemovesNothing self nodeIds := by
  have losesRest :
      ∀ {start : FlowInternals} {rest : List String},
        rest.forM GraphM.removeNode start = .error raised after →
        FlowInternals.LosesNodes start after := by
    intro start rest failed
    have moved := Moves.forM FlowInternals.moves_removeNode rest start
    unfold stateAfter at moved
    rwa [failed] at moved
  cases nodeIds with
  | nil => simp at notAllKnown
  | cons first rest =>
      constructor
      · rintro rfl
        refine ⟨fun edge isEdge => ?_, first, rest, rfl, fun known => ?_⟩
        · rw [FlowInternals.edges, (losesRest ran).edges] at isEdge
          exact ((remaining edge).mp isEdge).2
        · obtain ⟨next, removed, -, removesFirst⟩ :=
            middleLinked.removeNode (middleNodes ▸ known) fun edge isEdge =>
              (FlowInternals.touches_cons ((remaining edge).mp isEdge).2).1
          have failed : rest.forM GraphM.removeNode next = .error raised after := by
            have whole :
                (GraphM.removeNode first >>= fun _ => List.forM rest GraphM.removeNode) middle =
                  .error raised after :=
              ran
            rwa [bind_of_ok removed] at whole
          have gone : next.idToNode.get? first = none := by
            rw [removesFirst.idToNode, Dict.get?_eraseAll]
            simp
          have stillGone := (losesRest failed).nodes first gone
          rw [Dict.mem_keys_iff, stillGone] at known
          cases known
      · rintro ⟨untouched, other, others, same, unknown⟩
        cases same
        rw [FlowInternals.forM_removeIfTouched_of_none untouched] at ranEdges
        cases ranEdges
        have whole :
            (GraphM.removeNode first >>= fun _ => List.forM rest GraphM.removeNode) self =
              .error raised after :=
          ran
        rw [bind_of_error (FlowInternals.removeNode_unknown unknown)] at whole
        cases whole
        rfl

/-- `remove_nodes` is right only when it leaves no trace or does nothing. -/
theorem right_removeNodes_iff
    (linked : self.Linked)
    (inpAgrees : self.InpAgrees)
    {nodeIds : List String} :
    Right self (removeNodes nodeIds) ↔
      RemovesCleanly self nodeIds ∨ RemovesNothing self nodeIds := by
  obtain ⟨middle, ranEdges, middleLinked, removesEdges, remaining, ran⟩ :=
    removesTouched linked nodeIds
  have free : ∀ edge ∈ middle.edges, GraphM.touches nodeIds edge = false :=
    fun edge isEdge => ((remaining edge).mp isEdge).2
  have middleNodes : middle.idToNode = self.idToNode := removesEdges.idToNode
  by_cases allKnown : nodeIds.Nodup ∧ ∀ id ∈ nodeIds, id ∈ self.idToNode.keys
  · obtain ⟨after, ranNodes, afterLinked, removesNodes⟩ :=
      middleLinked.removeNodes allKnown.1 (by rw [middleNodes]; exact allKnown.2) free
    rw [ranNodes] at ran
    have noFailure : ¬ RemovesNothing self nodeIds := by
      rintro ⟨-, first, rest, rfl, unknown⟩
      exact unknown (allKnown.2 first List.mem_cons_self)
    simp only [Right, ran, noFailure, or_false]
    exact equalsRebuild_removed_iff linked inpAgrees allKnown.1 allKnown.2 removesEdges
      remaining afterLinked removesNodes
  · have notClean : ¬ RemovesCleanly self nodeIds := fun clean =>
      allKnown ⟨clean.nodup, clean.known⟩
    rw [or_iff_right notClean]
    cases finished : nodeIds.forM GraphM.removeNode middle with
    | ok value after =>
        have parts := middleLinked.nodup_of_removeNodes free finished
        rw [middleNodes] at parts
        exact absurd parts allKnown
    | error raised after =>
        rw [finished] at ran
        simp only [Right, ran, ChangesNode, not_false_eq_true, and_true]
        exact unchanged_iff_removesNothing middleLinked ranEdges middleNodes remaining allKnown
          finished

theorem right_iff_fits
    (linked : self.Linked)
    (inpAgrees : self.InpAgrees)
    (call : GraphCall) :
    call.Right self ↔ call.Fits self := by
  cases call with
  | addEdge edge => exact right_addEdge_iff linked inpAgrees
  | removeEdge edgeId => exact right_removeEdge_iff linked inpAgrees
  | removeNodes nodeIds => exact right_removeNodes_iff linked inpAgrees
  | changeNodeHandles order nodeId newInpHandles newOutHandles =>
      exact right_changeNodeHandles_iff linked inpAgrees

/-- A fitting call that succeeds leaves linked internals. -/
theorem linked_of_fits
    (linked : self.Linked)
    (inpAgrees : self.InpAgrees)
    {call : GraphCall}
    (fits : call.Fits self)
    (ran : call.run self = .ok () after) :
    after.Linked := by
  cases call with
  | addEdge edge =>
      rw [run, addEdge_known fits] at ran
      cases ran
  | removeEdge edgeId =>
      have unknown : self.idToEdge.get? edgeId = none := by
        simpa [Fits, Dict.mem_keys_iff] using fits
      rw [run, FlowInternals.removeEdge_unknown unknown] at ran
      cases ran
  | removeNodes nodeIds =>
      obtain ⟨middle, -, middleLinked, -, remaining, ranNodes⟩ := removesTouched linked nodeIds
      have free : ∀ edge ∈ middle.edges, GraphM.touches nodeIds edge = false :=
        fun edge isEdge => ((remaining edge).mp isEdge).2
      rw [ranNodes] at ran
      obtain ⟨nodup, known⟩ := middleLinked.nodup_of_removeNodes free ran
      obtain ⟨other, again, otherLinked, -⟩ := middleLinked.removeNodes nodup known free
      rw [ran] at again
      cases again
      exact otherLinked
  | changeNodeHandles order nodeId newInpHandles newOutHandles =>
      by_cases known : nodeId ∈ self.idToNode.keys
      · obtain ⟨dropped, read, stays⟩ :=
          changeNodeHandles_known linked inpAgrees order newInpHandles newOutHandles known
        have keeps := fits known
        obtain rfl := stays.mpr ⟨keeps.inpHandles, keeps.outHandles⟩
        rw [run, map_of_ok read] at ran
        cases ran
        exact linked
      · rw [run_changeNodeHandles_unknown linked order newInpHandles newOutHandles known] at ran
        cases ran

/-- The state after a call. -/
def step (self : FlowInternals) (call : GraphCall) : Option FlowInternals :=
  some (stateAfter call.run self)

/-- A fitting call keeps the internals linked with all four indices in agreement. -/
theorem keeps_of_fits
    (before : FlowInternals)
    (call : GraphCall)
    (after : FlowInternals)
    (holds : before.Linked ∧ before.InpAgrees)
    (fits : call.Fits before)
    (stepped : step before call = some after) :
    after.Linked ∧ after.InpAgrees := by
  have right := (right_iff_fits holds.1 holds.2 call).mpr fits
  simp only [step, Option.some.injEq, stateAfter] at stepped
  unfold Right at right
  split at right
  · rename_i reached ran
    rw [ran] at stepped
    obtain rfl : reached = after := stepped
    have linked := linked_of_fits holds.1 holds.2 fits ran
    exact ⟨linked, (linked.equalsRebuild_iff.mp right).1⟩
  · rename_i raised reached ran
    rw [ran] at stepped
    obtain rfl : reached = after := stepped
    rw [right.1]
    exact holds

/--
After any sequence of fitting calls on internals that `set_from_nodes_edges`
built, the next call is right if and only if it fits.
-/
theorem right_iff_fits_of_run
    {nodes : List Node}
    {edges : List Edge}
    {start : FlowInternals}
    {calls : List GraphCall}
    (built : FlowInternals.setFromNodesEdges nodes edges = .ok start)
    (run : Transition.Run step (fun state call => call.Fits state) start calls self)
    (call : GraphCall) :
    call.Right self ↔ call.Fits self := by
  have holds : self.Linked ∧ self.InpAgrees :=
    @Transition.Run.invariant _ _ _ _ _ _ _ (fun state => state.Linked ∧ state.InpAgrees)
      (FlowInternals.linked_of_setFromNodesEdges built) keeps_of_fits run
  exact right_iff_fits holds.1 holds.2 call

/-- Two nodes without edges. -/
def twoNodes : List Node := [
  { id := "load", component := none, props := "" },
  { id := "show", component := none, props := "" }]

/-- An edge between them. -/
def loadToShow : Edge where
  id := "load-show"
  source := "load"
  target := "show"
  sourceHandle := some "out"
  targetHandle := some "inp"
  props := ""

/-- After a refused removal the next edit of a graph with one edge is judged. -/
theorem right_iff_fits_of_run_sample :
    ∃ start self,
      FlowInternals.setFromNodesEdges twoNodes [loadToShow] = .ok start ∧
        Transition.Run step (fun state call => call.Fits state) start
          [removeEdge "show-load"] self ∧
        ((removeEdge "load-show").Right self ↔ (removeEdge "load-show").Fits self) := by
  obtain ⟨start, built⟩ :
      ∃ start, FlowInternals.setFromNodesEdges twoNodes [loadToShow] = .ok start :=
    ⟨_, rfl⟩
  have fits : (removeEdge "show-load").Fits start := by
    cases built
    change "show-load" ∉ (FlowInternals.unindexed twoNodes [loadToShow]).idToEdge.keys
    decide
  have run :
      Transition.Run step (fun state call => call.Fits state) start [removeEdge "show-load"]
        (stateAfter (removeEdge "show-load").run start) :=
    @Transition.Run.next _ _ _ _ _ [] _ _ _ .start fits rfl
  exact ⟨start, _, built, run, right_iff_fits_of_run built run _⟩

/-- The first edge that is added is missing from the index over the input handles. -/
theorem not_right_addEdge :
    ∃ start,
      FlowInternals.setFromNodesEdges twoNodes [] = .ok start ∧
        ¬ (addEdge loadToShow).Right start := by
  obtain ⟨start, built⟩ :
      ∃ start, FlowInternals.setFromNodesEdges twoNodes [] = .ok start :=
    ⟨_, rfl⟩
  refine ⟨start, built, fun right => ?_⟩
  obtain ⟨linked, inpAgrees⟩ := FlowInternals.linked_of_setFromNodesEdges built
  have known := (right_addEdge_iff linked inpAgrees).mp right
  cases built
  revert known
  decide

end GraphCall

end TensorPC.Flowui
