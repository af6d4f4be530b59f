import TensorPC.Flowui.GraphEdits

namespace TensorPC.Flowui

/-!
# What one edit does to the indices

Removing an edge that is in the graph always succeeds and keeps three of the
four indices in agreement with the remaining edges; so does removing a node
without edges.  The index over the input handles is left alone, except that a
removed node takes its own entry with it.
-/

open Computation

section Removal

variable {α : Type} {ids : List String} {edges : List Edge} {edge : Edge}

theorem perm_filter_erase_of_pos
    {test : Edge → Bool}
    (member : edge ∈ edges)
    (selected : test edge = true) :
    (edges.filter test).Perm (edge :: (edges.erase edge).filter test) := by
  have split := (List.perm_cons_erase member).filter test
  rwa [List.filter_cons_of_pos selected] at split

theorem perm_filter_erase_of_neg
    {test : Edge → Bool}
    (member : edge ∈ edges)
    (rejected : ¬ test edge = true) :
    (edges.filter test).Perm ((edges.erase edge).filter test) := by
  have split := (List.perm_cons_erase member).filter test
  rwa [List.filter_cons_of_neg rejected] at split

/-- The entry of an edge is removed from the list of its node. -/
theorem removeAt_listsAgree
    [DecidableEq α]
    {dict : Dict String (List α)}
    {nodeOf : Edge → String}
    {entryOf : Edge → α}
    (agree : ListsAgree dict ids nodeOf entryOf edges)
    (member : edge ∈ edges)
    (known : nodeOf edge ∈ ids) :
    ∃ result,
      removeAt dict (nodeOf edge) (entryOf edge) = .ok result ∧
        ListsAgree result ids nodeOf entryOf (edges.erase edge) := by
  have atNode := agree (nodeOf edge)
  rw [if_pos known] at atNode
  obtain ⟨list, found, perm⟩ := atNode
  have split :
      list.Perm (entryOf edge ::
        ((edges.erase edge).filter fun other => nodeOf other = nodeOf edge).map entryOf) :=
    perm.trans ((perm_filter_erase_of_pos member (by simp)).map entryOf)
  have listed : entryOf edge ∈ list := split.mem_iff.mpr List.mem_cons_self
  refine ⟨dict.set (nodeOf edge) (list.erase (entryOf edge)), ?_, fun id => ?_⟩
  · simp [removeAt, found, removeItem, listed, bind, Except.bind]
  · rw [Dict.get?_set]
    by_cases same : id = nodeOf edge
    · subst same
      rw [if_pos known, if_pos rfl]
      refine ⟨_, rfl, ?_⟩
      have erased := split.erase (entryOf edge)
      rwa [List.erase_cons_head] at erased
    · rw [if_neg same]
      have before := agree id
      split
      · rename_i isKnown
        rw [if_pos isKnown] at before
        obtain ⟨others, foundOthers, permOthers⟩ := before
        refine ⟨others, foundOthers, permOthers.trans ?_⟩
        exact (perm_filter_erase_of_neg member (by simpa using Ne.symm same)).map entryOf
      · rename_i unknown
        rwa [if_neg unknown] at before

/-- An edge is removed from the list of its handle. -/
theorem removeAtHandle_handlesAgree
    {dict : HandleEdges}
    {nodeOf : Edge → String}
    {handleOf : Edge → Option String}
    (agree : HandlesAgree dict ids nodeOf handleOf edges)
    (member : edge ∈ edges)
    (known : nodeOf edge ∈ ids) :
    ∃ result,
      removeAtHandle dict (nodeOf edge) (handleOf edge) edge = .ok result ∧
        HandlesAgree result ids nodeOf handleOf (edges.erase edge) := by
  have atNode := agree (nodeOf edge)
  rw [if_pos known] at atNode
  obtain ⟨handles, found, perm⟩ := atNode
  have split := (perm (handleOf edge)).trans
    (perm_filter_erase_of_pos member (by simp))
  have listed : edge ∈ (handles.get? (handleOf edge)).getD [] :=
    split.mem_iff.mpr List.mem_cons_self
  obtain ⟨list, foundList⟩ : ∃ list, handles.get? (handleOf edge) = some list := by
    cases isFound : handles.get? (handleOf edge) with
    | none =>
        rw [isFound] at listed
        cases listed
    | some list => exact ⟨list, rfl⟩
  rw [foundList] at split listed
  refine ⟨dict.set (nodeOf edge) (handles.set (handleOf edge) (list.erase edge)), ?_,
    fun id => ?_⟩
  · simp only [Option.getD_some] at listed
    simp [removeAtHandle, found, foundList, removeItem, listed, bind, Except.bind]
  · rw [Dict.get?_set]
    by_cases same : id = nodeOf edge
    · subst same
      rw [if_pos known, if_pos rfl]
      refine ⟨_, rfl, fun handle => ?_⟩
      rw [Dict.get?_set]
      by_cases sameHandle : handle = handleOf edge
      · subst sameHandle
        rw [if_pos rfl]
        have erased := split.erase edge
        rwa [List.erase_cons_head] at erased
      · rw [if_neg sameHandle]
        refine (perm handle).trans (perm_filter_erase_of_neg member ?_)
        simpa using Ne.symm sameHandle
    · rw [if_neg same]
      have before := agree id
      split
      · rename_i isKnown
        rw [if_pos isKnown] at before
        obtain ⟨others, foundOthers, permOthers⟩ := before
        refine ⟨others, foundOthers, fun handle => (permOthers handle).trans ?_⟩
        refine perm_filter_erase_of_neg member ?_
        simpa using fun isNode => absurd isNode.symm same
      · rename_i unknown
        rwa [if_neg unknown] at before

end Removal

theorem statement_of_ok
    {change : FlowInternals → PyResult FlowInternals}
    {self after : FlowInternals}
    (changed : change self = .ok after) :
    statement change self = .ok () after := by
  simp [statement, changed]

theorem evaluate_of_ok
    {expression : FlowInternals → PyResult α}
    {self : FlowInternals}
    {value : α}
    (evaluated : expression self = .ok value) :
    evaluate expression self = .ok value self := by
  simp [evaluate, evaluated]

theorem evaluate_of_error
    {expression : FlowInternals → PyResult α}
    {self : FlowInternals}
    {raised : PyError}
    (evaluated : expression self = .error raised) :
    evaluate expression self = .error raised self := by
  simp [evaluate, evaluated]

namespace FlowInternals

variable {self after : FlowInternals}

/-- What removing edges does apart from three of the indices. -/
structure RemovesEdges
    (internals after : FlowInternals)
    (removed : List String) : Prop where
  idToNode : after.idToNode = internals.idToNode
  idToEdge : after.idToEdge = internals.idToEdge.eraseAll removed
  inpEdges : after.nodeIdToInpHandleToEdges = internals.nodeIdToInpHandleToEdges
  poolNode : after.uniqueNamePoolNode = internals.uniqueNamePoolNode
  poolEdge :
    ∀ name, name ∈ after.uniqueNamePoolEdge ↔
      name ∉ removed ∧ name ∈ internals.uniqueNamePoolEdge

theorem RemovesEdges.trans
    {middle : FlowInternals}
    {first second : List String}
    (earlier : self.RemovesEdges middle first)
    (later : middle.RemovesEdges after second) :
    self.RemovesEdges after (first ++ second) where
  idToNode := later.idToNode.trans earlier.idToNode
  idToEdge := by
    rw [later.idToEdge, earlier.idToEdge, Dict.eraseAll, Dict.eraseAll, Dict.eraseAll,
      List.foldl_append]
  inpEdges := later.inpEdges.trans earlier.inpEdges
  poolNode := later.poolNode.trans earlier.poolNode
  poolEdge name := by
    rw [later.poolEdge, earlier.poolEdge, List.mem_append]
    tauto

theorem RemovesEdges.refl (self : FlowInternals) :
    self.RemovesEdges self [] where
  idToNode := rfl
  idToEdge := rfl
  inpEdges := rfl
  poolNode := rfl
  poolEdge name := by simp

theorem Linked.mem_edges_iff
    (linked : self.Linked)
    {edge : Edge} :
    edge ∈ self.edges ↔ self.idToEdge.get? edge.id = some edge :=
  mem_values_iff_get? linked.edgeKeys

theorem Linked.nodup_edges
    (linked : self.Linked) :
    self.edges.Nodup :=
  List.Nodup.of_map Edge.id linked.wellFormed.edgeIds

/-- The edges after one of them has left the dictionary. -/
theorem Linked.perm_edges_erase
    (linked : self.Linked)
    {edge : Edge}
    (found : self.idToEdge.get? edge.id = some edge) :
    (self.idToEdge.erase edge.id).values.Perm (self.edges.erase edge) := by
  have keyed : ∀ id other, (self.idToEdge.erase edge.id).get? id = some other → other.id = id := by
    intro id other isFound
    rw [Dict.get?_erase] at isFound
    split at isFound
    · cases isFound
    · exact linked.edgeKeys id other isFound
  have nodup : (self.idToEdge.erase edge.id).values.Nodup := by
    refine List.Nodup.of_map Edge.id ?_
    rw [Dict.map_values_eq_keys keyed]
    exact Dict.nodup_keys _
  refine (List.perm_ext_iff_of_nodup nodup (linked.nodup_edges.erase edge)).mpr fun other => ?_
  rw [mem_values_iff_get? keyed, linked.nodup_edges.mem_erase_iff, linked.mem_edges_iff,
    Dict.get?_erase]
  by_cases same : other.id = edge.id
  · rw [if_pos same]
    refine iff_of_false (by simp) ?_
    rintro ⟨different, isFound⟩
    rw [same, found] at isFound
    exact different (Option.some.inj isFound).symm
  · rw [if_neg same]
    exact ⟨fun isFound => ⟨fun equal => same (by rw [equal]), isFound⟩, And.right⟩

theorem listsAgree_of_perm
    {α : Type}
    {dict : Dict String (List α)}
    {ids : List String}
    {nodeOf : Edge → String}
    {entryOf : Edge → α}
    {edges others : List Edge}
    (agree : ListsAgree dict ids nodeOf entryOf edges)
    (perm : edges.Perm others) :
    ListsAgree dict ids nodeOf entryOf others := by
  intro id
  have before := agree id
  split
  · rename_i known
    rw [if_pos known] at before
    obtain ⟨list, found, same⟩ := before
    exact ⟨list, found, same.trans ((perm.filter _).map _)⟩
  · rename_i unknown
    rwa [if_neg unknown] at before

theorem handlesAgree_of_perm
    {dict : HandleEdges}
    {ids : List String}
    {nodeOf : Edge → String}
    {handleOf : Edge → Option String}
    {edges others : List Edge}
    (agree : HandlesAgree dict ids nodeOf handleOf edges)
    (perm : edges.Perm others) :
    HandlesAgree dict ids nodeOf handleOf others := by
  intro id
  have before := agree id
  split
  · rename_i known
    rw [if_pos known] at before
    obtain ⟨handles, found, same⟩ := before
    exact ⟨handles, found, fun handle => (same handle).trans (perm.filter _)⟩
  · rename_i unknown
    rwa [if_neg unknown] at before

/-- `remove_edge` of a known edge succeeds and keeps the internals linked. -/
theorem Linked.removeEdge
    (linked : self.Linked)
    {edge : Edge}
    (found : self.idToEdge.get? edge.id = some edge) :
    ∃ after,
      GraphM.removeEdge edge.id self = .ok () after ∧
        after.Linked ∧ self.RemovesEdges after [edge.id] := by
  have member := linked.mem_edges_iff.mpr found
  obtain ⟨source, target⟩ := linked.ends edge member
  obtain ⟨targets, madeTargets, targetsAgree⟩ :=
    removeAt_listsAgree linked.targets member source
  obtain ⟨sources, madeSources, sourcesAgree⟩ :=
    removeAt_listsAgree linked.sources member target
  obtain ⟨outEdges, madeOut, outAgree⟩ :=
    removeAtHandle_handlesAgree linked.outEdges member source
  have perm := (linked.perm_edges_erase found).symm
  refine ⟨{ self with
    idToEdge := self.idToEdge.erase edge.id
    nodeIdToTargets := targets
    nodeIdToSources := sources
    nodeIdToOutHandleToEdges := outEdges
    uniqueNamePoolEdge := self.uniqueNamePoolEdge.discard edge.id }, ?_,
    ⟨linked.nodeKeys, fun id other isFound => ?_, fun other isEdge => ?_,
      listsAgree_of_perm targetsAgree perm, listsAgree_of_perm sourcesAgree perm,
      handlesAgree_of_perm outAgree perm, linked.inpKeys, linked.poolNode⟩,
    ⟨rfl, rfl, rfl, rfl, fun name => ?_⟩⟩
  · rw [GraphM.removeEdge, bind_of_ok (evaluate_of_ok (by rw [getAt, found]))]
    rw [bind_of_ok (statement_of_ok (by simp only [popAt, found]; rfl))]
    rw [bind_of_ok (statement_of_ok (by simp only [madeTargets]; rfl))]
    rw [bind_of_ok (statement_of_ok (by simp only [madeSources]; rfl))]
    rw [bind_of_ok (statement_of_ok (by simp only [madeOut]; rfl))]
    rfl
  · change (self.idToEdge.erase edge.id).get? id = some other at isFound
    rw [Dict.get?_erase] at isFound
    split at isFound
    · cases isFound
    · exact linked.edgeKeys id other isFound
  · exact linked.ends other (List.mem_of_mem_erase (perm.mem_iff.mpr isEdge))
  · change name ∈ self.uniqueNamePoolEdge.discard edge.id ↔ _
    rw [PySet.mem_discard, List.mem_singleton]

theorem removeEdge_unknown
    {edgeId : String}
    (unknown : self.idToEdge.get? edgeId = none) :
    GraphM.removeEdge edgeId self = .error (.keyError edgeId) self := by
  rw [GraphM.removeEdge, bind_of_error (evaluate_of_error (by rw [getAt, unknown]))]

/-- The first loop of `remove_nodes` removes the edges with an end among the nodes. -/
theorem Linked.removeTouched
    (linked : self.Linked)
    (nodeIds : List String)
    {more : List Edge}
    (nodup : (more.map Edge.id).Nodup)
    (found : ∀ edge ∈ more, self.idToEdge.get? edge.id = some edge) :
    ∃ after,
      more.forM (GraphM.removeIfTouched nodeIds) self = .ok () after ∧
        after.Linked ∧
        self.RemovesEdges after ((more.filter (GraphM.touches nodeIds)).map Edge.id) := by
  induction more generalizing self with
  | nil =>
      exact ⟨self, rfl, linked, .refl self⟩
  | cons edge rest inductionHypothesis =>
      rw [List.map_cons, List.nodup_cons] at nodup
      cases touched : GraphM.touches nodeIds edge with
      | false =>
          obtain ⟨after, ran, afterLinked, removes⟩ := inductionHypothesis linked nodup.2
            fun other member => found other (List.mem_cons_of_mem _ member)
          refine ⟨after, ?_, afterLinked, ?_⟩
          · change (GraphM.removeIfTouched nodeIds edge >>= fun _ =>
              List.forM rest (GraphM.removeIfTouched nodeIds)) self = _
            rw [GraphM.removeIfTouched, touched]
            exact ran
          · rwa [List.filter_cons_of_neg (by simp [touched])]
      | true =>
          obtain ⟨middle, removed, middleLinked, removesFirst⟩ :=
            linked.removeEdge (found edge List.mem_cons_self)
          have foundRest : ∀ other ∈ rest, middle.idToEdge.get? other.id = some other := by
            intro other member
            have different : other.id ≠ edge.id := by
              intro same
              exact nodup.1 (List.mem_map.mpr ⟨other, member, same⟩)
            rw [removesFirst.idToEdge, Dict.get?_eraseAll, if_neg (by simpa using different)]
            exact found other (List.mem_cons_of_mem _ member)
          obtain ⟨after, ran, afterLinked, removesRest⟩ :=
            inductionHypothesis middleLinked nodup.2 foundRest
          refine ⟨after, ?_, afterLinked, ?_⟩
          · change (GraphM.removeIfTouched nodeIds edge >>= fun _ =>
              List.forM rest (GraphM.removeIfTouched nodeIds)) self = _
            rw [GraphM.removeIfTouched, touched, if_pos rfl, bind_of_ok removed]
            exact ran
          · rw [List.filter_cons_of_pos touched]
            exact removesFirst.trans removesRest

theorem forM_removeIfTouched_of_none
    {nodeIds : List String}
    {more : List Edge}
    (untouched : ∀ edge ∈ more, GraphM.touches nodeIds edge = false) :
    more.forM (GraphM.removeIfTouched nodeIds) self = .ok () self := by
  induction more with
  | nil => rfl
  | cons edge rest inductionHypothesis =>
      change (GraphM.removeIfTouched nodeIds edge >>= fun _ =>
        List.forM rest (GraphM.removeIfTouched nodeIds)) self = _
      rw [GraphM.removeIfTouched, untouched edge List.mem_cons_self]
      exact inductionHypothesis fun other member => untouched other (List.mem_cons_of_mem _ member)

/-- What removing nodes does apart from three of the indices. -/
structure RemovesNodes
    (internals after : FlowInternals)
    (removed : List String) : Prop where
  idToNode : after.idToNode = internals.idToNode.eraseAll removed
  idToEdge : after.idToEdge = internals.idToEdge
  inpEdges :
    after.nodeIdToInpHandleToEdges = internals.nodeIdToInpHandleToEdges.eraseAll removed
  poolEdge : after.uniqueNamePoolEdge = internals.uniqueNamePoolEdge

theorem listsAgree_erase
    {α : Type}
    {dict : Dict String (List α)}
    {nodes : Dict String Node}
    {nodeOf : Edge → String}
    {entryOf : Edge → α}
    {edges : List Edge}
    (agree : ListsAgree dict nodes.keys nodeOf entryOf edges)
    (nodeId : String) :
    ListsAgree (dict.erase nodeId) (nodes.erase nodeId).keys nodeOf entryOf edges := by
  intro id
  have before := agree id
  simp only [Dict.mem_keys_erase, Dict.get?_erase]
  by_cases same : id = nodeId
  · simp [same]
  · simpa [same] using before

theorem handlesAgree_erase
    {dict : HandleEdges}
    {nodes : Dict String Node}
    {nodeOf : Edge → String}
    {handleOf : Edge → Option String}
    {edges : List Edge}
    (agree : HandlesAgree dict nodes.keys nodeOf handleOf edges)
    (nodeId : String) :
    HandlesAgree (dict.erase nodeId) (nodes.erase nodeId).keys nodeOf handleOf edges := by
  intro id
  have before := agree id
  simp only [Dict.mem_keys_erase, Dict.get?_erase]
  by_cases same : id = nodeId
  · simp [same]
  · simpa [same] using before

/-- The pops of a node without edges succeed and keep the internals linked. -/
theorem Linked.removeNode
    (linked : self.Linked)
    {nodeId : String}
    (known : nodeId ∈ self.idToNode.keys)
    (free : ∀ edge ∈ self.edges, edge.source ≠ nodeId ∧ edge.target ≠ nodeId) :
    ∃ after,
      GraphM.removeNode nodeId self = .ok () after ∧
        after.Linked ∧ self.RemovesNodes after [nodeId] := by
  obtain ⟨node, isNode⟩ := Option.isSome_iff_exists.mp (Dict.mem_keys_iff.mp known)
  have hasTargets := linked.targets nodeId
  rw [if_pos known] at hasTargets
  obtain ⟨targets, isTargets, -⟩ := hasTargets
  have hasSources := linked.sources nodeId
  rw [if_pos known] at hasSources
  obtain ⟨sources, isSources, -⟩ := hasSources
  have hasOut := linked.outEdges nodeId
  rw [if_pos known] at hasOut
  obtain ⟨outHandles, isOut, -⟩ := hasOut
  obtain ⟨inpHandles, isInp⟩ := Option.isSome_iff_exists.mp ((linked.inpKeys nodeId).mpr known)
  refine ⟨{ self with
    idToNode := self.idToNode.erase nodeId
    nodeIdToTargets := self.nodeIdToTargets.erase nodeId
    nodeIdToSources := self.nodeIdToSources.erase nodeId
    nodeIdToInpHandleToEdges := self.nodeIdToInpHandleToEdges.erase nodeId
    nodeIdToOutHandleToEdges := self.nodeIdToOutHandleToEdges.erase nodeId
    uniqueNamePoolNode := self.uniqueNamePoolNode.discard nodeId }, ?_,
    ⟨fun id other isFound => ?_, linked.edgeKeys, fun edge isEdge => ?_,
      listsAgree_erase linked.targets nodeId, listsAgree_erase linked.sources nodeId,
      handlesAgree_erase linked.outEdges nodeId, fun id => ?_, fun name => ?_⟩,
    ⟨rfl, rfl, rfl, rfl⟩⟩
  · rw [GraphM.removeNode, bind_of_ok (statement_of_ok (by simp only [popAt, isNode]; rfl))]
    rw [bind_of_ok (statement_of_ok (by simp only [popAt, isTargets]; rfl))]
    rw [bind_of_ok (statement_of_ok (by simp only [popAt, isSources]; rfl))]
    rw [bind_of_ok (statement_of_ok (by simp only [popAt, isInp]; rfl))]
    rw [bind_of_ok (statement_of_ok (by simp only [popAt, isOut]; rfl))]
    rfl
  · change (self.idToNode.erase nodeId).get? id = some other at isFound
    rw [Dict.get?_erase] at isFound
    split at isFound
    · cases isFound
    · exact linked.nodeKeys id other isFound
  · have ends := linked.ends edge isEdge
    have others := free edge isEdge
    exact ⟨Dict.mem_keys_erase.mpr ⟨others.1, ends.1⟩,
      Dict.mem_keys_erase.mpr ⟨others.2, ends.2⟩⟩
  · change ((self.nodeIdToInpHandleToEdges.erase nodeId).get? id).isSome = true ↔
      id ∈ (self.idToNode.erase nodeId).keys
    rw [Dict.get?_erase, Dict.mem_keys_erase, ← linked.inpKeys]
    by_cases same : id = nodeId <;> simp [same]
  · change name ∈ self.uniqueNamePoolNode.discard nodeId ↔
      name ∈ (self.idToNode.erase nodeId).keys
    rw [PySet.mem_discard, Dict.mem_keys_erase, linked.poolNode]

theorem removeNode_unknown
    {nodeId : String}
    (unknown : nodeId ∉ self.idToNode.keys) :
    GraphM.removeNode nodeId self = .error (.keyError nodeId) self := by
  have missing : self.idToNode.get? nodeId = none := by
    rw [Dict.mem_keys_iff] at unknown
    simpa using unknown
  have raises :
      statement (fun internals => do
        let nodes ← popAt internals.idToNode nodeId
        return { internals with idToNode := nodes }) self = .error (.keyError nodeId) self := by
    simp [statement, popAt, missing, bind, Except.bind]
  rw [GraphM.removeNode, bind_of_error raises]

theorem touches_cons
    {first : String}
    {rest : List String}
    {edge : Edge}
    (untouched : GraphM.touches (first :: rest) edge = false) :
    (edge.source ≠ first ∧ edge.target ≠ first) ∧ GraphM.touches rest edge = false := by
  simp only [GraphM.touches, List.contains_eq_mem, Bool.or_eq_false_iff,
    decide_eq_false_iff_not, List.mem_cons, not_or] at untouched ⊢
  exact ⟨⟨untouched.1.1, untouched.2.1⟩, untouched.1.2, untouched.2.2⟩

/-- The second loop of `remove_nodes` removes distinct known nodes without edges. -/
theorem Linked.removeNodes
    (linked : self.Linked)
    {nodeIds : List String}
    (nodup : nodeIds.Nodup)
    (known : ∀ id ∈ nodeIds, id ∈ self.idToNode.keys)
    (free : ∀ edge ∈ self.edges, GraphM.touches nodeIds edge = false) :
    ∃ after,
      nodeIds.forM GraphM.removeNode self = .ok () after ∧
        after.Linked ∧ self.RemovesNodes after nodeIds := by
  induction nodeIds generalizing self with
  | nil =>
      exact ⟨self, rfl, linked, ⟨rfl, rfl, rfl, rfl⟩⟩
  | cons first rest inductionHypothesis =>
      rw [List.nodup_cons] at nodup
      obtain ⟨middle, removed, middleLinked, removesFirst⟩ :=
        linked.removeNode (known first List.mem_cons_self) fun edge isEdge =>
          (touches_cons (free edge isEdge)).1
      have sameEdges : middle.edges = self.edges := by
        rw [edges, removesFirst.idToEdge]
        rfl
      have knownRest : ∀ id ∈ rest, id ∈ middle.idToNode.keys := by
        intro id member
        rw [removesFirst.idToNode]
        refine Dict.mem_keys_erase.mpr ⟨fun same => nodup.1 (same ▸ member), ?_⟩
        exact known id (List.mem_cons_of_mem _ member)
      obtain ⟨after, ran, afterLinked, removesRest⟩ :=
        inductionHypothesis middleLinked nodup.2 knownRest fun edge isEdge =>
          (touches_cons (free edge (sameEdges ▸ isEdge))).2
      refine ⟨after, ?_, afterLinked, ⟨?_, ?_, ?_, ?_⟩⟩
      · change (GraphM.removeNode first >>= fun _ => List.forM rest GraphM.removeNode) self = _
        rw [bind_of_ok removed]
        exact ran
      · rw [removesRest.idToNode, removesFirst.idToNode]
        rfl
      · rw [removesRest.idToEdge, removesFirst.idToEdge]
      · rw [removesRest.inpEdges, removesFirst.inpEdges]
        rfl
      · rw [removesRest.poolEdge, removesFirst.poolEdge]

/-- Where the second loop succeeds the nodes were distinct and known. -/
theorem Linked.nodup_of_removeNodes
    (linked : self.Linked)
    {nodeIds : List String}
    (free : ∀ edge ∈ self.edges, GraphM.touches nodeIds edge = false)
    (ran : nodeIds.forM GraphM.removeNode self = .ok () after) :
    nodeIds.Nodup ∧ ∀ id ∈ nodeIds, id ∈ self.idToNode.keys := by
  induction nodeIds generalizing self with
  | nil => simp
  | cons first rest inductionHypothesis =>
      obtain ⟨⟨⟩, next, removed, ranRest⟩ := bind_eq_ok.mp ran
      by_cases known : first ∈ self.idToNode.keys
      · obtain ⟨middle, removedFirst, middleLinked, removesFirst⟩ :=
          linked.removeNode known fun edge isEdge => (touches_cons (free edge isEdge)).1
        rw [removed] at removedFirst
        cases removedFirst
        have sameEdges : next.edges = self.edges := by
          rw [edges, removesFirst.idToEdge]
          rfl
        obtain ⟨nodup, knownRest⟩ := inductionHypothesis middleLinked
          (fun edge isEdge => (touches_cons (free edge (sameEdges ▸ isEdge))).2) ranRest
        have others : ∀ id ∈ rest, id ≠ first ∧ id ∈ self.idToNode.keys := by
          intro id member
          have isKey := knownRest id member
          rw [removesFirst.idToNode, Dict.mem_keys_eraseAll, List.mem_singleton] at isKey
          exact isKey
        refine ⟨List.nodup_cons.mpr ⟨fun member => (others first member).1 rfl, nodup⟩, ?_⟩
        intro id member
        rcases List.mem_cons.mp member with rfl | member
        · exact known
        · exact (others id member).2
      · rw [removeNode_unknown known] at removed
        cases removed

/-- The index over the input handles lists the edge where it enters its target. -/
def AtInputHandle (self : FlowInternals) (edge : Edge) : Prop :=
  ∃ handles,
    self.nodeIdToInpHandleToEdges.get? edge.target = some handles ∧
      edge ∈ (handles.get? edge.targetHandle).getD []

/-- An index that agrees with the edges lists exactly these. -/
theorem atInputHandle_iff
    {ids : List String}
    {edges : List Edge}
    (agree :
      HandlesAgree self.nodeIdToInpHandleToEdges ids Edge.target Edge.targetHandle edges)
    (ends : ∀ edge ∈ edges, edge.target ∈ ids)
    (edge : Edge) :
    self.AtInputHandle edge ↔ edge ∈ edges := by
  have atTarget := agree edge.target
  constructor
  · rintro ⟨handles, found, listed⟩
    split at atTarget
    · obtain ⟨others, foundOthers, perm⟩ := atTarget
      rw [found] at foundOthers
      cases foundOthers
      exact (List.mem_filter.mp ((perm edge.targetHandle).mem_iff.mp listed)).1
    · rw [found] at atTarget
      cases atTarget
  · intro member
    rw [if_pos (ends edge member)] at atTarget
    obtain ⟨handles, found, perm⟩ := atTarget
    refine ⟨handles, found, (perm edge.targetHandle).mem_iff.mpr ?_⟩
    exact List.mem_filter.mpr ⟨member, by simp⟩

theorem EqualsRebuild.atInputHandle_iff
    (equals : self.EqualsRebuild)
    (edge : Edge) :
    self.AtInputHandle edge ↔ edge ∈ self.edges := by
  obtain ⟨rebuilt, built, -, -, sameInp, -, -⟩ := equals
  have wellFormed := wellFormed_of_setFromNodesEdges built
  obtain ⟨again, builtAgain, describes⟩ := setFromNodesEdges_describes wellFormed
  obtain rfl : rebuilt = again := Except.ok.inj (built.symm.trans builtAgain)
  exact FlowInternals.atInputHandle_iff
    ((sameHandles_iff describes.indexes.inpEdges).mp sameInp)
    (fun other member => (wellFormed.ends other member).2) edge

theorem EqualsRebuild.mem_edges_iff
    (linked : self.Linked)
    (inpAgrees : self.InpAgrees)
    (unchanged : after.nodeIdToInpHandleToEdges = self.nodeIdToInpHandleToEdges)
    (equals : after.EqualsRebuild)
    (edge : Edge) :
    edge ∈ after.edges ↔ edge ∈ self.edges := by
  have listed :
      self.AtInputHandle edge ↔ edge ∈ self.edges :=
    FlowInternals.atInputHandle_iff inpAgrees
      (fun other member => (linked.ends other member).2) edge
  rw [← equals.atInputHandle_iff, ← listed, AtInputHandle, unchanged]
  rfl

/-- The steps of a call that leave that index alone and bring no edge back. -/
structure Shrinks (internals after : FlowInternals) : Prop where
  inpEdges : after.nodeIdToInpHandleToEdges = internals.nodeIdToInpHandleToEdges
  edges :
    ∀ id edge, after.idToEdge.get? id = some edge → internals.idToEdge.get? id = some edge

instance : IsPreorder FlowInternals Shrinks where
  refl _ := ⟨rfl, fun _ _ => id⟩
  trans _ _ _ earlier later :=
    ⟨later.inpEdges.trans earlier.inpEdges,
      fun id edge found => earlier.edges id edge (later.edges id edge found)⟩

/-- The steps that leave that index and the edges alone. -/
structure KeepsEdges (internals after : FlowInternals) : Prop where
  inpEdges : after.nodeIdToInpHandleToEdges = internals.nodeIdToInpHandleToEdges
  edges : after.idToEdge = internals.idToEdge

instance : IsPreorder FlowInternals KeepsEdges where
  refl _ := ⟨rfl, rfl⟩
  trans _ _ _ earlier later :=
    ⟨later.inpEdges.trans earlier.inpEdges, later.edges.trans earlier.edges⟩

/-- The steps that leave the edges alone and bring no node back. -/
structure LosesNodes (internals after : FlowInternals) : Prop where
  edges : after.idToEdge = internals.idToEdge
  nodes : ∀ id, internals.idToNode.get? id = none → after.idToNode.get? id = none

instance : IsPreorder FlowInternals LosesNodes where
  refl _ := ⟨rfl, fun _ => id⟩
  trans _ _ _ earlier later :=
    ⟨later.edges.trans earlier.edges, fun id gone => later.nodes id (earlier.nodes id gone)⟩

theorem moves_statement
    {relation : FlowInternals → FlowInternals → Prop}
    [IsPreorder FlowInternals relation]
    {change : FlowInternals → PyResult FlowInternals}
    (respects : ∀ self after, change self = .ok after → relation self after) :
    Moves relation (statement change) := by
  intro start
  unfold stateAfter statement
  cases changed : change start with
  | ok after => exact respects start after changed
  | error raised => exact refl_of relation start

theorem moves_evaluate
    {relation : FlowInternals → FlowInternals → Prop}
    [IsPreorder FlowInternals relation]
    (expression : FlowInternals → PyResult α) :
    Moves relation (evaluate expression) := by
  intro start
  unfold stateAfter evaluate
  cases expression start <;> exact refl_of relation start

/-- `remove_edge` brings no edge back. -/
theorem moves_removeEdge (edgeId : String) :
    Moves Shrinks (GraphM.removeEdge edgeId) := by
  refine Moves.bind (moves_evaluate _) fun edge => ?_
  refine Moves.bind (moves_statement fun self after changed => ?_) fun _ => ?_
  · obtain ⟨edges, popped, made⟩ := PyResult.bind_eq_ok.mp changed
    cases made
    refine ⟨rfl, fun id edge found => ?_⟩
    unfold popAt at popped
    split at popped
    · cases popped
      change (self.idToEdge.erase edgeId).get? id = some edge at found
      rw [Dict.get?_erase] at found
      split at found
      · cases found
      · exact found
    · cases popped
  refine Moves.bind (moves_statement fun self after changed => ?_) fun _ => ?_
  · obtain ⟨targets, -, made⟩ := PyResult.bind_eq_ok.mp changed
    cases made
    exact ⟨rfl, fun _ _ => id⟩
  refine Moves.bind (moves_statement fun self after changed => ?_) fun _ => ?_
  · obtain ⟨sources, -, made⟩ := PyResult.bind_eq_ok.mp changed
    cases made
    exact ⟨rfl, fun _ _ => id⟩
  refine Moves.bind (moves_statement fun self after changed => ?_) fun _ => ?_
  · obtain ⟨outEdges, -, made⟩ := PyResult.bind_eq_ok.mp changed
    cases made
    exact ⟨rfl, fun _ _ => id⟩
  refine moves_statement fun self after changed => ?_
  cases changed
  exact ⟨rfl, fun _ _ => id⟩

/-- The pops of a node bring no node back and leave the edges. -/
theorem moves_removeNode (nodeId : String) :
    Moves LosesNodes (GraphM.removeNode nodeId) := by
  refine Moves.bind (moves_statement fun self after changed => ?_) fun _ => ?_
  · obtain ⟨nodes, popped, made⟩ := PyResult.bind_eq_ok.mp changed
    cases made
    refine ⟨rfl, fun id gone => ?_⟩
    unfold popAt at popped
    split at popped
    · cases popped
      change (self.idToNode.erase nodeId).get? id = none
      rw [Dict.get?_erase, gone]
      split <;> rfl
    · cases popped
  refine Moves.bind (moves_statement fun self after changed => ?_) fun _ => ?_
  · obtain ⟨targets, -, made⟩ := PyResult.bind_eq_ok.mp changed
    cases made
    exact ⟨rfl, fun _ => id⟩
  refine Moves.bind (moves_statement fun self after changed => ?_) fun _ => ?_
  · obtain ⟨sources, -, made⟩ := PyResult.bind_eq_ok.mp changed
    cases made
    exact ⟨rfl, fun _ => id⟩
  refine Moves.bind (moves_statement fun self after changed => ?_) fun _ => ?_
  · obtain ⟨inpEdges, -, made⟩ := PyResult.bind_eq_ok.mp changed
    cases made
    exact ⟨rfl, fun _ => id⟩
  refine Moves.bind (moves_statement fun self after changed => ?_) fun _ => ?_
  · obtain ⟨outEdges, -, made⟩ := PyResult.bind_eq_ok.mp changed
    cases made
    exact ⟨rfl, fun _ => id⟩
  refine moves_statement fun self after changed => ?_
  cases changed
  exact ⟨rfl, fun _ => id⟩

/-- After its first statement `add_edge` leaves the edges and the input handles alone. -/
theorem stateAfter_addEdge
    {edge : Edge}
    (isNew : self.idToEdge.get? edge.id = none) :
    KeepsEdges { self with idToEdge := self.idToEdge.set edge.id edge }
      (stateAfter (GraphM.addEdge edge) self) := by
  have entered :
      statement (fun internals => do
        let _ ← pyAssert (!internals.idToEdge.contains edge.id) ""
        return { internals with idToEdge := internals.idToEdge.set edge.id edge }) self =
          .ok () { self with idToEdge := self.idToEdge.set edge.id edge } := by
    simp [statement, pyAssert, Dict.contains, isNew, bind, Except.bind, pure, Except.pure]
  rw [GraphM.addEdge, stateAfter_bind, entered]
  have check :
      ∀ (known : FlowInternals → Bool) (raised : PyError),
        Moves KeepsEdges
          (statement fun self => if known self then .ok self else .error raised) := by
    intro known raised
    refine moves_statement fun self after changed => ?_
    split at changed
    · cases changed
      exact ⟨rfl, rfl⟩
    · cases changed
  refine Moves.bind (check _ _) (fun _ => Moves.bind (check _ _) fun _ =>
    Moves.bind (moves_statement fun self after changed => ?_) fun _ =>
    Moves.bind (moves_statement fun self after changed => ?_) fun _ =>
    Moves.bind (moves_statement fun self after changed => ?_) fun _ =>
    moves_statement fun self after changed => ?_) _
  all_goals
    obtain ⟨_, -, made⟩ := PyResult.bind_eq_ok.mp changed
    cases made
    exact ⟨rfl, rfl⟩

end FlowInternals

end TensorPC.Flowui
