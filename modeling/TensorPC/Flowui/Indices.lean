import TensorPC.Flowui.Internals

namespace TensorPC.Flowui

/-!
# What the indices say

`set_from_nodes_edges` succeeds exactly for graphs with distinct ids whose edges
connect nodes of the graph.  What it builds is described key by key, so that the order
of the nodes plays no role.
-/

/-! ## Dictionaries over the edges -/

theorem filter_append_of_not
    {test : Edge → Prop}
    [DecidablePred test]
    {edges : List Edge}
    {edge : Edge}
    (rejected : ¬ test edge) :
    ((edges ++ [edge]).filter fun other => test other) =
      edges.filter fun other => test other := by
  simp [rejected]

section Described

variable
  {α : Type}
  {ids : List String}
  {edges : List Edge}
  {edge : Edge}
  {nodeOf : Edge → String}

/-- A dictionary with the list of the edges at every node. -/
def ListsOf
    (dict : Dict String (List α))
    (ids : List String)
    (nodeOf : Edge → String)
    (entryOf : Edge → α)
    (edges : List Edge) : Prop :=
  ∀ id,
    dict.get? id =
      if id ∈ ids then
        some ((edges.filter fun edge => nodeOf edge = id).map entryOf)
      else
        none

theorem appendAt_listsOf
    {dict : Dict String (List α)}
    {entryOf : Edge → α}
    (lists : ListsOf dict ids nodeOf entryOf edges)
    (known : nodeOf edge ∈ ids) :
    ∃ result,
      appendAt dict (nodeOf edge) (entryOf edge) = .ok result ∧
        ListsOf result ids nodeOf entryOf (edges ++ [edge]) := by
  have found := lists (nodeOf edge)
  rw [if_pos known] at found
  refine ⟨_, by simp only [appendAt, found]; rfl, fun id => ?_⟩
  rw [Dict.get?_set]
  split
  · rename_i same
    subst same
    simp [known]
  · rename_i other
    rw [lists id, @filter_append_of_not (fun edge => nodeOf edge = id) _ _ _ (Ne.symm other)]

theorem mem_of_appendAt
    {dict result : Dict String (List α)}
    {entryOf : Edge → α}
    {entry : α}
    {node : String}
    (lists : ListsOf dict ids nodeOf entryOf edges)
    (appended : appendAt dict node entry = .ok result) :
    node ∈ ids := by
  by_contra unknown
  have missing := lists node
  rw [if_neg unknown] at missing
  simp [appendAt, missing] at appended

/-- The edges of a handle, which has no list without an edge. -/
def handleList (edges : List Edge) : Option (List Edge) :=
  if edges = [] then none else some edges

/-- A dictionary with the edges at every handle of every node. -/
structure HandlesOf
    (dict : HandleEdges)
    (ids : List String)
    (nodeOf : Edge → String)
    (handleOf : Edge → Option String)
    (edges : List Edge) : Prop where
  known : ∀ id, (dict.get? id).isSome = true ↔ id ∈ ids
  handles :
    ∀ id handles, dict.get? id = some handles →
      ∀ handle,
        handles.get? handle =
          handleList (edges.filter fun edge => nodeOf edge = id ∧ handleOf edge = handle)

theorem getD_handleList (edges : List Edge) :
    (handleList edges).getD [] = edges := by
  unfold handleList
  split
  · subst edges
    rfl
  · rfl

/-- The handles grow with their edges. -/
theorem appendAtHandle_handlesOf
    {dict : HandleEdges}
    {handleOf : Edge → Option String}
    (described : HandlesOf dict ids nodeOf handleOf edges)
    (known : nodeOf edge ∈ ids) :
    ∃ result,
      appendAtHandle dict (nodeOf edge) (handleOf edge) edge = .ok result ∧
        HandlesOf result ids nodeOf handleOf (edges ++ [edge]) := by
  obtain ⟨old, found⟩ := Option.isSome_iff_exists.mp ((described.known _).mpr known)
  refine ⟨_, by simp only [appendAtHandle, found]; rfl, ⟨fun id => ?_, ?_⟩⟩
  · rw [Dict.get?_set]
    split
    · rename_i same
      subst same
      simp [known]
    · exact described.known id
  · intro id handles
    rw [Dict.get?_set]
    split
    · rename_i same
      subst same
      rintro ⟨⟩ handle
      rw [Dict.get?_set, described.handles _ _ found, getD_handleList]
      split
      · rename_i sameHandle
        subst sameHandle
        simp [handleList]
      · rename_i otherHandle
        rw [described.handles _ _ found,
          filter_append_of_not fun both => otherHandle both.2.symm]
    · rename_i other
      intro foundHandles handle
      rw [described.handles _ _ foundHandles,
        filter_append_of_not fun both => other both.1.symm]

/-- What the handles of a node look up. -/
theorem HandlesOf.map_get?
    {dict : HandleEdges}
    {handleOf : Edge → Option String}
    (described : HandlesOf dict ids nodeOf handleOf edges)
    (id : String) :
    (dict.get? id).map Dict.get? =
      if id ∈ ids then
        some fun handle =>
          handleList (edges.filter fun edge => nodeOf edge = id ∧ handleOf edge = handle)
      else
        none := by
  have known := described.known id
  cases found : dict.get? id with
  | none =>
      rw [found] at known
      rw [if_neg fun member => by simpa using known.mpr member]
      rfl
  | some handles =>
      rw [found] at known
      rw [if_pos (known.mp rfl)]
      exact congrArg some (funext (described.handles id handles found))

/-- Conversely, what the handles look up describes them. -/
theorem HandlesOf.of_map_get?
    {dict : HandleEdges}
    {handleOf : Edge → Option String}
    (lookups :
      ∀ id,
        (dict.get? id).map Dict.get? =
          if id ∈ ids then
            some fun handle =>
              handleList
                (edges.filter fun edge => nodeOf edge = id ∧ handleOf edge = handle)
          else
            none) :
    HandlesOf dict ids nodeOf handleOf edges := by
  constructor
  · intro id
    have looked := congrArg Option.isSome (lookups id)
    rw [Option.isSome_map] at looked
    rw [looked]
    split <;> simp_all
  · intro id handles found handle
    have looked := lookups id
    rw [found] at looked
    split at looked
    · exact congrFun (Option.some.inj looked) handle
    · cases looked

end Described

/-! ## Dictionaries by id -/

section ById

variable
  {α β : Type}
  {idOf : α → String}
  {valueOf : α → β}
  {items : List α}

theorem map_fst_pairs :
    (items.map fun item => (idOf item, valueOf item)).map Prod.fst = items.map idOf := by
  rw [List.map_map]
  rfl

theorem get?_ofList_pairs
    (nodup : (items.map idOf).Nodup)
    (id : String)
    (value : β) :
    (Dict.ofList (items.map fun item => (idOf item, valueOf item))).get? id = some value ↔
      ∃ item ∈ items, idOf item = id ∧ valueOf item = value := by
  have keys : ((items.map fun item => (idOf item, valueOf item)).map Prod.fst).Nodup := by
    rwa [map_fst_pairs]
  rw [Dict.get?_ofList keys, Dict.lookup_eq_some_iff keys]
  simp

/-- The dictionary is as long as the list exactly when the ids are distinct. -/
theorem length_ofList_pairs :
    (Dict.ofList (items.map fun item => (idOf item, valueOf item))).entries.length =
        items.length ↔
      (items.map idOf).Nodup := by
  have keysNodup :=
    Dict.nodup_keys (Dict.ofList (items.map fun item => (idOf item, valueOf item)))
  have keysLength :
      (Dict.ofList (items.map fun item => (idOf item, valueOf item))).entries.length =
        (Dict.ofList (items.map fun item => (idOf item, valueOf item))).keys.length := by
    simp [Dict.keys]
  rw [keysLength]
  constructor
  · intro sameLength
    have subset :
        (Dict.ofList (items.map fun item => (idOf item, valueOf item))).keys ⊆
          items.map idOf := by
      intro id member
      obtain ⟨value, found⟩ := Option.isSome_iff_exists.mp (Dict.mem_keys_iff.mp member)
      rcases Dict.mem_of_get?_update found with listed | old
      · obtain ⟨item, isItem, pair⟩ := List.mem_map.mp listed
        exact List.mem_map.mpr ⟨item, isItem, congrArg Prod.fst pair⟩
      · rw [Dict.get?_empty] at old
        cases old
    have permuted :=
      (List.subperm_of_subset keysNodup subset).perm_of_length_le (by simp [sameLength])
    exact permuted.nodup_iff.mp keysNodup
  · intro nodup
    have permuted :
        (Dict.ofList (items.map fun item => (idOf item, valueOf item))).keys.Perm
          (items.map idOf) := by
      refine (List.perm_ext_iff_of_nodup keysNodup nodup).mpr fun id => ?_
      rw [Dict.mem_keys_iff, Option.isSome_iff_exists]
      simp only [get?_ofList_pairs nodup, List.mem_map]
      constructor
      · rintro ⟨value, item, isItem, same, -⟩
        exact ⟨item, isItem, same⟩
      · rintro ⟨item, isItem, same⟩
        exact ⟨valueOf item, item, isItem, same, rfl⟩
    simpa using permuted.length_eq

theorem get?_ofList_const
    {start : β}
    (nodup : (items.map idOf).Nodup)
    (id : String) :
    (Dict.ofList (items.map fun item => (idOf item, start))).get? id =
      if id ∈ items.map idOf then some start else none := by
  have found := @get?_ofList_pairs α β idOf (fun _ => start) items nodup id
  split
  · rename_i member
    obtain ⟨item, isItem, same⟩ := List.mem_map.mp member
    exact (found start).mpr ⟨item, isItem, same, rfl⟩
  · rename_i absent
    rw [Option.eq_none_iff_forall_ne_some]
    intro value isSome
    obtain ⟨item, isItem, same, -⟩ := (found value).mp isSome
    exact absent (List.mem_map.mpr ⟨item, isItem, same⟩)

end ById

theorem mem_poolOf
    {names : List String}
    {name : String} :
    name ∈ poolOf names ↔ name ∈ names := by
  have general :
      ∀ start : PySet String, name ∈ names.foldl PySet.add start ↔ name ∈ start ∨ name ∈ names := by
    induction names with
    | nil =>
        simp
    | cons first rest inductionHypothesis =>
        intro start
        rw [List.foldl_cons, inductionHypothesis, PySet.mem_add, List.mem_cons]
        tauto
  rw [poolOf, general]
  simp

/-! ## Graphs -/

/-- Ids are distinct and edges connect nodes of the graph. -/
structure WellFormed
    (nodes : List Node)
    (edges : List Edge) : Prop where
  nodeIds : (nodes.map Node.id).Nodup
  edgeIds : (edges.map Edge.id).Nodup
  ends :
    ∀ edge ∈ edges,
      edge.source ∈ nodes.map Node.id ∧ edge.target ∈ nodes.map Node.id

namespace FlowInternals

/-- The four indices over the edges. -/
structure Indexes
    (internals : FlowInternals)
    (ids : List String)
    (edges : List Edge) : Prop where
  targets : ListsOf internals.nodeIdToTargets ids Edge.source Edge.targetEnd edges
  sources : ListsOf internals.nodeIdToSources ids Edge.target Edge.sourceEnd edges
  outEdges :
    HandlesOf internals.nodeIdToOutHandleToEdges ids Edge.source Edge.sourceHandle edges
  inpEdges :
    HandlesOf internals.nodeIdToInpHandleToEdges ids Edge.target Edge.targetHandle edges

/-- The dictionaries that the loop over the edges leaves alone. -/
structure SameNodes (internals other : FlowInternals) : Prop where
  idToNode : internals.idToNode = other.idToNode
  idToEdge : internals.idToEdge = other.idToEdge
  poolNode : internals.uniqueNamePoolNode = other.uniqueNamePoolNode
  poolEdge : internals.uniqueNamePoolEdge = other.uniqueNamePoolEdge

/-- The internals describe the graph. -/
structure Describes
    (internals : FlowInternals)
    (nodes : List Node)
    (edges : List Edge) : Prop where
  node : ∀ id node, internals.idToNode.get? id = some node ↔ node ∈ nodes ∧ node.id = id
  edge : ∀ id edge, internals.idToEdge.get? id = some edge ↔ edge ∈ edges ∧ edge.id = id
  indexes : internals.Indexes (nodes.map Node.id) edges
  poolNode : ∀ name, name ∈ internals.uniqueNamePoolNode ↔ name ∈ nodes.map Node.id
  poolEdge : ∀ name, name ∈ internals.uniqueNamePoolEdge ↔ name ∈ nodes.map Node.id

section Index

variable
  {self : FlowInternals}
  {ids : List String}
  {edges : List Edge}

theorem indexEdge_indexes
    {edge : Edge}
    (indexes : self.Indexes ids edges)
    (source : edge.source ∈ ids)
    (target : edge.target ∈ ids) :
    ∃ result,
      self.indexEdge edge = .ok result ∧
        result.Indexes ids (edges ++ [edge]) ∧ result.SameNodes self := by
  obtain ⟨targets, madeTargets, targetsOf⟩ := appendAt_listsOf indexes.targets source
  obtain ⟨sources, madeSources, sourcesOf⟩ := appendAt_listsOf indexes.sources target
  obtain ⟨outEdges, madeOut, outOf⟩ := appendAtHandle_handlesOf indexes.outEdges source
  obtain ⟨inpEdges, madeInp, inpOf⟩ := appendAtHandle_handlesOf indexes.inpEdges target
  refine ⟨{ self with
    nodeIdToTargets := targets
    nodeIdToSources := sources
    nodeIdToOutHandleToEdges := outEdges
    nodeIdToInpHandleToEdges := inpEdges }, ?_,
    ⟨targetsOf, sourcesOf, outOf, inpOf⟩, ⟨rfl, rfl, rfl, rfl⟩⟩
  simp [indexEdge, madeTargets, madeSources, madeOut, madeInp, bind, Except.bind]

theorem ends_of_indexEdge
    {edge : Edge}
    {result : FlowInternals}
    (indexes : self.Indexes ids edges)
    (indexed : self.indexEdge edge = .ok result) :
    edge.source ∈ ids ∧ edge.target ∈ ids := by
  obtain ⟨targets, madeTargets, indexed⟩ := PyResult.bind_eq_ok.mp indexed
  obtain ⟨sources, madeSources, -⟩ := PyResult.bind_eq_ok.mp indexed
  exact ⟨mem_of_appendAt indexes.targets madeTargets,
    mem_of_appendAt indexes.sources madeSources⟩

/-- The loop indexes edges between known nodes. -/
theorem foldlM_indexEdge
    {more : List Edge}
    (indexes : self.Indexes ids edges)
    (ends : ∀ edge ∈ more, edge.source ∈ ids ∧ edge.target ∈ ids) :
    ∃ result,
      more.foldlM indexEdge self = .ok result ∧
        result.Indexes ids (edges ++ more) ∧ result.SameNodes self := by
  induction more generalizing self edges with
  | nil =>
      exact ⟨self, rfl, by simpa using indexes, ⟨rfl, rfl, rfl, rfl⟩⟩
  | cons edge rest inductionHypothesis =>
      obtain ⟨source, target⟩ := ends edge List.mem_cons_self
      obtain ⟨middle, indexed, middleIndexes, middleSame⟩ :=
        indexEdge_indexes indexes source target
      obtain ⟨result, folded, resultIndexes, resultSame⟩ :=
        inductionHypothesis middleIndexes fun other member =>
          ends other (List.mem_cons_of_mem _ member)
      refine ⟨result, ?_, ?_, ?_⟩
      · simp only [List.foldlM_cons, indexed, bind, Except.bind]
        exact folded
      · simpa using resultIndexes
      · exact ⟨resultSame.idToNode.trans middleSame.idToNode,
          resultSame.idToEdge.trans middleSame.idToEdge,
          resultSame.poolNode.trans middleSame.poolNode,
          resultSame.poolEdge.trans middleSame.poolEdge⟩

theorem ends_of_foldlM
    {more : List Edge}
    {result : FlowInternals}
    (indexes : self.Indexes ids edges)
    (folded : more.foldlM indexEdge self = .ok result) :
    ∀ edge ∈ more, edge.source ∈ ids ∧ edge.target ∈ ids := by
  induction more generalizing self edges with
  | nil =>
      simp
  | cons first rest inductionHypothesis =>
      rw [List.foldlM_cons] at folded
      obtain ⟨middle, indexed, folded⟩ := PyResult.bind_eq_ok.mp folded
      have firstEnds := ends_of_indexEdge indexes indexed
      obtain ⟨result, indexedAgain, middleIndexes, -⟩ :=
        indexEdge_indexes indexes firstEnds.1 firstEnds.2
      obtain rfl : middle = result := Except.ok.inj (indexed.symm.trans indexedAgain)
      intro edge member
      rcases List.mem_cons.mp member with rfl | member
      · exact firstEnds
      · exact inductionHypothesis middleIndexes folded edge member

end Index

variable
  {nodes : List Node}
  {edges : List Edge}

theorem indexes_unindexed
    (nodup : (nodes.map Node.id).Nodup) :
    (unindexed nodes edges).Indexes (nodes.map Node.id) [] := by
  have noHandles :
      ∀ (nodeOf : Edge → String) (handleOf : Edge → Option String),
        HandlesOf (Dict.ofList (nodes.map fun node => (node.id, .empty)))
          (nodes.map Node.id) nodeOf handleOf [] := by
    intro nodeOf handleOf
    refine ⟨fun id => ?_, fun id handles found handle => ?_⟩
    · rw [get?_ofList_const nodup]
      split <;> simp_all
    · rw [get?_ofList_const nodup] at found
      split at found
      · cases found
        simp [handleList]
      · cases found
  exact ⟨get?_ofList_const nodup, get?_ofList_const nodup, noHandles _ _, noHandles _ _⟩

theorem setFromNodesEdges_eq_ok
    {result : FlowInternals} :
    setFromNodesEdges nodes edges = .ok result ↔
      (nodes.map Node.id).Nodup ∧ (edges.map Edge.id).Nodup ∧
        edges.foldlM indexEdge (unindexed nodes edges) = .ok result := by
  unfold setFromNodesEdges
  rw [PyResult.bind_eq_ok]
  simp only [PyResult.bind_eq_ok, pyAssert_eq_ok, decide_eq_true_eq]
  have nodeIds := @length_ofList_pairs _ _ Node.id id nodes
  have edgeIds := @length_ofList_pairs _ _ Edge.id id edges
  constructor
  · rintro ⟨-, nodeLength, -, edgeLength, folded⟩
    exact ⟨nodeIds.mp nodeLength, edgeIds.mp edgeLength, folded⟩
  · rintro ⟨nodeNodup, edgeNodup, folded⟩
    exact ⟨⟨⟩, nodeIds.mpr nodeNodup, ⟨⟩, edgeIds.mpr edgeNodup, folded⟩

theorem setFromNodesEdges_describes
    (wellFormed : WellFormed nodes edges) :
    ∃ result,
      setFromNodesEdges nodes edges = .ok result ∧ result.Describes nodes edges := by
  obtain ⟨result, folded, indexes, same⟩ :=
    foldlM_indexEdge (@indexes_unindexed nodes edges wellFormed.nodeIds) wellFormed.ends
  refine ⟨result,
    setFromNodesEdges_eq_ok.mpr ⟨wellFormed.nodeIds, wellFormed.edgeIds, folded⟩, ?_⟩
  refine ⟨fun id node => ?_, fun id edge => ?_, indexes, fun name => ?_, fun name => ?_⟩
  · rw [same.idToNode, unindexed, get?_ofList_pairs wellFormed.nodeIds]
    aesop
  · rw [same.idToEdge, unindexed, get?_ofList_pairs wellFormed.edgeIds]
    aesop
  · rw [same.poolNode]
    exact mem_poolOf
  · rw [same.poolEdge]
    exact mem_poolOf

theorem wellFormed_of_setFromNodesEdges
    {result : FlowInternals}
    (built : setFromNodesEdges nodes edges = .ok result) :
    WellFormed nodes edges := by
  obtain ⟨nodeIds, edgeIds, folded⟩ := setFromNodesEdges_eq_ok.mp built
  exact ⟨nodeIds, edgeIds, ends_of_foldlM (indexes_unindexed nodeIds) folded⟩

/-! ## Equal internals -/

/-- Python's `==` of dictionaries and sets: the order of the keys does not count. -/
structure Same (internals other : FlowInternals) : Prop where
  idToNode : ∀ id, internals.idToNode.get? id = other.idToNode.get? id
  idToEdge : ∀ id, internals.idToEdge.get? id = other.idToEdge.get? id
  sources : ∀ id, internals.nodeIdToSources.get? id = other.nodeIdToSources.get? id
  targets : ∀ id, internals.nodeIdToTargets.get? id = other.nodeIdToTargets.get? id
  inpEdges :
    ∀ id,
      (internals.nodeIdToInpHandleToEdges.get? id).map Dict.get? =
        (other.nodeIdToInpHandleToEdges.get? id).map Dict.get?
  outEdges :
    ∀ id,
      (internals.nodeIdToOutHandleToEdges.get? id).map Dict.get? =
        (other.nodeIdToOutHandleToEdges.get? id).map Dict.get?
  poolNode : ∀ name, name ∈ internals.uniqueNamePoolNode ↔ name ∈ other.uniqueNamePoolNode
  poolEdge : ∀ name, name ∈ internals.uniqueNamePoolEdge ↔ name ∈ other.uniqueNamePoolEdge

theorem Describes.same
    {internals other : FlowInternals}
    (first : internals.Describes nodes edges)
    (second : other.Describes nodes edges) :
    internals.Same other := by
  refine ⟨fun id => ?_, fun id => ?_, fun id => ?_, fun id => ?_, fun id => ?_, fun id => ?_,
    fun name => ?_, fun name => ?_⟩
  · exact Option.ext fun node => (first.node id node).trans (second.node id node).symm
  · exact Option.ext fun edge => (first.edge id edge).trans (second.edge id edge).symm
  · exact (first.indexes.sources id).trans (second.indexes.sources id).symm
  · exact (first.indexes.targets id).trans (second.indexes.targets id).symm
  · exact (first.indexes.inpEdges.map_get? id).trans (second.indexes.inpEdges.map_get? id).symm
  · exact (first.indexes.outEdges.map_get? id).trans (second.indexes.outEdges.map_get? id).symm
  · exact (first.poolNode name).trans (second.poolNode name).symm
  · exact (first.poolEdge name).trans (second.poolEdge name).symm

/-- Internals that are equal to a description describe the graph, too. -/
theorem Describes.of_same
    {internals other : FlowInternals}
    (same : internals.Same other)
    (describes : other.Describes nodes edges) :
    internals.Describes nodes edges := by
  refine ⟨fun id node => ?_, fun id edge => ?_, ⟨fun id => ?_, fun id => ?_, ?_, ?_⟩,
    fun name => ?_, fun name => ?_⟩
  · rw [same.idToNode]
    exact describes.node id node
  · rw [same.idToEdge]
    exact describes.edge id edge
  · rw [same.targets]
    exact describes.indexes.targets id
  · rw [same.sources]
    exact describes.indexes.sources id
  · exact HandlesOf.of_map_get? fun id =>
      (same.outEdges id).trans (describes.indexes.outEdges.map_get? id)
  · exact HandlesOf.of_map_get? fun id =>
      (same.inpEdges id).trans (describes.indexes.inpEdges.map_get? id)
  · exact (same.poolNode name).trans (describes.poolNode name)
  · exact (same.poolEdge name).trans (describes.poolEdge name)

theorem same_setFromNodesEdges_iff
    {internals : FlowInternals} :
    (∃ rebuilt, setFromNodesEdges nodes edges = .ok rebuilt ∧ internals.Same rebuilt) ↔
      WellFormed nodes edges ∧ internals.Describes nodes edges := by
  constructor
  · rintro ⟨rebuilt, built, same⟩
    have wellFormed := wellFormed_of_setFromNodesEdges built
    obtain ⟨again, builtAgain, describes⟩ := setFromNodesEdges_describes wellFormed
    obtain rfl : rebuilt = again := Except.ok.inj (built.symm.trans builtAgain)
    exact ⟨wellFormed, describes.of_same same⟩
  · rintro ⟨wellFormed, describes⟩
    obtain ⟨rebuilt, built, rebuiltDescribes⟩ := setFromNodesEdges_describes wellFormed
    exact ⟨rebuilt, built, describes.same rebuiltDescribes⟩

end FlowInternals

end TensorPC.Flowui
