import TensorPC.Cflow.Assign
import Mathlib.Algebra.Ring.Int.Defs
import Mathlib.Data.List.Infix

namespace TensorPC.Cflow

/-!
# What executors are asked to carry

The nodes that `assign_node_executor` gives to an executor ask for resources.
The first pass groups the nodes, and the second one gives each group to an
executor on its own: it starts from what the executor has now, and asks before
every node whether the largest request of the group still fits.
-/

/-- The four quantities of a resource description. -/
inductive Component
  | CPU
  | Mem
  | GPU
  | GPUMem
  deriving DecidableEq, Repr

namespace ResourceDesc

/-- One quantity of a description. -/
def component (rc : ResourceDesc) : Component → Int
  | .CPU => rc.CPU
  | .Mem => rc.Mem
  | .GPU => rc.GPU
  | .GPUMem => rc.GPUMem

theorem isRequestSufficient_iff
    {offered requested : ResourceDesc} :
    offered.isRequestSufficient requested = true ↔
      ∀ quantity,
        fieldSufficient (offered.component quantity) (requested.component quantity) = true := by
  simp only [isRequestSufficient, Bool.and_eq_true]
  constructor
  · rintro ⟨⟨⟨cpu, mem⟩, gpu⟩, gpuMem⟩ quantity
    cases quantity <;> assumption
  · intro all
    exact ⟨⟨⟨all .CPU, all .Mem⟩, all .GPU⟩, all .GPUMem⟩

theorem component_getRequestRemainRc
    (offered requested : ResourceDesc)
    (quantity : Component) :
    (offered.getRequestRemainRc requested).component quantity =
      fieldRemain (offered.component quantity) (requested.component quantity) := by
  cases quantity <;> rfl

/-- Requests add up to at most what is offered, in every quantity that is limited. -/
def Covers (offered : ResourceDesc) (requests : List ResourceDesc) : Prop :=
  ∀ quantity : Component,
    offered.component quantity = -1 ∨
      (requests.map (·.component quantity)).sum ≤ offered.component quantity

/-- What the earlier requests leave is enough for the last one. -/
def CoversLast
    (offered : ResourceDesc)
    (earlier : List ResourceDesc)
    (last : ResourceDesc) : Prop :=
  ∀ quantity : Component,
    offered.component quantity = -1 ∨
      last.component quantity ≤
        offered.component quantity - (earlier.map (·.component quantity)).sum

theorem covers_concat_iff
    {offered last : ResourceDesc}
    {earlier : List ResourceDesc} :
    offered.Covers (earlier ++ [last]) ↔ offered.CoversLast earlier last := by
  unfold Covers CoversLast
  refine forall_congr' fun quantity => or_congr_right ?_
  simp only [List.map_append, List.map_cons, List.map_nil, List.sum_append, List.sum_cons,
    List.sum_nil]
  omega

end ResourceDesc

/-! ## The groups and who takes what -/

/-- A node that is placed by its resources: not locally, and not on an executor of its own. -/
def ComputeNodeModel.isScheduled (node : ComputeNodeModel) : Bool :=
  !node.runtime.cfg.hasTempExecutorCreator && !node.runtime.cfg.execAlwaysLocal

/-- A node put into the group of the executor it names. -/
def addToGroup (groups : NodeGroups) (node : ComputeNodeModel) : NodeGroups :=
  if node.isScheduled then
    groups.set node.vExecId
      ((groups.get? node.vExecId).getD [] ++ [(node, node.assignResource)])
  else
    groups

/-- The groups of the nodes, in the order in which their executors are first named. -/
def nodeGroups (nodes : List ComputeNodeModel) : NodeGroups :=
  nodes.foldl addToGroup Dict.empty

/-- The nodes of a group handed out while the largest request fits what is left. -/
def handedOut
    (maxNodeRcReq : ResourceDesc) :
    List GroupedNode → ResourceDesc → List GroupedNode
  | [], _ => []
  | entry :: rest, exRc =>
      if exRc.isRequestSufficient maxNodeRcReq then
        entry :: handedOut maxNodeRcReq rest (exRc.getRequestRemainRc entry.2)
      else
        handedOut maxNodeRcReq rest exRc

/-- The executor that takes a group. -/
def groupTaker?
    (executors : List Executor)
    (group : String × List GroupedNode) :
    Option Nat :=
  match sortGroup group.2 with
  | [] => none
  | largest :: _ => groupExecutor? executors group.1 largest.2

/-- What an executor takes of a group. -/
def takenOf
    (executors : List Executor)
    (index : Nat)
    (group : String × List GroupedNode) :
    List GroupedNode :=
  match sortGroup group.2 with
  | [] => []
  | largest :: rest =>
      if groupExecutor? executors group.1 largest.2 = some index then
        match executors[index]? with
        | none => []
        | some ex => handedOut largest.2 (largest :: rest) ex.rc
      else
        []

/-- What an executor takes, group by group. -/
def takenBy
    (nodes : List ComputeNodeModel)
    (executors : List Executor)
    (index : Nat) :
    List GroupedNode :=
  (nodeGroups nodes).entries.flatMap (takenOf executors index)

/-- The requests of the nodes that an assignment gives to an executor by their resources. -/
def requestsOn
    (nodes : List ComputeNodeModel)
    (assigned : Assignment)
    (index : Nat) :
    List ResourceDesc :=
  (nodes.filter fun node =>
    node.isScheduled && assigned.get? node.id = some (.executor index)).map
      ComputeNodeModel.assignResource

/-- No executor that is given nodes is given more than it has. -/
def NoOversubscription
    (nodes : List ComputeNodeModel)
    (executors : List Executor)
    (assigned : Assignment) : Prop :=
  ∀ index ex, executors[index]? = some ex →
    requestsOn nodes assigned index ≠ [] →
    ex.rc.Covers (requestsOn nodes assigned index)

/-- The last node that each executor takes still fits, beside the nodes of all groups
that it took before. -/
def LastFits
    (nodes : List ComputeNodeModel)
    (executors : List Executor) : Prop :=
  ∀ index ex earlier last, executors[index]? = some ex →
    takenBy nodes executors index = earlier ++ [last] →
    ex.rc.CoversLast (earlier.map Prod.snd) last.2

/-! ## The first pass -/

/-- What the first pass has done with the nodes it has seen. -/
structure FirstPass
    (seen : List ComputeNodeModel)
    (state : Assignment × NodeGroups) : Prop where
  placed :
    ∀ id, (state.1.get? id).isSome →
      ∃ node ∈ seen, node.id = id ∧ node.isScheduled = false
  groups : state.2 = nodeGroups seen

theorem FirstPass.groupNode
    {executors : List Executor}
    {seen : List ComputeNodeModel}
    {state after : Assignment × NodeGroups}
    {node : ComputeNodeModel}
    (pass : FirstPass seen state)
    (grouped : groupNode executors state node = .ok after) :
    FirstPass (seen ++ [node]) after := by
  have setPlaced :
      ∀ place, node.isScheduled = false →
        ∀ id, ((state.1.set node.id place).get? id).isSome →
          ∃ other ∈ seen ++ [node], other.id = id ∧ other.isScheduled = false := by
    intro place notScheduled id known
    rw [Dict.get?_set] at known
    split at known
    · rename_i same
      exact ⟨node, by simp, same.symm, notScheduled⟩
    · obtain ⟨other, member, facts⟩ := pass.placed id known
      exact ⟨other, List.mem_append_left _ member, facts⟩
  have added : nodeGroups (seen ++ [node]) = addToGroup (nodeGroups seen) node := by
    simp [nodeGroups]
  unfold Cflow.groupNode at grouped
  split at grouped
  · rename_i temp
    obtain rfl := Except.ok.inj grouped
    have notScheduled : node.isScheduled = false := by
      simp [ComputeNodeModel.isScheduled, temp]
    exact ⟨setPlaced _ notScheduled, by simp [added, addToGroup, notScheduled, pass.groups]⟩
  split at grouped
  · rename_i isLocal
    have notScheduled : node.isScheduled = false := by
      simp [ComputeNodeModel.isScheduled, isLocal]
    split at grouped
    · obtain rfl := Except.ok.inj grouped
      exact ⟨setPlaced _ notScheduled, by simp [added, addToGroup, notScheduled, pass.groups]⟩
    · cases grouped
  · rename_i notTemp notLocal
    obtain rfl := Except.ok.inj grouped
    have scheduled : node.isScheduled = true := by
      simp [ComputeNodeModel.isScheduled, notTemp, notLocal]
    refine ⟨?_, by simp [added, addToGroup, scheduled, pass.groups]⟩
    intro id known
    obtain ⟨other, member, facts⟩ := pass.placed id known
    exact ⟨other, List.mem_append_left _ member, facts⟩

theorem FirstPass.foldlM
    {executors : List Executor}
    {seen rest : List ComputeNodeModel}
    {state after : Assignment × NodeGroups}
    (pass : FirstPass seen state)
    (grouped : rest.foldlM (Cflow.groupNode executors) state = .ok after) :
    FirstPass (seen ++ rest) after := by
  induction rest generalizing seen state with
  | nil =>
      obtain rfl := Except.ok.inj grouped
      simpa using pass
  | cons node rest inductionHypothesis =>
      rw [List.foldlM_cons] at grouped
      obtain ⟨middle, first, grouped⟩ := PyResult.bind_eq_ok.mp grouped
      rw [List.append_cons]
      exact inductionHypothesis (pass.groupNode first) grouped

/-- The members of the groups. -/
structure GroupsOf (nodes : List ComputeNodeModel) (groups : NodeGroups) : Prop where
  members :
    ∀ exId group, groups.get? exId = some group →
      ∀ entry ∈ group,
        entry.1 ∈ nodes ∧ entry.1.isScheduled = true ∧ entry.1.vExecId = exId ∧
          entry.2 = entry.1.assignResource
  sublists :
    ∀ exId group, groups.get? exId = some group →
      (group.map Prod.fst).Sublist nodes
  all :
    ∀ node ∈ nodes, node.isScheduled = true →
      ∃ group, groups.get? node.vExecId = some group ∧ (node, node.assignResource) ∈ group

/-- One more node goes to the end of its group. -/
theorem GroupsOf.addToGroup
    {seen : List ComputeNodeModel}
    {groups : NodeGroups}
    (groupsOf : GroupsOf seen groups)
    (node : ComputeNodeModel) :
    GroupsOf (seen ++ [node]) (addToGroup groups node) := by
  unfold Cflow.addToGroup
  cases scheduled : node.isScheduled with
  | false =>
      refine ⟨?_, ?_, ?_⟩
      · intro exId group found entry member
        obtain ⟨inSeen, facts⟩ := groupsOf.members exId group found entry member
        exact ⟨List.mem_append_left _ inSeen, facts⟩
      · intro exId group found
        exact (groupsOf.sublists exId group found).trans (List.sublist_append_left _ _)
      · intro other member otherScheduled
        rcases List.mem_append.mp member with inSeen | isNode
        · exact groupsOf.all other inSeen otherScheduled
        · obtain rfl := List.mem_singleton.mp isNode
          rw [scheduled] at otherScheduled
          cases otherScheduled
  | true =>
      have before :
          ∀ entry ∈ (groups.get? node.vExecId).getD [],
            entry.1 ∈ seen ∧ entry.1.isScheduled = true ∧ entry.1.vExecId = node.vExecId ∧
              entry.2 = entry.1.assignResource := by
        intro entry member
        cases found : groups.get? node.vExecId with
        | none =>
            simp [found] at member
        | some group =>
            rw [found] at member
            exact groupsOf.members _ _ found entry member
      have sublistBefore :
          (((groups.get? node.vExecId).getD []).map Prod.fst).Sublist seen := by
        cases found : groups.get? node.vExecId with
        | none =>
            exact List.nil_sublist _
        | some group =>
            exact groupsOf.sublists _ _ found
      refine ⟨?_, ?_, ?_⟩
      · intro exId group found entry member
        simp only [↓reduceIte, Dict.get?_set] at found
        split at found
        · rename_i same
          subst same
          obtain rfl := Option.some.inj found
          rcases List.mem_append.mp member with earlier | added
          · obtain ⟨inSeen, facts⟩ := before entry earlier
            exact ⟨List.mem_append_left _ inSeen, facts⟩
          · obtain rfl := List.mem_singleton.mp added
            exact ⟨by simp, scheduled, rfl, rfl⟩
        · obtain ⟨inSeen, facts⟩ := groupsOf.members exId group found entry member
          exact ⟨List.mem_append_left _ inSeen, facts⟩
      · intro exId group found
        simp only [↓reduceIte, Dict.get?_set] at found
        split at found
        · obtain rfl := Option.some.inj found
          rw [List.map_append]
          exact sublistBefore.append (List.Sublist.refl _)
        · exact (groupsOf.sublists exId group found).trans (List.sublist_append_left _ _)
      · intro other member otherScheduled
        simp only [↓reduceIte, Dict.get?_set]
        rcases List.mem_append.mp member with inSeen | isNode
        · obtain ⟨group, found, inGroup⟩ := groupsOf.all other inSeen otherScheduled
          split
          · rename_i same
            refine ⟨_, rfl, List.mem_append_left _ ?_⟩
            rw [← same, found]
            exact inGroup
          · exact ⟨group, found, inGroup⟩
        · obtain rfl := List.mem_singleton.mp isNode
          exact ⟨_, if_pos rfl, by simp⟩

theorem groupsOf_nodeGroups (nodes : List ComputeNodeModel) :
    GroupsOf nodes (nodeGroups nodes) := by
  have grows :
      ∀ rest seen groups, GroupsOf seen groups →
        GroupsOf (seen ++ rest) (rest.foldl addToGroup groups) := by
    intro rest
    induction rest with
    | nil =>
        intro seen groups groupsOf
        simpa using groupsOf
    | cons node rest inductionHypothesis =>
        intro seen groups groupsOf
        rw [List.append_cons]
        exact inductionHypothesis _ _ (groupsOf.addToGroup node)
  refine grows nodes [] Dict.empty ⟨?_, ?_, ?_⟩
  · simp
  · simp
  · simp

/-! ## The second pass -/

theorem handedOut_sublist
    (maxNodeRcReq : ResourceDesc)
    (group : List GroupedNode)
    (exRc : ResourceDesc) :
    (handedOut maxNodeRcReq group exRc).Sublist group := by
  induction group generalizing exRc with
  | nil =>
      exact List.Sublist.refl _
  | cons entry rest inductionHypothesis =>
      unfold handedOut
      split
      · exact (inductionHypothesis _).cons_cons entry
      · exact (inductionHypothesis _).cons entry

/-- The assignment after a group was given to an executor. -/
theorem get?_assignGroupTo
    (index : Nat)
    (maxNodeRcReq : ResourceDesc)
    (group : List GroupedNode)
    (exRc : ResourceDesc)
    (assigned : Assignment)
    (id : NodeId) :
    (assignGroupTo index maxNodeRcReq group exRc assigned).get? id =
      if id ∈ (handedOut maxNodeRcReq group exRc).map (·.1.id) then
        some (.executor index)
      else
        assigned.get? id := by
  induction group generalizing exRc assigned with
  | nil =>
      simp [assignGroupTo, handedOut]
  | cons entry rest inductionHypothesis =>
      unfold assignGroupTo handedOut
      split
      · rw [inductionHypothesis, Dict.get?_set]
        simp only [List.map_cons, List.mem_cons]
        split
        · rename_i later
          rw [if_pos (.inr later)]
        · rename_i notLater
          simp [notLater]
      · exact inductionHypothesis _ _

theorem groupTaker?_of_mem_takenOf
    {executors : List Executor}
    {index : Nat}
    {group : String × List GroupedNode}
    {entry : GroupedNode}
    (member : entry ∈ takenOf executors index group) :
    groupTaker? executors group = some index := by
  unfold takenOf at member
  unfold groupTaker?
  cases sorted : sortGroup group.2 with
  | nil =>
      simp [sorted] at member
  | cons largest rest =>
      simp only [sorted] at member ⊢
      split at member
      · assumption
      · cases member

theorem takenOf_subset
    {executors : List Executor}
    {index : Nat}
    {group : String × List GroupedNode}
    {entry : GroupedNode}
    (member : entry ∈ takenOf executors index group) :
    entry ∈ group.2 := by
  unfold takenOf at member
  split at member
  · cases member
  · rename_i largest rest sorted
    split at member
    · split at member
      · cases member
      · have inSorted := (handedOut_sublist _ _ _).subset member
        rw [← sorted] at inSorted
        exact (List.perm_insertionSort _ _).subset inSorted
    · cases member

theorem nodup_takenOf
    (executors : List Executor)
    (index : Nat)
    {group : String × List GroupedNode}
    (distinct : (group.2.map Prod.fst).Nodup) :
    ((takenOf executors index group).map Prod.fst).Nodup := by
  unfold takenOf
  split
  · exact List.nodup_nil
  · rename_i largest rest sorted
    split
    · split
      · exact List.nodup_nil
      · have sortedDistinct : ((sortGroup group.2).map Prod.fst).Nodup :=
          ((List.perm_insertionSort _ _).map Prod.fst).nodup_iff.mpr distinct
        rw [sorted] at sortedDistinct
        exact sortedDistinct.sublist ((handedOut_sublist _ _ _).map Prod.fst)
    · exact List.nodup_nil

/-- The assignment after a group: the executor that the group goes to has what it takes. -/
theorem get?_assignGroup
    (executors : List Executor)
    (assigned : Assignment)
    (group : String × List GroupedNode)
    (id : NodeId) :
    (assignGroup executors assigned group).get? id =
      match groupTaker? executors group with
      | none => assigned.get? id
      | some index =>
          if id ∈ (takenOf executors index group).map (·.1.id) then
            some (.executor index)
          else
            assigned.get? id := by
  unfold assignGroup groupTaker? takenOf
  cases sorted : sortGroup group.2 with
  | nil =>
      rfl
  | cons largest rest =>
      cases taker : groupExecutor? executors group.1 largest.2 with
      | none =>
          simp [taker]
      | some index =>
          cases found : executors[index]? with
          | none =>
              simp [taker, found]
          | some ex =>
              simp only [taker, found, ↓reduceIte]
              exact get?_assignGroupTo _ _ _ _ _ _

theorem get?_assignGroup_of_notMem
    {executors : List Executor}
    {assigned : Assignment}
    {group : String × List GroupedNode}
    {id : NodeId}
    (outside : ∀ entry ∈ group.2, entry.1.id ≠ id) :
    (assignGroup executors assigned group).get? id = assigned.get? id := by
  rw [get?_assignGroup]
  split
  · rfl
  · apply if_neg
    intro member
    obtain ⟨entry, taken, same⟩ := List.mem_map.mp member
    exact outside entry (takenOf_subset taken) same

theorem get?_assignGroups_of_notMem
    {executors : List Executor}
    {assigned : Assignment}
    {groups : List (String × List GroupedNode)}
    {id : NodeId}
    (outside : ∀ group ∈ groups, ∀ entry ∈ group.2, entry.1.id ≠ id) :
    (groups.foldl (assignGroup executors) assigned).get? id = assigned.get? id := by
  induction groups generalizing assigned with
  | nil =>
      rfl
  | cons group rest inductionHypothesis =>
      rw [List.foldl_cons, inductionHypothesis fun other member =>
        outside other (List.mem_cons_of_mem _ member)]
      exact get?_assignGroup_of_notMem (outside group List.mem_cons_self)

theorem eq_of_id_eq
    {nodes : List ComputeNodeModel}
    (distinct : (nodes.map ComputeNodeModel.id).Nodup)
    {node other : ComputeNodeModel}
    (member : node ∈ nodes)
    (otherMember : other ∈ nodes)
    (same : node.id = other.id) :
    node = other :=
  List.inj_on_of_nodup_map distinct member otherMember same

theorem GroupsOf.eq_of_mem
    {nodes : List ComputeNodeModel}
    {groups : NodeGroups}
    (groupsOf : GroupsOf nodes groups)
    {node : ComputeNodeModel}
    {group : List GroupedNode}
    (found : groups.get? node.vExecId = some group)
    {other : String × List GroupedNode}
    (listed : other ∈ groups.entries)
    {request : ResourceDesc}
    (member : (node, request) ∈ other.2) :
    other = (node.vExecId, group) := by
  have known := (Dict.mem_entries_iff groups).mp listed
  obtain ⟨_, _, named, _⟩ := groupsOf.members _ _ known _ member
  rw [← named] at known
  obtain rfl := Option.some.inj (known.symm.trans found)
  exact Prod.ext named.symm rfl

/-- An executor is given a scheduled node if and only if it takes the node. -/
theorem assigned_iff_mem_takenBy
    {nodes : List ComputeNodeModel}
    {executors : List Executor}
    {placed : Assignment}
    (distinct : (nodes.map ComputeNodeModel.id).Nodup)
    (pass : FirstPass nodes (placed, nodeGroups nodes))
    {node : ComputeNodeModel}
    (member : node ∈ nodes)
    (scheduled : node.isScheduled = true)
    (index : Nat) :
    ((nodeGroups nodes).entries.foldl (assignGroup executors) placed).get? node.id =
        some (.executor index) ↔
      (node, node.assignResource) ∈ takenBy nodes executors index := by
  have groupsOf := groupsOf_nodeGroups nodes
  obtain ⟨group, found, _⟩ := groupsOf.all node member scheduled
  have listed := (Dict.mem_entries_iff (nodeGroups nodes)).mpr found
  have notPlaced : placed.get? node.id = none := by
    rw [← Option.not_isSome_iff_eq_none]
    intro known
    obtain ⟨other, otherMember, same, notScheduled⟩ := pass.placed node.id known
    obtain rfl := eq_of_id_eq distinct otherMember member same
    rw [scheduled] at notScheduled
    cases notScheduled
  -- An entry with the id of the node is the node with its request.
  have isNode :
      ∀ other ∈ (nodeGroups nodes).entries, ∀ entry ∈ other.2, entry.1.id = node.id →
        entry = (node, node.assignResource) := by
    intro other otherListed entry inOther same
    obtain ⟨inNodes, _, _, request⟩ :=
      groupsOf.members _ _ ((Dict.mem_entries_iff _).mp otherListed) entry inOther
    obtain rfl := eq_of_id_eq distinct inNodes member same
    exact Prod.ext rfl request
  have inOne :
      (node, node.assignResource) ∈ takenBy nodes executors index ↔
        (node, node.assignResource) ∈ takenOf executors index (node.vExecId, group) := by
    constructor
    · intro taken
      obtain ⟨other, otherListed, inOther⟩ := List.mem_flatMap.mp taken
      rw [← groupsOf.eq_of_mem found otherListed (takenOf_subset inOther)]
      exact inOther
    · exact fun taken => List.mem_flatMap.mpr ⟨_, listed, taken⟩
  obtain ⟨before, after, split⟩ := List.append_of_mem listed
  have keys : ((nodeGroups nodes).entries.map Prod.fst).Nodup := (nodeGroups nodes).nodup
  have outside :
      ∀ other ∈ before ++ after, ∀ entry ∈ other.2, entry.1.id ≠ node.id := by
    intro other otherMember entry inOther same
    have otherListed : other ∈ (nodeGroups nodes).entries := by
      rw [split]
      rcases List.mem_append.mp otherMember with earlier | later
      · exact List.mem_append_left _ earlier
      · exact List.mem_append_right _ (List.mem_cons_of_mem _ later)
    obtain rfl := isNode other otherListed entry inOther same
    obtain rfl := groupsOf.eq_of_mem found otherListed inOther
    rw [split] at keys
    simp only [List.map_append, List.map_cons] at keys
    have once := (List.nodup_middle.mp keys).notMem
    rw [← List.map_append] at once
    exact once (List.mem_map_of_mem otherMember)
  rw [inOne, split, List.foldl_append, List.foldl_cons,
    get?_assignGroups_of_notMem fun other otherMember =>
      outside other (List.mem_append_right _ otherMember),
    get?_assignGroup,
    get?_assignGroups_of_notMem fun other otherMember =>
      outside other (List.mem_append_left _ otherMember),
    notPlaced]
  constructor
  · intro given
    split at given
    · cases given
    · split at given
      · rename_i taken
        obtain rfl := AssignedExecutor.executor.inj (Option.some.inj given)
        obtain ⟨entry, inTaken, same⟩ := List.mem_map.mp taken
        rw [← isNode _ listed entry (takenOf_subset inTaken) same]
        exact inTaken
      · cases given
  · intro taken
    rw [groupTaker?_of_mem_takenOf taken]
    exact if_pos (List.mem_map_of_mem taken)

theorem facts_of_mem_takenOf
    {nodes : List ComputeNodeModel}
    {executors : List Executor}
    {index : Nat}
    {group : String × List GroupedNode}
    {entry : GroupedNode}
    (listed : group ∈ (nodeGroups nodes).entries)
    (member : entry ∈ takenOf executors index group) :
    entry.1 ∈ nodes ∧ entry.1.isScheduled = true ∧ entry.1.vExecId = group.1 ∧
      entry.2 = entry.1.assignResource :=
  (groupsOf_nodeGroups nodes).members _ _ ((Dict.mem_entries_iff _).mp listed) entry
    (takenOf_subset member)

/-- An executor takes no node twice. -/
theorem nodup_takenBy
    {nodes : List ComputeNodeModel}
    (distinct : (nodes.map ComputeNodeModel.id).Nodup)
    (executors : List Executor)
    (index : Nat) :
    ((takenBy nodes executors index).map Prod.fst).Nodup := by
  unfold takenBy
  rw [List.map_flatMap, List.nodup_flatMap]
  refine ⟨?_, ?_⟩
  · intro group listed
    apply nodup_takenOf
    have sublist :=
      (groupsOf_nodeGroups nodes).sublists _ _ ((Dict.mem_entries_iff _).mp listed)
    exact distinct.of_map.sublist sublist
  · have keys : (nodeGroups nodes).entries.Pairwise fun first second => first.1 ≠ second.1 :=
      List.pairwise_map.mp (nodeGroups nodes).nodup
    refine keys.imp_of_mem ?_
    intro first second firstListed secondListed differ node inFirst inSecond
    obtain ⟨entry, taken, rfl⟩ := List.mem_map.mp inFirst
    obtain ⟨other, otherTaken, same⟩ := List.mem_map.mp inSecond
    have named := (facts_of_mem_takenOf firstListed taken).2.2.1
    have otherNamed := (facts_of_mem_takenOf secondListed otherTaken).2.2.1
    rw [same] at otherNamed
    exact differ (named.symm.trans otherNamed)

/-- What an executor is given is what it takes. -/
theorem requestsOn_perm
    {nodes : List ComputeNodeModel}
    {executors : List Executor}
    {placed : Assignment}
    (distinct : (nodes.map ComputeNodeModel.id).Nodup)
    (pass : FirstPass nodes (placed, nodeGroups nodes))
    (index : Nat) :
    (requestsOn nodes
        ((nodeGroups nodes).entries.foldl (assignGroup executors) placed) index).Perm
      ((takenBy nodes executors index).map Prod.snd) := by
  have requests :
      (takenBy nodes executors index).map Prod.snd =
        ((takenBy nodes executors index).map Prod.fst).map
          ComputeNodeModel.assignResource := by
    rw [List.map_map]
    refine List.map_congr_left fun entry taken => ?_
    obtain ⟨group, listed, inGroup⟩ := List.mem_flatMap.mp taken
    exact (facts_of_mem_takenOf listed inGroup).2.2.2
  rw [requests]
  refine List.Perm.map _ ?_
  refine (List.perm_ext_iff_of_nodup (distinct.of_map.filter _)
    (nodup_takenBy distinct executors index)).mpr fun node => ?_
  simp only [List.mem_filter, Bool.and_eq_true, decide_eq_true_eq]
  constructor
  · rintro ⟨member, scheduled, given⟩
    exact List.mem_map.mpr
      ⟨_, (assigned_iff_mem_takenBy distinct pass member scheduled index).mp given, rfl⟩
  · intro taken
    obtain ⟨entry, inTaken, rfl⟩ := List.mem_map.mp taken
    obtain ⟨group, listed, inGroup⟩ := List.mem_flatMap.mp inTaken
    obtain ⟨member, scheduled, _, request⟩ := facts_of_mem_takenOf listed inGroup
    refine ⟨member, scheduled, ?_⟩
    rw [assigned_iff_mem_takenBy distinct pass member scheduled index, ← request]
    exact inTaken

/-! ## When nothing is oversubscribed -/

theorem ResourceDesc.covers_perm
    {offered : ResourceDesc}
    {first second : List ResourceDesc}
    (permuted : first.Perm second) :
    offered.Covers first ↔ offered.Covers second := by
  unfold Covers
  refine forall_congr' fun quantity => ?_
  rw [(permuted.map _).sum_eq]

/-- No request of a group asks for more of anything than a given one. -/
def Dominates (largest : ResourceDesc) (group : List GroupedNode) : Prop :=
  ∀ entry ∈ group, ∀ quantity,
    entry.2.component quantity ≤ largest.component quantity

theorem nonneg_of_isRequestSufficient
    {exRc maxNodeRcReq requested : ResourceDesc}
    (sufficient : exRc.isRequestSufficient maxNodeRcReq = true)
    (quantity : Component)
    (dominated : requested.component quantity ≤ maxNodeRcReq.component quantity)
    (limited : exRc.component quantity ≠ -1) :
    (exRc.getRequestRemainRc requested).component quantity =
        exRc.component quantity - requested.component quantity ∧
      0 ≤ exRc.component quantity - requested.component quantity := by
  have fits := ResourceDesc.isRequestSufficient_iff.mp sufficient quantity
  simp only [ResourceDesc.fieldSufficient, Bool.not_eq_true', Bool.and_eq_false_iff,
    bne_eq_false_iff_eq, limited, decide_eq_false_iff_not, false_or, not_lt] at fits
  refine ⟨?_, by omega⟩
  rw [ResourceDesc.component_getRequestRemainRc]
  exact if_pos limited

/-- While something is left, dominated requests that are handed out fit into it. -/
theorem sum_handedOut_le
    {maxNodeRcReq exRc : ResourceDesc}
    {group : List GroupedNode}
    (dominated : Dominates maxNodeRcReq group)
    (quantity : Component)
    (left : 0 ≤ exRc.component quantity) :
    ((handedOut maxNodeRcReq group exRc).map (·.2.component quantity)).sum ≤
      exRc.component quantity := by
  induction group generalizing exRc with
  | nil =>
      simpa [handedOut] using left
  | cons entry rest inductionHypothesis =>
      have later : Dominates maxNodeRcReq rest := fun other member =>
        dominated other (List.mem_cons_of_mem _ member)
      unfold handedOut
      split
      · rename_i sufficient
        obtain ⟨remain, nonneg⟩ :=
          nonneg_of_isRequestSufficient sufficient quantity
            (dominated entry List.mem_cons_self quantity) (by omega)
        have rest := @inductionHypothesis (exRc.getRequestRemainRc entry.2) later (by omega)
        simp only [List.map_cons, List.sum_cons]
        omega
      · exact inductionHypothesis later left

/-- Requests that are handed out while the largest one fits, and that it dominates, fit
together. -/
theorem covers_handedOut
    {maxNodeRcReq exRc : ResourceDesc}
    {group : List GroupedNode}
    (dominated : Dominates maxNodeRcReq group)
    (some : handedOut maxNodeRcReq group exRc ≠ []) :
    exRc.Covers ((handedOut maxNodeRcReq group exRc).map Prod.snd) := by
  intro quantity
  rcases eq_or_ne (exRc.component quantity) (-1) with unlimited | limited
  · exact .inl unlimited
  refine .inr ?_
  rw [List.map_map]
  induction group with
  | nil =>
      exact absurd rfl some
  | cons entry rest inductionHypothesis =>
      have later : Dominates maxNodeRcReq rest := fun other member =>
        dominated other (List.mem_cons_of_mem _ member)
      unfold handedOut at some ⊢
      split at some
      · rename_i sufficient
        obtain ⟨remain, nonneg⟩ :=
          nonneg_of_isRequestSufficient sufficient quantity
            (dominated entry List.mem_cons_self quantity) limited
        have fits :
            ((handedOut maxNodeRcReq rest (exRc.getRequestRemainRc entry.2)).map
                ((·.component quantity) ∘ Prod.snd)).sum ≤
              (exRc.getRequestRemainRc entry.2).component quantity :=
          sum_handedOut_le later quantity (by omega)
        rw [if_pos sufficient, List.map_cons, List.sum_cons]
        change entry.2.component quantity + _ ≤ _
        omega
      · rename_i insufficient
        rw [if_neg insufficient]
        exact inductionHypothesis later some

/-- No two groups go to one executor. -/
def GroupsApart
    (nodes : List ComputeNodeModel)
    (executors : List Executor) : Prop :=
  ∀ first ∈ (nodeGroups nodes).entries, ∀ second ∈ (nodeGroups nodes).entries, ∀ index,
    groupTaker? executors first = some index →
    groupTaker? executors second = some index →
    first = second

/-- In every group the first request in the order of the sort is the largest in every
quantity. -/
def FirstDominates (nodes : List ComputeNodeModel) : Prop :=
  ∀ group ∈ (nodeGroups nodes).entries, ∀ largest rest,
    sortGroup group.2 = largest :: rest → Dominates largest.2 (largest :: rest)

/-- What an executor takes of its only group fits. -/
theorem covers_takenOf
    {executors : List Executor}
    {index : Nat}
    {ex : Executor}
    {group : String × List GroupedNode}
    (found : executors[index]? = some ex)
    (dominated :
      ∀ largest rest, sortGroup group.2 = largest :: rest →
        Dominates largest.2 (largest :: rest))
    (some : takenOf executors index group ≠ []) :
    ex.rc.Covers ((takenOf executors index group).map Prod.snd) := by
  unfold takenOf at some ⊢
  split at some
  · exact absurd rfl some
  · rename_i largest rest sorted
    simp only [found] at some ⊢
    split at some
    · rename_i taker
      rw [if_pos taker]
      exact covers_handedOut (dominated largest rest sorted) some
    · exact absurd rfl some

/-- An executor to which one group goes takes from that group only. -/
theorem takenBy_eq_takenOf
    {nodes : List ComputeNodeModel}
    {executors : List Executor}
    (apart : GroupsApart nodes executors)
    {index : Nat}
    (some : takenBy nodes executors index ≠ []) :
    ∃ group ∈ (nodeGroups nodes).entries,
      takenBy nodes executors index = takenOf executors index group := by
  obtain ⟨entry, taken⟩ := List.exists_mem_of_ne_nil _ some
  obtain ⟨group, listed, inGroup⟩ := List.mem_flatMap.mp taken
  refine ⟨group, listed, ?_⟩
  have taker := groupTaker?_of_mem_takenOf inGroup
  have onlyGroup :
      ∀ other ∈ (nodeGroups nodes).entries, other ≠ group →
        takenOf executors index other = [] := by
    intro other otherListed differ
    rw [List.eq_nil_iff_forall_not_mem]
    intro otherEntry otherTaken
    exact differ
      (apart other otherListed group listed index (groupTaker?_of_mem_takenOf otherTaken) taker)
  have distinct : (nodeGroups nodes).entries.Nodup := (nodeGroups nodes).nodup.of_map
  obtain ⟨before, after, split⟩ := List.append_of_mem listed
  rw [split] at distinct onlyGroup
  have once := (List.nodup_middle.mp distinct).notMem
  have none :
      ∀ others : List (String × List GroupedNode), (∀ other ∈ others, other ∈ before ++ after) →
        others.flatMap (takenOf executors index) = [] := by
    intro others within
    rw [List.flatMap_eq_nil_iff]
    intro other member
    have inRest := within other member
    refine onlyGroup other ?_ ?_
    · rcases List.mem_append.mp inRest with earlier | later
      · exact List.mem_append_left _ earlier
      · exact List.mem_append_right _ (List.mem_cons_of_mem _ later)
    · rintro rfl
      exact once inRest
  unfold takenBy
  rw [split, List.flatMap_append, List.flatMap_cons,
    none before fun other member => List.mem_append_left _ member,
    none after fun other member => List.mem_append_right _ member,
    List.nil_append, List.append_nil]

/-- What an assignment is made of. -/
theorem exists_firstPass
    {nodes : List ComputeNodeModel}
    {executors : List Executor}
    {assigned : Assignment}
    (returned : assignNodeExecutor nodes executors = .ok assigned) :
    ∃ placed, FirstPass nodes (placed, nodeGroups nodes) ∧
      assigned = (nodeGroups nodes).entries.foldl (assignGroup executors) placed := by
  have atFirst : FirstPass [] ((Dict.empty, Dict.empty) : Assignment × NodeGroups) :=
    ⟨by simp, rfl⟩
  unfold assignNodeExecutor at returned
  split at returned
  · rename_i none
    obtain rfl := List.isEmpty_iff.mp none
    obtain rfl := Except.ok.inj returned
    exact ⟨Dict.empty, atFirst, rfl⟩
  · obtain ⟨state, grouped, rest⟩ := PyResult.bind_eq_ok.mp returned
    obtain ⟨_, _, made⟩ := PyResult.bind_eq_ok.mp rest
    obtain rfl := Except.ok.inj made
    have pass := atFirst.foldlM grouped
    obtain ⟨placed, groups⟩ := state
    obtain rfl : groups = nodeGroups nodes := pass.groups
    exact ⟨placed, pass, rfl⟩

/-- A node of the default group that asks for GPUs and memory. -/
def sampleNode (id : String) (GPU Mem : Int) : ComputeNodeModel where
  id := id
  vResource := { CPU := 0, Mem := Mem, GPU := GPU, GPUMem := 0 }
  vExecId := ""
  runtime := ⟨⟨false, false, none⟩, [], []⟩

/-- An executor with two GPUs and ten units of memory. -/
def sampleExecutor : Executor where
  id := "remote"
  isLocal := false
  rc := { CPU := 8, Mem := 10, GPU := 2, GPUMem := 16 }

end TensorPC.Cflow
