import TensorPC.Cflow.HandleManager
import Mathlib.Data.List.Count

namespace TensorPC.Cflow.HandleManager

/-!
# Every handle is released once

The manager is a ledger: the places of a handle before an operation, together
with the places it gains, are its places afterwards together with those it lost.
A handle that lost its last place is released once for every place it lost, and
`release_all_handles` releases nothing, since every handle it lists has a place.
-/

open Computation

variable {Value : Type}

/-- The handles in the places of one node. -/
def nodeHandles (inputs : InputHandles) (node : NodeId) : List HandleId :=
  ((inputs.get? node).map Dict.values).getD []

/-- The handles in the places that new node inputs take over. -/
def overwritten (inputs : InputHandles) (nodeInputs : NodeInputs Value) : List HandleId :=
  nodeInputs.entries.flatMap fun entry =>
    entry.2.keys.filterMap (handleAt inputs entry.1)

namespace Operation

/-- The handles that lose a place in a call, once for every place they lose. -/
def lostPlaces (inputs : InputHandles) : Operation Value → List HandleId
  | mergeNewInputs nodeInputs =>
      overwritten inputs nodeInputs
  | mergeNewInputsShallow nodeInputs =>
      nodeInputs.keys.flatMap (nodeHandles inputs)
  | setNewInputs _ =>
      placedHandles inputs
  | removeAndMerge nodeIds nodeInputs =>
      nodeIds.flatMap (nodeHandles inputs) ++
        overwritten (inputs.eraseAll nodeIds) nodeInputs
  | forceAddNewInputs _ =>
      []

/-- The handles that gain a place in a call, once for every place they gain. -/
def gainedPlaces (uuid : Nat) (operation : Operation Value) : List HandleId :=
  placedHandles (handlesOf uuid operation.nodeInputs)

/-- The nodes to remove are there, and the nodes to add by force are not. -/
def accepted (inputs : InputHandles) : Operation Value → Prop
  | removeAndMerge nodeIds _ =>
      nodeIds.Nodup ∧ ∀ node ∈ nodeIds, (inputs.get? node).isSome
  | forceAddNewInputs nodeInputs =>
      ∀ node ∈ nodeInputs.keys, inputs.get? node = none
  | _ => True

end Operation

/-- The handles that were released so far, in order. -/
def Manager.releasedIds (manager : Manager Value) : List HandleId :=
  manager.released.map Release.id

/-- The calls for which the manager releases every handle once. -/
structure CallOk (manager : Manager Value) (operation : Operation Value) : Prop where
  /-- No assertion of the manager fails. -/
  accepted : operation.accepted manager.nodeIdToInputHandles
  /-- No handle that was released is handed in again. -/
  notReleased : ∀ id ∈ operation.handedIn, id ∉ manager.releasedIds
  /-- A handle that loses two places at once keeps or gains another one. -/
  dropsOnce :
    ∀ id ∈ operation.lostPlaces manager.nodeIdToInputHandles,
      (operation.lostPlaces manager.nodeIdToInputHandles).count id ≤ 1 ∨
        (operation.lostPlaces manager.nodeIdToInputHandles).count id <
          (placedHandles manager.nodeIdToInputHandles).count id +
            (operation.gainedPlaces manager.uuid).count id

/-- What the lifetime of handles should be, looking back at a manager. -/
structure LifetimeKept (manager : Manager Value) : Prop where
  releasedOnce : manager.releasedIds.Nodup
  notReferred : ∀ call ∈ manager.released, call.id ∉ placedHandles call.nodeInputs
  allReleased : ∀ id ∈ manager.entered, id ∈ manager.releasedIds

/-! ## Counting places -/

theorem count_placedHandles
    (inputs : InputHandles)
    (id : HandleId) :
    (placedHandles inputs).count id =
      inputs.total (fun handles => handles.values.count id) := by
  rw [placedHandles, List.count_flatMap]
  rfl

theorem count_values
    (handles : NodeHandles)
    (id : HandleId) :
    handles.values.count id = handles.total (fun other => [other].count id) := by
  have singletons : handles.values.flatMap (fun other => [other]) = handles.values := by
    simp
  rw [← singletons, List.count_flatMap]
  rfl

theorem weightAt_nodeHandles
    (inputs : InputHandles)
    (node : NodeId)
    (id : HandleId) :
    inputs.weightAt (fun handles => handles.values.count id) node =
      (nodeHandles inputs node).count id := by
  cases found : inputs.get? node <;> simp [Dict.weightAt, nodeHandles, found]

theorem count_placedHandles_set
    (inputs : InputHandles)
    (node : NodeId)
    (handles : NodeHandles)
    (id : HandleId) :
    (placedHandles (inputs.set node handles)).count id +
        (nodeHandles inputs node).count id =
      (placedHandles inputs).count id + handles.values.count id := by
  simp only [count_placedHandles, ← weightAt_nodeHandles]
  exact Dict.total_set _ inputs node handles

theorem count_placedHandles_erase
    (inputs : InputHandles)
    (node : NodeId)
    (id : HandleId) :
    (placedHandles (inputs.erase node)).count id +
        (nodeHandles inputs node).count id =
      (placedHandles inputs).count id := by
  simp only [count_placedHandles, ← weightAt_nodeHandles]
  exact Dict.total_erase _ inputs node

theorem count_values_update
    (handles other : NodeHandles)
    (id : HandleId) :
    (handles.update other.entries).values.count id +
        (other.keys.filterMap handles.get?).count id =
      handles.values.count id + other.values.count id := by
  have overwrites :
      ∀ names : List HandleName,
        (names.filterMap handles.get?).count id =
          (names.map (handles.weightAt fun other => [other].count id)).sum := by
    intro names
    induction names with
    | nil =>
        rfl
    | cons name rest inductionHypothesis =>
        cases found : handles.get? name with
        | none =>
            simp [Dict.weightAt, found, inductionHypothesis]
        | some old =>
            have weight :
                handles.weightAt (fun other => [other].count id) name =
                  [old].count id := by
              simp only [Dict.weightAt, found, Option.map_some, Option.getD_some]
            rw [List.filterMap_cons_some found, List.map_cons, List.sum_cons,
              weight, ← inductionHypothesis]
            rw [← List.count_append, List.singleton_append]
  simp only [count_values, overwrites]
  exact Dict.total_update _ handles other

/-! ## The loops -/

/-- One round of a merging loop loses no place. -/
def Conserves
    (mergeNode :
      InputHandles × List HandleId → NodeId × NodeHandles → InputHandles × List HandleId) :
    Prop :=
  ∀ state entry id,
    (placedHandles (mergeNode state entry).1).count id +
        (mergeNode state entry).2.count id =
      (placedHandles state.1).count id + state.2.count id +
        entry.2.values.count id

theorem conserves_mergeNode : Conserves mergeNode := by
  rintro ⟨inputs, toRelease⟩ ⟨node, handles⟩ id
  cases found : inputs.get? node with
  | none =>
      have set := count_placedHandles_set inputs node handles id
      simp only [nodeHandles, found, Option.map_none, Option.getD_none,
        List.count_nil] at set
      simp only [mergeNode, found]
      omega
  | some prevInputs =>
      have set :=
        count_placedHandles_set inputs node (prevInputs.update handles.entries) id
      have updated := count_values_update prevInputs handles id
      simp only [nodeHandles, found, Option.map_some, Option.getD_some] at set
      simp only [mergeNode, found, List.count_append]
      omega

theorem conserves_mergeNodeShallow : Conserves mergeNodeShallow := by
  rintro ⟨inputs, toRelease⟩ ⟨node, handles⟩ id
  have set := count_placedHandles_set inputs node handles id
  simp only [nodeHandles] at set
  simp only [mergeNodeShallow, List.count_append]
  omega

/-- A whole merging loop loses no place. -/
theorem Conserves.foldl
    {mergeNode :
      InputHandles × List HandleId → NodeId × NodeHandles → InputHandles × List HandleId}
    (conserves : Conserves mergeNode)
    (state : InputHandles × List HandleId)
    (handles : InputHandles)
    (id : HandleId) :
    (placedHandles (handles.entries.foldl mergeNode state).1).count id +
        (handles.entries.foldl mergeNode state).2.count id =
      (placedHandles state.1).count id + state.2.count id +
        (placedHandles handles).count id := by
  rcases handles with ⟨entries, nodup⟩
  simp only [placedHandles, Dict.values, List.flatMap_map] at *
  clear nodup
  induction entries generalizing state with
  | nil =>
      simp
  | cons entry rest inductionHypothesis =>
      have stepped := conserves state entry id
      simp only [placedHandles, Dict.values, List.flatMap_map] at stepped
      rw [List.foldl_cons, inductionHypothesis, List.flatMap_cons, List.count_append]
      omega

/-- A merging loop over distinct nodes puts up what each round puts up at its start. -/
theorem foldl_toRelease
    {mergeNode :
      InputHandles × List HandleId → NodeId × NodeHandles → InputHandles × List HandleId}
    (lost : InputHandles → NodeId × NodeHandles → List HandleId)
    (round :
      ∀ state entry, ∃ handles,
        mergeNode state entry =
          (state.1.set entry.1 handles, state.2 ++ lost state.1 entry))
    (local_lost :
      ∀ inputs other entry,
        inputs.get? entry.1 = other.get? entry.1 → lost inputs entry = lost other entry)
    {entries : List (NodeId × NodeHandles)}
    (nodup : (entries.map Prod.fst).Nodup)
    (state : InputHandles × List HandleId) :
    (entries.foldl mergeNode state).2 = state.2 ++ entries.flatMap (lost state.1) := by
  induction entries generalizing state with
  | nil =>
      simp
  | cons entry rest inductionHypothesis =>
      simp only [List.map_cons, List.nodup_cons] at nodup
      obtain ⟨handles, stepped⟩ := round state entry
      have later :
          rest.flatMap (lost (state.1.set entry.1 handles)) = rest.flatMap (lost state.1) := by
        refine List.flatMap_congr fun other inRest => local_lost _ _ _ ?_
        have different : other.1 ≠ entry.1 := by
          intro same
          exact nodup.1 (same ▸ List.mem_map_of_mem inRest)
        exact Dict.get?_set_ne _ _ different
      rw [List.foldl_cons, stepped, inductionHypothesis nodup.2, later,
        List.flatMap_cons, List.append_assoc]

/-! ## What an operation does -/

/-- What a call does, given the places gained and lost. -/
structure Effect
    (before after : Manager Value)
    (gained lost : List HandleId) :
    Prop where
  uuid : after.uuid = before.uuid + 1
  entered : after.entered = before.entered ++ gained
  released :
    after.released =
      before.released ++
        (lost.filter (· ∉ placedHandles after.nodeIdToInputHandles)).map
          fun id => ⟨id, after.nodeIdToInputHandles⟩
  conserved :
    ∀ id,
      (placedHandles after.nodeIdToInputHandles).count id + lost.count id =
        (placedHandles before.nodeIdToInputHandles).count id + gained.count id

/-- `_release_handles` releases the listed handles that have no place. -/
theorem releaseHandles_spec
    (toRelease : List HandleId)
    (manager : Manager Value) :
    ∃ data,
      releaseHandles toRelease manager = .ok () {
        manager with
        data := data
        released :=
          manager.released ++
            (toRelease.filter
              (· ∉ placedHandles manager.nodeIdToInputHandles)).map
                fun id => ⟨id, manager.nodeIdToInputHandles⟩ } := by
  have loop :
      ∀ current : Manager Value,
        current.nodeIdToInputHandles = manager.nodeIdToInputHandles →
        ∃ data,
          toRelease.foldl
              (fun current id =>
                if id ∉ placedHandles manager.nodeIdToInputHandles ∧
                    id ∉ ([] : List HandleId) then
                  release id current
                else
                  current)
              current = {
            current with
            data := data
            released :=
              current.released ++
                (toRelease.filter
                  (· ∉ placedHandles manager.nodeIdToInputHandles)).map
                    fun id => ⟨id, manager.nodeIdToInputHandles⟩ } := by
    induction toRelease with
    | nil =>
        intro current _
        exact ⟨current.data, by simp⟩
    | cons id rest inductionHypothesis =>
        intro current same
        rw [List.foldl_cons]
        by_cases placed : id ∈ placedHandles manager.nodeIdToInputHandles
        · obtain ⟨data, computed⟩ := inductionHypothesis current same
          refine ⟨data, ?_⟩
          rw [if_neg (by simp [placed]), computed]
          simp [placed]
        · obtain ⟨data, computed⟩ := inductionHypothesis (release id current) same
          refine ⟨data, ?_⟩
          rw [if_pos (by simp [placed]), computed]
          simp [placed, release, same]
  obtain ⟨data, computed⟩ := loop manager rfl
  refine ⟨data, ?_⟩
  simp only [releaseHandles, Computation.modify_apply, computed]

/-- The end of every call: the inputs are exchanged and the lost handles released. -/
theorem effect_of_releaseHandles
    {before : Manager Value}
    {nodeInputs : NodeInputs Value}
    {inputs : InputHandles}
    {lost : List HandleId}
    {middle : Manager Value}
    (unchanged :
      middle.uuid = before.uuid + 1 ∧
        middle.released = before.released ∧
          middle.entered =
            before.entered ++ placedHandles (handlesOf before.uuid nodeInputs))
    (exchanged : middle.nodeIdToInputHandles = inputs)
    (conserved :
      ∀ id,
        (placedHandles inputs).count id + lost.count id =
          (placedHandles before.nodeIdToInputHandles).count id +
            (placedHandles (handlesOf before.uuid nodeInputs)).count id) :
    Effect before (stateAfter (releaseHandles lost) middle)
      (placedHandles (handlesOf before.uuid nodeInputs)) lost := by
  obtain ⟨data, released⟩ := releaseHandles_spec lost middle
  obtain ⟨uuid, releasedBefore, entered⟩ := unchanged
  subst exchanged
  simp only [stateAfter, released]
  exact ⟨uuid, entered, by rw [releasedBefore], conserved⟩

/-- A merging loop after some nodes were taken out. -/
theorem effect_mergeBy
    {mergeNode :
      InputHandles × List HandleId → NodeId × NodeHandles → InputHandles × List HandleId}
    (conserves : Conserves mergeNode)
    (before : Manager Value)
    (nodeInputs : NodeInputs Value)
    (remaining : InputHandles)
    (removed : List HandleId)
    (taken :
      ∀ id,
        (placedHandles remaining).count id + removed.count id =
          (placedHandles before.nodeIdToInputHandles).count id) :
    Effect before
      (stateAfter (mergeBy mergeNode nodeInputs removed)
        { before with nodeIdToInputHandles := remaining })
      (placedHandles (handlesOf before.uuid nodeInputs))
      ((handlesOf before.uuid nodeInputs).entries.foldl mergeNode (remaining, removed)).2 := by
  have conserved :
      ∀ id,
        (placedHandles
            ((handlesOf before.uuid nodeInputs).entries.foldl mergeNode
              (remaining, removed)).1).count id +
            ((handlesOf before.uuid nodeInputs).entries.foldl mergeNode
              (remaining, removed)).2.count id =
          (placedHandles before.nodeIdToInputHandles).count id +
            (placedHandles (handlesOf before.uuid nodeInputs)).count id := by
    intro id
    rw [conserves.foldl, ← taken id]
  exact effect_of_releaseHandles ⟨rfl, rfl, rfl⟩ rfl conserved

theorem overwritten_handlesOf
    (uuid : Nat)
    (inputs : InputHandles)
    (nodeInputs : NodeInputs Value) :
    (handlesOf uuid nodeInputs).entries.flatMap
        (fun entry => entry.2.keys.filterMap (handleAt inputs entry.1)) =
      overwritten inputs nodeInputs := by
  simp [handlesOf, overwritten, Dict.mapWithKey, Dict.keys, List.flatMap_map]

theorem toRelease_mergeNode
    (uuid : Nat)
    (inputs : InputHandles)
    (nodeInputs : NodeInputs Value)
    (removed : List HandleId) :
    ((handlesOf uuid nodeInputs).entries.foldl mergeNode (inputs, removed)).2 =
      removed ++ overwritten inputs nodeInputs := by
  rw [← overwritten_handlesOf uuid]
  refine foldl_toRelease
    (fun inputs entry => entry.2.keys.filterMap (handleAt inputs entry.1))
    (fun state entry => ⟨_, mergeNode_eq state.1 state.2 entry.1 entry.2⟩)
    ?_ (handlesOf uuid nodeInputs).nodup (inputs, removed)
  intro inputs other entry same
  have sameNode : handleAt inputs entry.1 = handleAt other entry.1 := by
    funext name
    simp only [handleAt, same]
  rw [sameNode]

theorem toRelease_mergeNodeShallow
    (uuid : Nat)
    (inputs : InputHandles)
    (nodeInputs : NodeInputs Value) :
    ((handlesOf uuid nodeInputs).entries.foldl mergeNodeShallow (inputs, [])).2 =
      nodeInputs.keys.flatMap (nodeHandles inputs) := by
  have listed :
      (handlesOf uuid nodeInputs).entries.flatMap
          (fun entry => nodeHandles inputs entry.1) =
        nodeInputs.keys.flatMap (nodeHandles inputs) := by
    simp [handlesOf, Dict.mapWithKey, Dict.keys, List.flatMap_map]
  rw [← listed]
  refine foldl_toRelease (fun inputs entry => nodeHandles inputs entry.1)
    (fun state entry => ⟨entry.2, rfl⟩) ?_ (handlesOf uuid nodeInputs).nodup (inputs, [])
  intro inputs other entry same
  simp only [nodeHandles, same]

/-- Taking present nodes out of the inputs. -/
theorem removeNodes_spec
    {nodeIds : List NodeId}
    (nodup : nodeIds.Nodup)
    (removed : List HandleId)
    (manager : Manager Value)
    (present :
      ∀ node ∈ nodeIds, (manager.nodeIdToInputHandles.get? node).isSome) :
    removeNodes nodeIds removed manager =
        .ok (removed ++ nodeIds.flatMap (nodeHandles manager.nodeIdToInputHandles)) {
          manager with
          nodeIdToInputHandles := manager.nodeIdToInputHandles.eraseAll nodeIds } ∧
      ∀ id,
        (placedHandles (manager.nodeIdToInputHandles.eraseAll nodeIds)).count id +
            (nodeIds.flatMap (nodeHandles manager.nodeIdToInputHandles)).count id =
          (placedHandles manager.nodeIdToInputHandles).count id := by
  induction nodeIds generalizing removed manager with
  | nil =>
      exact ⟨by simp [removeNodes, Dict.eraseAll], fun id => by simp [Dict.eraseAll]⟩
  | cons nodeId rest inductionHypothesis =>
      obtain ⟨isNew, restNodup⟩ := List.nodup_cons.mp nodup
      obtain ⟨handles, found⟩ := Option.isSome_iff_exists.mp (present nodeId (by simp))
      have unchanged :
          ∀ node ∈ rest,
            (manager.nodeIdToInputHandles.erase nodeId).get? node =
              manager.nodeIdToInputHandles.get? node := by
        intro node inRest
        have different : node ≠ nodeId := by
          rintro rfl
          exact isNew inRest
        rw [Dict.get?_erase, if_neg different]
      obtain ⟨computed, counted⟩ :=
        inductionHypothesis restNodup (removed ++ handles.values)
          { manager with nodeIdToInputHandles := manager.nodeIdToInputHandles.erase nodeId }
          (fun node inRest => by
            rw [unchanged node inRest]
            exact present node (List.mem_cons_of_mem _ inRest))
      have later :
          rest.flatMap (nodeHandles (manager.nodeIdToInputHandles.erase nodeId)) =
            rest.flatMap (nodeHandles manager.nodeIdToInputHandles) :=
        List.flatMap_congr fun node inRest => by
          simp only [nodeHandles, unchanged node inRest]
      have first : nodeHandles manager.nodeIdToInputHandles nodeId = handles.values := by
        simp only [nodeHandles, found, Option.map_some, Option.getD_some]
      constructor
      · have started :
            removeNodes (nodeId :: rest) removed manager =
              removeNodes rest (removed ++ handles.values) {
                manager with
                nodeIdToInputHandles := manager.nodeIdToInputHandles.erase nodeId } := by
          simp only [removeNodes, bind, EStateM.bind, Computation.get_apply, found,
            Computation.modify_apply]
        rw [started, computed, later, List.flatMap_cons, first, List.append_assoc]
        rfl
      · intro id
        have erased := count_placedHandles_erase manager.nodeIdToInputHandles nodeId id
        have counted := counted id
        rw [later] at counted
        rw [List.flatMap_cons, List.count_append]
        simp only [Dict.eraseAll, List.foldl_cons] at counted ⊢
        omega

/-- Adding nodes that are not there. -/
theorem addNodes_spec
    {entries : List (NodeId × NodeHandles)}
    (nodup : (entries.map Prod.fst).Nodup)
    (manager : Manager Value)
    (absent :
      ∀ node ∈ entries.map Prod.fst, manager.nodeIdToInputHandles.get? node = none) :
    addNodes entries manager =
        .ok () {
          manager with
          nodeIdToInputHandles := manager.nodeIdToInputHandles.update entries } ∧
      ∀ id,
        (placedHandles (manager.nodeIdToInputHandles.update entries)).count id =
          (placedHandles manager.nodeIdToInputHandles).count id +
            (entries.flatMap (fun entry => entry.2.values)).count id := by
  induction entries generalizing manager with
  | nil =>
      exact ⟨rfl, fun id => by simp [Dict.update]⟩
  | cons entry rest inductionHypothesis =>
      rcases entry with ⟨nodeId, handles⟩
      simp only [List.map_cons, List.nodup_cons] at nodup
      have isAbsent := absent nodeId (by simp)
      obtain ⟨computed, counted⟩ :=
        inductionHypothesis nodup.2 {
            manager with
            nodeIdToInputHandles := manager.nodeIdToInputHandles.set nodeId handles }
          (fun node inRest => by
            have different : node ≠ nodeId := by
              rintro rfl
              exact nodup.1 inRest
            rw [Dict.get?_set_ne _ _ different]
            exact absent node (List.mem_cons_of_mem _ inRest))
      constructor
      · have started :
            addNodes ((nodeId, handles) :: rest) manager =
              addNodes rest {
                manager with
                nodeIdToInputHandles := manager.nodeIdToInputHandles.set nodeId handles } := by
          simp only [addNodes, bind, EStateM.bind, Computation.get_apply, isAbsent,
            Option.isSome_none, Bool.false_eq_true, ↓reduceIte, Computation.modify_apply]
        rw [started, computed]
        rfl
      · intro id
        have set := count_placedHandles_set manager.nodeIdToInputHandles nodeId handles id
        have counted := counted id
        simp only [nodeHandles, isAbsent, Option.map_none, Option.getD_none,
          List.count_nil] at set
        simp only [Dict.update, List.foldl_cons, List.flatMap_cons,
          List.count_append] at counted ⊢
        omega

/-- Every accepted call exchanges the places it gains for those it loses. -/
theorem effect_action
    {manager : Manager Value}
    {operation : Operation Value}
    (accepted : operation.accepted manager.nodeIdToInputHandles) :
    Effect manager (stateAfter operation.action manager)
      (operation.gainedPlaces manager.uuid)
      (operation.lostPlaces manager.nodeIdToInputHandles) := by
  cases operation with
  | mergeNewInputs nodeInputs =>
      have effect :=
        effect_mergeBy conserves_mergeNode manager nodeInputs
          manager.nodeIdToInputHandles [] (fun id => by simp)
      rw [toRelease_mergeNode, List.nil_append] at effect
      exact effect
  | mergeNewInputsShallow nodeInputs =>
      have effect :=
        effect_mergeBy conserves_mergeNodeShallow manager nodeInputs
          manager.nodeIdToInputHandles [] (fun id => by simp)
      rw [toRelease_mergeNodeShallow] at effect
      exact effect
  | setNewInputs nodeInputs =>
      exact effect_of_releaseHandles ⟨rfl, rfl, rfl⟩ rfl fun id => Nat.add_comm _ _
  | removeAndMerge nodeIds nodeInputs =>
      obtain ⟨nodup, present⟩ := accepted
      obtain ⟨removes, taken⟩ := removeNodes_spec nodup [] manager present
      have effect :=
        effect_mergeBy conserves_mergeNode manager nodeInputs
          (manager.nodeIdToInputHandles.eraseAll nodeIds)
          (nodeIds.flatMap (nodeHandles manager.nodeIdToInputHandles)) taken
      rw [toRelease_mergeNode] at effect
      have merges :
          stateAfter (removeAndMerge nodeIds nodeInputs) manager =
            stateAfter
              (mergeBy mergeNode nodeInputs
                (nodeIds.flatMap (nodeHandles manager.nodeIdToInputHandles))) {
              manager with
              nodeIdToInputHandles := manager.nodeIdToInputHandles.eraseAll nodeIds } := by
        simp only [removeAndMerge, stateAfter_bind, removes, List.nil_append]
        rfl
      simp only [Operation.action, merges]
      exact effect
  | forceAddNewInputs nodeInputs =>
      have names :
          (handlesOf manager.uuid nodeInputs).entries.map Prod.fst = nodeInputs.keys := by
        simp [handlesOf, Dict.mapWithKey, Dict.keys, Function.comp_def]
      obtain ⟨adds, counted⟩ :=
        addNodes_spec (handlesOf manager.uuid nodeInputs).nodup
          (stateAfter (nodeInputsToHandle nodeInputs) manager)
          (fun node member => accepted node (names ▸ member))
      have continues :
          forceAddNewInputs nodeInputs manager =
            addNodes (handlesOf manager.uuid nodeInputs).entries
              (stateAfter (nodeInputsToHandle nodeInputs) manager) :=
        rfl
      simp only [Operation.action]
      rw [stateAfter, continues, adds]
      refine ⟨rfl, rfl, (List.append_nil _).symm, fun id => ?_⟩
      have placed :
          (handlesOf manager.uuid nodeInputs).entries.flatMap
              (fun entry => entry.2.values) =
            placedHandles (handlesOf manager.uuid nodeInputs) := by
        simp only [placedHandles, Dict.values, List.flatMap_map]
      rw [placed] at counted
      exact counted id

/-! ## Runs -/

theorem mem_gainedPlaces
    {uuid : Nat}
    {operation : Operation Value}
    {id : HandleId}
    (gained : id ∈ operation.gainedPlaces uuid) :
    id ∈ operation.handedIn ∨ ∃ node name, id = .input uuid node name := by
  simp only [Operation.gainedPlaces, placedHandles, handlesOf, Dict.mapWithKey,
    Dict.values, List.map_map, List.flatMap_map, List.mem_flatMap, List.mem_map,
    Function.comp_apply] at gained
  obtain ⟨⟨node, inp⟩, inNodes, ⟨name, input⟩, inInputs, isHandle⟩ := gained
  cases input with
  | handle other =>
      refine .inl (List.mem_flatMap.mpr ⟨inp, List.mem_map_of_mem inNodes, ?_⟩)
      exact List.mem_filterMap.mpr
        ⟨.handle other, List.mem_map_of_mem inInputs, congrArg some isHandle⟩
  | data value =>
      exact .inr ⟨node, name, isHandle.symm⟩

theorem isDrawn_succ
    {uuid : Nat}
    {id : HandleId}
    (drawn : isDrawn uuid id = true) :
    isDrawn (uuid + 1) id = true := by
  cases id with
  | output drawnUuid name =>
      rfl
  | input drawnUuid node name =>
      simp only [isDrawn, decide_eq_true_eq] at drawn ⊢
      omega

theorem isDrawn_gainedPlaces
    {uuid : Nat}
    {operation : Operation Value}
    (handedIn : operation.handedIn.all (isDrawn uuid) = true)
    {id : HandleId}
    (gained : id ∈ operation.gainedPlaces uuid) :
    isDrawn (uuid + 1) id = true := by
  rcases mem_gainedPlaces gained with handed | ⟨node, name, rfl⟩
  · exact isDrawn_succ (List.all_eq_true.mp handedIn id handed)
  · simp [isDrawn]

/-- What every sequence of calls that meet the condition keeps. -/
structure Ledger (manager : Manager Value) : Prop where
  releasedOnce : manager.releasedIds.Nodup
  notReferred : ∀ call ∈ manager.released, call.id ∉ placedHandles call.nodeInputs
  accounted :
    ∀ id ∈ manager.entered,
      id ∈ placedHandles manager.nodeIdToInputHandles ∨ id ∈ manager.releasedIds
  exclusive :
    ∀ id ∈ placedHandles manager.nodeIdToInputHandles, id ∉ manager.releasedIds
  placedEntered :
    ∀ id ∈ placedHandles manager.nodeIdToInputHandles, id ∈ manager.entered
  releasedEntered : ∀ id ∈ manager.releasedIds, id ∈ manager.entered
  drawn : ∀ id ∈ manager.entered, isDrawn manager.uuid id = true

namespace Effect

variable {before after : Manager Value} {gained lost : List HandleId}

theorem releasedIds_eq (effect : Effect before after gained lost) :
    after.releasedIds =
      before.releasedIds ++
        lost.filter (· ∉ placedHandles after.nodeIdToInputHandles) := by
  simp only [Manager.releasedIds, effect.released, List.map_append, List.map_map,
    Function.comp_def, List.map_id']

theorem mem_iff
    (effect : Effect before after gained lost)
    (id : HandleId) :
    id ∈ placedHandles after.nodeIdToInputHandles ∨ id ∈ lost ↔
      id ∈ placedHandles before.nodeIdToInputHandles ∨ id ∈ gained := by
  have conserved := effect.conserved id
  simp only [← List.count_pos_iff]
  omega

/-- The released handles lost all their places. -/
theorem nodup_released
    (effect : Effect before after gained lost)
    (dropsOnce :
      ∀ id ∈ lost,
        lost.count id ≤ 1 ∨
          lost.count id <
            (placedHandles before.nodeIdToInputHandles).count id + gained.count id) :
    (lost.filter (· ∉ placedHandles after.nodeIdToInputHandles)).Nodup := by
  refine List.nodup_iff_count_le_one.mpr fun id => ?_
  by_cases isReleased :
      id ∈ lost.filter (· ∉ placedHandles after.nodeIdToInputHandles)
  · obtain ⟨isLost, noPlace⟩ := List.mem_filter.mp isReleased
    have noPlace : (placedHandles after.nodeIdToInputHandles).count id = 0 :=
      List.count_eq_zero.mpr (by simpa using noPlace)
    have conserved := effect.conserved id
    have fewer := List.Sublist.count_le id
      (List.filter_sublist (l := lost)
        (p := fun other => decide (other ∉ placedHandles after.nodeIdToInputHandles)))
    rcases dropsOnce id isLost with once | less
    · omega
    · omega
  · rw [List.count_eq_zero.mpr isReleased]
    exact Nat.zero_le 1

/-- A call whose handles are not released yet, and drop once, keeps the ledger. -/
theorem ledger
    (effect : Effect before after gained lost)
    (ledger : Ledger before)
    (notReleased : ∀ id ∈ gained, id ∉ before.releasedIds)
    (drawn : ∀ id ∈ gained, isDrawn after.uuid id = true)
    (dropsOnce :
      ∀ id ∈ lost,
        lost.count id ≤ 1 ∨
          lost.count id <
            (placedHandles before.nodeIdToInputHandles).count id + gained.count id) :
    Ledger after := by
  have unreleased :
      ∀ id,
        id ∈ placedHandles after.nodeIdToInputHandles ∨ id ∈ lost →
        id ∉ before.releasedIds := by
    intro id present
    rcases (effect.mem_iff id).mp present with placed | isGained
    · exact ledger.exclusive id placed
    · exact notReleased id isGained
  have entered :
      ∀ id,
        id ∈ placedHandles after.nodeIdToInputHandles ∨ id ∈ lost →
        id ∈ after.entered := by
    intro id present
    rw [effect.entered, List.mem_append]
    exact ((effect.mem_iff id).mp present).imp_left (ledger.placedEntered id)
  refine ⟨?_, ?_, ?_, ?_, fun id placed => entered id (.inl placed), ?_, ?_⟩
  · rw [effect.releasedIds_eq, List.nodup_append]
    refine ⟨ledger.releasedOnce, effect.nodup_released dropsOnce, ?_⟩
    rintro id wasReleased _ isReleased rfl
    exact unreleased id (.inr (List.mem_filter.mp isReleased).1) wasReleased
  · intro call member
    rw [effect.released, List.mem_append] at member
    rcases member with earlier | now
    · exact ledger.notReferred call earlier
    · obtain ⟨id, isReleased, rfl⟩ := List.mem_map.mp now
      simpa using (List.mem_filter.mp isReleased).2
  · intro id isEntered
    rw [effect.entered, List.mem_append] at isEntered
    rw [effect.releasedIds_eq, List.mem_append, List.mem_filter]
    have present :
        id ∈ before.releasedIds ∨
          (id ∈ placedHandles after.nodeIdToInputHandles ∨ id ∈ lost) := by
      rcases isEntered with earlier | isGained
      · rcases ledger.accounted id earlier with placed | wasReleased
        · exact .inr ((effect.mem_iff id).mpr (.inl placed))
        · exact .inl wasReleased
      · exact .inr ((effect.mem_iff id).mpr (.inr isGained))
    by_cases placed : id ∈ placedHandles after.nodeIdToInputHandles
    · exact .inl placed
    · rcases present with wasReleased | isPlaced | isLost
      · exact .inr (.inl wasReleased)
      · exact absurd isPlaced placed
      · exact .inr (.inr ⟨isLost, by simpa using placed⟩)
  · intro id placed isReleased
    rw [effect.releasedIds_eq, List.mem_append] at isReleased
    rcases isReleased with wasReleased | now
    · exact unreleased id (.inl placed) wasReleased
    · have noPlace := (List.mem_filter.mp now).2
      simp [placed] at noPlace
  · intro id isReleased
    rw [effect.releasedIds_eq, List.mem_append] at isReleased
    rcases isReleased with wasReleased | now
    · rw [effect.entered, List.mem_append]
      exact .inl (ledger.releasedEntered id wasReleased)
    · exact entered id (.inr (List.mem_filter.mp now).1)
  · intro id isEntered
    rw [effect.entered, List.mem_append] at isEntered
    rcases isEntered with earlier | isGained
    · rw [effect.uuid]
      exact isDrawn_succ (ledger.drawn id earlier)
    · exact drawn id isGained

end Effect

theorem ledger_construct
    (nodeInputs : NodeInputs Value)
    (data : HandleId → Option Value)
    {uuid : Nat}
    (handedIn :
      (Operation.setNewInputs nodeInputs).handedIn.all (isDrawn uuid) = true) :
    Ledger (construct nodeInputs data uuid) where
  releasedOnce := List.nodup_nil
  notReferred := fun _ member => nomatch member
  accounted := fun _ member => .inl member
  exclusive := fun _ _ => List.not_mem_nil
  placedEntered := fun _ member => member
  releasedEntered := fun _ member => nomatch member
  drawn := fun _ member => isDrawn_gainedPlaces handedIn member

/-- A call that meets the condition keeps the ledger. -/
theorem ledger_of_step
    {before after : Manager Value}
    {operation : Operation Value}
    (ledger : Ledger before)
    (callOk : CallOk before operation)
    (stepped : step before operation = some after) :
    Ledger after := by
  simp only [step] at stepped
  split at stepped
  · rename_i handedIn
    cases stepped
    have effect := effect_action callOk.accepted
    refine effect.ledger ledger ?_ ?_ callOk.dropsOnce
    · intro id gained wasReleased
      rcases mem_gainedPlaces gained with handed | ⟨node, name, rfl⟩
      · exact callOk.notReleased id handed wasReleased
      · have drawn := ledger.drawn _ (ledger.releasedEntered _ wasReleased)
        simp [isDrawn] at drawn
    · intro id gained
      rw [effect.uuid]
      exact isDrawn_gainedPlaces handedIn gained
  · cases stepped

/-- `release_all_handles` releases nothing. -/
theorem releaseAllHandles_released (manager : Manager Value) :
    (stateAfter releaseAllHandles manager).released = manager.released ∧
      (stateAfter releaseAllHandles manager).entered = manager.entered := by
  obtain ⟨data, computed⟩ :=
    releaseHandles_spec (placedHandles manager.nodeIdToInputHandles) manager
  have nothing :
      (placedHandles manager.nodeIdToInputHandles).filter
          (· ∉ placedHandles manager.nodeIdToInputHandles) =
        [] := by
    refine List.filter_eq_nil_iff.mpr fun id member => ?_
    simp [member]
  rw [nothing, List.map_nil, List.append_nil] at computed
  have continues :
      stateAfter releaseAllHandles manager =
        stateAfter
          (releaseHandles (placedHandles manager.nodeIdToInputHandles) >>= fun _ =>
            modify ({ · with nodeIdToInputHandles := Dict.empty }))
          manager :=
    rfl
  rw [continues, stateAfter_bind, computed]
  exact ⟨rfl, rfl⟩

/-- After calls that meet the condition, `release_all_handles` ends the lifetime of
every handle as it should exactly when no node input holds a handle any more. -/
theorem releaseAllHandles_lifetime
    {nodeInputs : NodeInputs Value}
    {data : HandleId → Option Value}
    {uuid : Nat}
    {operations : List (Operation Value)}
    {manager : Manager Value}
    (handedIn :
      (Operation.setNewInputs nodeInputs).handedIn.all (isDrawn uuid) = true)
    (run :
      Transition.Run step CallOk (construct nodeInputs data uuid) operations manager) :
    LifetimeKept (stateAfter releaseAllHandles manager) ↔
      placedHandles manager.nodeIdToInputHandles = [] := by
  have ledger : Ledger manager :=
    run.invariant (ledger_construct nodeInputs data handedIn)
      fun _ _ _ ledger callOk stepped => ledger_of_step ledger callOk stepped
  obtain ⟨released, entered⟩ := releaseAllHandles_released manager
  constructor
  · intro kept
    refine List.eq_nil_iff_forall_not_mem.mpr fun id placed => ?_
    have isReleased :=
      kept.allReleased id (entered ▸ ledger.placedEntered id placed)
    rw [Manager.releasedIds, released] at isReleased
    exact ledger.exclusive id placed isReleased
  · intro empty
    refine ⟨?_, ?_, ?_⟩
    · rw [Manager.releasedIds, released]
      exact ledger.releasedOnce
    · rw [released]
      exact ledger.notReferred
    · intro id isEntered
      rw [entered] at isEntered
      rw [Manager.releasedIds, released]
      rcases ledger.accounted id isEntered with placed | isReleased
      · rw [empty] at placed
        cases placed
      · exact isReleased

/-! ## A shared handle -/

/-- The inputs of nodes `a` and `b`, both of which hold the handle of one output. -/
def sharedInputs : NodeInputs Nat :=
  Dict.ofList [
    ("a", Dict.ofList [("x", .handle (.output 0 "y"))]),
    ("b", Dict.ofList [("x", .handle (.output 0 "y"))])]

/-- The manager that starts with these inputs. -/
def sharedManager : Manager Nat :=
  construct sharedInputs (fun _ => some 5) 1

/-- Taking the nodes out one after the other releases the shared handle once. -/
theorem releaseAllHandles_lifetime_shared :
    ∃ manager,
      Transition.Run step CallOk sharedManager
          [.removeAndMerge ["a"] Dict.empty, .removeAndMerge ["b"] Dict.empty] manager ∧
        manager.releasedIds = [.output 0 "y"] ∧
          LifetimeKept (stateAfter releaseAllHandles manager) := by
  have first : CallOk sharedManager (.removeAndMerge ["a"] Dict.empty) :=
    ⟨by simp only [Operation.accepted]; decide, by decide, by decide⟩
  have second :
      CallOk
        (stateAfter (Operation.removeAndMerge ["a"] Dict.empty).action sharedManager)
        (.removeAndMerge ["b"] Dict.empty) :=
    ⟨by simp only [Operation.accepted]; decide, by decide, by decide⟩
  have once : Transition.Run step CallOk sharedManager [.removeAndMerge ["a"] Dict.empty] _ :=
    @Transition.Run.next _ _ _ _ _ _ _ _ _ .start first rfl
  have run := @Transition.Run.next _ _ _ _ _ _ _ _ _ once second rfl
  exact ⟨_, run, by decide, (releaseAllHandles_lifetime (by decide) run).mpr (by decide)⟩

/-- A handle that is still an input is never released, and one that is dropped by two
inputs at once is released twice. -/
theorem releaseAllHandles_not_lifetime :
    ¬ LifetimeKept (stateAfter releaseAllHandles sharedManager) ∧
      ¬ LifetimeKept
        (stateAfter releaseAllHandles
          (stateAfter (setNewInputs Dict.empty) sharedManager)) :=
  ⟨fun kept => absurd (kept.allReleased (.output 0 "y") (by decide)) (by decide),
    fun kept => absurd kept.releasedOnce (by decide)⟩

end TensorPC.Cflow.HandleManager
