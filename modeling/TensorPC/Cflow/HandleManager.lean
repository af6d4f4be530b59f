import TensorPC.Cflow.DataHandle
import TensorPC.Lib.Computation
import TensorPC.Lib.Transition

namespace TensorPC.Cflow.HandleManager

/-!
# The lifetime of data handles

The data handle manager with every operation it offers.  Next to the node inputs,
the state records the calls of `DataHandle.release` and the handles that entered.
Every operation first edits the node inputs and lists the handles that lost a
place, then passes that list to `_release_handles`.
-/

variable {Value : Type}

/-- A node input: a handle, or a value that is not one. -/
inductive NodeInput (Value : Type)
  | handle (id : HandleId)
  | data (value : Value)

/-- `dict[str, dict[str, Any]]`. -/
abbrev NodeInputs (Value : Type) := Dict NodeId (Dict HandleName (NodeInput Value))

/-- The handle that carries a node input. -/
def NodeInput.handleId
    (uuid : Nat)
    (node : NodeId)
    (name : HandleName) :
    NodeInput Value → HandleId
  | .handle id => id
  | .data _ => .input uuid node name

/-- One call of `DataHandle.release`, with the node inputs at that time. -/
structure Release where
  id : HandleId
  nodeInputs : InputHandles

/-- The manager, the `data` of the handles, and what happened to them so far. -/
structure Manager (Value : Type) where
  nodeIdToInputHandles : InputHandles
  data : HandleId → Option Value
  uuid : Nat
  released : List Release
  entered : List HandleId

/-- An operation of the manager: it may fail an assertion halfway. -/
abbrev Action (Value α : Type) := EStateM PyError (Manager Value) α

/-- The handles in all places of the node inputs. -/
def placedHandles (inputs : InputHandles) : List HandleId :=
  inputs.values.flatMap Dict.values

/-! ## Operations -/

/-- The dictionaries that `_node_inputs_to_handle` makes. -/
def handlesOf (uuid : Nat) (nodeInputs : NodeInputs Value) : InputHandles :=
  nodeInputs.mapWithKey fun node inp =>
    inp.mapWithKey fun name input =>
      input.handleId uuid node name

/-- The `data` of the handles that `_node_inputs_to_handle` makes. -/
def storeData
    (uuid : Nat)
    (nodeInputs : NodeInputs Value)
    (data : HandleId → Option Value) :
    HandleId → Option Value
  | .output drawn name => data (.output drawn name)
  | .input drawn node name =>
      if drawn = uuid then
        match (nodeInputs.get? node).bind (·.get? name) with
        | some (.data value) => some value
        | _ => data (.input drawn node name)
      else
        data (.input drawn node name)

/-- `_node_inputs_to_handle`; the handles it returns are about to enter. -/
def nodeInputsToHandle (nodeInputs : NodeInputs Value) : Action Value InputHandles := do
  let manager ← get
  let handles := handlesOf manager.uuid nodeInputs
  set {
    manager with
    data := storeData manager.uuid nodeInputs manager.data
    uuid := manager.uuid + 1
    entered := manager.entered ++ placedHandles handles }
  return handles

/-- `DataHandle.release`: the data becomes undefined if there is any. -/
def release (id : HandleId) (manager : Manager Value) : Manager Value := {
  manager with
  data := fun other => if other = id then none else manager.data other
  released := manager.released ++ [⟨id, manager.nodeIdToInputHandles⟩] }

/-- `_release_handles`; nothing is ever added to `handle_released`. -/
def releaseHandles (handleToRelease : List HandleId) : Action Value Unit :=
  modify fun manager =>
    let allHandleIds := placedHandles manager.nodeIdToInputHandles
    let handleReleased : List HandleId := []
    handleToRelease.foldl
      (fun manager id =>
        if id ∉ allHandleIds ∧ id ∉ handleReleased then
          release id manager
        else
          manager)
      manager

/-- One node of the loop in `merge_new_inputs_shallow`. -/
def mergeNodeShallow
    (state : InputHandles × List HandleId)
    (entry : NodeId × NodeHandles) :
    InputHandles × List HandleId :=
  (state.1.set entry.1 entry.2,
    state.2 ++ ((state.1.get? entry.1).map Dict.values).getD [])

/-- Replace the node inputs by what a loop over the new ones makes of them. -/
def mergeBy
    (mergeNode :
      InputHandles × List HandleId → NodeId × NodeHandles → InputHandles × List HandleId)
    (nodeInputs : NodeInputs Value)
    (handleToRelease : List HandleId) :
    Action Value Unit := do
  let nodeHandles ← nodeInputsToHandle nodeInputs
  let manager ← get
  let merged :=
    nodeHandles.entries.foldl mergeNode (manager.nodeIdToInputHandles, handleToRelease)
  modify ({ · with nodeIdToInputHandles := merged.1 })
  releaseHandles merged.2

/-- `merge_new_inputs_shallow`. -/
def mergeNewInputsShallow (nodeInputs : NodeInputs Value) : Action Value Unit :=
  mergeBy mergeNodeShallow nodeInputs []

/-- `merge_new_inputs`. -/
def mergeNewInputs
    (nodeInputs : NodeInputs Value)
    (handleToRelease : List HandleId) :
    Action Value Unit :=
  mergeBy mergeNode nodeInputs handleToRelease

/-- `set_new_inputs`. -/
def setNewInputs (nodeInputs : NodeInputs Value) : Action Value Unit := do
  let nodeHandles ← nodeInputsToHandle nodeInputs
  let manager ← get
  let handleToRelease := placedHandles manager.nodeIdToInputHandles
  modify ({ · with nodeIdToInputHandles := nodeHandles })
  releaseHandles handleToRelease

/-- The loop of `remove_and_merge` that takes the finished nodes out. -/
def removeNodes : List NodeId → List HandleId → Action Value (List HandleId)
  | [], handleToRelease => return handleToRelease
  | nodeId :: rest, handleToRelease => do
      let manager ← get
      match manager.nodeIdToInputHandles.get? nodeId with
      | none => throw (.assertionError "")
      | some nodeInpDict =>
          modify ({ · with
            nodeIdToInputHandles := manager.nodeIdToInputHandles.erase nodeId })
          removeNodes rest (handleToRelease ++ nodeInpDict.values)

/-- `remove_and_merge`. -/
def removeAndMerge
    (nodeIdToRemove : List NodeId)
    (nodeInputs : NodeInputs Value) :
    Action Value Unit := do
  let handleToRelease ← removeNodes nodeIdToRemove []
  mergeNewInputs nodeInputs handleToRelease

/-- The loop of `force_add_new_inputs`. -/
def addNodes : List (NodeId × NodeHandles) → Action Value Unit
  | [] => return
  | (nodeId, nodeInpDict) :: rest => do
      let manager ← get
      if (manager.nodeIdToInputHandles.get? nodeId).isSome then
        throw (.assertionError s!"node_id {nodeId} already exists.")
      else
        modify ({ · with
          nodeIdToInputHandles := manager.nodeIdToInputHandles.set nodeId nodeInpDict })
        addNodes rest

/-- `force_add_new_inputs`. -/
def forceAddNewInputs (nodeInputs : NodeInputs Value) : Action Value Unit := do
  let nodeHandles ← nodeInputsToHandle nodeInputs
  addNodes nodeHandles.entries

/-- `release_all_handles`: it lists the handles while the node inputs still hold them. -/
def releaseAllHandles : Action Value Unit := do
  let manager ← get
  releaseHandles (placedHandles manager.nodeIdToInputHandles)
  modify ({ · with nodeIdToInputHandles := Dict.empty })

/-- A manager without node inputs, before anything happened. -/
def Manager.unused (data : HandleId → Option Value) (uuid : Nat) : Manager Value where
  nodeIdToInputHandles := Dict.empty
  data := data
  uuid := uuid
  released := []
  entered := []

/-- `DataHandleManager(node_inputs)`. -/
def construct
    (nodeInputs : NodeInputs Value)
    (data : HandleId → Option Value)
    (uuid : Nat) :
    Manager Value :=
  Computation.stateAfter
    (do
      let handles ← nodeInputsToHandle nodeInputs
      modify ({ · with nodeIdToInputHandles := handles }))
    (Manager.unused data uuid)

/-! ## Sequences of operations -/

/-- A call of the manager. -/
inductive Operation (Value : Type)
  | mergeNewInputs (nodeInputs : NodeInputs Value)
  | mergeNewInputsShallow (nodeInputs : NodeInputs Value)
  | setNewInputs (nodeInputs : NodeInputs Value)
  | removeAndMerge (nodeIdToRemove : List NodeId) (nodeInputs : NodeInputs Value)
  | forceAddNewInputs (nodeInputs : NodeInputs Value)

/-- The call itself. -/
def Operation.action : Operation Value → Action Value Unit
  | .mergeNewInputs nodeInputs => HandleManager.mergeNewInputs nodeInputs []
  | .mergeNewInputsShallow nodeInputs => HandleManager.mergeNewInputsShallow nodeInputs
  | .setNewInputs nodeInputs => HandleManager.setNewInputs nodeInputs
  | .removeAndMerge nodeIds nodeInputs => HandleManager.removeAndMerge nodeIds nodeInputs
  | .forceAddNewInputs nodeInputs => HandleManager.forceAddNewInputs nodeInputs

/-- The node inputs a call brings. -/
def Operation.nodeInputs : Operation Value → NodeInputs Value
  | .mergeNewInputs nodeInputs => nodeInputs
  | .mergeNewInputsShallow nodeInputs => nodeInputs
  | .setNewInputs nodeInputs => nodeInputs
  | .removeAndMerge _ nodeInputs => nodeInputs
  | .forceAddNewInputs nodeInputs => nodeInputs

/-- The handles a call hands in. -/
def Operation.handedIn (operation : Operation Value) : List HandleId :=
  operation.nodeInputs.values.flatMap fun inp =>
    inp.values.filterMap fun input =>
      match input with
      | .handle id => some id
      | .data _ => none

/-- Whether the id of a handle can have been drawn: every uuid is drawn once. -/
def isDrawn (uuid : Nat) : HandleId → Bool
  | .input drawn _ _ => drawn < uuid
  | .output _ _ => true

/-- One call, whether it returns or fails an assertion. -/
def step (manager : Manager Value) (operation : Operation Value) : Option (Manager Value) :=
  if operation.handedIn.all (isDrawn manager.uuid) then
    some (Computation.stateAfter operation.action manager)
  else
    none

end TensorPC.Cflow.HandleManager
