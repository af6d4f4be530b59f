import TensorPC.Cflow.Node

namespace TensorPC.Cflow

/-!
# Data handles and the data handle manager

Node inputs and outputs travel as data handles: objects with a unique id and a
`data` field that a release makes undefined.  `HandleId` replaces the uuid of a
handle by the number of the step that drew it.
-/

/-- The id of a data handle. -/
inductive HandleId
  /-- `{executor id}-{uuid}-{k}`: made by an executor for output `k`. -/
  | output (uuid : Nat) (name : HandleName)
  /-- `{node id}-{uuid}`: made by the manager for a collected input. -/
  | input (uuid : Nat) (node : NodeId) (name : HandleName)
  deriving DecidableEq, Repr

/-- `dict[str, DataHandle]`. -/
abbrev NodeHandles := Dict HandleName HandleId

/-- `_node_id_to_input_handles`. -/
abbrev InputHandles := Dict NodeId NodeHandles

/-- One node of the loop in `merge_new_inputs`. -/
def mergeNode
    (state : InputHandles × List HandleId)
    (entry : NodeId × NodeHandles) :
    InputHandles × List HandleId :=
  match state.1.get? entry.1 with
  | some prevInputs =>
      (state.1.set entry.1 (prevInputs.update entry.2.entries),
        state.2 ++ entry.2.keys.filterMap prevInputs.get?)
  | none =>
      (state.1.set entry.1 entry.2, state.2)

/-- The handle filed for an input of a node. -/
def handleAt (inputs : InputHandles) (node : NodeId) (name : HandleName) : Option HandleId :=
  (inputs.get? node).bind (·.get? name)

/-- One merged node, whether or not it had inputs before. -/
theorem mergeNode_eq
    (inputs : InputHandles)
    (toRelease : List HandleId)
    (node : NodeId)
    (handles : NodeHandles) :
    mergeNode (inputs, toRelease) (node, handles) =
      (inputs.set node
          (((inputs.get? node).map (·.update handles.entries)).getD handles),
        toRelease ++ handles.keys.filterMap (handleAt inputs node)) := by
  cases found : inputs.get? node with
  | none =>
      have nothing : handleAt inputs node = fun _ => none := by
        funext name
        simp [handleAt, found]
      simp [mergeNode, found, nothing]
  | some prevInputs =>
      have previous : handleAt inputs node = prevInputs.get? := by
        funext name
        simp [handleAt, found]
      simp [mergeNode, found, previous]

end TensorPC.Cflow
