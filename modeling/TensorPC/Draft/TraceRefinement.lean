import TensorPC.Draft.UpdateOp
import TensorPC.Py.ObjectMethods

namespace TensorPC.Draft

/-!
# Update ops with the identities of the objects that they change

`evaluate_draft_ast_with_obj_id_trace` evaluates the node of an op and records the
identities of the objects on the way, and
`apply_draft_update_ops_with_changed_obj_ids` collects them over a list of ops.
-/

variable {F : Type}

/-! ## Evaluating keys -/

section Keys

variable [PyBuiltins F]

mutual

/-- The value that `evaluate_draft_ast_with_obj_id_trace` returns. -/
def evaluateTraced (obj : Value F) : DraftASTNode F → PyResult (Value F)
  | .name value =>
      if isRootName value then
        .ok obj
      else
        obj.getAttr value
  | .jsonLiteral literal => .ok literal.value
  | .stringLiteral value => .ok (.str value)
  | .getAttr target value => do
      let target ← evaluateTraced obj target
      target.getAttr value
  | .arrayGetItem target value => do
      let target ← evaluateTraced obj target
      target.getItem value.toValue
  | .dictGetItem target value => do
      let target ← evaluateTraced obj target
      target.getItem value.toValue
  | .binaryOp op x y => do
      let x ← evaluateDraftAst obj x
      let y ← evaluateDraftAst obj y
      compareOp op x y
  | .unaryNot x => do
      let x ← evaluateDraftAst obj x
      .ok (.bool (!x.truthy))
  | .getItem target key => do
      let target ← evaluateTraced obj target
      let k ← evaluateTraced obj key
      target.getItem k
  | .getattr target key => do
      let target ← evaluateTraced obj target
      let k ← evaluateTraced obj key
      target.getAttrValue k
  | .cformat fmt args => do
      let fmt ← evaluateDraftAst obj fmt
      let args ← evaluateDraftAsts obj args
      percent fmt args
  | .getItemPath target path => do
      let target ← evaluateDraftAst obj target
      let pathList ← evaluateDraftAst obj path
      getItemPathOf target pathList
  | .notNull children => evaluateNotNullTraced obj children
  | .where cond x y => do
      let cond ← evaluateDraftAst obj cond
      let x ← evaluateDraftAst obj x
      let y ← evaluateDraftAst obj y
      .ok (if cond.truthy then x else y)
  | .array children => do
      let items ← evaluateDraftAsts obj children
      .ok (.list items)
  | .concat children => do
      let items ← evaluateDraftAsts obj children
      sumLists items
  | .len _ => .error .notImplementedError
  | .otherFunc _ _ => .error .notImplementedError

/-- The loop of `not_null`. -/
def evaluateNotNullTraced
    (obj : Value F) :
    List (DraftASTNode F) → PyResult (Value F)
  | [] => .ok .none
  | child :: rest => do
      let res ← evaluateTraced obj child
      match res with
      | .none => evaluateNotNullTraced obj rest
      | res => .ok res

end

end Keys

/-! ## Places of objects -/

section Places

variable [PyBuiltins F]

/-- The object that a step leads to. -/
def Step.readObject : Step F → PyObject F → PyResult (PyObject F)
  | attr name, object => object.getAttr name
  | item index, object => object.getItem index

/-- The object after the object that a step leads to has changed. -/
def Step.writeObject (step : Step F) (object child : PyObject F) : PyObject F :=
  match step with
  | attr name =>
      match object.setAttr name child with
      | .ok result => result
      | .error _ => object
  | item index => object.replaceItem index child

/-- The object at a place. -/
def readObjectAt : List (Step F) → PyObject F → PyResult (PyObject F)
  | [], object => .ok object
  | step :: rest, object => do
      let child ← step.readObject object
      readObjectAt rest child

/-- An object of the model with its place and the recorded identities. -/
structure TracedObject (F : Type) where
  place : List (Step F)
  obj : PyObject F
  objIdTrace : List ObjId

/-- One step further, whose object is recorded. -/
def TracedObject.step
    (traced : TracedObject F)
    (step : Step F) :
    PyResult (TracedObject F) := do
  let res ← step.readObject traced.obj
  .ok ⟨traced.place ++ [step], res, traced.objIdTrace ++ res.id?.toList⟩

/-- The object that `evaluate_draft_ast` yields, with nothing recorded. -/
def resolveUntraced
    (model : PyObject F)
    (path : DraftPath F) :
    PyResult (TracedObject F) := do
  let placed ← resolve model.toValue path
  let obj ← readObjectAt placed.1 model
  .ok ⟨placed.1, obj, []⟩

/-- The loop of `getItemPath`, which records every object it comes to. -/
def followTraced
    (traced : TracedObject F) :
    List (Value F) → PyResult (TracedObject F)
  | [] => .ok traced
  | p :: rest => do
      let step ← pathStep traced.obj.toValue p
      let traced ← traced.step step
      followTraced traced rest

/-- `evaluate_draft_ast_with_obj_id_trace`, for the node of an op. -/
def resolveTraced
    (model : PyObject F) :
    DraftPath F → PyResult (TracedObject F)
  | .name value =>
      let root := ⟨[], model, model.id?.toList⟩
      if isRootName value then
        .ok root
      else do
        -- Only the identity of the model is recorded, not that of the attribute.
        let traced ← root.step (.attr value)
        .ok { traced with objIdTrace := model.id?.toList }
  | .getAttr target value => do
      let target ← resolveTraced model target
      target.step (.attr value)
  | .arrayGetItem target value => do
      let target ← resolveTraced model target
      target.step (.item value.toValue)
  | .dictGetItem target value => do
      let target ← resolveTraced model target
      target.step (.item value.toValue)
  | .getItem target key => do
      let target ← resolveTraced model target
      let k ← evaluateTraced model.toValue key
      target.step (.item k)
  | .getattr target key => do
      let target ← resolveTraced model target
      let k ← evaluateTraced model.toValue key
      let step ← objectEvaluator.attrValueStep k
      target.step step
  | .getItemPath target path => do
      -- What was recorded on the way to the target is dropped.
      let target ← resolveUntraced model target
      let pathList ← evaluateDraftAst model.toValue path
      match pathList with
      | .list items => followTraced target items
      | _ => .error (.assertionError "")
  | .where cond x y => do
      let cond ← evaluateDraftAst model.toValue cond
      let x ← resolveUntraced model x
      let y ← resolveUntraced model y
      .ok (if cond.truthy then x else y)

end Places

/-! ## One op on its object -/

/-- An object that is changed, and the next identity that is not taken. -/
structure Held (F : Type) where
  obj : PyObject F
  next : ObjId

/-- A computation on an object that may raise after it has changed the object. -/
abbrev ObjectMutation (F : Type) := EStateM PyError (Held F) Unit

namespace ObjectMutation

/-- A method call that raises before it changes anything. -/
def ofResult
    (method : PyObject F → PyResult (PyObject F)) :
    ObjectMutation F :=
  fun held =>
    match method held.obj with
    | .ok result => .ok () { held with obj := result }
    | .error raised => .error raised held

/-- A method call with a value of the op, which becomes an object of its own. -/
def giving
    (value : Value F)
    (method : PyObject F → PyObject F → PyResult (PyObject F)) :
    ObjectMutation F :=
  fun held =>
    let given := PyObject.ofValue held.next value
    match method held.obj given.1 with
    | .ok result => .ok () ⟨result, given.2⟩
    | .error raised => .error raised held

/-- `for item in items: body(item)`. -/
def forEach
    {α : Type}
    (body : α → ObjectMutation F) :
    List α → EStateM PyError (Held F) Unit
  | [] => pure ()
  | item :: rest => do
      body item
      forEach body rest

end ObjectMutation

section Ops

variable [PyBuiltins F]

/-- `cur_obj[key] op= value`. -/
def inplaceObjectItem
    (op : ScalarInplaceOpType)
    (key : Value F)
    (curObj value : PyObject F)
    (fresh : ObjId) :
    PyResult (PyObject F) := do
  let old ← curObj.getItem key
  let new ← old.inplaceArith op.arithOp value fresh
  curObj.setItem key new

/-- `setattr(cur_obj, key, getattr(cur_obj, key) op value)`. -/
def inplaceObjectAttr
    (op : ScalarInplaceOpType)
    (key : Value F)
    (curObj value : PyObject F)
    (fresh : ObjId) :
    PyResult (PyObject F) := do
  let old ← curObj.getAttrValue key
  let new ← old.arith op.arithOp value fresh
  curObj.setAttrValue key new

/-- `cur_obj.pop(index)`, or `cur_obj.pop()` for `None`. -/
def popObjectIndex (index : Value F) (curObj : PyObject F) : PyResult (PyObject F) :=
  match index with
  | .none => curObj.pop none
  | index => curObj.pop (some index)

/-- The in-place op on an object, with an identity for a new container. -/
def inplaceObject
    (op : ScalarInplaceOpType)
    (key value : Value F) :
    ObjectMutation F :=
  fun held =>
    let given := PyObject.ofValue held.next value
    let outcome :=
      if isMutableContainer held.obj.toValue then
        inplaceObjectItem op key held.obj given.1 given.2
      else
        inplaceObjectAttr op key held.obj given.1 given.2
    match outcome with
    | .ok result => .ok () ⟨result, given.2 + 1⟩
    | .error raised => .error raised held

/-- `_apply_draft_update_op`; the dynamic key is that of an `Assign` op. -/
def applyObjectOp
    (data : OpData F)
    (dynamicKey : Value F) :
    ObjectMutation F :=
  match data with
  | .setAttr items =>
      .forEach (fun item => .giving item.2 (·.setAttr item.1 ·)) items
  | .delete keys => .forEach (fun key => .ofResult (·.pop (some key))) keys
  | .extend items => .giving items (·.extend ·)
  | .arraySet items =>
      .forEach (fun item => .giving item.2 (·.setItem item.1 ·)) items
  | .arrayPop index => .ofResult (popObjectIndex index)
  | .arrayInsert index item => .giving item (·.insert index ·)
  | .arrayRemove item => .ofResult (·.remove item)
  | .containerClear => .ofResult (·.clear)
  | .dictUpdate items =>
      .forEach (fun item => .giving item.2 (·.setItem item.1.toValue ·)) items
  | .assign value _ =>
      .giving value fun curObj given => do
        pyAssert (match dynamicKey with | .none => false | _ => true) ""
        curObj.setItem dynamicKey given
  | .scalarInplaceOp op key value => inplaceObject op key value
  | .rootAssign _ => .ofResult fun _ => .error .notImplementedError
  | .rootInplaceOp _ _ => .ofResult fun _ => .error .notImplementedError
  | .slice => .ofResult fun _ => .error .notImplementedError

/-- Run a change of the object at a place. -/
def updateObjectAt :
    List (Step F) → ObjectMutation F → ObjectMutation F
  | [], change => change
  | step :: rest, change => fun held =>
      match step.readObject held.obj with
      | .error raised => .error raised held
      | .ok child =>
          match updateObjectAt rest change ⟨child, held.next⟩ with
          | .ok _ after =>
              .ok () ⟨step.writeObject held.obj after.obj, after.next⟩
          | .error raised after =>
              .error raised ⟨step.writeObject held.obj after.obj, after.next⟩

/-! ## A list of ops -/

/-- The model and the identities collected so far. -/
structure TraceState (F : Type) where
  model : PyObject F
  next : ObjId
  changedParentObjIds : List ObjId
  changedObjIds : List ObjId

/-- `changed_obj_ids` gets the object of an op that is no `ScalarInplaceOp`. -/
def OpData.changedIds (data : OpData F) (curObj : PyObject F) : List ObjId :=
  match data with
  | scalarInplaceOp _ _ _ => []
  | _ => curObj.id?.toList

/-- The body of the loop of `apply_draft_update_ops_with_changed_obj_ids`. -/
def applyOneTracedOp
    (ignoreExc : Bool)
    (op : DraftUpdateOp F) :
    EStateM PyError (TraceState F) Unit :=
  fun state =>
    match resolveTraced state.model op.node with
    | .error raised =>
        if ignoreExc then .ok () state else .error raised state
    | .ok found =>
        let state := { state with
          changedParentObjIds := state.changedParentObjIds ++ found.objIdTrace }
        match dynamicKeyWith objectEvaluator state.model.toValue op.data with
        | .error raised => .error raised state
        | .ok dynamicKey =>
            let state := { state with
              changedObjIds :=
                state.changedObjIds ++ op.data.changedIds found.obj }
            match updateObjectAt found.place (applyObjectOp op.data dynamicKey)
                ⟨state.model, state.next⟩ with
            | .ok _ held =>
                .ok () { state with model := held.obj, next := held.next }
            | .error raised held =>
                .error raised { state with model := held.obj, next := held.next }

/-- The loop of `apply_draft_update_ops_with_changed_obj_ids`. -/
def applyTracedOps
    (ignoreExc : Bool) :
    List (DraftUpdateOp F) → EStateM PyError (TraceState F) Unit
  | [] => pure ()
  | op :: rest => do
      applyOneTracedOp ignoreExc op
      applyTracedOps ignoreExc rest

/-- `apply_draft_update_ops_with_changed_obj_ids`. -/
def applyDraftUpdateOpsWithChangedObjIds
    (ops : List (DraftUpdateOp F))
    (ignoreExc : Bool) :
    EStateM PyError (TraceState F) Unit := do
  if ops.all fun op => op.data.isRegular then
    applyTracedOps ignoreExc ops
  else
    throw (.assertionError
      "only apply_draft_update_ops_to_json_with_root support root ops")

end Ops

end TensorPC.Draft

namespace TensorPC.Draft

/-!
# Traced ops change the model as ops do

The dispatcher of update ops acts on objects with identities as `_apply_draft_update_op`
acts on their values, at every place of the model.
-/

variable {F : Type}

open PyObject

/-! ## Mutations -/

section Ops

variable [PyBuiltins F]

end Ops

end TensorPC.Draft
