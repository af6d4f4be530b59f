import TensorPC.Draft.AsDict

namespace TensorPC.Draft

/-!
# Draft update ops

An update op names an object of the model by a path and says how to change it.
Evaluating a path yields the place of the object in the model besides the object
itself, and applying the op runs its change at that place.
-/

/-- The expressions that name an object of the model: the nodes of ops. -/
inductive DraftPath (F : Type) where
  | name (value : String)
  | getAttr (target : DraftPath F) (value : String)
  | arrayGetItem (target : DraftPath F) (value : Key F)
  | dictGetItem (target : DraftPath F) (value : Key F)
  | getItem (target : DraftPath F) (key : DraftASTNode F)
  /-- The function `getattr`. -/
  | getattr (target : DraftPath F) (key : DraftASTNode F)
  | getItemPath (target : DraftPath F) (path : DraftASTNode F)
  | where (cond : DraftASTNode F) (x y : DraftPath F)

variable {F : Type}

/-- A path as a draft expression. -/
def DraftPath.toNode : DraftPath F → DraftASTNode F
  | name value => .name value
  | getAttr target value => .getAttr target.toNode value
  | arrayGetItem target value => .arrayGetItem target.toNode value
  | dictGetItem target value => .dictGetItem target.toNode value
  | getItem target key => .getItem target.toNode key
  | getattr target key => .getattr target.toNode key
  | getItemPath target path => .getItemPath target.toNode path
  | .where cond x y => .where cond x.toNode y.toNode

/-! ## Places -/

/-- One step from an object to an object inside it. -/
inductive Step (F : Type) where
  | attr (name : String)
  | item (index : Value F)

section Places

variable [PyBuiltins F]

/-- The object that a step leads to. -/
def Step.read : Step F → Value F → PyResult (Value F)
  | attr name, value => value.getAttr name
  | item index, value => value.getItem index

/-- The object after the object that a step leads to has changed. -/
def Step.write (step : Step F) (value child : Value F) : Value F :=
  match step with
  | attr name =>
      match value.setAttr name child with
      | .ok result => result
      | .error _ => value
  | item index => value.replaceItem index child

/-- The object at a place. -/
def readAt : List (Step F) → Value F → PyResult (Value F)
  | [], value => .ok value
  | step :: rest, value => do
      let child ← step.read value
      readAt rest child

/-- Run a change of the object at a place. -/
def updateAt : List (Step F) → Mutation F → EStateM PyError (Value F) Unit
  | [], change => change
  | step :: rest, change => fun value =>
      match step.read value with
      | .error raised => .error raised value
      | .ok child =>
          match updateAt rest change child with
          | .ok _ child => .ok () (step.write value child)
          | .error raised child => .error raised (step.write value child)

/-- How an evaluator reads expressions, the names of the model and attributes. -/
structure PathEvaluator (F : Type) where
  evaluate : Value F → DraftASTNode F → PyResult (Value F)
  isRoot : String → Bool
  attrStep : String → Step F
  attrValueStep : Value F → PyResult (Step F)

/-- Attributes of dataclass objects. -/
def objectEvaluator : PathEvaluator F where
  evaluate := evaluateDraftAst
  isRoot value := isRootName value || value == "getRoot()"
  attrStep := .attr
  attrValueStep name :=
    match name with
    | .str name => .ok (.attr name)
    | _ => .error (.typeError "attribute name must be string")

/-- Attributes that are entries of dictionaries. -/
def jsonEvaluator : PathEvaluator F where
  evaluate := evaluateDraftAstJson
  isRoot := isRootName
  attrStep name := .item (.str name)
  attrValueStep name := .ok (.item name)

/-- An object of the model with its place. -/
abbrev Placed (F : Type) := List (Step F) × Value F

/-- One step further. -/
def Placed.step (placed : Placed F) (step : Step F) : PyResult (Placed F) := do
  let value ← step.read placed.2
  .ok (placed.1 ++ [step], value)

/-- The step of `getItemPath` for one element of its path list. -/
def pathStep (curObj p : Value F) : PyResult (Step F) :=
  if isSequenceOrMapping curObj then
    .ok (.item p)
  else do
    pyAssert (isDataclass curObj) ""
    match p with
    | .str name => .ok (.attr name)
    | _ => .error (.typeError "attribute name must be string")

/-- The loop of `getItemPath`, with places. -/
def followSteps
    (placed : Placed F) :
    List (Value F) → PyResult (Placed F)
  | [] => .ok placed
  | p :: rest => do
      let step ← pathStep placed.2 p
      let placed ← placed.step step
      followSteps placed rest

/-- Evaluate a path to the object that it names, with its place. -/
def resolveWith
    (evaluator : PathEvaluator F)
    (obj : Value F) :
    DraftPath F → PyResult (Placed F)
  | .name value =>
      if evaluator.isRoot value then
        .ok ([], obj)
      else
        Placed.step ([], obj) (evaluator.attrStep value)
  | .getAttr target value => do
      let target ← resolveWith evaluator obj target
      target.step (evaluator.attrStep value)
  | .arrayGetItem target value => do
      let target ← resolveWith evaluator obj target
      target.step (.item value.toValue)
  | .dictGetItem target value => do
      let target ← resolveWith evaluator obj target
      target.step (.item value.toValue)
  | .getItem target key => do
      let k ← evaluator.evaluate obj key
      let target ← resolveWith evaluator obj target
      target.step (.item k)
  | .getattr target key => do
      let target ← resolveWith evaluator obj target
      let key ← evaluator.evaluate obj key
      let step ← evaluator.attrValueStep key
      target.step step
  | .getItemPath target path => do
      let target ← resolveWith evaluator obj target
      let pathList ← evaluator.evaluate obj path
      match pathList with
      | .list items => followSteps target items
      | _ => .error (.assertionError "")
  | .where cond x y => do
      let cond ← evaluator.evaluate obj cond
      let x ← resolveWith evaluator obj x
      let y ← resolveWith evaluator obj y
      .ok (if cond.truthy then x else y)

/-- The object that a path names in a dataclass model. -/
def resolve (obj : Value F) (path : DraftPath F) : PyResult (Placed F) :=
  resolveWith objectEvaluator obj path

/-- The object that a path names in the dictionary of a model. -/
def resolveJson (obj : Value F) (path : DraftPath F) : PyResult (Placed F) :=
  resolveWith jsonEvaluator obj path

/-! ## Resolving is evaluating -/

omit [PyBuiltins F] in
theorem ok_bind
    {α β : Type}
    (value : α)
    (next : α → PyResult β) :
    ((.ok value : PyResult α) >>= next) = next value :=
  rfl

omit [PyBuiltins F] in
theorem map_bind_eq
    {α β γ δ : Type}
    {first : PyResult α}
    {second : PyResult β}
    {f : α → β}
    {g : γ → δ}
    {next : α → PyResult γ}
    {other : β → PyResult δ}
    (same : first.map f = second)
    (continued : ∀ value, (next value).map g = other (f value)) :
    (first >>= next).map g = second >>= other := by
  subst same
  cases first with
  | error raised =>
      rfl
  | ok value =>
      exact continued value

theorem snd_step
    (placed : Placed F)
    (step : Step F) :
    (placed.step step).map Prod.snd = step.read placed.2 := by
  simp only [Placed.step]
  cases step.read placed.2 with
  | error raised =>
      rfl
  | ok value =>
      rfl

theorem snd_followSteps
    (placed : Placed F)
    (path : List (Value F)) :
    (followSteps placed path).map Prod.snd = followPath placed.2 path := by
  induction path generalizing placed with
  | nil =>
      rfl
  | cons p rest inductionHypothesis =>
      simp only [followSteps, followPath, pathStep]
      by_cases sequence : isSequenceOrMapping placed.2 = true
      · simp only [sequence, ↓reduceIte, ok_bind]
        refine map_bind_eq (snd_step placed (.item p)) ?_
        exact inductionHypothesis
      · simp only [sequence, Bool.false_eq_true, ↓reduceIte]
        cases pyAssert (isDataclass placed.2) "" with
        | error raised =>
            rfl
        | ok holds =>
            cases p with
            | str name =>
                simp only [ok_bind]
                refine map_bind_eq (snd_step placed (.attr name)) ?_
                exact inductionHypothesis
            | none | bool | int | float | list | tuple | dict | obj =>
                rfl

/-- A path names what `evaluate_draft_ast` computes. -/
theorem snd_resolve
    (obj : Value F)
    (path : DraftPath F) :
    (resolve obj path).map Prod.snd = evaluateDraftAst obj path.toNode := by
  unfold resolve
  induction path with
  | name value =>
      simp only [resolveWith, objectEvaluator, DraftPath.toNode,
        evaluateDraftAst]
      by_cases root : (isRootName value || value == "getRoot()") = true
      · simp only [root, ↓reduceIte]
        rfl
      · simp only [root, Bool.false_eq_true, ↓reduceIte]
        exact snd_step ([], obj) (.attr value)
  | getAttr target value inductionHypothesis =>
      exact map_bind_eq inductionHypothesis fun placed => snd_step placed _
  | arrayGetItem target value inductionHypothesis =>
      exact map_bind_eq inductionHypothesis fun placed => snd_step placed _
  | dictGetItem target value inductionHypothesis =>
      exact map_bind_eq inductionHypothesis fun placed => snd_step placed _
  | getItem target key inductionHypothesis =>
      simp only [resolveWith, DraftPath.toNode, evaluateDraftAst]
      simp only [objectEvaluator]
      cases evaluateDraftAst obj key with
      | error raised =>
          rfl
      | ok k =>
          simp only [ok_bind]
          exact map_bind_eq inductionHypothesis fun placed => snd_step placed _
  | getattr target key inductionHypothesis =>
      refine map_bind_eq inductionHypothesis fun placed => ?_
      simp only [objectEvaluator]
      cases evaluateDraftAst obj key with
      | error raised =>
          rfl
      | ok k =>
          cases k with
          | str name =>
              exact snd_step placed (.attr name)
          | none | bool | int | float | list | tuple | dict | obj =>
              rfl
  | getItemPath target path inductionHypothesis =>
      refine map_bind_eq inductionHypothesis fun placed => ?_
      simp only [objectEvaluator]
      cases evaluateDraftAst obj path with
      | error raised =>
          rfl
      | ok pathList =>
          cases pathList with
          | list items =>
              exact snd_followSteps placed items
          | none | bool | int | float | str | tuple | dict | obj =>
              rfl
  | «where» cond x y inductionX inductionY =>
      simp only [resolveWith, DraftPath.toNode, evaluateDraftAst]
      simp only [objectEvaluator] at *
      cases evaluateDraftAst obj cond with
      | error raised =>
          rfl
      | ok test =>
          simp only [ok_bind]
          refine map_bind_eq inductionX fun first => ?_
          refine map_bind_eq inductionY fun second => ?_
          cases test.truthy with
          | false =>
              rfl
          | true =>
              rfl

/-! ## Places of resolved paths -/

theorem readAt_append
    {place : List (Step F)}
    {value child : Value F}
    (reads : readAt place value = .ok child)
    (step : Step F) :
    readAt (place ++ [step]) value = step.read child := by
  induction place generalizing value with
  | nil =>
      cases reads
      simp only [List.nil_append, readAt]
      cases step.read child <;> rfl
  | cons first rest inductionHypothesis =>
      obtain ⟨next, read, readsRest⟩ := PyResult.bind_eq_ok.mp reads
      simp only [List.cons_append, readAt, read]
      exact inductionHypothesis readsRest

theorem readAt_of_step
    {obj : Value F}
    {placed next : Placed F}
    {step : Step F}
    (reads : readAt placed.1 obj = .ok placed.2)
    (stepped : placed.step step = .ok next) :
    readAt next.1 obj = .ok next.2 := by
  obtain ⟨child, read, built⟩ := PyResult.bind_eq_ok.mp stepped
  cases built
  exact (readAt_append reads step).trans read

theorem readAt_of_followSteps
    {obj : Value F}
    {placed final : Placed F}
    {path : List (Value F)}
    (reads : readAt placed.1 obj = .ok placed.2)
    (followed : followSteps placed path = .ok final) :
    readAt final.1 obj = .ok final.2 := by
  induction path generalizing placed with
  | nil =>
      cases followed
      exact reads
  | cons p rest inductionHypothesis =>
      obtain ⟨step, _, followed⟩ := PyResult.bind_eq_ok.mp followed
      obtain ⟨next, stepped, followed⟩ := PyResult.bind_eq_ok.mp followed
      exact inductionHypothesis (readAt_of_step reads stepped) followed

/-- The object that a path names is the one at its place. -/
theorem readAt_of_resolveWith
    {evaluator : PathEvaluator F}
    {obj : Value F}
    {path : DraftPath F}
    {placed : Placed F}
    (resolved : resolveWith evaluator obj path = .ok placed) :
    readAt placed.1 obj = .ok placed.2 := by
  induction path generalizing placed with
  | name value =>
      simp only [resolveWith] at resolved
      split at resolved
      · cases resolved
        rfl
      · exact @readAt_of_step F _ obj ([], obj) placed _ rfl resolved
  | getAttr target value inductionHypothesis =>
      obtain ⟨found, first, stepped⟩ := PyResult.bind_eq_ok.mp resolved
      exact readAt_of_step (inductionHypothesis first) stepped
  | arrayGetItem target value inductionHypothesis =>
      obtain ⟨found, first, stepped⟩ := PyResult.bind_eq_ok.mp resolved
      exact readAt_of_step (inductionHypothesis first) stepped
  | dictGetItem target value inductionHypothesis =>
      obtain ⟨found, first, stepped⟩ := PyResult.bind_eq_ok.mp resolved
      exact readAt_of_step (inductionHypothesis first) stepped
  | getItem target key inductionHypothesis =>
      obtain ⟨k, _, resolved⟩ := PyResult.bind_eq_ok.mp resolved
      obtain ⟨found, first, stepped⟩ := PyResult.bind_eq_ok.mp resolved
      exact readAt_of_step (inductionHypothesis first) stepped
  | getattr target key inductionHypothesis =>
      obtain ⟨found, first, resolved⟩ := PyResult.bind_eq_ok.mp resolved
      obtain ⟨k, _, resolved⟩ := PyResult.bind_eq_ok.mp resolved
      obtain ⟨step, _, stepped⟩ := PyResult.bind_eq_ok.mp resolved
      exact readAt_of_step (inductionHypothesis first) stepped
  | getItemPath target path inductionHypothesis =>
      obtain ⟨found, first, resolved⟩ := PyResult.bind_eq_ok.mp resolved
      obtain ⟨pathList, _, followed⟩ := PyResult.bind_eq_ok.mp resolved
      cases pathList with
      | list items =>
          exact readAt_of_followSteps (inductionHypothesis first) followed
      | none | bool | int | float | str | tuple | dict | obj =>
          cases followed
  | «where» cond x y inductionX inductionY =>
      obtain ⟨test, _, resolved⟩ := PyResult.bind_eq_ok.mp resolved
      obtain ⟨first, resolvedX, resolved⟩ := PyResult.bind_eq_ok.mp resolved
      obtain ⟨second, resolvedY, chosen⟩ := PyResult.bind_eq_ok.mp resolved
      cases chosen
      split
      · exact inductionX resolvedX
      · exact inductionY resolvedY

end Places

/-!
# Applying update ops

The two dispatchers of update ops: one changes dataclass objects, the other the
dictionaries they are stored as.  An op that raises keeps what it has changed.
-/

/-- `ScalarInplaceOpType`. -/
inductive ScalarInplaceOpType where
  | add
  | sub
  | mul
  | div
  deriving Repr, DecidableEq

/-- The operator of an in-place op. -/
def ScalarInplaceOpType.arithOp : ScalarInplaceOpType → ArithOp
  | add => .add
  | sub => .sub
  | mul => .mul
  | div => .div

/-- `JMESPathOpType` with the `opData` of an op of that type. -/
inductive OpData (F : Type) where
  | rootAssign (value : Value F)
  | rootInplaceOp (op : ScalarInplaceOpType) (value : Value F)
  | setAttr (items : List (String × Value F))
  | delete (keys : List (Value F))
  | extend (items : Value F)
  | slice
  | arraySet (items : List (Value F × Value F))
  | arrayPop (index : Value F)
  | arrayInsert (index item : Value F)
  | arrayRemove (item : Value F)
  | containerClear
  | dictUpdate (items : List (Key F × Value F))
  /-- The key is an expression, the first one of `additionalNodes`. -/
  | assign (value : Value F) (keyNode : DraftASTNode F)
  | scalarInplaceOp (op : ScalarInplaceOpType) (key value : Value F)

/-- `DraftUpdateOp`. -/
structure DraftUpdateOp (F : Type) where
  data : OpData F
  node : DraftPath F

/-- `op.op >= 0`: an op that does not replace the root. -/
def OpData.isRegular : OpData F → Bool
  | rootAssign _ => false
  | rootInplaceOp _ _ => false
  | _ => true

/-- `as_dict_no_undefined(opData)`. -/
def OpData.asDictData : OpData F → OpData F
  | rootAssign value => .rootAssign (asDict value)
  | rootInplaceOp op value => .rootInplaceOp op (asDict value)
  | setAttr items => .setAttr (mapValues asDict items)
  | delete keys => .delete (keys.map asDict)
  | extend items => .extend (asDict items)
  | slice => .slice
  | arraySet items =>
      .arraySet (items.map fun item => (asDict item.1, asDict item.2))
  | arrayPop index => .arrayPop (asDict index)
  | arrayInsert index item => .arrayInsert (asDict index) (asDict item)
  | arrayRemove item => .arrayRemove (asDict item)
  | containerClear => .containerClear
  | dictUpdate items => .dictUpdate (mapValues asDict items)
  | assign value keyNode => .assign (asDict value) keyNode
  | scalarInplaceOp op key value =>
      .scalarInplaceOp op (asDict key) (asDict value)

/-- `to_json_update_op`. -/
def DraftUpdateOp.toJsonUpdateOp (op : DraftUpdateOp F) : DraftUpdateOp F where
  data := op.data.asDictData
  node := op.node

variable [PyBuiltins F]

/-! ## One op on its object -/

/-- `isinstance(value, (MutableSequence, MutableMapping))`. -/
def isMutableContainer : Value F → Bool
  | .list _ => true
  | .dict _ => true
  | _ => false

/-- `cur_obj[key] op= value`. -/
def inplaceItem
    (op : ScalarInplaceOpType)
    (key value curObj : Value F) :
    PyResult (Value F) := do
  let old ← curObj.getItem key
  let new ← old.inplaceArith op.arithOp value
  curObj.setItem key new

/-- `setattr(cur_obj, key, getattr(cur_obj, key) op value)`. -/
def inplaceAttr
    (op : ScalarInplaceOpType)
    (key value curObj : Value F) :
    PyResult (Value F) := do
  let old ← curObj.getAttrValue key
  let new ← old.arith op.arithOp value
  curObj.setAttrValue key new

/-- `cur_obj.pop(index)`, or `cur_obj.pop()` for `None`. -/
def popIndex (index curObj : Value F) : PyResult (Value F) :=
  match index with
  | .none => curObj.pop none
  | index => curObj.pop (some index)

/-- `_apply_draft_update_op`; the dynamic key is that of an `Assign` op. -/
def applyDraftUpdateOp
    (data : OpData F)
    (dynamicKey : Value F) :
    Mutation F :=
  match data with
  | .setAttr items =>
      Mutation.forEach (fun item => .ofResult (·.setAttr item.1 item.2)) items
  | .delete keys =>
      Mutation.forEach (fun key => .ofResult (·.pop (some key))) keys
  | .extend items => .ofResult (·.extend items)
  | .arraySet items =>
      Mutation.forEach (fun item => .ofResult (·.setItem item.1 item.2)) items
  | .arrayPop index => .ofResult (popIndex index)
  | .arrayInsert index item => .ofResult (·.insert index item)
  | .arrayRemove item => .ofResult (·.remove item)
  | .containerClear => .ofResult (·.clear)
  | .dictUpdate items =>
      Mutation.forEach
        (fun item => .ofResult (·.setItem item.1.toValue item.2)) items
  | .assign value _ =>
      .ofResult fun curObj => do
        pyAssert (match dynamicKey with | .none => false | _ => true) ""
        curObj.setItem dynamicKey value
  | .scalarInplaceOp op key value =>
      .ofResult fun curObj =>
        if isMutableContainer curObj then
          inplaceItem op key value curObj
        else
          inplaceAttr op key value curObj
  | .rootAssign _ => .ofResult fun _ => .error .notImplementedError
  | .rootInplaceOp _ _ => .ofResult fun _ => .error .notImplementedError
  | .slice => .ofResult fun _ => .error .notImplementedError

/-- `_apply_draft_update_op_to_json`. -/
def applyDraftUpdateOpToJson
    (data : OpData F)
    (dynamicKey : Value F) :
    Mutation F :=
  match data with
  | .setAttr items =>
      Mutation.forEach
        (fun item => .ofResult (·.setItem (.str item.1) item.2)) items
  | .delete keys =>
      Mutation.forEach (fun key => .ofResult (·.pop (some key))) keys
  | .extend items => .ofResult (·.extend items)
  | .arraySet items =>
      Mutation.forEach (fun item => .ofResult (·.setItem item.1 item.2)) items
  | .arrayPop index => .ofResult (popIndex index)
  | .arrayInsert index item => .ofResult (·.insert index item)
  | .arrayRemove item => .ofResult (·.remove item)
  | .containerClear => .ofResult (·.clear)
  | .dictUpdate items =>
      Mutation.forEach
        (fun item => .ofResult (·.setItem item.1.toValue item.2)) items
  | .assign value _ => .ofResult (·.setItem dynamicKey value)
  | .scalarInplaceOp op key value => .ofResult (inplaceItem op key value)
  | .rootAssign _ => .ofResult fun _ => .error .notImplementedError
  | .rootInplaceOp _ _ => .ofResult fun _ => .error .notImplementedError
  | .slice => .ofResult fun _ => .error .notImplementedError

/-! ## A list of ops on a model -/

/-- The key expression of an `Assign` op, evaluated on the model. -/
def dynamicKeyWith
    (evaluator : PathEvaluator F)
    (obj : Value F)
    (data : OpData F) :
    PyResult (Value F) :=
  match data with
  | .assign _ keyNode => evaluator.evaluate obj keyNode
  | _ => .ok .none

/-- The body of the loop of `apply_draft_update_ops`. -/
def applyOneOp
    (ignoreExc : Bool)
    (op : DraftUpdateOp F) :
    EStateM PyError (Value F) Unit :=
  fun obj =>
    match resolve obj op.node with
    | .error raised =>
        if ignoreExc then .ok () obj else .error raised obj
    | .ok (place, _) =>
        match dynamicKeyWith objectEvaluator obj op.data with
        | .error raised => .error raised obj
        | .ok dynamicKey =>
            updateAt place (applyDraftUpdateOp op.data dynamicKey) obj

/-- The body of the loop of `apply_draft_update_ops_to_json`. -/
def applyOneOpToJson
    (op : DraftUpdateOp F) :
    EStateM PyError (Value F) Unit :=
  fun obj =>
    match resolveJson obj op.node with
    | .error raised => .error raised obj
    | .ok (place, _) =>
        match dynamicKeyWith jsonEvaluator obj op.data with
        | .error raised => .error raised obj
        | .ok dynamicKey =>
            updateAt place (applyDraftUpdateOpToJson op.data dynamicKey) obj

/-- `assert op.op >= 0` for every op. -/
def assertRegular
    (ops : List (DraftUpdateOp F)) :
    EStateM PyError (Value F) Unit :=
  if ops.all fun op => op.data.isRegular then
    pure ()
  else
    throw (.assertionError
      "only apply_draft_update_ops_to_json_with_root support root ops")

/-- `apply_draft_update_ops`, on the model as state. -/
def applyDraftUpdateOps
    (ops : List (DraftUpdateOp F))
    (ignoreExc : Bool) :
    EStateM PyError (Value F) Unit := do
  assertRegular ops
  Mutation.forEach (applyOneOp ignoreExc) ops

/-- `apply_draft_update_ops_to_json`, on the dictionary as state. -/
def applyDraftUpdateOpsToJson
    (ops : List (DraftUpdateOp F)) :
    EStateM PyError (Value F) Unit := do
  assertRegular ops
  Mutation.forEach applyOneOpToJson ops

end TensorPC.Draft
