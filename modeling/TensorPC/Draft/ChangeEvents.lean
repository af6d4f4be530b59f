import TensorPC.Draft.RecordedIds
import TensorPC.Py.Dict
import TensorPC.Py.Json

namespace TensorPC.Draft

/-!
# Change events

`update_model_with_change_event` evaluates the expressions of its handlers before and
after a list of update ops.  Scalars are compared by value and containers by identity;
a container that is the same object has changed if the ops recorded its identity.
Where every op records its change, no change of a handler's value is missed.
-/

variable {F : Type}

/-! ## Handlers -/

/-- The expression of a handler: an access path to an object of the model. -/
inductive HandlerExpr (F : Type) where
  | root
  | getAttr (target : HandlerExpr F) (value : String)
  | arrayGetItem (target : HandlerExpr F) (value : Key F)
  | dictGetItem (target : HandlerExpr F) (value : Key F)
  | getItem (target : HandlerExpr F) (key : DraftASTNode F)
  | getItemPath (target : HandlerExpr F) (path : DraftASTNode F)

/-- `DraftChangeEventHandler`, without a function of its own for equality. -/
structure DraftChangeEventHandler (F : Type) where
  draftExprDict : Dict String (HandlerExpr F)
  handleChildChange : Bool

/-- `DraftEventType`, as far as these handlers get it. -/
inductive DraftEventType where
  | noChange
  | valueChange
  | objectIdChange
  | objectInplaceChange
  | childObjectChange
  deriving Repr, DecidableEq

/-- A value that is kept while the model changes: a container is kept by reference. -/
inductive KeptValue (F : Type) where
  | scalar (value : Value F)
  | object (id : ObjId)

/-- What is kept of a value. -/
def KeptValue.of (object : PyObject F) : KeptValue F :=
  match object.id? with
  | some id => .object id
  | none => .scalar object.toValue

/-- `DraftChangeEvent`. -/
structure DraftChangeEvent (F : Type) where
  typeDict : Dict String DraftEventType
  oldValueDict : Dict String (KeptValue F)
  newValueDict : Dict String (PyObject F)

section Handlers

variable [PyBuiltins F]

/-! ## Compiled expressions -/

/-- `({expr})... if ({expr}) is not None else None`. -/
def unlessNone
    (target : PyObject F)
    (read : PyObject F → PyResult (PyObject F)) :
    PyResult (PyObject F) :=
  match target with
  | .none => .ok .none
  | target => read target

/-- `_impl_get_itempath`. -/
def getItemPathCompiled
    (curObj : PyObject F) :
    List (Value F) → PyResult (PyObject F)
  | [] => .ok curObj
  | p :: rest =>
      match curObj with
      | .none => .ok .none
      | curObj => do
          let step ← pathStep curObj.toValue p
          let next ← step.readObject curObj
          getItemPathCompiled next rest

/--
The function that an expression is compiled to.  The expressions of keys are compiled
with it, to any function of the model.
-/
def runCompiled
    (compiledKey : DraftASTNode F → Value F → PyResult (Value F))
    (model : PyObject F) :
    HandlerExpr F → PyResult (PyObject F)
  | .root => .ok model
  | .getAttr target value => do
      let target ← runCompiled compiledKey model target
      unlessNone target (·.getAttr value)
  | .arrayGetItem target value => do
      let target ← runCompiled compiledKey model target
      unlessNone target (·.getItem value.toValue)
  | .dictGetItem target value => do
      let target ← runCompiled compiledKey model target
      unlessNone target (·.getItem value.toValue)
  | .getItem target key => do
      let target ← runCompiled compiledKey model target
      let k ← compiledKey key model.toValue
      target.getItem k
  | .getItemPath target path => do
      let target ← runCompiled compiledKey model target
      let pathList ← compiledKey path model.toValue
      match pathList with
      | .list items => getItemPathCompiled target items
      | _ => .error (.assertionError "")

/-- `evaluate_draft_expr_noexcept`. -/
def evaluateDraftExprNoexcept
    (compiledKey : DraftASTNode F → Value F → PyResult (Value F))
    (model : PyObject F)
    (expr : HandlerExpr F) :
    PyObject F :=
  match runCompiled compiledKey model expr with
  | .ok object => object
  | .error _ => .none

/-! ## Events -/

/-- The type of the event for one expression. -/
def changeType
    (handleChildChange : Bool)
    (state : TraceState F)
    (oldValue : KeptValue F)
    (newValue : PyObject F) :
    DraftEventType :=
  match oldValue with
  | .object id =>
      if newValue.id? = some id then
        if id ∈ state.changedObjIds then
          .objectInplaceChange
        else if handleChildChange ∧ id ∈ state.changedParentObjIds then
          .childObjectChange
        else
          .noChange
      else
        .objectIdChange
  | .scalar value =>
      if value.pyEq newValue.toValue then
        .noChange
      else
        .valueChange

/-- The event of a handler, for a model before and after the ops. -/
def changeEvent
    (compiledKey : DraftASTNode F → Value F → PyResult (Value F))
    (model : PyObject F)
    (state : TraceState F)
    (handler : DraftChangeEventHandler F) :
    DraftChangeEvent F :=
  let oldValDict := handler.draftExprDict.mapWithKey fun _ expr =>
    KeptValue.of (evaluateDraftExprNoexcept compiledKey model expr)
  let newValDict := handler.draftExprDict.mapWithKey fun _ expr =>
    evaluateDraftExprNoexcept compiledKey state.model expr
  { typeDict := handler.draftExprDict.mapWithKey fun _ expr =>
      changeType handler.handleChildChange state
        (KeptValue.of (evaluateDraftExprNoexcept compiledKey model expr))
        (evaluateDraftExprNoexcept compiledKey state.model expr)
    oldValueDict := oldValDict
    newValueDict := newValDict }

/-- `update_model_with_change_event`. -/
def updateModelWithChangeEvent
    (compiledKey : DraftASTNode F → Value F → PyResult (Value F))
    (start : Held F)
    (ops : List (DraftUpdateOp F))
    (eventHandlers : List (DraftChangeEventHandler F)) :
    PyResult (List (DraftChangeEvent F) × Held F) :=
  match applyDraftUpdateOpsWithChangedObjIds ops true
      ⟨start.obj, start.next, [], []⟩ with
  | .error raised _ => .error raised
  | .ok _ state =>
      .ok (eventHandlers.map (changeEvent compiledKey start.obj state),
        ⟨state.model, state.next⟩)

/-! ## Missed changes -/

/-- Two values are the same in depth, as data or for `==`. -/
def SameDeepValue (old new : PyObject F) : Prop :=
  old.toValue = new.toValue ∨ old.toValue.pyEq new.toValue = true

/-- A handler gets an event for each of its expressions whose deep value differs. -/
def NoChangeMissed
    (compiledKey : DraftASTNode F → Value F → PyResult (Value F))
    (start : Held F)
    (ops : List (DraftUpdateOp F))
    (handler : DraftChangeEventHandler F) : Prop :=
  ∀ eventHandlers events after,
    updateModelWithChangeEvent compiledKey start ops eventHandlers =
      .ok (events, after) →
    ∀ index : Nat,
      eventHandlers[index]? = some handler →
      ∃ event,
        events[index]? = some event ∧
          ∀ key expr,
            handler.draftExprDict.get? key = some expr →
            ¬ SameDeepValue
              (evaluateDraftExprNoexcept compiledKey start.obj expr)
              (evaluateDraftExprNoexcept compiledKey after.obj expr) →
            ∃ eventType,
              event.typeDict.get? key = some eventType ∧ eventType ≠ .noChange

/-- No object of a model sits at two places, and new identities are not taken. -/
def NoAliasing (start : Held F) : Prop :=
  start.obj.ids.Nodup ∧ ∀ id ∈ start.obj.ids, id < start.next

/-! ## What expressions read -/

omit [PyBuiltins F] in
/-- An object of a model, or one without identities. -/
def IsPartOf (object model : PyObject F) : Prop :=
  PyObject.Inside object model ∨ object.ids = []

omit [PyBuiltins F] in
theorem IsPartOf.read
    {object child model : PyObject F}
    (isPart : IsPartOf object model)
    (read : child ∈ object.children ∨ child.ids = []) :
    IsPartOf child model := by
  rcases read with holds | isEmpty
  · have heldHere : PyObject.Inside child object := .held holds (.self child)
    rcases isPart with inside | isEmpty
    · exact .inl (heldHere.trans inside)
    · refine .inr (List.eq_nil_of_subset_nil ?_)
      rw [← isEmpty]
      exact heldHere.ids_subset
  · exact .inr isEmpty

omit [PyBuiltins F] in
theorem IsPartOf.unlessNone
    {target object model : PyObject F}
    {read : PyObject F → PyResult (PyObject F)}
    (isPart : IsPartOf target model)
    (reads : ∀ target child, read target = .ok child →
      child ∈ target.children ∨ child.ids = [])
    (computed : unlessNone target read = .ok object) :
    IsPartOf object model := by
  unfold Draft.unlessNone at computed
  split at computed
  · cases computed
    exact .inr rfl
  · exact isPart.read (reads _ _ computed)

theorem IsPartOf.getItemPathCompiled
    {curObj object model : PyObject F}
    {path : List (Value F)}
    (isPart : IsPartOf curObj model)
    (followed : getItemPathCompiled curObj path = .ok object) :
    IsPartOf object model := by
  induction path generalizing curObj with
  | nil =>
      cases followed
      exact isPart
  | cons p rest inductionHypothesis =>
      simp only [Draft.getItemPathCompiled] at followed
      split at followed
      · cases followed
        exact .inr rfl
      · obtain ⟨step, _, reading⟩ := PyResult.bind_eq_ok.mp followed
        obtain ⟨next, read, continued⟩ := PyResult.bind_eq_ok.mp reading
        exact inductionHypothesis (isPart.read (mem_children_of_readObject read))
          continued

/-- An expression reads a part of the model. -/
theorem isPartOf_of_runCompiled
    {compiledKey : DraftASTNode F → Value F → PyResult (Value F)}
    {model object : PyObject F}
    {expr : HandlerExpr F}
    (computed : runCompiled compiledKey model expr = .ok object) :
    IsPartOf object model := by
  induction expr generalizing object with
  | root =>
      cases computed
      exact .inl (.self model)
  | getAttr target value inductionHypothesis =>
      obtain ⟨found, first, read⟩ := PyResult.bind_eq_ok.mp computed
      exact (inductionHypothesis first).unlessNone
        (fun _ _ read => .inl (mem_children_of_getAttr read)) read
  | arrayGetItem target value inductionHypothesis =>
      obtain ⟨found, first, read⟩ := PyResult.bind_eq_ok.mp computed
      exact (inductionHypothesis first).unlessNone
        (fun _ _ read => mem_children_of_getItem read) read
  | dictGetItem target value inductionHypothesis =>
      obtain ⟨found, first, read⟩ := PyResult.bind_eq_ok.mp computed
      exact (inductionHypothesis first).unlessNone
        (fun _ _ read => mem_children_of_getItem read) read
  | getItem target key inductionHypothesis =>
      obtain ⟨found, first, rest⟩ := PyResult.bind_eq_ok.mp computed
      obtain ⟨k, _, read⟩ := PyResult.bind_eq_ok.mp rest
      exact (inductionHypothesis first).read (mem_children_of_getItem read)
  | getItemPath target path inductionHypothesis =>
      obtain ⟨found, first, rest⟩ := PyResult.bind_eq_ok.mp computed
      obtain ⟨pathList, _, followed⟩ := PyResult.bind_eq_ok.mp rest
      split at followed
      · exact (inductionHypothesis first).getItemPathCompiled followed
      · cases followed

theorem isPartOf_evaluateDraftExprNoexcept
    (compiledKey : DraftASTNode F → Value F → PyResult (Value F))
    (model : PyObject F)
    (expr : HandlerExpr F) :
    IsPartOf (evaluateDraftExprNoexcept compiledKey model expr) model := by
  unfold evaluateDraftExprNoexcept
  split
  · rename_i computed
    exact isPartOf_of_runCompiled computed
  · exact .inr rfl

omit [PyBuiltins F] in
theorem IsPartOf.inside
    {object model : PyObject F}
    {id : ObjId}
    (isPart : IsPartOf object model)
    (identified : object.id? = some id) :
    PyObject.Inside object model := by
  rcases isPart with inside | isEmpty
  · exact inside
  · have member := PyObject.mem_ids_of_id? identified
    rw [isEmpty] at member
    cases member

/-! ## When no change is missed -/

omit [PyBuiltins F] in
/-- An object that is the same and was not recorded holds what it held. -/
theorem eq_of_covers
    {start : Held F}
    {before after : TraceState F}
    {old new : PyObject F}
    {id : ObjId}
    (noAliasing : NoAliasing start)
    (isModel : before.model = start.obj)
    (isNext : before.next = start.next)
    (covers : Covers before after)
    (insideOld : PyObject.Inside old start.obj)
    (insideNew : PyObject.Inside new after.model)
    (isOld : old.id? = some id)
    (isNew : new.id? = some id)
    (unrecorded : id ∉ after.changedParentObjIds) :
    old = new := by
  have taken :=
    noAliasing.2 id (insideOld.ids_subset (PyObject.mem_ids_of_id? isOld))
  rcases covers.inside new insideNew id isNew with isRecorded | notTaken | wasInside
  · exact absurd isRecorded unrecorded
  · exact absurd taken (Nat.not_lt.mpr (isNext ▸ notTaken))
  · rw [isModel] at wasInside
    exact PyObject.eq_of_id?_eq noAliasing.1 insideOld wasInside isOld isNew

/-- A value for which no event is reported is the same in depth. -/
theorem sameDeepValue_of_noChange
    {start : Held F}
    {before after : TraceState F}
    {old new : PyObject F}
    (noAliasing : NoAliasing start)
    (isModel : before.model = start.obj)
    (isNext : before.next = start.next)
    (covers : Covers before after)
    (oldPart : IsPartOf old start.obj)
    (newPart : IsPartOf new after.model)
    (unchanged : changeType true after (KeptValue.of old) new = .noChange) :
    SameDeepValue old new := by
  unfold KeptValue.of at unchanged
  split at unchanged
  · rename_i id isOld
    simp only [changeType] at unchanged
    split at unchanged
    · rename_i isNew
      split at unchanged
      · cases unchanged
      · split at unchanged
        · cases unchanged
        · rename_i unrecorded
          have same := eq_of_covers noAliasing isModel isNext covers
            (oldPart.inside isOld) (newPart.inside isNew) isOld isNew
            fun recorded => unrecorded ⟨trivial, recorded⟩
          exact .inl (congrArg PyObject.toValue same)
    · cases unchanged
  · simp only [changeType] at unchanged
    split at unchanged
    · rename_i equal
      exact .inr equal
    · cases unchanged

/-- No change is missed by ops that record what they change. -/
theorem noChangeMissed_of_recordsChanges
    (compiledKey : DraftASTNode F → Value F → PyResult (Value F))
    {start : Held F}
    {ops : List (DraftUpdateOp F)}
    {handler : DraftChangeEventHandler F}
    (noAliasing : NoAliasing start)
    (handlesChildren : handler.handleChildChange = true)
    (records : RecordsChanges true ops ⟨start.obj, start.next, [], []⟩) :
    NoChangeMissed compiledKey start ops handler := by
  intro eventHandlers events after updated index isHandler
  unfold updateModelWithChangeEvent at updated
  split at updated
  · cases updated
  · rename_i state applied
    cases updated
    have covers :
        Covers ⟨start.obj, start.next, [], []⟩ state := by
      unfold applyDraftUpdateOpsWithChangedObjIds at applied
      split at applied
      · exact covers_applyTracedOps records applied
      · cases applied
    refine ⟨changeEvent compiledKey start.obj state handler, ?_, ?_⟩
    · rw [List.getElem?_map, isHandler, Option.map_some]
    · intro key expr found differs
      refine ⟨_, by
        simp only [changeEvent, Dict.get?_mapWithKey, found, Option.map_some]
        rfl, ?_⟩
      intro unchanged
      rw [handlesChildren] at unchanged
      exact differs (sameDeepValue_of_noChange noAliasing rfl rfl covers
        (isPartOf_evaluateDraftExprNoexcept compiledKey start.obj expr)
        (isPartOf_evaluateDraftExprNoexcept compiledKey state.model expr)
        unchanged)

end Handlers

/-! ## Samples -/

/-- A model whose field `i` is a list of an object with a field `a`. -/
def sampleHeldModel : Held WholeFloat :=
  ⟨.obj 0 "Model" [("i", .list 1 [.obj 2 "Item" [("a", .int 1)] []])] [], 3⟩

/-- A handler for the field `i` and what is in it. -/
def sampleChangeHandler : DraftChangeEventHandler WholeFloat where
  draftExprDict := .ofList [("", .getAttr .root "i")]
  handleChildChange := true

/-- `i[0].a = 4`. -/
def staticOp : DraftUpdateOp WholeFloat where
  data := .setAttr [("a", .int 4)]
  node := .arrayGetItem (.getAttr (.name "") "i") (.int 0)

/-- `getItemPath(i, [0]).a = 4`. -/
def pathOp : DraftUpdateOp WholeFloat where
  data := .setAttr [("a", .int 4)]
  node := .getItemPath (.getAttr (.name "") "i")
    (.jsonLiteral ⟨.list [.int 0], rfl⟩)

/-- The change of an item of `i` by a static path is not missed. -/
theorem noChangeMissed_staticOp :
    NoChangeMissed (fun key value => evaluateDraftAst value key) sampleHeldModel
      [staticOp] sampleChangeHandler := by
  refine noChangeMissed_of_recordsChanges _ ?_ rfl ?_
  · exact ⟨by decide, by decide⟩
  · refine ⟨⟨rfl, ?_⟩, fun _ _ => trivial⟩
    intro found _ op key value isInplace
    cases isInplace

/-- The change by a path list is missed: only the item is recorded. -/
theorem not_noChangeMissed :
    ¬ ∀ (start : Held WholeFloat)
        (ops : List (DraftUpdateOp WholeFloat))
        (handler : DraftChangeEventHandler WholeFloat),
        NoAliasing start →
        handler.handleChildChange = true →
        NoChangeMissed (fun key value => evaluateDraftAst value key) start ops
          handler := by
  intro claim
  have missed := claim sampleHeldModel [pathOp] sampleChangeHandler
    ⟨by decide, by decide⟩ rfl
  have updated :
      ∃ event after,
        updateModelWithChangeEvent (fun key value => evaluateDraftAst value key)
            sampleHeldModel [pathOp] [sampleChangeHandler] = .ok ([event], after) ∧
          event.typeDict.get? "" = some .noChange ∧
          after.obj =
            .obj 0 "Model" [("i", .list 1 [.obj 2 "Item" [("a", .int 4)] []])] [] :=
    ⟨_, _, rfl, rfl, rfl⟩
  obtain ⟨event, ⟨obj, next⟩, computed, unchanged, rfl⟩ := updated
  obtain ⟨same, isEvent, reported⟩ :=
    missed [sampleChangeHandler] [event] _ computed 0 rfl
  cases isEvent
  have differs :
      ¬ SameDeepValue
        (evaluateDraftExprNoexcept (fun key value => evaluateDraftAst value key)
          sampleHeldModel.obj (.getAttr .root "i"))
        (evaluateDraftExprNoexcept (fun key value => evaluateDraftAst value key)
          (.obj 0 "Model" [("i", .list 1 [.obj 2 "Item" [("a", .int 4)] []])] [])
          (.getAttr .root "i")) := by
    rintro (sameData | equal)
    · cases sameData
    · cases equal
  obtain ⟨eventType, isType, changed⟩ := reported "" _ rfl differs
  rw [unchanged] at isType
  exact changed (Option.some.inj isType).symm

end TensorPC.Draft
