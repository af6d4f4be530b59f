import TensorPC.Draft.UpdateOp
import TensorPC.Draft.EvaluatorAgreement
import TensorPC.Lib.Computation

namespace TensorPC.Draft

/-!
# Places in the dictionary of a model

A path on which the evaluators agree names the same place in the dictionary of a
model as in the model, and a change at that place commutes with `asDict`.
-/

variable {F : Type} [PyBuiltins F]

omit [PyBuiltins F] in
/-- The step that leads through the dictionary of an object. -/
def Step.toJson : Step F → Step F
  | attr name => .item (.str name)
  | item index => .item (asDict index)

/-- A step that reads an attribute reads a field. -/
def Step.hasField (value : Value F) : Step F → Bool
  | attr name => Draft.hasField value name
  | item _ => true

/-- Every attribute on the way to a place is a field. -/
def placeHasFields : List (Step F) → Value F → Bool
  | [], _ => true
  | step :: rest, value =>
      step.hasField value &&
        whenOk (step.read value) fun child => placeHasFields rest child

omit [PyBuiltins F] in
theorem field_item
    (value index : Value F) :
    (Step.item index).hasField value = true :=
  rfl

/-! ## One step -/

theorem Step.read_toJson
    {step : Step F}
    {value child : Value F}
    (field : step.hasField value = true)
    (read : step.read value = .ok child) :
    step.toJson.read (asDict value) = .ok (asDict child) := by
  cases step with
  | attr name =>
      exact getItem_asDict_of_getAttr read field
  | item index =>
      exact getItem_asDict read

theorem Step.write_toJson
    {step : Step F}
    {value old : Value F}
    (field : step.hasField value = true)
    (read : step.read value = .ok old)
    (child : Value F) :
    step.toJson.write (asDict value) (asDict child) =
      asDict (step.write value child) := by
  cases step with
  | item index =>
      exact replaceItem_asDict child read
  | attr name =>
      simp only [Step.toJson, Step.write]
      cases written : value.setAttr name child with
      | ok result =>
          have entry := setItem_asDict_of_setAttr written field
          cases value with
          | obj cls fields extras =>
              simp only [asDict, Value.replaceItem] at *
              rw [entry]
          | none | bool | int | float | str | list | tuple | dict =>
              cases field
      | error raised =>
          cases value with
          | obj cls fields extras =>
              simp only [Value.setAttr] at written
              split at written <;> cases written
          | none | bool | int | float | str | list | tuple | dict =>
              cases field

/-- A change at a place whose attributes are fields commutes with `asDict`. -/
theorem updateAt_toJson
    {place : List (Step F)}
    {change changeJson : Mutation F}
    {value child result : Value F}
    (fields : placeHasFields place value = true)
    (reads : readAt place value = .ok child)
    (commutes :
      ∀ after, change child = .ok () after →
        changeJson (asDict child) = .ok () (asDict after))
    (updated : updateAt place change value = .ok () result) :
    updateAt (place.map Step.toJson) changeJson (asDict value) =
      .ok () (asDict result) := by
  induction place generalizing value result with
  | nil =>
      cases reads
      exact commutes result updated
  | cons step rest inductionHypothesis =>
      obtain ⟨next, read, readsRest⟩ := PyResult.bind_eq_ok.mp reads
      simp only [placeHasFields, Bool.and_eq_true] at fields
      have fieldsRest := whenOk_ok fields.2 read
      simp only [updateAt, read] at updated
      cases changed : updateAt rest change next with
      | error raised after =>
          simp [changed] at updated
      | ok done after =>
          simp only [changed, EStateM.Result.ok.injEq, true_and] at updated
          subst updated
          have below := inductionHypothesis fieldsRest readsRest changed
          simp only [List.map_cons, updateAt, Step.read_toJson fields.1 read,
            below, Step.write_toJson fields.1 read after]

/-! ## Paths -/

/-- An object with its place, as a dictionary. -/
def Placed.toJson (placed : Placed F) : Placed F :=
  (placed.1.map Step.toJson, asDict placed.2)

/-- The object of the model that is at its place, which is reached by fields. -/
structure PlacedIn (obj : Value F) (placed : Placed F) : Prop where
  reads : readAt placed.1 obj = .ok placed.2
  fields : placeHasFields placed.1 obj = true

theorem PlacedIn.root (obj : Value F) : PlacedIn obj ([], obj) where
  reads := rfl
  fields := rfl

theorem placeHasFields_append
    {place : List (Step F)}
    {value child : Value F}
    {step : Step F}
    (fields : placeHasFields place value = true)
    (reads : readAt place value = .ok child)
    (field : step.hasField child = true) :
    placeHasFields (place ++ [step]) value = true := by
  induction place generalizing value with
  | nil =>
      cases reads
      simp only [List.nil_append, placeHasFields, field, Bool.true_and]
      cases step.read child <;> rfl
  | cons first rest inductionHypothesis =>
      obtain ⟨next, read, readsRest⟩ := PyResult.bind_eq_ok.mp reads
      simp only [placeHasFields, Bool.and_eq_true] at fields
      have fieldsRest := whenOk_ok fields.2 read
      simp only [List.cons_append, placeHasFields, fields.1, Bool.true_and,
        read, whenOk]
      exact inductionHypothesis fieldsRest readsRest

theorem PlacedIn.step
    {obj : Value F}
    {placed next : Placed F}
    {step : Step F}
    (within : PlacedIn obj placed)
    (field : step.hasField placed.2 = true)
    (stepped : placed.step step = .ok next) :
    placed.toJson.step step.toJson = .ok next.toJson ∧ PlacedIn obj next := by
  obtain ⟨child, read, built⟩ := PyResult.bind_eq_ok.mp stepped
  cases built
  constructor
  · simp [Placed.step, Placed.toJson, Step.read_toJson field read, bind,
      Except.bind]
  · exact {
      reads := (readAt_append within.reads step).trans read
      fields := placeHasFields_append within.fields within.reads field }

/-- The loop of `getItemPath` through the dictionaries. -/
theorem followSteps_toJson
    {obj : Value F}
    {placed final : Placed F}
    {path : List (Value F)}
    (within : PlacedIn obj placed)
    (fields : pathHasFields placed.2 path = true)
    (followed : followSteps placed path = .ok final) :
    followSteps placed.toJson (path.map asDict) = .ok final.toJson ∧
      PlacedIn obj final := by
  induction path generalizing placed with
  | nil =>
      cases followed
      exact ⟨rfl, within⟩
  | cons p rest inductionHypothesis =>
      obtain ⟨step, chosen, followed⟩ := PyResult.bind_eq_ok.mp followed
      obtain ⟨next, stepped, followed⟩ := PyResult.bind_eq_ok.mp followed
      have read : step.read placed.2 = .ok next.2 := by
        rw [← snd_step, stepped]
        rfl
      have chosenJson :
          step.hasField placed.2 = true ∧
            pathHasFields next.2 rest = true ∧
            pathStep (asDict placed.2) (asDict p) = .ok step.toJson := by
        simp only [pathStep, pathHasFields] at chosen fields
        by_cases sequence : isSequenceOrMapping placed.2 = true
        · simp only [sequence, ↓reduceIte, Except.ok.injEq] at chosen fields
          subst chosen
          simp only [Step.read] at read
          simp only [read] at fields
          refine ⟨rfl, fields, ?_⟩
          cases object : placed.2 <;>
            simp_all [isSequenceOrMapping, asDict, pathStep, Step.toJson]
        · simp only [sequence, Bool.false_eq_true, ↓reduceIte] at chosen fields
          obtain ⟨_, isObject, chosen⟩ := PyResult.bind_eq_ok.mp chosen
          cases p with
          | str name =>
              cases chosen
              simp only [Step.read] at read
              simp only [read, Bool.and_eq_true] at fields
              refine ⟨fields.1, fields.2, ?_⟩
              cases object : placed.2 <;>
                simp_all [isDataclass, isSequenceOrMapping, asDict, pathStep,
                  Step.toJson]
          | none | bool | int | float | list | tuple | dict | obj =>
              cases chosen
      obtain ⟨field, fieldsRest, chosenJson⟩ := chosenJson
      obtain ⟨steppedJson, withinNext⟩ := within.step field stepped
      obtain ⟨followedJson, withinFinal⟩ :=
        inductionHypothesis withinNext fieldsRest followed
      refine ⟨?_, withinFinal⟩
      simp only [List.map_cons, followSteps, Placed.toJson] at *
      simp only [chosenJson, ok_bind, steppedJson, followedJson]

theorem evaluateDraftAst_of_resolve
    {obj : Value F}
    {path : DraftPath F}
    {placed : Placed F}
    (resolved : resolve obj path = .ok placed) :
    evaluateDraftAst obj path.toNode = .ok placed.2 := by
  rw [← snd_resolve, resolved]
  rfl

/-- A path names the same place in the dictionary of the model. -/
theorem resolve_toJson
    {obj : Value F}
    {path : DraftPath F}
    {placed : Placed F}
    (agree : evaluatorsAgree obj path.toNode = true)
    (resolved : resolve obj path = .ok placed) :
    resolveJson (asDict obj) path = .ok placed.toJson ∧
      PlacedIn obj placed := by
  induction path generalizing placed with
  | name value =>
      simp only [DraftPath.toNode, evaluatorsAgree, Bool.or_eq_true,
        Bool.and_eq_true, bne_iff_ne, ne_eq] at agree
      simp only [resolve, resolveJson, resolveWith, objectEvaluator,
        jsonEvaluator] at *
      by_cases root : isRootName value = true
      · simp only [root, Bool.true_or, ↓reduceIte, Except.ok.injEq] at *
        subst resolved
        exact ⟨rfl, PlacedIn.root obj⟩
      · have field := agree.resolve_left root
        have attrField : (Step.attr value).hasField obj = true := field.2
        have notCall : (value == "getRoot()") = false := by
          simp [field.1]
        simp only [notCall, root, Bool.or_self, Bool.false_eq_true,
          ↓reduceIte] at *
        exact (PlacedIn.root obj).step attrField resolved
  | getAttr target value inductionHypothesis =>
      obtain ⟨found, resolvedTarget, stepped⟩ := PyResult.bind_eq_ok.mp resolved
      simp only [DraftPath.toNode, evaluatorsAgree, Bool.and_eq_true] at agree
      have declared :=
        whenOk_ok agree.2 (evaluateDraftAst_of_resolve resolvedTarget)
      have field : (Step.attr value).hasField found.2 = true := declared
      obtain ⟨targetJson, within⟩ := inductionHypothesis agree.1 resolvedTarget
      obtain ⟨steppedJson, withinNext⟩ := within.step field stepped
      refine ⟨?_, withinNext⟩
      simp only [resolveJson, resolveWith] at targetJson ⊢
      rw [targetJson]
      exact steppedJson
  | arrayGetItem target value inductionHypothesis =>
      obtain ⟨found, resolvedTarget, stepped⟩ := PyResult.bind_eq_ok.mp resolved
      obtain ⟨targetJson, within⟩ := inductionHypothesis agree resolvedTarget
      obtain ⟨steppedJson, withinNext⟩ := within.step (field_item _ _) stepped
      refine ⟨?_, withinNext⟩
      simp only [resolveJson, resolveWith, Step.toJson, asDict_toValue] at *
      rw [targetJson]
      exact steppedJson
  | dictGetItem target value inductionHypothesis =>
      obtain ⟨found, resolvedTarget, stepped⟩ := PyResult.bind_eq_ok.mp resolved
      obtain ⟨targetJson, within⟩ := inductionHypothesis agree resolvedTarget
      obtain ⟨steppedJson, withinNext⟩ := within.step (field_item _ _) stepped
      refine ⟨?_, withinNext⟩
      simp only [resolveJson, resolveWith, Step.toJson, asDict_toValue] at *
      rw [targetJson]
      exact steppedJson
  | getItem target key inductionHypothesis =>
      obtain ⟨k, evaluatedKey, resolvedRest⟩ := PyResult.bind_eq_ok.mp resolved
      obtain ⟨found, resolvedTarget, stepped⟩ :=
        PyResult.bind_eq_ok.mp resolvedRest
      simp only [DraftPath.toNode, evaluatorsAgree, Bool.and_eq_true] at agree
      have keyJson := evaluateDraftAstJson_asDict obj key k agree.2 evaluatedKey
      obtain ⟨targetJson, within⟩ := inductionHypothesis agree.1 resolvedTarget
      obtain ⟨steppedJson, withinNext⟩ := within.step (field_item _ _) stepped
      refine ⟨?_, withinNext⟩
      simp only [resolveJson, resolveWith] at targetJson ⊢
      simp only [jsonEvaluator] at *
      rw [keyJson, ok_bind, targetJson]
      exact steppedJson
  | getattr target key inductionHypothesis =>
      obtain ⟨found, resolvedTarget, resolvedRest⟩ :=
        PyResult.bind_eq_ok.mp resolved
      obtain ⟨k, evaluatedKey, chosen⟩ := PyResult.bind_eq_ok.mp resolvedRest
      obtain ⟨step, named, stepped⟩ := PyResult.bind_eq_ok.mp chosen
      simp only [DraftPath.toNode, evaluatorsAgree, Bool.and_eq_true] at agree
      have atTarget :=
        whenOk_ok agree.2 (evaluateDraftAst_of_resolve resolvedTarget)
      have field := whenOk_ok atTarget evaluatedKey
      have keyJson :=
        evaluateDraftAstJson_asDict obj key k agree.1.2 evaluatedKey
      obtain ⟨targetJson, within⟩ :=
        inductionHypothesis agree.1.1 resolvedTarget
      cases k with
      | str name =>
          cases named
          have attrField : (Step.attr name).hasField found.2 = true := field
          obtain ⟨steppedJson, withinNext⟩ := within.step attrField stepped
          refine ⟨?_, withinNext⟩
          simp only [resolveJson, resolveWith] at targetJson ⊢
          simp only [jsonEvaluator] at *
          rw [targetJson, ok_bind, keyJson]
          exact steppedJson
      | none | bool | int | float | list | tuple | dict | obj =>
          cases named
  | getItemPath target path inductionHypothesis =>
      obtain ⟨found, resolvedTarget, resolvedRest⟩ :=
        PyResult.bind_eq_ok.mp resolved
      obtain ⟨pathList, evaluatedPath, followed⟩ :=
        PyResult.bind_eq_ok.mp resolvedRest
      simp only [DraftPath.toNode, evaluatorsAgree, Bool.and_eq_true] at agree
      have atTarget :=
        whenOk_ok agree.2 (evaluateDraftAst_of_resolve resolvedTarget)
      have fields := whenOk_ok atTarget evaluatedPath
      have pathJson :=
        evaluateDraftAstJson_asDict obj path pathList agree.1.2 evaluatedPath
      obtain ⟨targetJson, within⟩ :=
        inductionHypothesis agree.1.1 resolvedTarget
      cases pathList with
      | list items =>
          obtain ⟨followedJson, withinFinal⟩ :=
            followSteps_toJson within fields followed
          refine ⟨?_, withinFinal⟩
          simp only [resolveJson, resolveWith] at targetJson ⊢
          simp only [jsonEvaluator] at *
          rw [targetJson, ok_bind, pathJson]
          simpa [asDict, ok_bind] using followedJson
      | none | bool | int | float | str | tuple | dict | obj =>
          cases followed
  | «where» cond x y inductionX inductionY =>
      obtain ⟨test, evaluatedCond, resolvedRest⟩ :=
        PyResult.bind_eq_ok.mp resolved
      obtain ⟨first, resolvedX, resolvedRest⟩ :=
        PyResult.bind_eq_ok.mp resolvedRest
      obtain ⟨second, resolvedY, chosen⟩ := PyResult.bind_eq_ok.mp resolvedRest
      simp only [DraftPath.toNode, evaluatorsAgree, Bool.and_eq_true] at agree
      have notEmpty := whenOk_ok agree.2 evaluatedCond
      have condJson :=
        evaluateDraftAstJson_asDict obj cond test agree.1.1.1 evaluatedCond
      obtain ⟨jsonX, withinX⟩ := inductionX agree.1.1.2 resolvedX
      obtain ⟨jsonY, withinY⟩ := inductionY agree.1.2 resolvedY
      have truth : (asDict test).truthy = test.truthy :=
        truthy_asDict (by simpa using notEmpty)
      simp only [resolveJson, resolveWith] at jsonX jsonY ⊢
      simp only [jsonEvaluator] at *
      rw [condJson, ok_bind, jsonX, ok_bind, jsonY, ok_bind, truth]
      simp only [Except.ok.injEq] at chosen
      subst chosen
      cases test.truthy with
      | false =>
          exact ⟨rfl, withinY⟩
      | true =>
          exact ⟨rfl, withinX⟩

/-!
# Update ops on a model and on its dictionary

Applying `to_json_update_op` of every op to the dictionary of a model follows
the ops on the model, as long as every op meets a condition in the model that it
is applied to.
-/

/-! ## Loops -/

omit [PyBuiltins F] in
/-- A loop whose body follows another body follows the other loop. -/
theorem forEach_asDict
    {α β : Type}
    {kept : Value F → Prop}
    {body : α → Mutation F}
    {bodyJson : β → Mutation F}
    {f : α → β}
    {items : List α}
    {start final : Value F}
    (each :
      ∀ item ∈ items, ∀ value after,
        kept value →
        body item value = .ok () after →
        bodyJson (f item) (asDict value) = .ok () (asDict after) ∧ kept after)
    (initially : kept start)
    (ran : Mutation.forEach body items start = .ok () final) :
    Mutation.forEach bodyJson (items.map f) (asDict start) =
      .ok () (asDict final) := by
  induction items generalizing start with
  | nil =>
      cases ran
      rfl
  | cons item rest inductionHypothesis =>
      obtain ⟨_, middle, first, ran⟩ := Computation.bind_eq_ok.mp ran
      obtain ⟨firstJson, keptMiddle⟩ :=
        each item List.mem_cons_self start middle initially first
      have restJson :=
        inductionHypothesis
          (fun other member => each other (List.mem_cons_of_mem item member))
          keptMiddle ran
      exact (Computation.bind_of_ok firstJson).trans restJson

omit [PyBuiltins F] in
theorem ofResult_asDict
    {method methodJson : Value F → PyResult (Value F)}
    {value after : Value F}
    (follows :
      method value = .ok after → methodJson (asDict value) = .ok (asDict after))
    (called : Mutation.ofResult method value = .ok () after) :
    Mutation.ofResult methodJson (asDict value) = .ok () (asDict after) :=
  ofResult_eq_ok.mpr (follows (ofResult_eq_ok.mp called))

/-! ## One op on its object -/

/--
The attributes that an op assigns to are fields, and the item that it removes is
the first one whose dictionary equals the dictionary of the given item.
-/
def changeAgrees (data : OpData F) (curObj : Value F) : Bool :=
  match data, curObj with
  | .setAttr items, curObj => items.all fun item => hasField curObj item.1
  | .arrayRemove item, .list items =>
      firstEqual (asDict item) (items.map asDict) == firstEqual item items
  | .scalarInplaceOp _ (.str name) _, .obj cls fields extras =>
      hasField (.obj cls fields extras) name
  | _, _ => true

/-- `setattr` of fields, one after the other. -/
theorem setAttrs_asDict
    {items : List (String × Value F)}
    {curObj after : Value F}
    (fields : (items.all fun item => hasField curObj item.1) = true)
    (changed :
      Mutation.forEach (fun item => .ofResult (·.setAttr item.1 item.2)) items
        curObj = .ok () after) :
    Mutation.forEach (fun item => .ofResult (·.setItem (.str item.1) item.2))
        (mapValues asDict items) (asDict curObj) =
      .ok () (asDict after) := by
  refine
    @forEach_asDict F _ _
      (fun value => ∀ item ∈ items, hasField value item.1 = true)
      _ _ _ items curObj after ?_ (List.all_eq_true.mp fields) changed
  intro item member value next allFields assigned
  have written := ofResult_eq_ok.mp assigned
  constructor
  · exact ofResult_eq_ok.mpr
      (setItem_asDict_of_setAttr written (allFields item member))
  · exact fun other memberOther =>
      hasField_setAttr written (allFields other memberOther)

omit [PyBuiltins F] in
/-- A loop of method calls that follow the calls of another loop. -/
theorem forEach_ofResult_asDict
    {α β : Type}
    {method : α → Value F → PyResult (Value F)}
    {methodJson : β → Value F → PyResult (Value F)}
    {f : α → β}
    {items : List α}
    {start final : Value F}
    (follows :
      ∀ item value after,
        method item value = .ok after →
        methodJson (f item) (asDict value) = .ok (asDict after))
    (ran :
      Mutation.forEach (fun item => .ofResult (method item)) items start =
        .ok () final) :
    Mutation.forEach (fun item => .ofResult (methodJson item)) (items.map f)
        (asDict start) =
      .ok () (asDict final) :=
  @forEach_asDict F _ _ (fun _ => True) _ _ f items start final
    (fun item _ value after _ called =>
      ⟨ofResult_asDict (follows item value after) called, trivial⟩)
    trivial ran

theorem inplaceItem_asDict
    {op : ScalarInplaceOpType}
    {key value curObj result : Value F}
    (changed : inplaceItem op key value curObj = .ok result) :
    inplaceItem op (asDict key) (asDict value) (asDict curObj) =
      .ok (asDict result) := by
  obtain ⟨old, read, changed⟩ := PyResult.bind_eq_ok.mp changed
  obtain ⟨new, computed, written⟩ := PyResult.bind_eq_ok.mp changed
  simp only [inplaceItem, getItem_asDict read, inplaceArith_asDict computed,
    ok_bind, setItem_asDict written]

theorem inplaceItem_asDict_of_attr
    {op : ScalarInplaceOpType}
    {name : String}
    {value curObj result : Value F}
    (field : hasField curObj name = true)
    (changed : inplaceAttr op (.str name) value curObj = .ok result) :
    inplaceItem op (.str name) (asDict value) (asDict curObj) =
      .ok (asDict result) := by
  obtain ⟨old, read, changed⟩ := PyResult.bind_eq_ok.mp changed
  obtain ⟨new, computed, written⟩ := PyResult.bind_eq_ok.mp changed
  have sum := inplaceArith_asDict (inplaceArith_of_arith computed)
  simp only [inplaceItem, getItem_asDict_of_getAttr read field, sum, ok_bind,
    setItem_asDict_of_setAttr written field]

/-- An op has the same effect on the dictionary of its object. -/
theorem applyDraftUpdateOpToJson_asDict
    {data : OpData F}
    {dynamicKey curObj after : Value F}
    (agree : changeAgrees data curObj = true)
    (changed : applyDraftUpdateOp data dynamicKey curObj = .ok () after) :
    applyDraftUpdateOpToJson data.asDictData (asDict dynamicKey)
        (asDict curObj) =
      .ok () (asDict after) := by
  cases data with
  | setAttr items =>
      exact setAttrs_asDict agree changed
  | delete keys =>
      exact forEach_ofResult_asDict (fun key value after => pop_asDict) changed
  | extend items =>
      simp only [applyDraftUpdateOp, OpData.asDictData,
        applyDraftUpdateOpToJson] at changed ⊢
      refine ofResult_asDict (fun extended => ?_) changed
      exact extend_asDict extended
  | arraySet items =>
      exact forEach_ofResult_asDict
        (fun item value after => setItem_asDict) changed
  | arrayPop index =>
      simp only [applyDraftUpdateOp, OpData.asDictData,
        applyDraftUpdateOpToJson] at changed ⊢
      refine ofResult_asDict (fun popped => ?_) changed
      cases index with
      | none =>
          exact pop_asDict popped
      | bool | int | float | str | list | tuple | dict | obj =>
          exact pop_asDict popped
  | arrayInsert index item =>
      simp only [applyDraftUpdateOp, OpData.asDictData,
        applyDraftUpdateOpToJson] at changed ⊢
      refine ofResult_asDict (fun inserted => ?_) changed
      exact insert_asDict inserted
  | arrayRemove item =>
      simp only [applyDraftUpdateOp, OpData.asDictData,
        applyDraftUpdateOpToJson] at changed ⊢
      refine ofResult_asDict (fun removed => ?_) changed
      cases curObj with
      | list items =>
          simp only [changeAgrees, beq_iff_eq] at agree
          exact remove_asDict agree removed
      | none | bool | int | float | str | tuple | dict | obj =>
          cases removed
  | containerClear =>
      exact ofResult_asDict clear_asDict changed
  | dictUpdate items =>
      refine forEach_ofResult_asDict (fun item value after assigned => ?_) changed
      have written := setItem_asDict assigned
      rw [asDict_toValue] at written
      exact written
  | assign value keyNode =>
      simp only [applyDraftUpdateOp, OpData.asDictData,
        applyDraftUpdateOpToJson] at changed ⊢
      refine ofResult_asDict (fun assigned => ?_) changed
      obtain ⟨_, _, assigned⟩ := PyResult.bind_eq_ok.mp assigned
      exact setItem_asDict assigned
  | scalarInplaceOp op key value =>
      simp only [applyDraftUpdateOp, OpData.asDictData,
        applyDraftUpdateOpToJson] at changed ⊢
      refine ofResult_asDict (fun computed => ?_) changed
      by_cases container : isMutableContainer curObj = true
      · simp only [container, ↓reduceIte] at computed
        exact inplaceItem_asDict computed
      · simp only [container, Bool.false_eq_true, ↓reduceIte] at computed
        cases curObj with
        | obj cls fields extras =>
            cases key with
            | str name =>
                exact inplaceItem_asDict_of_attr agree computed
            | none | bool | int | float | list | tuple | dict | obj =>
                cases computed
        | list | dict =>
            simp [isMutableContainer] at container
        | none | bool | int | float | str | tuple =>
            cases key <;> cases computed
  | slice | rootAssign | rootInplaceOp =>
      cases changed

/-! ## One op on the model -/

/-- The evaluators agree on the key expression of an `Assign` op. -/
def keyAgrees (obj : Value F) (data : OpData F) : Bool :=
  match data with
  | .assign _ keyNode => evaluatorsAgree obj keyNode
  | _ => true

/--
The evaluators agree on the expressions of an op, and the change it makes comes
out the same on the dictionary of its object.
-/
def opAgrees (obj : Value F) (op : DraftUpdateOp F) : Bool :=
  evaluatorsAgree obj op.node.toNode && keyAgrees obj op.data &&
    whenOk (evaluateDraftAst obj op.node.toNode) fun curObj =>
      changeAgrees op.data curObj

theorem dynamicKey_asDict
    {obj key : Value F}
    {data : OpData F}
    (agree : keyAgrees obj data = true)
    (evaluated : dynamicKeyWith objectEvaluator obj data = .ok key) :
    dynamicKeyWith jsonEvaluator (asDict obj) data.asDictData =
      .ok (asDict key) := by
  cases data with
  | assign value keyNode =>
      exact evaluateDraftAstJson_asDict obj keyNode key agree evaluated
  | rootAssign | rootInplaceOp | setAttr | delete | extend | slice | arraySet
  | arrayPop | arrayInsert | arrayRemove | containerClear | dictUpdate
  | scalarInplaceOp =>
      cases evaluated
      rfl

/-- One op on the dictionary follows the op on the model. -/
theorem applyOneOpToJson_asDict
    {op : DraftUpdateOp F}
    {obj after : Value F}
    (agree : opAgrees obj op = true)
    (applied : applyOneOp false op obj = .ok () after) :
    applyOneOpToJson op.toJsonUpdateOp (asDict obj) = .ok () (asDict after) := by
  simp only [opAgrees, Bool.and_eq_true] at agree
  obtain ⟨⟨pathAgrees, keysAgree⟩, changesAgree⟩ := agree
  unfold applyOneOp at applied
  cases resolved : resolve obj op.node with
  | error raised =>
      simp [resolved] at applied
  | ok placed =>
      rcases placed with ⟨place, curObj⟩
      have changeAgree :=
        whenOk_ok changesAgree (evaluateDraftAst_of_resolve resolved)
      obtain ⟨resolvedJson, within⟩ := resolve_toJson pathAgrees resolved
      simp only [resolved] at applied
      cases evaluated : dynamicKeyWith objectEvaluator obj op.data with
      | error raised =>
          simp [evaluated] at applied
      | ok key =>
          simp only [evaluated] at applied
          have keyJson := dynamicKey_asDict keysAgree evaluated
          unfold applyOneOpToJson
          simp only [DraftUpdateOp.toJsonUpdateOp, resolvedJson,
            Placed.toJson, keyJson]
          exact updateAt_toJson within.fields within.reads
            (fun next => applyDraftUpdateOpToJson_asDict changeAgree) applied

/-! ## All ops -/

/-- Every op agrees with its dictionary form in the model it is applied to. -/
def opsAgree : Value F → List (DraftUpdateOp F) → Bool
  | _, [] => true
  | obj, op :: rest =>
      opAgrees obj op &&
        match applyOneOp false op obj with
        | .ok _ after => opsAgree after rest
        | .error _ _ => true

theorem forEach_applyOneOpToJson
    {ops : List (DraftUpdateOp F)}
    {obj final : Value F}
    (agree : opsAgree obj ops = true)
    (applied : Mutation.forEach (applyOneOp false) ops obj = .ok () final) :
    Mutation.forEach applyOneOpToJson (ops.map DraftUpdateOp.toJsonUpdateOp)
        (asDict obj) =
      .ok () (asDict final) := by
  induction ops generalizing obj with
  | nil =>
      cases applied
      rfl
  | cons op rest inductionHypothesis =>
      obtain ⟨_, after, first, applied⟩ := Computation.bind_eq_ok.mp applied
      simp only [opsAgree, first, Bool.and_eq_true] at agree
      have firstJson := applyOneOpToJson_asDict agree.1 first
      exact (Computation.bind_of_ok firstJson).trans
        (inductionHypothesis agree.2 applied)

omit [PyBuiltins F] in
/-- An op stays what it is when its data become dictionaries. -/
@[simp] theorem isRegular_asDictData (data : OpData F) :
    data.asDictData.isRegular = data.isRegular := by
  cases data <;> rfl

/-- `h.a = 7`, then `a += 1`, then `e[where(a == 2, 0, 1)] = 10`. -/
def sampleOps : List (DraftUpdateOp WholeFloat) :=
  [ { data := .setAttr [("a", .int 7)], node := .getAttr (.name "") "h" },
    { data := .scalarInplaceOp .add (.str "a") (.int 1), node := .name "" },
    { data :=
        .assign (.int 10)
          (.where (.binaryOp .eq (.name "a") (.jsonLiteral ⟨.int 2, rfl⟩))
            (.jsonLiteral ⟨.int 0, rfl⟩) oneLiteral)
      node := .getAttr (.name "") "e" } ]

/-- The sample model after these ops. -/
def sampleChanged : Value WholeFloat :=
  .obj "Model"
    [("a", .int 2), ("c", .bool true), ("e", .list [.int 10, .int 2]),
      ("h", .obj "NestedModel" [("a", .int 7)] [])]
    []

/-- `e[a - 1] = 10`. -/
def sampleDynamicKey : DraftUpdateOp WholeFloat where
  data :=
    .assign (.int 10)
      (.binaryOp (.arith .sub) (.name "a") oneLiteral)
  node := .getAttr (.name "") "e"

end TensorPC.Draft
