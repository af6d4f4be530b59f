import TensorPC.Draft.JsonRefinement
import TensorPC.Py.JsonMethods

namespace TensorPC.Draft

/-!
# Update ops on a stored object

`apply_draft_update_ops_to_json_with_root`: ops that may also replace the root.
The object that the caller passed is changed in place until the root has been
replaced, and it keeps its changes when a later op raises.
-/

variable {F : Type}

/-! ## Applying ops -/

/-- The object that was passed, as changed in place, and the root after it. -/
structure RootState (F : Type) where
  stored : Value F
  replaced : Option (Value F)
  isRootChanged : Bool

namespace RootState

/-- The state at the start. -/
def start (obj : Value F) : RootState F where
  stored := obj
  replaced := none
  isRootChanged := false

/-- `obj`, the root that ops are applied to. -/
def obj (state : RootState F) : Value F :=
  state.replaced.getD state.stored

/-- The root has changed in place. -/
def changeInPlace (state : RootState F) (obj : Value F) : RootState F :=
  match state.replaced with
  | none => { state with stored := obj }
  | some _ => { state with replaced := some obj }

/-- `obj` names another object. -/
def replace (state : RootState F) (obj : Value F) : RootState F :=
  { state with replaced := some obj }

end RootState

/-- `obj += value` and `obj *= value` change a list in place. -/
def isChangedInPlace
    (op : ScalarInplaceOpType)
    (obj : Value F) :
    Bool :=
  match op, obj with
  | .add, .list _ => true
  | .mul, .list _ => true
  | _, _ => false

section Apply

variable [PyBuiltins F]

/-- `obj op= value`. -/
def applyRootInplaceOp
    (op : ScalarInplaceOpType)
    (value : Value F) :
    EStateM PyError (RootState F) Unit :=
  fun state =>
    let state := { state with isRootChanged := true }
    match state.obj.inplaceArith op.arithOp value with
    | .error raised => .error raised state
    | .ok obj =>
        if isChangedInPlace op state.obj then
          .ok () (state.changeInPlace obj)
        else
          .ok () (state.replace obj)

/-- An op that does not replace the root. -/
def applyRegularOp
    (op : DraftUpdateOp F) :
    EStateM PyError (RootState F) Unit :=
  fun state =>
    match applyOneOpToJson op state.obj with
    | .ok _ obj => .ok () (state.changeInPlace obj)
    | .error raised obj => .error raised (state.changeInPlace obj)

/-- The loop body of `apply_draft_update_ops_to_json_with_root`. -/
def applyRootOp
    (op : DraftUpdateOp F) :
    EStateM PyError (RootState F) Unit :=
  fun state =>
    match op.data with
    | .rootAssign value =>
        .ok () { state.replace value with isRootChanged := true }
    | .rootInplaceOp inplaceOp value =>
        applyRootInplaceOp inplaceOp value state
    | _ => applyRegularOp op state

/-- `if obj is None: assert ops[0].op == RootAssign, message`. -/
def requireRootAssign
    (message : String)
    (obj : Value F)
    (ops : List (DraftUpdateOp F)) :
    PyResult Unit :=
  match obj, ops with
  | .none, [] => .error .indexError
  | .none, op :: _ =>
      match op.data with
      | .rootAssign _ => .ok ()
      | _ => .error (.assertionError message)
  | _, _ => .ok ()

/-- `apply_draft_update_ops_to_json_with_root`. -/
def applyDraftUpdateOpsToJsonWithRoot
    (ops : List (DraftUpdateOp F)) :
    EStateM PyError (RootState F) Unit :=
  fun state =>
    match
      requireRootAssign "root object is None, first op must be root assign"
        state.stored ops with
    | .error raised => .error raised state
    | .ok _ => ops.forM applyRootOp state

/-! ## Replaced roots -/

/-- A root stays changed. -/
theorem isRootChanged_applyRootOp
    {op : DraftUpdateOp F}
    {state after : RootState F}
    (changed : state.isRootChanged = true)
    (applied : applyRootOp op state = .ok () after) :
    after.isRootChanged = true := by
  have inPlace :
      ∀ (state : RootState F) (obj : Value F),
        (state.changeInPlace obj).isRootChanged = state.isRootChanged := by
    intro state obj
    unfold RootState.changeInPlace
    split <;> rfl
  unfold applyRootOp at applied
  split at applied
  · cases applied
    rfl
  · simp only [applyRootInplaceOp] at applied
    split at applied
    · cases applied
    · split at applied
      · cases applied
        rw [inPlace]
      · cases applied
        rfl
  · unfold applyRegularOp at applied
    split at applied
    · cases applied
      rw [inPlace, changed]
    · cases applied

theorem isRootChanged_forM
    {ops : List (DraftUpdateOp F)}
    {state after : RootState F}
    (changed : state.isRootChanged = true)
    (applied : ops.forM applyRootOp state = .ok () after) :
    after.isRootChanged = true := by
  induction ops generalizing state with
  | nil =>
      cases applied
      exact changed
  | cons op rest inductionHypothesis =>
      obtain ⟨_, middle, first, applied⟩ := Computation.bind_eq_ok.mp applied
      exact inductionHypothesis (isRootChanged_applyRootOp changed first) applied

/-- Without an object, successful ops have assigned the root. -/
theorem isRootChanged_of_none
    {ops : List (DraftUpdateOp F)}
    {after : RootState F}
    (applied :
      applyDraftUpdateOpsToJsonWithRoot ops (.start .none) = .ok () after) :
    after.isRootChanged = true := by
  unfold applyDraftUpdateOpsToJsonWithRoot at applied
  cases ops with
  | nil =>
      cases applied
  | cons op rest =>
      simp only [RootState.start, requireRootAssign] at applied
      split at applied
      · cases applied
      · rename_i required
        split at required
        · rename_i value isRootAssign
          obtain ⟨_, middle, first, applied⟩ :=
            Computation.bind_eq_ok.mp applied
          simp only [applyRootOp, isRootAssign] at first
          cases first
          exact isRootChanged_forM rfl applied
        · cases required

end Apply

/-! ## Ops as JSON -/

section Json

variable [PyJson F]

/-- `json.loads(json.dumps(items))` for the items of a dictionary. -/
def roundTripEntries
    (items : List (Key F × Value F)) :
    PyResult (List (Key F × Value F)) := do
  let texts ← dumpsEntries items
  .ok (dictOfPairs (loadsPairs texts))

/-- The same for one assignment of an attribute. -/
def roundTripField (item : String × Value F) : PyResult (String × Value F) := do
  let value ← jsonRoundTrip item.2
  .ok (item.1, value)

/-- The same for one assignment of an item. -/
def roundTripPair (item : Value F × Value F) : PyResult (Value F × Value F) := do
  let index ← jsonRoundTrip item.1
  let value ← jsonRoundTrip item.2
  .ok (index, value)

/-- `json.loads(json.dumps(opData))`. -/
def OpData.roundTrip : OpData F → PyResult (OpData F)
  | rootAssign value => (jsonRoundTrip value).map .rootAssign
  | rootInplaceOp op value => (jsonRoundTrip value).map (.rootInplaceOp op)
  | setAttr items =>
      (items.mapM roundTripField).map .setAttr
  | delete keys => (keys.mapM jsonRoundTrip).map .delete
  | extend items => (jsonRoundTrip items).map .extend
  | slice => .ok .slice
  | arraySet items =>
      (items.mapM roundTripPair).map .arraySet
  | arrayPop index => (jsonRoundTrip index).map .arrayPop
  | arrayInsert index item => do
      let index ← jsonRoundTrip index
      let item ← jsonRoundTrip item
      .ok (.arrayInsert index item)
  | arrayRemove item => (jsonRoundTrip item).map .arrayRemove
  | containerClear => .ok .containerClear
  | dictUpdate items => (roundTripEntries items).map .dictUpdate
  | assign value keyNode => (jsonRoundTrip value).map (.assign · keyNode)
  | scalarInplaceOp op key value => do
      let key ← jsonRoundTrip key
      let value ← jsonRoundTrip value
      .ok (.scalarInplaceOp op key value)

/-- `dataclasses.replace(o, opData=json.loads(json.dumps(o.opData)))`. -/
def DraftUpdateOp.roundTrip
    (op : DraftUpdateOp F) :
    PyResult (DraftUpdateOp F) := do
  let data ← op.data.roundTrip
  .ok { op with data := data }

end Json

section Kept

variable [PyBuiltins F]

/-- Every value that an op puts into an object is a JSON value. -/
def OpData.isJsonData : OpData F → Bool
  | rootAssign value => isJson value
  | rootInplaceOp _ value => isJson value
  | setAttr items => items.all fun item => isJson item.2
  | delete _ => true
  | extend items => isJson items
  | slice => true
  | arraySet items => items.all fun item => isJson item.2
  | arrayPop _ => true
  | arrayInsert _ item => isJson item
  | arrayRemove _ => true
  | containerClear => true
  | dictUpdate items => isJsonDict items
  | assign value _ => isJson value
  | scalarInplaceOp _ _ value => isJson value

/-- An op assigns no entry of a dictionary under a key that is not a string. -/
def OpData.keysAreJson
    (data : OpData F)
    (dynamicKey curObj : Value F) :
    Bool :=
  match data with
  | arraySet items => items.all fun item => isJsonKey curObj item.1
  | assign _ _ => isJsonKey curObj dynamicKey
  | _ => true

/-- The same for an op on the object that its path names. -/
def DraftUpdateOp.keysAreJson (op : DraftUpdateOp F) (obj : Value F) : Bool :=
  whenOk (resolveJson obj op.node) fun placed =>
    whenOk (dynamicKeyWith jsonEvaluator obj op.data) fun dynamicKey =>
      op.data.keysAreJson dynamicKey placed.2

/-- The same for every op of a list, in the state that it is applied to. -/
def opsKeysAreJson : RootState F → List (DraftUpdateOp F) → Bool
  | _, [] => true
  | state, op :: rest =>
      op.keysAreJson state.obj &&
        match applyRootOp op state with
        | .ok _ after => opsKeysAreJson after rest
        | .error _ _ => true

/-! ## JSON values stay JSON values -/

omit [PyBuiltins F] in
/-- What every pass of a loop keeps, the loop keeps. -/
theorem forEach_invariant
    {α : Type}
    {kept : Value F → Prop}
    {method : α → Value F → PyResult (Value F)}
    {items : List α}
    {start final : Value F}
    (each :
      ∀ item ∈ items, ∀ value after,
        kept value → method item value = .ok after → kept after)
    (initially : kept start)
    (ran :
      Mutation.forEach (fun item => .ofResult (method item)) items start =
        .ok () final) :
    kept final := by
  induction items generalizing start with
  | nil =>
      cases ran
      exact initially
  | cons item rest inductionHypothesis =>
      obtain ⟨_, middle, first, ran⟩ := Computation.bind_eq_ok.mp ran
      have called := ofResult_eq_ok.mp first
      exact inductionHypothesis
        (fun other member => each other (List.mem_cons_of_mem item member))
        (each item List.mem_cons_self start middle initially called) ran

theorem isJsonKey_setItem
    {value index item result : Value F}
    (other : Value F)
    (written : value.setItem index item = .ok result) :
    isJsonKey result other = isJsonKey value other := by
  cases value with
  | list items =>
      simp only [Value.setItem] at written
      obtain ⟨place, _, written⟩ := PyResult.bind_eq_ok.mp written
      obtain ⟨changed, _, written⟩ := PyResult.bind_eq_ok.mp written
      cases written
      rfl
  | dict entries =>
      simp only [Value.setItem] at written
      obtain ⟨key, _, written⟩ := PyResult.bind_eq_ok.mp written
      cases written
      cases other <;> rfl
  | none | bool | int | float | str | tuple | obj =>
      cases written

/-- A loop of assignments of JSON values under JSON keys. -/
theorem isJson_setItems
    {α : Type}
    {index item : α → Value F}
    {items : List α}
    {curObj after : Value F}
    (json : isJson curObj = true)
    (jsonItems : ∀ entry ∈ items, isJson (item entry) = true)
    (keys : ∀ entry ∈ items, isJsonKey curObj (index entry) = true)
    (changed :
      Mutation.forEach
          (fun entry => .ofResult fun curObj : Value F =>
            curObj.setItem (index entry) (item entry))
          items curObj =
        .ok () after) :
    isJson after = true := by
  have kept :
      isJson after = true ∧
        ∀ entry ∈ items, isJsonKey after (index entry) = true := by
    refine
      @forEach_invariant F α
        (fun value =>
          isJson value = true ∧
            ∀ entry ∈ items, isJsonKey value (index entry) = true)
        _ items curObj after ?_ ⟨json, keys⟩ changed
    rintro entry member value next ⟨jsonValue, keysValue⟩ written
    refine ⟨?_, fun other memberOther => ?_⟩
    · exact isJson_setItem jsonValue (jsonItems entry member)
        (keysValue entry member) written
    · rw [isJsonKey_setItem (index other) written]
      exact keysValue other memberOther
  exact kept.1

omit [PyBuiltins F] in
theorem isJsonKey_str
    (value : Value F)
    (name : String) :
    isJsonKey value (.str name) = true := by
  cases value <;> rfl

theorem isJson_inplaceItem
    {op : ScalarInplaceOpType}
    {key value curObj result : Value F}
    (json : isJson curObj = true)
    (jsonValue : isJson value = true)
    (changed : inplaceItem op key value curObj = .ok result) :
    isJson result = true := by
  obtain ⟨old, read, changed⟩ := PyResult.bind_eq_ok.mp changed
  obtain ⟨new, computed, written⟩ := PyResult.bind_eq_ok.mp changed
  have jsonNew :=
    isJson_inplaceArith (isJson_getItem json read) jsonValue computed
  have replaced : curObj.replaceItem key new = result := by
    cases curObj with
    | list | dict =>
        simp only [Value.replaceItem, written]
    | none | bool | int | float | str | tuple | obj =>
        cases written
  rw [← replaced]
  exact isJson_replaceItem json jsonNew read

/-- An op on a JSON object leaves a JSON object. -/
theorem isJson_applyDraftUpdateOpToJson
    {data : OpData F}
    {dynamicKey curObj after : Value F}
    (jsonData : data.isJsonData = true)
    (json : isJson curObj = true)
    (keys : data.keysAreJson dynamicKey curObj = true)
    (changed :
      applyDraftUpdateOpToJson data dynamicKey curObj = .ok () after) :
    isJson after = true := by
  cases data with
  | setAttr items =>
      exact isJson_setItems json (List.all_eq_true.mp jsonData)
        (fun entry _ => isJsonKey_str curObj entry.1) changed
  | delete keys =>
      exact @forEach_invariant F _ (fun value => isJson value = true) _ _ _ _
        (fun key _ value next kept popped => isJson_pop kept popped)
        json changed
  | extend items =>
      simp only [applyDraftUpdateOpToJson] at changed
      have extended := ofResult_eq_ok.mp changed
      exact isJson_extend json jsonData extended
  | arraySet items =>
      exact isJson_setItems json (List.all_eq_true.mp jsonData)
        (List.all_eq_true.mp keys) changed
  | arrayPop index =>
      have popped := ofResult_eq_ok.mp changed
      cases index <;> exact isJson_pop json popped
  | arrayInsert index item =>
      simp only [applyDraftUpdateOpToJson] at changed
      have inserted := ofResult_eq_ok.mp changed
      exact isJson_insert json jsonData inserted
  | arrayRemove item =>
      simp only [applyDraftUpdateOpToJson] at changed
      have removed := ofResult_eq_ok.mp changed
      exact isJson_remove json removed
  | containerClear =>
      exact isJson_clear (ofResult_eq_ok.mp changed)
  | dictUpdate items =>
      have entries := (isJsonDict_iff.mp jsonData).1
      refine isJson_setItems json (fun entry member => (entries entry member).2)
        (fun entry member => ?_) changed
      obtain ⟨⟨name, isName⟩, _⟩ := entries entry member
      rw [isName]
      exact isJsonKey_str curObj name
  | assign value keyNode =>
      simp only [applyDraftUpdateOpToJson] at changed
      have assigned := ofResult_eq_ok.mp changed
      exact isJson_setItem json jsonData keys assigned
  | scalarInplaceOp op key value =>
      exact isJson_inplaceItem json jsonData (ofResult_eq_ok.mp changed)
  | slice | rootAssign | rootInplaceOp =>
      cases changed

theorem isJson_read
    {step : Step F}
    {value child : Value F}
    (json : isJson value = true)
    (read : step.read value = .ok child) :
    isJson child = true := by
  cases step with
  | item index =>
      exact isJson_getItem json read
  | attr name =>
      cases value with
      | obj cls fields extras =>
          cases json
      | none | bool | int | float | str | list | tuple | dict =>
          cases read

/-- Changing an object inside a JSON object. -/
theorem isJson_updateAt
    {place : List (Step F)}
    {change : Mutation F}
    {value child result : Value F}
    (json : isJson value = true)
    (reads : readAt place value = .ok child)
    (kept :
      ∀ after,
        isJson child = true →
        change child = .ok () after →
        isJson after = true)
    (updated : updateAt place change value = .ok () result) :
    isJson result = true := by
  induction place generalizing value result with
  | nil =>
      cases reads
      exact kept result json updated
  | cons step rest inductionHypothesis =>
      obtain ⟨next, read, readsRest⟩ := PyResult.bind_eq_ok.mp reads
      simp only [updateAt, read] at updated
      cases changed : updateAt rest change next with
      | error raised after =>
          simp [changed] at updated
      | ok done after =>
          simp only [changed, EStateM.Result.ok.injEq, true_and] at updated
          subst updated
          have jsonAfter :=
            inductionHypothesis (isJson_read json read) readsRest changed
          cases step with
          | item index =>
              exact isJson_replaceItem json jsonAfter read
          | attr name =>
              cases value with
              | obj cls fields extras =>
                  cases json
              | none | bool | int | float | str | list | tuple | dict =>
                  cases read

/-- An op on a JSON root leaves a JSON root. -/
theorem isJson_applyOneOpToJson
    {op : DraftUpdateOp F}
    {obj after : Value F}
    (jsonData : op.data.isJsonData = true)
    (json : isJson obj = true)
    (keys : op.keysAreJson obj = true)
    (applied : applyOneOpToJson op obj = .ok () after) :
    isJson after = true := by
  unfold applyOneOpToJson at applied
  cases resolved : resolveJson obj op.node with
  | error raised =>
      simp [resolved] at applied
  | ok placed =>
      rcases placed with ⟨place, curObj⟩
      simp only [resolved] at applied
      cases evaluated : dynamicKeyWith jsonEvaluator obj op.data with
      | error raised =>
          simp [evaluated] at applied
      | ok key =>
          simp only [evaluated] at applied
          have atPlace := whenOk_ok keys resolved
          have atKey := whenOk_ok atPlace evaluated
          exact isJson_updateAt json (readAt_of_resolveWith resolved)
            (fun after jsonObj changed =>
              isJson_applyDraftUpdateOpToJson jsonData jsonObj atKey changed)
            applied

/-- Both the object that was passed and the root are JSON values. -/
structure RootState.IsJson (state : RootState F) : Prop where
  stored : isJson state.stored = true
  replaced : ∀ obj, state.replaced = some obj → isJson obj = true

theorem RootState.IsJson.obj
    {state : RootState F}
    (json : state.IsJson) :
    isJson state.obj = true := by
  unfold RootState.obj
  cases replaced : state.replaced with
  | none =>
      exact json.stored
  | some obj =>
      exact json.replaced obj replaced

theorem RootState.IsJson.changeInPlace
    {state : RootState F}
    {obj : Value F}
    (json : state.IsJson)
    (jsonObj : isJson obj = true) :
    (state.changeInPlace obj).IsJson := by
  unfold RootState.changeInPlace
  split
  · exact {
      stored := jsonObj
      replaced := json.replaced }
  · exact {
      stored := json.stored
      replaced := by
        intro other isReplaced
        cases isReplaced
        exact jsonObj }

theorem RootState.IsJson.replace
    {state : RootState F}
    {obj : Value F}
    (json : state.IsJson)
    (jsonObj : isJson obj = true) :
    (state.replace obj).IsJson where
  stored := json.stored
  replaced := by
    intro other isReplaced
    cases isReplaced
    exact jsonObj

theorem RootState.IsJson.applyRegularOp
    {state after : RootState F}
    {op : DraftUpdateOp F}
    (json : state.IsJson)
    (jsonData : op.data.isJsonData = true)
    (keys : op.keysAreJson state.obj = true)
    (applied : Draft.applyRegularOp op state = .ok () after) :
    after.IsJson := by
  unfold Draft.applyRegularOp at applied
  cases one : applyOneOpToJson op state.obj with
  | error raised obj =>
      simp [one] at applied
  | ok done obj =>
      simp only [one, EStateM.Result.ok.injEq, true_and] at applied
      subst applied
      exact json.changeInPlace
        (isJson_applyOneOpToJson jsonData json.obj keys one)

/-- An op keeps the objects JSON values. -/
theorem RootState.IsJson.applyRootOp
    {state after : RootState F}
    {op : DraftUpdateOp F}
    (json : state.IsJson)
    (jsonData : op.data.isJsonData = true)
    (keys : op.keysAreJson state.obj = true)
    (applied : Draft.applyRootOp op state = .ok () after) :
    after.IsJson := by
  unfold Draft.applyRootOp at applied
  split at applied
  · rename_i value isRootAssign
    cases applied
    rw [isRootAssign] at jsonData
    have replaced := json.replace jsonData
    exact ⟨replaced.stored, replaced.replaced⟩
  · rename_i inplaceOp value isRootInplace
    rw [isRootInplace] at jsonData
    have jsonChanged : ({ state with isRootChanged := true }).IsJson :=
      ⟨json.stored, json.replaced⟩
    simp only [applyRootInplaceOp] at applied
    split at applied
    · cases applied
    · rename_i obj computed
      have jsonObj := isJson_inplaceArith jsonChanged.obj jsonData computed
      split at applied
      · cases applied
        exact jsonChanged.changeInPlace jsonObj
      · cases applied
        exact jsonChanged.replace jsonObj
  · exact json.applyRegularOp jsonData keys applied

theorem RootState.IsJson.forM
    {state after : RootState F}
    {ops : List (DraftUpdateOp F)}
    (json : state.IsJson)
    (jsonData : ∀ op ∈ ops, op.data.isJsonData = true)
    (keys : opsKeysAreJson state ops = true)
    (applied : ops.forM Draft.applyRootOp state = .ok () after) :
    after.IsJson := by
  induction ops generalizing state with
  | nil =>
      cases applied
      exact json
  | cons op rest inductionHypothesis =>
      obtain ⟨_, middle, first, applied⟩ := Computation.bind_eq_ok.mp applied
      simp only [opsKeysAreJson, first, Bool.and_eq_true] at keys
      exact inductionHypothesis
        (json.applyRootOp (jsonData op List.mem_cons_self) keys.1 first)
        (fun other member => jsonData other (List.mem_cons_of_mem op member))
        keys.2 applied

theorem RootState.IsJson.applyOps
    {state after : RootState F}
    {ops : List (DraftUpdateOp F)}
    (json : state.IsJson)
    (jsonData : ∀ op ∈ ops, op.data.isJsonData = true)
    (keys : opsKeysAreJson state ops = true)
    (applied :
      applyDraftUpdateOpsToJsonWithRoot ops state = .ok () after) :
    after.IsJson := by
  unfold applyDraftUpdateOpsToJsonWithRoot at applied
  split at applied
  · cases applied
  · exact json.forM jsonData keys applied

end Kept

section RoundTrip

variable [PyJson F]

theorem all_of_mapM_eq_ok
    {α β : Type}
    {f : α → PyResult β}
    {test : β → Bool}
    {items : List α}
    {results : List β}
    (each : ∀ item result, f item = .ok result → test result = true)
    (computed : items.mapM f = .ok results) :
    results.all test = true := by
  have pairs := PyResult.mapM_eq_ok.mp computed
  clear computed
  induction pairs with
  | nil =>
      rfl
  | cons first rest inductionHypothesis =>
      simp [each _ _ first, inductionHypothesis]

/-- The data of an op that has been through JSON. -/
theorem isJsonData_of_roundTrip
    {data result : OpData F}
    (computed : data.roundTrip = .ok result) :
    result.isJsonData = true := by
  cases data with
  | rootAssign value | rootInplaceOp op value | extend items
  | assign value keyNode =>
      obtain ⟨json, read, rfl⟩ := PyResult.map_eq_ok computed
      exact isJson_of_jsonRoundTrip read
  | arrayPop index | arrayRemove item =>
      obtain ⟨json, read, rfl⟩ := PyResult.map_eq_ok computed
      rfl
  | delete keys =>
      obtain ⟨json, read, rfl⟩ := PyResult.map_eq_ok computed
      rfl
  | setAttr items =>
      obtain ⟨fields, read, rfl⟩ := PyResult.map_eq_ok computed
      refine all_of_mapM_eq_ok (fun item result assigned => ?_) read
      obtain ⟨value, tripped, built⟩ := PyResult.bind_eq_ok.mp assigned
      cases built
      exact isJson_of_jsonRoundTrip tripped
  | arraySet items =>
      obtain ⟨pairs, read, rfl⟩ := PyResult.map_eq_ok computed
      refine all_of_mapM_eq_ok (fun item result assigned => ?_) read
      obtain ⟨index, _, assigned⟩ := PyResult.bind_eq_ok.mp assigned
      obtain ⟨value, tripped, built⟩ := PyResult.bind_eq_ok.mp assigned
      cases built
      exact isJson_of_jsonRoundTrip tripped
  | arrayInsert index item =>
      obtain ⟨place, _, inserted⟩ := PyResult.bind_eq_ok.mp computed
      obtain ⟨value, tripped, built⟩ := PyResult.bind_eq_ok.mp inserted
      cases built
      exact isJson_of_jsonRoundTrip tripped
  | dictUpdate items =>
      obtain ⟨entries, read, rfl⟩ := PyResult.map_eq_ok computed
      obtain ⟨texts, _, loaded⟩ := PyResult.bind_eq_ok.mp read
      cases loaded
      exact isJson_loads (.object texts)
  | scalarInplaceOp op key value =>
      obtain ⟨name, _, computed⟩ := PyResult.bind_eq_ok.mp computed
      obtain ⟨json, tripped, built⟩ := PyResult.bind_eq_ok.mp computed
      cases built
      exact isJson_of_jsonRoundTrip tripped
  | slice | containerClear =>
      cases computed
      rfl

theorem isJsonData_of_roundTrips
    {ops results : List (DraftUpdateOp F)}
    (computed : ops.mapM DraftUpdateOp.roundTrip = .ok results) :
    ∀ op ∈ results, op.data.isJsonData = true := by
  refine List.all_eq_true.mp
    (all_of_mapM_eq_ok (fun op result tripped => ?_) computed)
  obtain ⟨data, read, built⟩ := PyResult.bind_eq_ok.mp tripped
  cases built
  exact isJsonData_of_roundTrip read

end RoundTrip

end TensorPC.Draft
