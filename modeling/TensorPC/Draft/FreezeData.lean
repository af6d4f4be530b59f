import TensorPC.Draft.UpdateOp
import TensorPC.Lib.Computation
import TensorPC.Py.Json

namespace TensorPC.Draft

/-!
# Freezing the data of an op

`freeze_assign_data` wraps the values that an op assigns in `JsonSpecialData`.
The items of a `DictUpdate` are a dictionary, of which the freezer unpacks the
keys, as if they were the pairs of key and value.
-/

variable {F : Type}

/-! ## Frozen data -/

/-- `JsonNodeSpecialFlags.JSON_ONLY`. -/
def jsonOnlyFlag : Nat := 0x2

/-- `JsonNodeSpecialFlags.FREEZE`. -/
def freezeFlag : Nat := 0x4

/-- `JsonSpecialData`. -/
structure JsonSpecialData (F : Type) where
  data : Value F
  flag : Nat

/-- `JsonSpecialData.from_option`. -/
def JsonSpecialData.fromOption
    (data : Value F)
    (isJsonOnly needFreeze : Bool) :
    JsonSpecialData F where
  data := data
  flag :=
    (if isJsonOnly then jsonOnlyFlag else 0) |||
      (if needFreeze then freezeFlag else 0)

/-- The `opData` of a frozen op: assigned items are wrapped, the rest is kept. -/
inductive FrozenData (F : Type) where
  | setAttr (items : List (String × JsonSpecialData F))
  | arraySet (items : List (Value F × JsonSpecialData F))
  | dictUpdate (items : List (Key F × JsonSpecialData F))
  | kept (data : OpData F)

/-- A `DraftUpdateOp` whose data is frozen. -/
structure FrozenOp (F : Type) where
  data : FrozenData F
  node : DraftPath F

/-- Values without their wrappers. -/
def unwrapItems
    {κ : Type}
    (items : List (κ × JsonSpecialData F)) :
    List (κ × Value F) :=
  mapValues JsonSpecialData.data items

/-- The data with its wrappers unwrapped. -/
def FrozenData.unwrap : FrozenData F → OpData F
  | setAttr items => .setAttr (unwrapItems items)
  | arraySet items => .arraySet (unwrapItems items)
  | dictUpdate items => .dictUpdate (unwrapItems items)
  | kept data => data

/-- The op with its wrappers unwrapped. -/
def FrozenOp.unwrap (op : FrozenOp F) : DraftUpdateOp F where
  data := op.data.unwrap
  node := op.node

/-! ## The freezer -/

/-- `k, v = key`, for a key of a dictionary: a text is unpacked by characters. -/
def unpackPair : Key F → PyResult (Key F × Value F)
  | .str text =>
      match text.toList with
      | [first, second] => .ok (.str first.toString, .str second.toString)
      | [] => .error (.valueError "not enough values to unpack (expected 2, got 0)")
      | [_] => .error (.valueError "not enough values to unpack (expected 2, got 1)")
      | _ => .error (.valueError "too many values to unpack (expected 2)")
  | .none => .error (.typeError "cannot unpack non-iterable NoneType object")
  | .bool _ => .error (.typeError "cannot unpack non-iterable bool object")
  | .int _ => .error (.typeError "cannot unpack non-iterable int object")
  | .float _ => .error (.typeError "cannot unpack non-iterable float object")

/-- The wrapped values of a list of pairs. -/
def freezePairs
    {κ : Type}
    (isJsonOnly : Bool)
    (items : List (κ × Value F)) :
    List (κ × JsonSpecialData F) :=
  mapValues (JsonSpecialData.fromOption · isJsonOnly true) items

/-- Wrapping values and unwrapping them again. -/
@[simp] theorem unwrapItems_freezePairs
    {κ : Type}
    (isJsonOnly : Bool)
    (items : List (κ × Value F)) :
    unwrapItems (freezePairs isJsonOnly items) = items := by
  simp only [unwrapItems, freezePairs, mapValues, List.map_map]
  exact List.map_id items

section Freeze

variable [PyFloat F]

/-- Assignments one after the other. -/
def assignItems
    {α : Type}
    (entries items : List (Key F × α)) :
    List (Key F × α) :=
  items.foldl (fun entries item => setKey item.1 item.2 entries) entries

/-- `{k: JsonSpecialData.from_option(v, ...) for k, v in items}`. -/
def freezeKeys
    (isJsonOnly : Bool)
    (items : List (Key F × Value F)) :
    PyResult (List (Key F × JsonSpecialData F)) := do
  let pairs ← (items.map Prod.fst).mapM unpackPair
  .ok (assignItems [] (freezePairs isJsonOnly pairs))

/-- `freeze_assign_data`. -/
def DraftUpdateOp.freezeAssignData
    (op : DraftUpdateOp F)
    (isJsonOnly : Bool) :
    PyResult (FrozenOp F) :=
  match op.data with
  | .setAttr items => .ok ⟨.setAttr (freezePairs isJsonOnly items), op.node⟩
  | .arraySet items => .ok ⟨.arraySet (freezePairs isJsonOnly items), op.node⟩
  | .dictUpdate items => do
      let items ← freezeKeys isJsonOnly items
      .ok ⟨.dictUpdate items, op.node⟩
  | data => .ok ⟨.kept data, op.node⟩

/-- A key that `k, v = key` unpacks. -/
def isPairKey (key : Key F) : Bool :=
  match unpackPair key with
  | .ok _ => true
  | .error _ => false

/-- The characters of the keys, as the keys and values that they are taken for. -/
def keyPairs (items : List (Key F × Value F)) : List (Key F × Value F) :=
  items.filterMap fun item => (unpackPair item.1).toOption

theorem assignItems_freezePairs
    (isJsonOnly : Bool)
    (entries pairs : List (Key F × Value F)) :
    assignItems (freezePairs isJsonOnly entries) (freezePairs isJsonOnly pairs) =
      freezePairs isJsonOnly (assignItems entries pairs) := by
  induction pairs generalizing entries with
  | nil =>
      rfl
  | cons pair rest inductionHypothesis =>
      rcases pair with ⟨key, value⟩
      refine Eq.trans ?_ (inductionHypothesis (setKey key value entries))
      simp only [assignItems, freezePairs, mapValues, List.map_cons,
        List.foldl_cons]
      congr 1
      exact setKey_mapValues (JsonSpecialData.fromOption · isJsonOnly true)
        key value entries

omit [PyFloat F] in
/-- Keys are unpacked one by one. -/
theorem mapM_unpackPair
    (items : List (Key F × Value F)) :
    (∀ item ∈ items, isPairKey item.1 = true) →
      (items.map Prod.fst).mapM unpackPair = .ok (keyPairs items) := by
  induction items with
  | nil =>
      exact fun _ => rfl
  | cons item rest inductionHypothesis =>
      intro pairKeys
      have first := pairKeys item List.mem_cons_self
      unfold isPairKey at first
      cases unpacked : unpackPair item.1 with
      | error raised =>
          rw [unpacked] at first
          cases first
      | ok pair =>
          have others :=
            inductionHypothesis fun other member =>
              pairKeys other (List.mem_cons_of_mem item member)
          simp only [List.map_cons, List.mapM_cons, unpacked, others, keyPairs,
            List.filterMap_cons, Except.toOption]
          rfl

theorem freezeKeys_of_isPairKey
    (isJsonOnly : Bool)
    {items : List (Key F × Value F)}
    (pairKeys : ∀ item ∈ items, isPairKey item.1 = true) :
    freezeKeys isJsonOnly items =
      .ok (freezePairs isJsonOnly (assignItems [] (keyPairs items))) := by
  simp only [freezeKeys, mapM_unpackPair items pairKeys]
  exact congrArg Except.ok (assignItems_freezePairs isJsonOnly [] _)

theorem isPairKey_of_freezeKeys
    {isJsonOnly : Bool}
    {items : List (Key F × Value F)}
    {frozen : List (Key F × JsonSpecialData F)}
    (froze : freezeKeys isJsonOnly items = .ok frozen) :
    ∀ item ∈ items, isPairKey item.1 = true := by
  intro item member
  obtain ⟨pairs, unpacked, _⟩ := PyResult.bind_eq_ok.mp froze
  obtain ⟨pair, found⟩ :=
    PyResult.exists_of_mapM_eq_ok unpacked item.1 (List.mem_map_of_mem member)
  simp only [isPairKey, found]

end Freeze

/-! ## Applying one op -/

/-- What a search finds: an object of the document, or one of its own. -/
inductive Found (F : Type) where
  | within (place : List (Step F))
  | apart (value : Value F)

/-- `jmespath.search` or `pflpath.search`, on the text of a node's path. -/
structure PathSearch (F : Type) where
  find : DraftASTNode F → Value F → PyResult (Found F)

variable [PyBuiltins F]

namespace Found

/-- The object that was found. -/
def read (doc : Value F) : Found F → PyResult (Value F)
  | within place => readAt place doc
  | apart value => .ok value

/-- Run a change of the object that was found. -/
def update
    (change : Mutation F) :
    Found F → EStateM PyError (Value F) Unit
  | within place => updateAt place change
  | apart value => fun doc =>
      match change value with
      | .ok _ _ => .ok () doc
      | .error raised _ => .error raised doc

end Found

/-- The key of an `Assign`, as its `keyPath` finds it. -/
def searchedKey
    (search : PathSearch F)
    (data : OpData F)
    (doc : Value F) :
    PyResult (Value F) :=
  match data with
  | .assign _ keyNode => do
      let found ← search.find keyNode doc
      found.read doc
  | _ => .ok .none

/-- The loop body of `apply_draft_path_ops`. -/
def applyDraftPathOp
    (search : PathSearch F)
    (op : DraftUpdateOp F) :
    EStateM PyError (Value F) Unit :=
  fun doc =>
    match search.find op.node.toNode doc with
    | .error raised => .error raised doc
    | .ok found =>
        match searchedKey search op.data doc with
        | .error raised => .error raised doc
        | .ok key => found.update (applyDraftUpdateOpToJson op.data key) doc

/-- The functions that apply an op to a document. -/
inductive Applier (F : Type) where
  | object (ignoreExc : Bool)
  | json
  | path (search : PathSearch F)

namespace Applier

/-- Apply one op. -/
def apply
    (op : DraftUpdateOp F) :
    Applier F → EStateM PyError (Value F) Unit
  | object ignoreExc => applyOneOp ignoreExc op
  | json => applyOneOpToJson op
  | path search => applyDraftPathOp search op

/-- The object that an op names in a document. -/
def find
    (node : DraftPath F)
    (doc : Value F) :
    Applier F → PyResult (Found F)
  | object _ => (resolve doc node).map fun placed => .within placed.1
  | json => (resolveJson doc node).map fun placed => .within placed.1
  | path search => search.find node.toNode doc

/-- How a path that names no object ends. -/
def fail
    (raised : PyError) :
    Applier F → EStateM PyError (Value F) Unit
  | object true => pure ()
  | object false => throw raised
  | json => throw raised
  | path _ => throw raised

/-- A `DictUpdate` assigns its items to the object that its path names. -/
theorem apply_dictUpdate
    (applier : Applier F)
    (items : List (Key F × Value F))
    (node : DraftPath F)
    (doc : Value F) :
    applier.apply ⟨.dictUpdate items, node⟩ doc =
      match applier.find node doc with
      | .error raised => applier.fail raised doc
      | .ok found =>
          found.update
            (Mutation.forEach
              (fun item => .ofResult (·.setItem item.1.toValue item.2)) items)
            doc := by
  cases applier with
  | object ignoreExc =>
      simp only [apply, find, applyOneOp]
      cases resolve doc node with
      | error raised =>
          cases ignoreExc <;> rfl
      | ok placed =>
          rfl
  | json =>
      simp only [apply, find, applyOneOpToJson]
      cases resolveJson doc node <;> rfl
  | path search =>
      simp only [apply, find, applyDraftPathOp]
      cases search.find node.toNode doc <;> rfl

end Applier

/-- Freezing an op succeeds, and the op does the same as before. -/
def FreezingKeepsUpdate
    (applier : Applier F)
    (isJsonOnly : Bool)
    (op : DraftUpdateOp F)
    (doc : Value F) :
    Prop :=
  ∃ frozen,
    op.freezeAssignData isJsonOnly = .ok frozen ∧
    applier.apply frozen.unwrap doc = applier.apply op doc

/-! ## Assignments that touch keys of one kind -/

section Grown

omit [PyBuiltins F] in
/-- The entries have new values under keys of a kind, and new entries of the kind. -/
inductive Grown
    {α : Type}
    (kind : Key F → Prop) :
    List (Key F × α) → List (Key F × α) → Prop where
  | new {added : List (Key F × α)} :
      (∀ entry ∈ added, kind entry.1) →
      Grown kind [] added
  | kept {entry : Key F × α} {before after : List (Key F × α)} :
      Grown kind before after →
      Grown kind (entry :: before) (entry :: after)
  | changed
      {key : Key F}
      {old value : α}
      {before after : List (Key F × α)} :
      kind key →
      Grown kind before after →
      Grown kind ((key, old) :: before) ((key, value) :: after)

namespace Grown

variable {α : Type} {kind other : Key F → Prop} {first second third : List (Key F × α)}

omit [PyBuiltins F]

theorem refl (entries : List (Key F × α)) : Grown kind entries entries := by
  induction entries with
  | nil =>
      exact .new nofun
  | cons entry rest inductionHypothesis =>
      exact .kept inductionHypothesis

theorem forall_kind
    (grown : Grown kind first second)
    (ofKind : ∀ entry ∈ first, kind entry.1) :
    ∀ entry ∈ second, kind entry.1 := by
  induction grown with
  | new added =>
      exact added
  | kept _ inductionHypothesis =>
      have parts := List.forall_mem_cons.mp ofKind
      exact List.forall_mem_cons.mpr ⟨parts.1, inductionHypothesis parts.2⟩
  | changed isKind _ inductionHypothesis =>
      have parts := List.forall_mem_cons.mp ofKind
      exact List.forall_mem_cons.mpr ⟨isKind, inductionHypothesis parts.2⟩

theorem trans
    (earlier : Grown kind first second)
    (later : Grown kind second third) :
    Grown kind first third := by
  induction earlier generalizing third with
  | new added =>
      exact .new (later.forall_kind added)
  | kept _ inductionHypothesis =>
      cases later with
      | kept later =>
          exact .kept (inductionHypothesis later)
      | changed isKind later =>
          exact .changed isKind (inductionHypothesis later)
  | changed isKind _ inductionHypothesis =>
      cases later with
      | kept later =>
          exact .changed isKind (inductionHypothesis later)
      | changed _ later =>
          exact .changed isKind (inductionHypothesis later)

/-- Entries that grow in two unrelated ways have not changed. -/
theorem eq_of_disjoint
    (grown : Grown kind first second)
    (grownToo : Grown other first second)
    (disjoint : ∀ key, kind key → ¬ other key) :
    second = first := by
  induction grown with
  | @new added isKind =>
      cases grownToo with
      | new isOther =>
          cases added with
          | nil =>
              rfl
          | cons entry rest =>
              exact absurd (isOther entry List.mem_cons_self)
                (disjoint entry.1 (isKind entry List.mem_cons_self))
  | kept _ inductionHypothesis =>
      cases grownToo with
      | kept grownToo =>
          rw [inductionHypothesis grownToo]
      | changed _ grownToo =>
          rw [inductionHypothesis grownToo]
  | changed isKind _ inductionHypothesis =>
      cases grownToo with
      | kept grownToo =>
          rw [inductionHypothesis grownToo]
      | changed isOther _ =>
          exact absurd isOther (disjoint _ isKind)

end Grown

/-- A text of some length, as a key. -/
def IsTextKey (length : Nat) (key : Key F) : Prop :=
  ∃ text, key = .str text ∧ text.toList.length = length

theorem grown_setKey
    {α : Type}
    {length : Nat}
    {key : Key F}
    (isText : IsTextKey length key)
    (value : α)
    (entries : List (Key F × α)) :
    Grown (IsTextKey length) entries (setKey key value entries) := by
  induction entries with
  | nil =>
      exact .new (List.forall_mem_singleton.mpr isText)
  | cons head rest inductionHypothesis =>
      rcases head with ⟨first, old⟩
      obtain ⟨text, rfl, counted⟩ := isText
      unfold setKey
      by_cases same : first.pyEq (.str text) = true
      · rw [if_pos same]
        have isKey := eq_str_of_pyEq same
        subst isKey
        exact .changed ⟨text, rfl, counted⟩ (.refl rest)
      · rw [if_neg same]
        exact .kept inductionHypothesis

theorem grown_assignItems
    {α : Type}
    {length : Nat}
    {items : List (Key F × α)}
    (areTexts : ∀ item ∈ items, IsTextKey length item.1)
    (entries : List (Key F × α)) :
    Grown (IsTextKey length) entries (assignItems entries items) := by
  induction items generalizing entries with
  | nil =>
      exact .refl entries
  | cons item rest inductionHypothesis =>
      have parts := List.forall_mem_cons.mp areTexts
      exact (grown_setKey parts.1 item.2 entries).trans
        (inductionHypothesis parts.2 _)

end Grown

omit [PyBuiltins F] in
theorem unpackPair_eq_ok
    {key : Key F}
    {pair : Key F × Value F}
    (unpacked : unpackPair key = .ok pair) :
    IsTextKey 2 key ∧ IsTextKey 1 pair.1 := by
  cases key with
  | str text =>
      delta unpackPair at unpacked
      dsimp only at unpacked
      generalize charactersEq : text.toList = characters at unpacked
      rcases characters with _ | ⟨first, _ | ⟨second, _ | ⟨third, rest⟩⟩⟩
      · cases unpacked
      · cases unpacked
      · cases unpacked
        exact ⟨⟨text, rfl, by rw [charactersEq]; rfl⟩, ⟨_, rfl, by simp⟩⟩
      · cases unpacked
  | none => cases unpacked
  | bool value => cases unpacked
  | int value => cases unpacked
  | float value => cases unpacked

/-! ## Assignments to an object -/

/-- The loop of a `DictUpdate`. -/
def setItems (items : List (Key F × Value F)) : Mutation F :=
  Mutation.forEach (fun item => .ofResult (·.setItem item.1.toValue item.2)) items

theorem setItems_dict
    (entries items : List (Key F × Value F)) :
    setItems items (.dict entries) = .ok () (.dict (assignItems entries items)) := by
  induction items generalizing entries with
  | nil =>
      rfl
  | cons item rest inductionHypothesis =>
      have first :
          Mutation.ofResult (·.setItem item.1.toValue item.2) (.dict entries) =
            .ok () (.dict (setKey item.1 item.2 entries)) := by
        apply ofResult_eq_ok.mpr
        simp [Value.setItem, bind, Except.bind]
      exact (Computation.bind_of_ok first).trans (inductionHypothesis _)

/-- No object but a dictionary takes a text as a subscript. -/
theorem setItems_of_notDict
    {value : Value F}
    {items others : List (Key F × Value F)}
    (notDict : ∀ entries, value ≠ .dict entries)
    (some : items ≠ [])
    (someOthers : others ≠ [])
    (texts : ∀ item ∈ items, ∃ length, IsTextKey length item.1)
    (otherTexts : ∀ item ∈ others, ∃ length, IsTextKey length item.1) :
    setItems items value = setItems others value := by
  have fails :
      ∃ raised, ∀ (text : String) (assigned : Value F),
        Mutation.ofResult (·.setItem (.str text) assigned) value =
          .error raised value := by
    cases value with
    | dict entries =>
        exact absurd rfl (notDict entries)
    | none | bool | int | float | str | list | tuple | obj =>
        exact ⟨_, fun _ _ => rfl⟩
  obtain ⟨raised, fails⟩ := fails
  have stops :
      ∀ items : List (Key F × Value F),
        items ≠ [] →
        (∀ item ∈ items, ∃ length, IsTextKey length item.1) →
        setItems items value = .error raised value := by
    intro items some texts
    cases items with
    | nil =>
        exact absurd rfl some
    | cons item rest =>
        obtain ⟨_, text, isText, _⟩ := texts item List.mem_cons_self
        apply Computation.bind_of_error
        change
          Mutation.ofResult (·.setItem item.1.toValue item.2) value =
            .error raised value
        rw [isText]
        exact fails text item.2
  exact (stops items some texts).trans (stops others someOthers otherTexts).symm

/-- Changes that agree on the object at a place have the same effect. -/
theorem updateAt_congr
    {place : List (Step F)}
    {first second : Mutation F}
    {doc : Value F}
    (agree :
      ∀ target, readAt place doc = .ok target → first target = second target) :
    updateAt place first doc = updateAt place second doc := by
  induction place generalizing doc with
  | nil =>
      exact agree doc rfl
  | cons step rest inductionHypothesis =>
      simp only [updateAt]
      cases read : step.read doc with
      | error raised =>
          rfl
      | ok child =>
          have same : updateAt rest first child = updateAt rest second child := by
            apply inductionHypothesis
            intro target reads
            apply agree
            simp only [readAt, read]
            exact reads
          simp only [same]

/-! ## What is written is read back -/

omit [PyBuiltins F] in
theorem lt_of_position
    {length place : Nat}
    {index : Int}
    (placed : position length index = .ok place) :
    place < length := by
  simp only [position] at placed
  generalize (if index < 0 then index + (length : Int) else index) = shifted
    at placed
  by_cases bounds : 0 ≤ shifted ∧ shifted < length
  · rw [if_pos bounds] at placed
    cases placed
    omega
  · rw [if_neg bounds] at placed
    cases placed

theorem itemAt_setItemAt
    {α : Type}
    {items after : List α}
    {index : Int}
    {item : α}
    (assigned : setItemAt items index item = .ok after) :
    itemAt after index = .ok item := by
  obtain ⟨place, placed, built⟩ := PyResult.bind_eq_ok.mp assigned
  cases built
  have within := lt_of_position placed
  simp only [itemAt, List.length_set, placed]
  simp [bind, Except.bind, within]

theorem exists_setItemAt
    {α : Type}
    {items : List α}
    {index : Int}
    {old : α}
    (found : itemAt items index = .ok old)
    (item : α) :
    ∃ after, setItemAt items index item = .ok after := by
  obtain ⟨place, placed, _⟩ := PyResult.bind_eq_ok.mp found
  exact ⟨items.set place item, PyResult.bind_eq_ok.mpr ⟨place, placed, rfl⟩⟩

theorem lookupKey_setKey_of_found
    {α : Type}
    {key : Key F}
    {old : α}
    {entries : List (Key F × α)}
    (found : lookupKey key entries = some old)
    (value : α) :
    lookupKey key (setKey key value entries) = some value := by
  induction entries with
  | nil =>
      cases found
  | cons head rest inductionHypothesis =>
      rcases head with ⟨first, stored⟩
      by_cases same : first.pyEq key = true
      · simp [setKey, lookupKey, same]
      · simp only [lookupKey, same, Bool.false_eq_true, ↓reduceIte] at found
        simp only [setKey, lookupKey, same, Bool.false_eq_true, ↓reduceIte]
        exact inductionHypothesis found

omit [PyBuiltins F] in
theorem lookupAttr_assignAttr
    {α : Type}
    (name : String)
    (value : α)
    (attrs : List (String × α)) :
    lookupAttr name (assignAttr name value attrs) = some value := by
  induction attrs with
  | nil =>
      simp [assignAttr, lookupAttr]
  | cons head rest inductionHypothesis =>
      rcases head with ⟨first, old⟩
      by_cases same : first = name
      · simp [assignAttr, lookupAttr, same]
      · simp only [assignAttr, lookupAttr, same, ↓reduceIte]
        exact inductionHypothesis

/-- A step reads what was written to it, unless it leads to a character. -/
theorem Step.read_write
    {step : Step F}
    {value child : Value F}
    (read : step.read value = .ok child)
    (notText : ∀ text, child ≠ .str text)
    (after : Value F) :
    step.read (step.write value after) = .ok after := by
  cases step with
  | attr name =>
      cases value with
      | obj cls fields extras =>
          cases found : lookupAttr name fields with
          | some old =>
              simp [Step.read, Step.write, Value.setAttr, Value.getAttr, found,
                lookupAttr_assignAttr]
          | none =>
              simp [Step.read, Step.write, Value.setAttr, Value.getAttr, found,
                lookupAttr_assignAttr]
      | none | bool | int | float | str | list | tuple | dict =>
          cases read
  | item index =>
      cases value with
      | list items =>
          obtain ⟨place, indexed, found⟩ := PyResult.bind_eq_ok.mp read
          obtain ⟨result, assigned⟩ := exists_setItemAt found after
          have reads := itemAt_setItemAt assigned
          simp [Step.read, Step.write, Value.replaceItem, Value.setItem,
            Value.getItem, indexed, assigned, reads, bind, Except.bind]
      | tuple items =>
          obtain ⟨place, indexed, found⟩ := PyResult.bind_eq_ok.mp read
          obtain ⟨result, assigned⟩ := exists_setItemAt found after
          have reads := itemAt_setItemAt assigned
          simp [Step.read, Step.write, Value.replaceItem, Value.getItem,
            indexed, assigned, reads, bind, Except.bind]
      | dict entries =>
          obtain ⟨key, hashed, found⟩ := PyResult.bind_eq_ok.mp read
          split at found
          · rename_i old lookup
            have reads := lookupKey_setKey_of_found lookup after
            simp [Step.read, Step.write, Value.replaceItem, Value.setItem,
              Value.getItem, hashed, reads, bind, Except.bind]
          · cases found
      | str text =>
          obtain ⟨place, indexed, found⟩ := PyResult.bind_eq_ok.mp read
          obtain ⟨char, _, isChar⟩ := PyResult.bind_eq_ok.mp found
          cases isChar
          exact absurd rfl (notText char.toString)
      | none | bool | int | float | obj =>
          cases read

theorem exists_str_of_readAt
    {place : List (Step F)}
    {text : String}
    {target : Value F}
    (reads : readAt place (.str text) = .ok target) :
    ∃ found, target = .str found := by
  induction place generalizing text with
  | nil =>
      cases reads
      exact ⟨text, rfl⟩
  | cons step rest inductionHypothesis =>
      obtain ⟨child, read, readsRest⟩ := PyResult.bind_eq_ok.mp reads
      cases step with
      | attr name =>
          cases read
      | item index =>
          obtain ⟨_, _, found⟩ := PyResult.bind_eq_ok.mp read
          obtain ⟨char, _, isChar⟩ := PyResult.bind_eq_ok.mp found
          cases isChar
          exact inductionHypothesis readsRest

/-- A changed object is read back at its place. -/
theorem readAt_of_updateAt
    {place : List (Step F)}
    {change : Mutation F}
    {doc target after : Value F}
    (reads : readAt place doc = .ok target)
    (notText : ∀ text, target ≠ .str text)
    (changed : change target = .ok () after) :
    ∃ result,
      updateAt place change doc = .ok () result ∧
      readAt place result = .ok after := by
  induction place generalizing doc with
  | nil =>
      cases reads
      exact ⟨after, changed, rfl⟩
  | cons step rest inductionHypothesis =>
      obtain ⟨child, read, readsRest⟩ := PyResult.bind_eq_ok.mp reads
      obtain ⟨result, updated, back⟩ := inductionHypothesis readsRest
      have childNotText : ∀ text, child ≠ .str text := by
        rintro text rfl
        obtain ⟨found, isText⟩ := exists_str_of_readAt readsRest
        exact notText found isText
      refine ⟨step.write doc result, ?_, ?_⟩
      · simp only [updateAt, read, updated]
      · simp only [readAt, Step.read_write read childNotText result]
        exact back

/-! ## When freezing keeps the update -/

/-- Two dictionary updates that both leave the entries as they are. -/
def SameAssignments
    (items others entries : List (Key F × Value F)) :
    Prop :=
  assignItems entries items = entries ∧ assignItems entries others = entries

/--
An op that is no `DictUpdate`, or one without items.  The keys of others must be
texts of two characters, and the dictionary that they update, if there is one,
must hold what the update assigns and what the freezer makes of it already.
-/
def FreezesFaithfully
    (applier : Applier F)
    (op : DraftUpdateOp F)
    (doc : Value F) :
    Prop :=
  match op.data with
  | .dictUpdate items =>
      items = [] ∨
        ((∀ item ∈ items, isPairKey item.1 = true) ∧
          ∀ place entries,
            applier.find op.node doc = .ok (.within place) →
            readAt place doc = .ok (.dict entries) →
            SameAssignments items (assignItems [] (keyPairs items)) entries)
  | _ => True

omit [PyBuiltins F] in
theorem isTextKey_of_isPairKey
    {items : List (Key F × Value F)}
    (pairKeys : ∀ item ∈ items, isPairKey item.1 = true) :
    ∀ item ∈ items, IsTextKey 2 item.1 := by
  intro item member
  have unpacks := pairKeys item member
  unfold isPairKey at unpacks
  split at unpacks
  · rename_i pair unpacked
    exact (unpackPair_eq_ok unpacked).1
  · cases unpacks

theorem isTextKey_keyPairs (items : List (Key F × Value F)) :
    ∀ item ∈ assignItems [] (keyPairs items), IsTextKey 1 item.1 := by
  have pairs : ∀ pair ∈ keyPairs items, IsTextKey 1 pair.1 := by
    intro pair member
    obtain ⟨item, _, unpacked⟩ := List.mem_filterMap.mp member
    cases computed : unpackPair item.1 with
    | error raised =>
        rw [computed] at unpacked
        cases unpacked
    | ok other =>
        rw [computed] at unpacked
        cases unpacked
        exact (unpackPair_eq_ok computed).2
  exact (grown_assignItems pairs []).forall_kind nofun

theorem sameAssignments_of_eq
    {items others entries : List (Key F × Value F)}
    (texts : ∀ item ∈ items, IsTextKey 2 item.1)
    (otherTexts : ∀ item ∈ others, IsTextKey 1 item.1)
    (same : assignItems entries items = assignItems entries others) :
    SameAssignments items others entries := by
  have grown := grown_assignItems texts entries
  have grownToo := grown_assignItems otherTexts entries
  have disjoint : ∀ key : Key F, IsTextKey 2 key → ¬ IsTextKey 1 key := by
    rintro key ⟨text, rfl, two⟩ ⟨other, isKey, one⟩
    cases isKey
    omega
  rw [← same] at grownToo
  have unchanged := grown.eq_of_disjoint grownToo disjoint
  exact ⟨unchanged, same.symm.trans unchanged⟩

/-- The freezer makes items of items. -/
theorem keyPairs_ne_nil
    {items : List (Key F × Value F)}
    (some : items ≠ [])
    (pairKeys : ∀ item ∈ items, isPairKey item.1 = true) :
    assignItems [] (keyPairs items) ≠ [] := by
  cases items with
  | nil =>
      exact absurd rfl some
  | cons item rest =>
      have unpacks := pairKeys item List.mem_cons_self
      unfold isPairKey at unpacks
      split at unpacks
      · rename_i pair unpacked
        have first := unpackPair_eq_ok unpacked
        have pairs :
            assignItems [] (keyPairs (item :: rest)) =
              assignItems [pair] (keyPairs rest) := by
          simp only [keyPairs, List.filterMap_cons, unpacked, Except.toOption]
          rfl
        have others :
            ∀ other ∈ keyPairs rest, IsTextKey 1 other.1 := by
          intro other member
          obtain ⟨source, _, computed⟩ := List.mem_filterMap.mp member
          cases unpacked : unpackPair source.1 with
          | error raised =>
              rw [unpacked] at computed
              cases computed
          | ok found =>
              rw [unpacked] at computed
              cases computed
              exact (unpackPair_eq_ok unpacked).2
        intro nothing
        have grown := grown_assignItems others [pair]
        rw [← pairs, nothing] at grown
        cases grown
      · cases unpacks

/-- The frozen update, applied to the document that it updates. -/
theorem sameEffect_iff
    (applier : Applier F)
    (node : DraftPath F)
    (doc : Value F)
    {items : List (Key F × Value F)}
    (some : items ≠ [])
    (pairKeys : ∀ item ∈ items, isPairKey item.1 = true) :
    applier.apply ⟨.dictUpdate (assignItems [] (keyPairs items)), node⟩ doc =
        applier.apply ⟨.dictUpdate items, node⟩ doc ↔
      ∀ place entries,
        applier.find node doc = .ok (.within place) →
        readAt place doc = .ok (.dict entries) →
        SameAssignments items (assignItems [] (keyPairs items)) entries := by
  have texts := isTextKey_of_isPairKey pairKeys
  have otherTexts := isTextKey_keyPairs items
  have elsewhere :
      ∀ value : Value F, (∀ entries, value ≠ .dict entries) →
        setItems (assignItems [] (keyPairs items)) value =
          setItems items value :=
    fun value notDict =>
      setItems_of_notDict notDict (keyPairs_ne_nil some pairKeys) some
        (fun item member => ⟨1, otherTexts item member⟩)
        (fun item member => ⟨2, texts item member⟩)
  rw [Applier.apply_dictUpdate, Applier.apply_dictUpdate]
  cases found : applier.find node doc with
  | error raised =>
      exact iff_of_true rfl nofun
  | ok object =>
      cases object with
      | apart value =>
          refine iff_of_true ?_ nofun
          change
            Found.update (setItems _) (.apart value) doc =
              Found.update (setItems _) (.apart value) doc
          by_cases isDict : ∃ entries, value = .dict entries
          · obtain ⟨entries, rfl⟩ := isDict
            simp only [Found.update, setItems_dict]
          · simp only [Found.update,
              elsewhere value fun entries same => isDict ⟨entries, same⟩]
      | within place =>
          change
            updateAt place (setItems _) doc = updateAt place (setItems _) doc ↔ _
          constructor
          · intro same otherPlace entries isPlace reads
            cases isPlace
            obtain ⟨first, updated, back⟩ :=
              readAt_of_updateAt reads nofun
                (setItems_dict entries (assignItems [] (keyPairs items)))
            obtain ⟨second, updatedToo, backToo⟩ :=
              readAt_of_updateAt reads nofun (setItems_dict entries items)
            rw [same, updatedToo] at updated
            cases updated
            have assigned := Except.ok.inj (backToo.symm.trans back)
            exact sameAssignments_of_eq texts otherTexts (Value.dict.inj assigned)
          · intro unchanged
            apply updateAt_congr
            intro target reads
            cases target with
            | dict entries =>
                obtain ⟨first, second⟩ := unchanged place entries rfl reads
                rw [setItems_dict, setItems_dict, first, second]
            | none | bool | int | float | str | list | tuple | obj =>
                exact elsewhere _ nofun

/--
Freezing an op keeps what it does to a document exactly when the op is no
`DictUpdate` with items, or one whose keys are unpacked without harm.
-/
theorem freezingKeepsUpdate_iff
    (applier : Applier F)
    (isJsonOnly : Bool)
    (op : DraftUpdateOp F)
    (doc : Value F) :
    FreezingKeepsUpdate applier isJsonOnly op doc ↔
      FreezesFaithfully applier op doc := by
  rcases op with ⟨data, node⟩
  unfold FreezingKeepsUpdate FreezesFaithfully
  cases data with
  | dictUpdate items =>
      simp only
      by_cases some : items = []
      · subst some
        exact iff_of_true ⟨_, rfl, rfl⟩ (.inl rfl)
      · simp only [some, false_or]
        constructor
        · rintro ⟨frozen, froze, same⟩
          obtain ⟨wrapped, froze, built⟩ := PyResult.bind_eq_ok.mp froze
          have pairKeys := isPairKey_of_freezeKeys froze
          rw [freezeKeys_of_isPairKey isJsonOnly pairKeys] at froze
          cases froze
          cases built
          simp only [FrozenOp.unwrap, FrozenData.unwrap,
            unwrapItems_freezePairs] at same
          exact ⟨pairKeys, (sameEffect_iff applier node doc some pairKeys).mp same⟩
        · rintro ⟨pairKeys, unchanged⟩
          refine ⟨⟨.dictUpdate (freezePairs isJsonOnly _), node⟩,
            PyResult.bind_eq_ok.mpr
              ⟨_, freezeKeys_of_isPairKey isJsonOnly pairKeys, rfl⟩, ?_⟩
          simp only [FrozenOp.unwrap, FrozenData.unwrap, unwrapItems_freezePairs]
          exact (sameEffect_iff applier node doc some pairKeys).mpr unchanged
  | setAttr items =>
      refine iff_of_true ⟨_, rfl, ?_⟩ trivial
      simp only [FrozenOp.unwrap, FrozenData.unwrap, unwrapItems_freezePairs]
  | arraySet items =>
      refine iff_of_true ⟨_, rfl, ?_⟩ trivial
      simp only [FrozenOp.unwrap, FrozenData.unwrap, unwrapItems_freezePairs]
  | rootAssign | rootInplaceOp | delete | extend | slice | arrayPop
  | arrayInsert | arrayRemove | containerClear | assign | scalarInplaceOp =>
      exact iff_of_true ⟨_, rfl, rfl⟩ trivial

/-- `draft.update({"id": 7})`, on the root. -/
def updateId : DraftUpdateOp WholeFloat where
  data := .dictUpdate [(.str "id", .int 7)]
  node := .name ""

/-- The frozen update assigns `"d"` to `"i"`, and nothing to `"id"`. -/
theorem not_freezingKeepsUpdate :
    ¬ FreezingKeepsUpdate .json false updateId (.dict []) := by
  rintro ⟨frozen, froze, same⟩
  have isFrozen :
      updateId.freezeAssignData false =
        .ok ⟨.dictUpdate [(.str "i", ⟨.str "d", freezeFlag⟩)], .name ""⟩ := by
    rfl
  rw [isFrozen] at froze
  cases froze
  have after :
      (.ok () (.dict [(.str "i", .str "d")]) :
        EStateM.Result PyError (Value WholeFloat) Unit) =
        .ok () (.dict [(.str "id", .int 7)]) :=
    same
  simp at after

end TensorPC.Draft
