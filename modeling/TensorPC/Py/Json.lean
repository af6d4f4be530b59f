import TensorPC.Py.Container

namespace TensorPC

/-!
# JSON texts

`json.dumps` and `json.loads`, with a text given by its syntax tree.  The values
that `json.loads` returns are those that a round trip keeps.
-/

/-- The builtin operations with those that write a float into a text. -/
class PyJson (F : Type) extends PyBuiltins F where
  /-- `float.__repr__`. -/
  floatRepr : F → String

/-- A JSON text by its syntax tree; an object may have a key twice. -/
inductive Json (F : Type) where
  | null
  | bool (value : Bool)
  | int (value : Int)
  | float (value : F)
  | str (value : String)
  | array (items : List (Json F))
  | object (entries : List (String × Json F))

variable {F : Type}

/-! ## Writing and reading -/

section Texts

variable [PyJson F]

/-- A key of a dictionary as the key of a JSON object. -/
def Key.toJson : Key F → String
  | none => "null"
  | bool true => "true"
  | bool false => "false"
  | int value => toString value
  | float value => PyJson.floatRepr value
  | str value => value

mutual

/-- `json.dumps(value)`. -/
def dumps : Value F → PyResult (Json F)
  | .none => .ok .null
  | .bool value => .ok (.bool value)
  | .int value => .ok (.int value)
  | .float value => .ok (.float value)
  | .str value => .ok (.str value)
  | .list items => (dumpsList items).map .array
  | .tuple items => (dumpsList items).map .array
  | .dict entries => (dumpsEntries entries).map .object
  | .obj _ _ _ => .error (.typeError "Object is not JSON serializable")

/-- The items of an array. -/
def dumpsList : List (Value F) → PyResult (List (Json F))
  | [] => .ok []
  | item :: rest => do
      let text ← dumps item
      let texts ← dumpsList rest
      .ok (text :: texts)

/-- The entries of an object. -/
def dumpsEntries :
    List (Key F × Value F) → PyResult (List (String × Json F))
  | [] => .ok []
  | (key, value) :: rest => do
      let text ← dumps value
      let texts ← dumpsEntries rest
      .ok ((key.toJson, text) :: texts)

end

/-- `dict(pairs)`. -/
def dictOfPairs (pairs : List (Key F × Value F)) : List (Key F × Value F) :=
  pairs.foldl (fun entries pair => setKey pair.1 pair.2 entries) []

mutual

/-- `json.loads(text)`. -/
def loads : Json F → Value F
  | .null => .none
  | .bool value => .bool value
  | .int value => .int value
  | .float value => .float value
  | .str value => .str value
  | .array items => .list (loadsList items)
  | .object entries => .dict (dictOfPairs (loadsPairs entries))

/-- The items of a list. -/
def loadsList : List (Json F) → List (Value F)
  | [] => []
  | item :: rest => loads item :: loadsList rest

/-- The pairs that a dictionary is made of. -/
def loadsPairs : List (String × Json F) → List (Key F × Value F)
  | [] => []
  | (key, value) :: rest => (.str key, loads value) :: loadsPairs rest

end

/-- `json.loads(json.dumps(value))`. -/
def jsonRoundTrip (value : Value F) : PyResult (Value F) := do
  let text ← dumps value
  .ok (loads text)

end Texts

/-! ## String keys -/

section Keys

variable [PyFloat F]

@[simp] theorem pyEq_str_str (first second : String) :
    (Key.str (F := F) first).pyEq (.str second) = (first == second) := by
  simp [Key.pyEq, Key.asNumber, Key.toValue, Value.asNumber]

theorem eq_str_of_pyEq
    {key : Key F}
    {name : String}
    (equal : key.pyEq (.str name) = true) :
    key = .str name := by
  cases key with
  | str other =>
      simpa using equal
  | none | bool | int | float =>
      simp [Key.pyEq, Key.asNumber, Key.toValue, Value.asNumber] at equal

variable {α : Type}

theorem lookupKey_setKey_ne
    {name other : String}
    (different : name ≠ other)
    (value : α)
    (entries : List (Key F × α)) :
    lookupKey (.str name) (setKey (.str other) value entries) =
      lookupKey (.str name) entries := by
  induction entries with
  | nil =>
      simp [setKey, lookupKey, Ne.symm different]
  | cons head rest inductionHypothesis =>
      rcases head with ⟨first, old⟩
      simp only [setKey]
      split
      · rename_i isOther
        rw [eq_str_of_pyEq isOther]
        simp [lookupKey, Ne.symm different]
      · simp only [lookupKey, inductionHypothesis]

theorem map_fst_setKey
    {key : Key F}
    {entries : List (Key F × α)}
    (value : α)
    (exists_key : (lookupKey key entries).isSome = true) :
    (setKey key value entries).map Prod.fst = entries.map Prod.fst := by
  induction entries with
  | nil =>
      cases exists_key
  | cons head rest inductionHypothesis =>
      rcases head with ⟨first, old⟩
      simp only [lookupKey] at exists_key
      simp only [setKey]
      split
      · rfl
      · rename_i different
        simp only [different, Bool.false_eq_true, ↓reduceIte] at exists_key
        simp [inductionHypothesis exists_key]

theorem lookupKey_eq_none_iff
    {key : Key F}
    {entries : List (Key F × α)} :
    lookupKey key entries = none ↔
      ∀ first ∈ entries.map Prod.fst, first.pyEq key = false := by
  induction entries with
  | nil =>
      simp [lookupKey]
  | cons head rest inductionHypothesis =>
      rcases head with ⟨first, old⟩
      simp only [lookupKey, List.map_cons, List.forall_mem_cons]
      cases equal : first.pyEq key with
      | true =>
          simp
      | false =>
          simpa using inductionHypothesis

theorem setKey_of_lookupKey_eq_none
    {key : Key F}
    {entries : List (Key F × α)}
    (value : α)
    (absent : lookupKey key entries = none) :
    setKey key value entries = entries ++ [(key, value)] := by
  induction entries with
  | nil =>
      rfl
  | cons head rest inductionHypothesis =>
      rcases head with ⟨first, old⟩
      simp only [lookupKey] at absent
      split at absent
      · cases absent
      · rename_i different
        simp [setKey, different, inductionHypothesis absent]

theorem eraseKey_sublist
    (key : Key F)
    (entries : List (Key F × α)) :
    List.Sublist (eraseKey key entries) entries := by
  induction entries with
  | nil =>
      exact .slnil
  | cons head rest inductionHypothesis =>
      rcases head with ⟨first, old⟩
      simp only [eraseKey]
      split
      · exact List.sublist_cons_self _ _
      · exact inductionHypothesis.cons_cons _

end Keys

/-! ## The values of texts -/

section JsonValues

variable [PyFloat F]

mutual

/-- Scalars, lists, and dictionaries with distinct strings as keys. -/
def isJson : Value F → Bool
  | .none => true
  | .bool _ => true
  | .int _ => true
  | .float _ => true
  | .str _ => true
  | .list items => isJsonList items
  | .tuple _ => false
  | .dict entries => isJsonDict entries
  | .obj _ _ _ => false

/-- Every item is such a value. -/
def isJsonList : List (Value F) → Bool
  | [] => true
  | item :: rest => isJson item && isJsonList rest

/-- Every key is a string that no later entry has, and every value is such a value. -/
def isJsonDict : List (Key F × Value F) → Bool
  | [] => true
  | (.str name, value) :: rest =>
      isJson value && (lookupKey (.str name) rest).isNone && isJsonDict rest
  | _ :: _ => false

end

attribute [grind =] isJson isJsonList isJsonDict

theorem isJsonList_eq_all (items : List (Value F)) :
    isJsonList items = items.all isJson := by
  induction items with
  | nil =>
      rfl
  | cons item rest inductionHypothesis =>
      simp [isJsonList, inductionHypothesis]

theorem isJsonDict_iff {entries : List (Key F × Value F)} :
    isJsonDict entries = true ↔
      (∀ entry ∈ entries,
        (∃ name, entry.1 = .str name) ∧ isJson entry.2 = true) ∧
      (entries.map Prod.fst).Pairwise (fun first later =>
        later.pyEq first = false) := by
  induction entries with
  | nil =>
      simp [isJsonDict]
  | cons head rest inductionHypothesis =>
      rcases head with ⟨first, value⟩
      cases first with
      | str name =>
          simp only [isJsonDict, Bool.and_eq_true, Option.isNone_iff_eq_none,
            lookupKey_eq_none_iff, inductionHypothesis, List.forall_mem_cons,
            List.map_cons, List.pairwise_cons, Key.str.injEq, exists_eq',
            true_and]
          tauto
      | none | bool | int | float =>
          simp [isJsonDict]

/-- What is looked up in a JSON dictionary. -/
theorem isJson_of_lookupKey
    {key : Key F}
    {entries : List (Key F × Value F)}
    {value : Value F}
    (json : isJsonDict entries = true)
    (found : lookupKey key entries = some value) :
    isJson value = true := by
  induction entries with
  | nil =>
      cases found
  | cons head rest inductionHypothesis =>
      rcases head with ⟨first, old⟩
      have parts := (isJsonDict_iff.mp json).1 (first, old) List.mem_cons_self
      simp only [lookupKey] at found
      split at found
      · cases found
        exact parts.2
      · refine inductionHypothesis ?_ found
        obtain ⟨each, distinct⟩ := isJsonDict_iff.mp json
        exact isJsonDict_iff.mpr
          ⟨fun entry member => each entry (List.mem_cons_of_mem _ member),
            (List.pairwise_cons.mp distinct).2⟩

/-- Assigning an entry under a string. -/
theorem isJsonDict_setKey
    {name : String}
    {value : Value F}
    {entries : List (Key F × Value F)}
    (json : isJsonDict entries = true)
    (jsonValue : isJson value = true) :
    isJsonDict (setKey (.str name) value entries) = true := by
  induction entries with
  | nil =>
      simp [setKey, isJsonDict, jsonValue, lookupKey]
  | cons head rest inductionHypothesis =>
      rcases head with ⟨first, old⟩
      cases first with
      | str other =>
          simp only [isJsonDict, Bool.and_eq_true] at json
          simp only [setKey, pyEq_str_str, beq_iff_eq]
          split
          · simp [isJsonDict, jsonValue, json]
          · rename_i different
            simp only [isJsonDict, json.1.1, inductionHypothesis json.2,
              lookupKey_setKey_ne different, json.1.2, Bool.and_self]
      | none | bool | int | float =>
          simp [isJsonDict] at json

/-- Replacing the value of an existing key. -/
theorem isJsonDict_setKey_of_isSome
    {key : Key F}
    {value : Value F}
    {entries : List (Key F × Value F)}
    (json : isJsonDict entries = true)
    (jsonValue : isJson value = true)
    (exists_key : (lookupKey key entries).isSome = true) :
    isJsonDict (setKey key value entries) = true := by
  obtain ⟨each, distinct⟩ := isJsonDict_iff.mp json
  refine isJsonDict_iff.mpr ⟨?_, ?_⟩
  · clear json distinct
    induction entries with
    | nil =>
        cases exists_key
    | cons head rest inductionHypothesis =>
        rcases head with ⟨first, old⟩
        obtain ⟨isHead, inRest⟩ := List.forall_mem_cons.mp each
        simp only [lookupKey] at exists_key
        simp only [setKey]
        split
        · exact List.forall_mem_cons.mpr ⟨⟨isHead.1, jsonValue⟩, inRest⟩
        · rename_i different
          simp only [different, Bool.false_eq_true, ↓reduceIte] at exists_key
          exact List.forall_mem_cons.mpr
            ⟨isHead, inductionHypothesis exists_key inRest⟩
  · rw [map_fst_setKey value exists_key]
    exact distinct

theorem isJsonDict_eraseKey
    {key : Key F}
    {entries : List (Key F × Value F)}
    (json : isJsonDict entries = true) :
    isJsonDict (eraseKey key entries) = true := by
  obtain ⟨each, distinct⟩ := isJsonDict_iff.mp json
  have fewer := eraseKey_sublist key entries
  exact isJsonDict_iff.mpr
    ⟨fun entry member => each entry (fewer.subset member),
      distinct.sublist (fewer.map Prod.fst)⟩

/-- Distinct pairs are the entries of their dictionary. -/
theorem dictOfPairs_of_isJsonDict
    {entries : List (Key F × Value F)}
    (json : isJsonDict entries = true) :
    entries.foldl (fun entries pair => setKey pair.1 pair.2 entries) [] =
      entries := by
  have general :
      ∀ (rest before : List (Key F × Value F)),
        ((before ++ rest).map Prod.fst).Pairwise (fun first later =>
          later.pyEq first = false) →
        (∀ entry ∈ before ++ rest, ∃ name, entry.1 = .str name) →
        rest.foldl (fun entries pair => setKey pair.1 pair.2 entries) before =
          before ++ rest := by
    intro rest
    induction rest with
    | nil =>
        simp
    | cons head rest inductionHypothesis =>
        rcases head with ⟨key, value⟩
        intro before distinct strings
        have absent : lookupKey key before = none := by
          refine lookupKey_eq_none_iff.mpr fun first member => ?_
          obtain ⟨entry, inBefore, rfl⟩ := List.mem_map.mp member
          rw [List.map_append, List.pairwise_append] at distinct
          have later := distinct.2.2 entry.1 member key (by simp)
          obtain ⟨name, rfl⟩ : ∃ name, key = .str name :=
            strings (key, value) (by simp)
          obtain ⟨other, isEntry⟩ := strings entry (by simp [inBefore])
          rw [isEntry] at later ⊢
          rw [pyEq_str_str, beq_eq_false_iff_ne] at later ⊢
          exact Ne.symm later
        simp only [List.foldl_cons, setKey_of_lookupKey_eq_none value absent]
        rw [inductionHypothesis (before ++ [(key, value)])
          (by simpa using distinct) (by simpa using strings)]
        simp
  obtain ⟨each, distinct⟩ := isJsonDict_iff.mp json
  exact general entries [] distinct fun entry member => (each entry member).1

end JsonValues

section RoundTrip

variable [PyJson F]

mutual

/-- `json.loads` returns JSON values. -/
theorem isJson_loads :
    ∀ text : Json F, isJson (loads text) = true
  | .null => rfl
  | .bool _ => rfl
  | .int _ => rfl
  | .float _ => rfl
  | .str _ => rfl
  | .array items => isJsonList_loadsList items
  | .object entries => by
      have each := loadsPairs_isJson entries
      have general :
          ∀ (pairs before : List (Key F × Value F)),
            isJsonDict before = true →
            (∀ pair ∈ pairs,
              (∃ name, pair.1 = .str name) ∧ isJson pair.2 = true) →
            isJsonDict
                (pairs.foldl
                  (fun entries pair => setKey pair.1 pair.2 entries) before) =
              true := by
        intro pairs
        induction pairs with
        | nil =>
            intro before json _
            exact json
        | cons head rest inductionHypothesis =>
            rcases head with ⟨key, value⟩
            intro before json jsonPairs
            obtain ⟨⟨⟨name, isName⟩, jsonValue⟩, jsonRest⟩ :=
              List.forall_mem_cons.mp jsonPairs
            simp only at isName
            subst isName
            exact inductionHypothesis _ (isJsonDict_setKey json jsonValue)
              jsonRest
      exact general _ [] rfl each

theorem isJsonList_loadsList :
    ∀ items : List (Json F), isJsonList (loadsList items) = true
  | [] => rfl
  | item :: rest => by
      simp [loadsList, isJsonList, isJson_loads item,
        isJsonList_loadsList rest]

theorem loadsPairs_isJson :
    ∀ (entries : List (String × Json F)), ∀ pair ∈ loadsPairs entries,
      (∃ name, pair.1 = .str name) ∧ isJson pair.2 = true
  | [], pair, member => by
      simp [loadsPairs] at member
  | (key, value) :: rest, pair, member => by
      simp only [loadsPairs, List.mem_cons] at member
      rcases member with isHead | inRest
      · subst isHead
        exact ⟨⟨key, rfl⟩, isJson_loads value⟩
      · exact loadsPairs_isJson rest pair inRest

end

mutual

theorem loads_dumps :
    ∀ value : Value F,
      isJson value = true →
      ∃ text, dumps value = .ok text ∧ loads text = value
  | .none, _ => ⟨.null, rfl, rfl⟩
  | .bool value, _ => ⟨.bool value, rfl, rfl⟩
  | .int value, _ => ⟨.int value, rfl, rfl⟩
  | .float value, _ => ⟨.float value, rfl, rfl⟩
  | .str value, _ => ⟨.str value, rfl, rfl⟩
  | .list items, json => by
      obtain ⟨texts, dumped, loaded⟩ := loadsList_dumpsList items json
      exact ⟨.array texts, by simp [dumps, dumped, Except.map],
        by simp [loads, loaded]⟩
  | .dict entries, json => by
      obtain ⟨texts, dumped, loaded⟩ := loadsPairs_dumpsEntries entries json
      refine ⟨.object texts, by simp [dumps, dumped, Except.map], ?_⟩
      simp only [loads, loaded, dictOfPairs, dictOfPairs_of_isJsonDict json]

theorem loadsList_dumpsList :
    ∀ items : List (Value F),
      isJsonList items = true →
      ∃ texts, dumpsList items = .ok texts ∧ loadsList texts = items
  | [], _ => ⟨[], rfl, rfl⟩
  | item :: rest, json => by
      simp only [isJsonList, Bool.and_eq_true] at json
      obtain ⟨text, dumped, loaded⟩ := loads_dumps item json.1
      obtain ⟨texts, dumpedRest, loadedRest⟩ :=
        loadsList_dumpsList rest json.2
      exact ⟨text :: texts,
        by simp [dumpsList, dumped, dumpedRest, bind, Except.bind],
        by simp [loadsList, loaded, loadedRest]⟩

theorem loadsPairs_dumpsEntries :
    ∀ entries : List (Key F × Value F),
      isJsonDict entries = true →
      ∃ texts, dumpsEntries entries = .ok texts ∧ loadsPairs texts = entries
  | [], _ => ⟨[], rfl, rfl⟩
  | (.str name, value) :: rest, json => by
      simp only [isJsonDict, Bool.and_eq_true] at json
      obtain ⟨text, dumped, loaded⟩ := loads_dumps value json.1.1
      obtain ⟨texts, dumpedRest, loadedRest⟩ :=
        loadsPairs_dumpsEntries rest json.2
      exact ⟨(name, text) :: texts,
        by simp [dumpsEntries, dumped, dumpedRest, Key.toJson, bind,
          Except.bind],
        by simp [loadsPairs, loaded, loadedRest]⟩

end

theorem jsonRoundTrip_of_isJson
    {value : Value F}
    (json : isJson value = true) :
    jsonRoundTrip value = .ok value := by
  obtain ⟨text, dumped, loaded⟩ := loads_dumps value json
  simp [jsonRoundTrip, dumped, loaded, bind, Except.bind]

theorem isJson_of_jsonRoundTrip
    {value result : Value F}
    (computed : jsonRoundTrip value = .ok result) :
    isJson result = true := by
  obtain ⟨text, _, loaded⟩ := PyResult.bind_eq_ok.mp computed
  cases loaded
  exact isJson_loads text

end RoundTrip

/-!
# Floats without a fraction

An instance of the builtin operations on which examples compute: floats whose
value is an integer.  An operation whose result is no such float is refused.
-/

/-- A float by its integer value. -/
structure WholeFloat where
  value : Int
  deriving DecidableEq

namespace WholeFloat

/-- The operators, as far as their results are whole. -/
def arith
    (op : ArithOp)
    (x y : WholeFloat) :
    PyResult WholeFloat :=
  match op with
  | .add => .ok ⟨x.value + y.value⟩
  | .sub => .ok ⟨x.value - y.value⟩
  | .mul => .ok ⟨x.value * y.value⟩
  | .div =>
      if y.value = 0 then
        .error .zeroDivisionError
      else if x.value % y.value = 0 then
        .ok ⟨x.value / y.value⟩
      else
        .error .notImplementedError
  | .floorDiv =>
      if y.value = 0 then
        .error .zeroDivisionError
      else
        .ok ⟨x.value.fdiv y.value⟩

/-- `"%s" % text` and `"%d" % number`. -/
def percentFormat : String → List (Value WholeFloat) → PyResult String
  | "%s", [.str text] => .ok text
  | "%d", [.int value] => .ok (toString value)
  | _, _ => .error .notImplementedError

instance : PyJson WholeFloat where
  ofInt value := .ok ⟨value⟩
  arith := arith
  trueDiv x y := arith .div ⟨x⟩ ⟨y⟩
  compare x y := some (Ord.compare x.value y.value)
  compareInt x y := some (Ord.compare x.value y)
  truthy x := x.value != 0
  percentFormat := percentFormat
  floatRepr value := toString value.value ++ ".0"

end WholeFloat

end TensorPC
