import TensorPC.Pmql.ModuleTree
import TensorPC.Py.PurePath

namespace TensorPC.Pmql

/-!
# Module queries

A query is a list of items, at most one of which stands for any number of
levels.  One engine goes down level by level and flattens what it reached when
it meets that item; the other flattens the whole tree and compares the path of
every leaf.  What Python operators do with a torch module itself is a parameter.
-/

/-- `QueryItem`. -/
inductive QueryItem
  | plain (id : String)
  | type (id : String)
  | doubleGlob
  | index (index : Int ⊕ String) (isAll : Bool)
  | partialGlob (glob : List String)
  | identity
  deriving DecidableEq, Repr

namespace QueryItem

/-- `isinstance(item, DoubleGlob)`. -/
def isDoubleGlob : QueryItem → Bool
  | doubleGlob => true
  | plain _ | type _ | index _ _ | partialGlob _ | identity => false

/-- `isinstance(item, IdentityItem)`. -/
def isIdentity : QueryItem → Bool
  | identity => true
  | plain _ | type _ | index _ _ | partialGlob _ | doubleGlob => false

end QueryItem

/-- `SingleQuery`, which refuses a second double glob. -/
structure SingleQuery where
  items : List QueryItem
  oneDoubleGlob : (items.filter QueryItem.isDoubleGlob).length ≤ 1

/-- The key an index stands for: `str(idx)` of a number. -/
def indexKey : Int ⊕ String → String
  | .inl number => toString number
  | .inr text => text

/-- `get_glob_regex().match(key)`: the whole key, as `fnmatch.translate` writes it. -/
def globMatch (glob : List String) (key : String) : Bool :=
  fnmatch (String.join glob).toList key.toList

/-- `pattern in text`. -/
def inText (pattern text : String) : Bool :=
  decide (pattern.toList <:+: text.toList)

variable {M : Type}

/-! ## Level by level -/

/-- What the body of the loop adds for a module dictionary. -/
def stepModule (item : QueryItem) (tree : ModuleTree M) : List (Value M) :=
  match item with
  | .plain id => (tree.get? id).toList
  | .partialGlob glob =>
      (tree.entries.filter fun entry =>
        !reservedAttrs.contains entry.1 && globMatch glob entry.1).map Prod.snd
  | .index index isAll =>
      if isAll then
        (tree.entries.filterMap fun entry => entry.2.module?).map .module
      else
        (tree.get? (indexKey index)).toList
  | .type id =>
      ((tree.entries.filterMap fun entry => entry.2.module?).filter fun next =>
        inText id next.typeQualname).map .module
  | .doubleGlob => []
  | .identity => [.module tree]

/-- What the body of the loop adds for the value of a reserved key.  A text contains the
name looked for, or not; a text that contains it has no such item. -/
def stepAttribute
    (torch : QueryItem → M → PyResult (List M))
    (item : QueryItem)
    (value : Attribute M) :
    PyResult (List (Attribute M)) :=
  match item, value with
  | .doubleGlob, _ => .ok []
  | .identity, _ => .ok [value]
  | .plain id, .text text =>
      if inText id text then .error (.typeError "string indices must be integers") else .ok []
  | .index index false, .text text =>
      if inText (indexKey index) text then
        .error (.typeError "string indices must be integers")
      else
        .ok []
  | .plain _, .number _ | .index _ false, .number _ =>
      .error (.typeError "argument of type 'int' is not iterable")
  | .partialGlob _, .text _ | .partialGlob _, .number _ => .error (.attributeError "items")
  | .index _ true, .text _ | .index _ true, .number _
  | .type _, .text _ | .type _, .number _ => .error (.attributeError "values")
  | _, .object module => (torch item module).map fun found => found.map .object

/-- The body of the loop for any value. -/
def stepValue
    (torch : QueryItem → M → PyResult (List M))
    (item : QueryItem) :
    Value M → PyResult (List (Value M))
  | .module tree => .ok (stepModule item tree)
  | .reserved value =>
      (stepAttribute torch item value).map fun found => found.map .reserved

/-- `_do_query_on_module_dict_no_double_star`. -/
def doQueryNoDoubleStar
    (torch : QueryItem → M → PyResult (List M)) :
    List QueryItem → List (Value M) → PyResult (List (Value M))
  | [], curItems => .ok curItems
  | item :: rest, curItems => do
      let newItems ← curItems.mapM (stepValue torch item)
      doQueryNoDoubleStar torch rest newItems.flatten

/-! ## Paths of leaves -/

/-- One turn of `_validate_mod_query_on_single_path`. -/
def validateItem (entry : String × Value M) : QueryItem → PyResult Bool
  | .plain id => .ok (id = entry.1)
  | .partialGlob glob => .ok (globMatch glob entry.1)
  | .index index isAll => .ok (isAll || indexKey index = entry.1)
  | .type id =>
      match entry.2 with
      | .module tree => .ok (inText id tree.typeQualname)
      | .reserved _ => .error (.typeError "not subscriptable")
  | .doubleGlob | .identity => .error .notImplementedError

/-- `_validate_mod_query_on_single_path`. -/
def validatePath : List (String × Value M) → List QueryItem → PyResult Bool
  | entry :: path, item :: items => do
      let isValid ← validateItem entry item
      if isValid then validatePath path items else return false
  | _, _ => .ok true

/-- `path[-length:]`: the whole path when the length is 0. -/
def lastItems {α : Type} (length : Nat) (path : List α) : List α :=
  if length = 0 then path else path.drop (path.length - length)

/-- The position of the double glob, or the number of items. -/
def doubleStarIdx (items : List QueryItem) : Nat :=
  items.findIdx QueryItem.isDoubleGlob

/-- The number of items after the double glob. -/
def lengthAfterDoubleStar (items : List QueryItem) : Nat :=
  items.length - doubleStarIdx items - 1

/-- The body of the loop over the flattened values below one module. -/
def leafBelow
    (items : List QueryItem)
    (curItem : Value M)
    (leaf : List String × Value M) :
    PyResult (List (Value M)) :=
  if leaf.2.module?.isSome && lengthAfterDoubleStar items ≤ leaf.1.length then do
    let trace ← followPath curItem leaf.1
    let isValid ← validatePath (lastItems (lengthAfterDoubleStar items) trace)
      (items.drop (doubleStarIdx items + 1))
    return if isValid then [leaf.2] else []
  else
    return []

/-- `_do_query_on_module_dict`. -/
def doQueryOnModuleDict
    (torch : QueryItem → M → PyResult (List M))
    (dataDict : ModuleTree M)
    (query : SingleQuery) :
    PyResult (List (Value M)) := do
  let curItems ←
    doQueryNoDoubleStar torch (query.items.take (doubleStarIdx query.items)) [.module dataDict]
  if doubleStarIdx query.items < query.items.length && !curItems.isEmpty then
    let found ← curItems.mapM fun curItem => do
      let leaves ← curItem.flatten.mapM (leafBelow query.items curItem)
      return leaves.flatten
    return found.flatten
  else
    return curItems

/-- The body of the loop of `_do_query_on_module_dict_v2`. -/
def leafOfTree
    (items : List QueryItem)
    (dataDict : ModuleTree M)
    (leaf : List String × Value M) :
    PyResult (List (Value M)) :=
  if decide (doubleStarIdx items + lengthAfterDoubleStar items ≤ leaf.1.length) &&
      leaf.2.module?.isSome then do
    let trace ← followPath (.module dataDict) leaf.1
    let isValidBefore ← validatePath (trace.take (doubleStarIdx items))
      (items.take (doubleStarIdx items))
    let isValidAfter ← validatePath (lastItems (lengthAfterDoubleStar items) trace)
      (items.drop (doubleStarIdx items + 1))
    return if isValidBefore && isValidAfter then [leaf.2] else []
  else
    return []

/-- `_do_query_on_module_dict_v2`. -/
def doQueryOnModuleDictV2
    (dataDict : ModuleTree M)
    (query : SingleQuery) :
    PyResult (List (Value M)) := do
  let found ← dataDict.flatten.mapM (leafOfTree query.items dataDict)
  return found.flatten

/-! ## What an item selects -/

/-- Whether an item that stands for one level selects a child. -/
def QueryItem.selects (item : QueryItem) (entry : String × ModuleTree M) : Bool :=
  match item with
  | .plain id => id = entry.1
  | .partialGlob glob => globMatch glob entry.1
  | .index key isAll => isAll || indexKey key = entry.1
  | .type id => inText id entry.2.typeQualname
  | .doubleGlob | .identity => false

/-- An item that stands for one level. -/
def QueryItem.isLevel (item : QueryItem) : Bool :=
  !item.isDoubleGlob && !item.isIdentity

/-- The reserved key that an item names. -/
def QueryItem.reserved? : QueryItem → Option String
  | .plain id => if id ∈ reservedAttrs then some id else none
  | .index key false =>
      if indexKey key ∈ reservedAttrs then some (indexKey key) else none
  | .index _ true | .type _ | .doubleGlob | .partialGlob _ | .identity => none

/-- The traces that the items select, level by level. -/
def selected : List QueryItem → ModuleTree M → List (Trace M)
  | [], _ => [[]]
  | item :: items, tree =>
      (tree.children.filter item.selects).flatMap fun entry =>
        (selected items entry.2).map (entry :: ·)

/-- Whether the items select the first modules of a trace. -/
def Trace.isSelected (items : List QueryItem) (trace : Trace M) : Bool :=
  (trace.zip items).all fun pair => pair.2.selects pair.1

theorem modules_entries (tree : ModuleTree M) :
    tree.entries.filterMap (fun entry => entry.2.module?) = tree.children.map Prod.snd := by
  unfold ModuleTree.entries
  rw [List.filterMap_append, List.filterMap_map, List.filterMap_map]
  simp [Function.comp_def, Value.module?]

/-- With distinct names a name selects at most one child. -/
theorem toList_lookup
    {children : List (String × ModuleTree M)}
    (distinct : (children.map Prod.fst).Nodup)
    (key : String) :
    ((children.lookup key).map Value.module).toList =
      (children.filter fun entry => decide (key = entry.1)).map
        fun entry => .module entry.2 := by
  induction children with
  | nil =>
      rfl
  | cons entry rest inductionHypothesis =>
      obtain ⟨name, child⟩ := entry
      obtain ⟨once, distinct⟩ := List.nodup_cons.mp distinct
      by_cases same : key = name
      · subst same
        have noOther : (rest.filter fun entry => decide (key = entry.1)) = [] := by
          rw [List.filter_eq_nil_iff]
          intro other member
          simp only [decide_eq_true_eq]
          intro again
          have named : other.1 ∈ rest.map Prod.fst := List.mem_map_of_mem member
          rw [← again] at named
          exact once named
        simp [noOther]
      · have different : (key == name) = false := beq_false_of_ne same
        simpa [List.lookup_cons, different, same] using inductionHypothesis distinct

/-- An item selects among the children, unless it names a reserved key. -/
theorem stepModule_eq
    {item : QueryItem}
    {tree : ModuleTree M}
    (wellFormed : WellFormed tree)
    (isLevel : item.isLevel = true)
    (free : item.reserved? = none) :
    stepModule item tree =
      (tree.children.filter item.selects).map fun entry => .module entry.2 := by
  have byName :
      ∀ key, key ∉ reservedAttrs →
        (tree.get? key).toList =
          (tree.children.filter fun entry => decide (key = entry.1)).map
            fun entry => .module entry.2 := by
    intro key free
    rw [get?_of_free free]
    exact toList_lookup wellFormed.distinctNames key
  cases item with
  | plain id =>
      refine byName id ?_
      simpa [QueryItem.reserved?] using free
  | type id =>
      simp only [stepModule, modules_entries, List.filter_map, List.map_map]
      rfl
  | doubleGlob =>
      cases isLevel
  | index key isAll =>
      cases isAll with
      | true =>
          have all : (QueryItem.index key true).selects (M := M) = fun _ => true := rfl
          simp [stepModule, modules_entries, all, Function.comp_def]
      | false =>
          have named :
              (QueryItem.index key false).selects (M := M) =
                fun entry => decide (indexKey key = entry.1) := rfl
          rw [named]
          exact byName (indexKey key) (by simpa [QueryItem.reserved?] using free)
  | partialGlob glob =>
      have attributes :
          (tree.attributes.map fun entry => (entry.1, Value.reserved entry.2)).filter
              (fun entry => !reservedAttrs.contains entry.1 && globMatch glob entry.1) = [] := by
        rw [List.filter_eq_nil_iff]
        intro entry member
        obtain ⟨found, isAttribute, rfl⟩ := List.mem_map.mp member
        have reserved : found.1 ∈ reservedAttrs := by
          rw [← keys_attributes tree]
          exact List.mem_map_of_mem isAttribute
        simp [reserved]
      have children :
          tree.children.filter
              (fun entry => !reservedAttrs.contains entry.1 && globMatch glob entry.1) =
            tree.children.filter (QueryItem.partialGlob glob).selects := by
        apply List.filter_congr
        intro entry member
        simp [wellFormed.freeName member, QueryItem.selects]
      simp only [stepModule, ModuleTree.entries]
      rw [List.filter_append, attributes, List.nil_append, List.filter_map, ← children,
        List.map_map]
      rfl
  | identity =>
      cases isLevel

end TensorPC.Pmql
