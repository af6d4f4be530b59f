import TensorPC.Py.Value
import Mathlib.Data.List.InsertIdx

namespace TensorPC

/-!
# Reading and changing containers

Subscripts, attributes and the mutating methods of lists and dictionaries.  A
method runs on the object as state: an exception keeps what was changed before.
-/

variable {F : Type}

/-! ## Lists -/

/-- The position that an index names in a sequence of some length. -/
def position
    (length : Nat)
    (index : Int) :
    PyResult Nat :=
  let shifted := if index < 0 then index + length else index
  if 0 ≤ shifted ∧ shifted < length then
    .ok shifted.toNat
  else
    .error .indexError

/-- `items[index]`. -/
def itemAt
    {α : Type}
    (items : List α)
    (index : Int) :
    PyResult α := do
  let place ← position items.length index
  match items[place]? with
  | some item => .ok item
  | none => .error .indexError

/-- `items[index] = item`. -/
def setItemAt
    {α : Type}
    (items : List α)
    (index : Int)
    (item : α) :
    PyResult (List α) := do
  let place ← position items.length index
  .ok (items.set place item)

/-- `items.pop(index)`. -/
def popItemAt
    {α : Type}
    (items : List α)
    (index : Int) :
    PyResult (List α) := do
  let place ← position items.length index
  .ok (items.eraseIdx place)

/-- Where `items.insert(index, item)` puts the item. -/
def insertPosition
    (length : Nat)
    (index : Int) :
    Nat :=
  let shifted := if index < 0 then index + length else index
  min shifted.toNat length

/-- `items.insert(index, item)`. -/
def insertItemAt
    {α : Type}
    (items : List α)
    (index : Int)
    (item : α) :
    List α :=
  items.insertIdx (insertPosition items.length index) item

section Position

variable {α β : Type} (f : α → β)

theorem itemAt_map
    (items : List α)
    (index : Int) :
    itemAt (items.map f) index = (itemAt items index).map f := by
  simp only [itemAt, List.length_map]
  cases position items.length index with
  | error raised =>
      rfl
  | ok place =>
      simp only [bind, Except.bind, List.getElem?_map]
      cases items[place]? with
      | none =>
          rfl
      | some item =>
          rfl

theorem setItemAt_map
    (items : List α)
    (index : Int)
    (item : α) :
    setItemAt (items.map f) index (f item) =
      (setItemAt items index item).map (List.map f) := by
  simp only [setItemAt, List.length_map]
  cases position items.length index with
  | error raised =>
      rfl
  | ok place =>
      simp [bind, Except.bind, Except.map, List.map_set]

theorem popItemAt_map
    (items : List α)
    (index : Int) :
    popItemAt (items.map f) index =
      (popItemAt items index).map (List.map f) := by
  simp only [popItemAt, List.length_map]
  cases position items.length index with
  | error raised =>
      rfl
  | ok place =>
      simp [bind, Except.bind, Except.map, List.eraseIdx_map]

theorem insertItemAt_map
    (items : List α)
    (index : Int)
    (item : α) :
    insertItemAt (items.map f) index (f item) =
      (insertItemAt items index item).map f := by
  simp [insertItemAt, List.map_insertIdx]

end Position

/-! ## Dictionaries and attributes -/

section Entries

variable [PyFloat F] {α : Type}

/-- `dict[key] = value`: an equal key keeps its place and its spelling. -/
def setKey
    (key : Key F)
    (value : α) :
    List (Key F × α) → List (Key F × α)
  | [] => [(key, value)]
  | (first, old) :: rest =>
      if first.pyEq key then
        (first, value) :: rest
      else
        (first, old) :: setKey key value rest

/-- `del dict[key]` for a key that is there. -/
def eraseKey
    (key : Key F) :
    List (Key F × α) → List (Key F × α)
  | [] => []
  | (first, old) :: rest =>
      if first.pyEq key then
        rest
      else
        (first, old) :: eraseKey key rest

attribute [grind =] lookupKey setKey eraseKey

variable {β : Type} (f : α → β)

/-- The same function on every value of a dictionary. -/
def mapValues
    {κ : Type}
    (entries : List (κ × α)) :
    List (κ × β) :=
  entries.map fun entry => (entry.1, f entry.2)

@[simp] theorem lookupKey_mapValues
    (key : Key F)
    (entries : List (Key F × α)) :
    lookupKey key (mapValues f entries) = (lookupKey key entries).map f := by
  induction entries with
  | nil =>
      rfl
  | cons head rest inductionHypothesis =>
      rcases head with ⟨first, value⟩
      simp only [mapValues, List.map_cons, lookupKey] at *
      split
      · rfl
      · exact inductionHypothesis

@[simp] theorem setKey_mapValues
    (key : Key F)
    (value : α)
    (entries : List (Key F × α)) :
    setKey key (f value) (mapValues f entries) =
      mapValues f (setKey key value entries) := by
  induction entries with
  | nil =>
      rfl
  | cons head rest inductionHypothesis =>
      rcases head with ⟨first, old⟩
      simp only [mapValues, List.map_cons, setKey] at *
      split
      · rfl
      · simp [inductionHypothesis]

@[simp] theorem eraseKey_mapValues
    (key : Key F)
    (entries : List (Key F × α)) :
    eraseKey key (mapValues f entries) = mapValues f (eraseKey key entries) := by
  induction entries with
  | nil =>
      rfl
  | cons head rest inductionHypothesis =>
      rcases head with ⟨first, old⟩
      simp only [mapValues, List.map_cons, eraseKey] at *
      split
      · rfl
      · simp [inductionHypothesis]

end Entries

/-- The attribute of a name among the attributes of an object. -/
def lookupAttr
    {α : Type}
    (name : String) :
    List (String × α) → Option α
  | [] => none
  | (first, value) :: rest =>
      if first = name then some value else lookupAttr name rest

/-- The attributes after an assignment. -/
def assignAttr
    {α : Type}
    (name : String)
    (value : α) :
    List (String × α) → List (String × α)
  | [] => [(name, value)]
  | (first, old) :: rest =>
      if first = name then
        (first, value) :: rest
      else
        (first, old) :: assignAttr name value rest

namespace Value

/-- `getattr(value, name)`; the attributes of builtin types are no values here. -/
def getAttr
    (name : String) :
    Value F → PyResult (Value F)
  | obj _ fields extras =>
      match lookupAttr name fields with
      | some value => .ok value
      | Option.none =>
          match lookupAttr name extras with
          | some value => .ok value
          | Option.none => .error (.attributeError name)
  | _ => .error (.attributeError name)

/-- `setattr(value, name, attr)`. -/
def setAttr
    (value : Value F)
    (name : String)
    (attr : Value F) :
    PyResult (Value F) :=
  match value with
  | obj cls fields extras =>
      match lookupAttr name fields with
      | some _ => .ok (.obj cls (assignAttr name attr fields) extras)
      | Option.none => .ok (.obj cls fields (assignAttr name attr extras))
  | _ => .error (.attributeError name)

/-- `getattr(value, name)` for a name that is a value itself. -/
def getAttrValue
    (value name : Value F) :
    PyResult (Value F) :=
  match name with
  | str name => value.getAttr name
  | _ => .error (.typeError "attribute name must be string")

/-- `setattr(value, name, attr)` for a name that is a value itself. -/
def setAttrValue
    (value name attr : Value F) :
    PyResult (Value F) :=
  match name with
  | str name => value.setAttr name attr
  | _ => .error (.typeError "attribute name must be string")

/-- The index that subscripts a sequence. -/
def requireIndex (index : Value F) : PyResult Int :=
  match index.asIndex with
  | some index => .ok index
  | Option.none =>
      .error (.typeError "indices must be integers or slices")

section Subscript

variable [PyFloat F]

/-- `value[index]`. -/
def getItem
    (value index : Value F) :
    PyResult (Value F) :=
  match value with
  | list items => do
      let index ← index.requireIndex
      itemAt items index
  | tuple items => do
      let index ← index.requireIndex
      itemAt items index
  | str text => do
      let index ← index.requireIndex
      let char ← itemAt text.toList index
      .ok (.str char.toString)
  | dict entries => do
      let key ← index.toKey
      match lookupKey key entries with
      | some found => .ok found
      | Option.none => .error (.keyError "")
  | _ => .error (.typeError "object is not subscriptable")

/-- `value[index] = item`. -/
def setItem
    (value index item : Value F) :
    PyResult (Value F) :=
  match value with
  | list items => do
      let index ← index.requireIndex
      let items ← setItemAt items index item
      .ok (.list items)
  | dict entries => do
      let key ← index.toKey
      .ok (.dict (setKey key item entries))
  | _ => .error (.typeError "object does not support item assignment")

/-- The value after the item at an existing place has been replaced. -/
def replaceItem
    (value index item : Value F) :
    Value F :=
  match value with
  | tuple items =>
      match index.requireIndex >>= fun index => setItemAt items index item with
      | .ok items => .tuple items
      | .error _ => value
  | _ =>
      match value.setItem index item with
      | .ok result => result
      | .error _ => value

/-- `value.pop(index)`, or `value.pop()`. -/
def pop
    (value : Value F)
    (index : Option (Value F)) :
    PyResult (Value F) :=
  match value, index with
  | list items, Option.none => do
      let items ← popItemAt items (-1)
      .ok (.list items)
  | list items, some index => do
      let index ← index.requireIndex
      let items ← popItemAt items index
      .ok (.list items)
  | dict entries, some index => do
      let key ← index.toKey
      match lookupKey key entries with
      | some _ => .ok (.dict (eraseKey key entries))
      | Option.none => .error (.keyError "")
  | dict _, Option.none =>
      .error (.typeError "pop expected at least 1 argument, got 0")
  | _, _ => .error (.attributeError "pop")

/-- `value.insert(index, item)`. -/
def insert
    (value index item : Value F) :
    PyResult (Value F) :=
  match value with
  | list items => do
      let index ← index.requireIndex
      .ok (.list (insertItemAt items index item))
  | _ => .error (.attributeError "insert")

/-- The items without the first one that equals an item. -/
def removeFirst
    (item : Value F) :
    List (Value F) → PyResult (List (Value F))
  | [] => .error (.valueError "list.remove(x): x not in list")
  | first :: rest =>
      if pyEq first item then
        .ok rest
      else do
        let rest ← removeFirst item rest
        .ok (first :: rest)

/-- `value.remove(item)`. -/
def remove
    (value item : Value F) :
    PyResult (Value F) :=
  match value with
  | list items => do
      let items ← removeFirst item items
      .ok (.list items)
  | _ => .error (.attributeError "remove")

/-- `value.clear()`. -/
def clear : Value F → PyResult (Value F)
  | list _ => .ok (.list [])
  | dict _ => .ok (.dict [])
  | _ => .error (.attributeError "clear")

/-- `list(value)`: what iterating over a value yields. -/
def iterate : Value F → PyResult (List (Value F))
  | list items => .ok items
  | tuple items => .ok items
  | str text => .ok (text.toList.map fun char => .str char.toString)
  | dict entries => .ok (entries.map fun entry => entry.1.toValue)
  | _ => .error (.typeError "object is not iterable")

/-- `value.extend(items)`. -/
def extend
    (value items : Value F) :
    PyResult (Value F) :=
  match value with
  | list old => do
      let new ← items.iterate
      .ok (.list (old ++ new))
  | _ => .error (.attributeError "extend")

/-- `value += other`, and the other operators: a list is extended in place. -/
def inplaceArith
    (op : ArithOp)
    (value other : Value F) :
    PyResult (Value F) :=
  match op, value with
  | .add, list _ => value.extend other
  | _, _ => value.arith op other

/-- `len(value)`. -/
def len : Value F → PyResult (Value F)
  | str text => .ok (.int text.length)
  | list items => .ok (.int items.length)
  | tuple items => .ok (.int items.length)
  | dict entries => .ok (.int entries.length)
  | _ => .error (.typeError "object has no len()")

end Subscript

end Value

/-! ## Changing an object in place -/

/-- A computation on an object that may raise after it has changed the object. -/
abbrev Mutation (F : Type) := EStateM PyError (Value F) Unit

/-- A method call that raises before it changes anything. -/
def Mutation.ofResult
    (method : Value F → PyResult (Value F)) :
    Mutation F :=
  fun value =>
    match method value with
    | .ok result => .ok () result
    | .error raised => .error raised value

theorem ofResult_eq_ok
    {method : Value F → PyResult (Value F)}
    {value after : Value F} :
    Mutation.ofResult method value = .ok () after ↔
      method value = .ok after := by
  unfold Mutation.ofResult
  cases method value <;> simp

/-- `for item in items: body(item)`. -/
def Mutation.forEach
    {α : Type}
    (body : α → Mutation F) :
    List α → EStateM PyError (Value F) Unit
  | [] => pure ()
  | item :: rest => do
      body item
      Mutation.forEach body rest

end TensorPC
