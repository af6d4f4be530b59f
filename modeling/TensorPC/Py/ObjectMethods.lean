import TensorPC.Py.Identity

namespace TensorPC

/-!
# Methods of values with identities

The subscripts, attributes and mutating methods of containers, which act on the
objects that a container holds as they act on values.  A method that changes a
container keeps its identity, and the objects it holds afterwards are objects it
held before or objects that it was given.
-/

variable {F : Type}

namespace PyObject

/-! ## Attributes -/

/-- `getattr(object, name)`. -/
def getAttr
    (object : PyObject F)
    (name : String) :
    PyResult (PyObject F) :=
  match object with
  | obj _ _ fields extras =>
      match lookupAttr name fields with
      | some value => .ok value
      | Option.none =>
          match lookupAttr name extras with
          | some value => .ok value
          | Option.none => .error (.attributeError name)
  | _ => .error (.attributeError name)

/-- `setattr(object, name, attr)`. -/
def setAttr
    (object : PyObject F)
    (name : String)
    (attr : PyObject F) :
    PyResult (PyObject F) :=
  match object with
  | obj id cls fields extras =>
      match lookupAttr name fields with
      | some _ => .ok (.obj id cls (assignAttr name attr fields) extras)
      | Option.none => .ok (.obj id cls fields (assignAttr name attr extras))
  | _ => .error (.attributeError name)

/-- `getattr(object, name)` for a name that is a value itself. -/
def getAttrValue
    (object : PyObject F)
    (name : Value F) :
    PyResult (PyObject F) :=
  match name with
  | .str name => object.getAttr name
  | _ => .error (.typeError "attribute name must be string")

/-- `setattr(object, name, attr)` for a name that is a value itself. -/
def setAttrValue
    (object : PyObject F)
    (name : Value F)
    (attr : PyObject F) :
    PyResult (PyObject F) :=
  match name with
  | .str name => object.setAttr name attr
  | _ => .error (.typeError "attribute name must be string")

/-! ## Items -/

section Subscript

variable [PyFloat F]

/-- `object[index]`. -/
def getItem
    (object : PyObject F)
    (index : Value F) :
    PyResult (PyObject F) :=
  match object with
  | list _ items => do
      let index ← index.requireIndex
      itemAt items index
  | tuple _ items => do
      let index ← index.requireIndex
      itemAt items index
  | str text => do
      let index ← index.requireIndex
      let char ← itemAt text.toList index
      .ok (.str char.toString)
  | dict _ entries => do
      let key ← index.toKey
      match lookupKey key entries with
      | some found => .ok found
      | Option.none => .error (.keyError "")
  | _ => .error (.typeError "object is not subscriptable")

/-- `object[index] = item`. -/
def setItem
    (object : PyObject F)
    (index : Value F)
    (item : PyObject F) :
    PyResult (PyObject F) :=
  match object with
  | list id items => do
      let index ← index.requireIndex
      let items ← setItemAt items index item
      .ok (.list id items)
  | dict id entries => do
      let key ← index.toKey
      .ok (.dict id (setKey key item entries))
  | _ => .error (.typeError "object does not support item assignment")

/-- The object after the item at an existing place has been replaced. -/
def replaceItem
    (object : PyObject F)
    (index : Value F)
    (item : PyObject F) :
    PyObject F :=
  match object with
  | tuple id items =>
      match index.requireIndex >>= fun index => setItemAt items index item with
      | .ok items => .tuple id items
      | .error _ => .tuple id items
  | object =>
      match object.setItem index item with
      | .ok result => result
      | .error _ => object

/-- `object.pop(index)`, or `object.pop()`. -/
def pop
    (object : PyObject F)
    (index : Option (Value F)) :
    PyResult (PyObject F) :=
  match object, index with
  | list id items, Option.none => do
      let items ← popItemAt items (-1)
      .ok (.list id items)
  | list id items, some index => do
      let index ← index.requireIndex
      let items ← popItemAt items index
      .ok (.list id items)
  | dict id entries, some index => do
      let key ← index.toKey
      match lookupKey key entries with
      | some _ => .ok (.dict id (eraseKey key entries))
      | Option.none => .error (.keyError "")
  | dict _ _, Option.none =>
      .error (.typeError "pop expected at least 1 argument, got 0")
  | _, _ => .error (.attributeError "pop")

/-- `object.insert(index, item)`. -/
def insert
    (object : PyObject F)
    (index : Value F)
    (item : PyObject F) :
    PyResult (PyObject F) :=
  match object with
  | list id items => do
      let index ← index.requireIndex
      .ok (.list id (insertItemAt items index item))
  | _ => .error (.attributeError "insert")

/-- The items without the first one that equals a value. -/
def removeFirst
    (item : Value F) :
    List (PyObject F) → PyResult (List (PyObject F))
  | [] => .error (.valueError "list.remove(x): x not in list")
  | first :: rest =>
      if Value.pyEq first.toValue item then
        .ok rest
      else do
        let rest ← removeFirst item rest
        .ok (first :: rest)

/-- `object.remove(item)`. -/
def remove
    (object : PyObject F)
    (item : Value F) :
    PyResult (PyObject F) :=
  match object with
  | list id items => do
      let items ← removeFirst item items
      .ok (.list id items)
  | _ => .error (.attributeError "remove")

/-- `object.clear()`. -/
def clear : PyObject F → PyResult (PyObject F)
  | list id _ => .ok (.list id [])
  | dict id _ => .ok (.dict id [])
  | _ => .error (.attributeError "clear")

/-- A key of a dictionary as an object. -/
def ofKey : Key F → PyObject F
  | .none => none
  | .bool value => bool value
  | .int value => int value
  | .float value => float value
  | .str value => str value

/-- What iterating over an object yields. -/
def iterate : PyObject F → PyResult (List (PyObject F))
  | list _ items => .ok items
  | tuple _ items => .ok items
  | str text => .ok (text.toList.map fun char => .str char.toString)
  | dict _ entries => .ok (entries.map fun entry => ofKey entry.1)
  | _ => .error (.typeError "object is not iterable")

/-- `object.extend(items)`. -/
def extend (object items : PyObject F) : PyResult (PyObject F) :=
  match object with
  | list id old => do
      let new ← items.iterate
      .ok (.list id (old ++ new))
  | _ => .error (.attributeError "extend")

/-! ## Arithmetic -/

/-- `items * count` for a sequence of some kind. -/
def repeatedItems
    (make : List (PyObject F) → PyObject F)
    (items : List (PyObject F))
    (count : PyObject F) :
    PyResult (PyObject F) :=
  match count.toValue.asIndex with
  | some n => .ok (make (Value.repeatItems items n))
  | Option.none => .error (.typeError "can't multiply sequence by non-int")

/-- `x + y` and the other operators: a result that is a container is new. -/
def arith
    (op : ArithOp)
    (x y : PyObject F)
    (fresh : ObjId) :
    PyResult (PyObject F) :=
  match op, x, y with
  | .add, list _ first, list _ second => .ok (.list fresh (first ++ second))
  | .add, tuple _ first, tuple _ second => .ok (.tuple fresh (first ++ second))
  | .mul, list _ items, count => repeatedItems (list fresh) items count
  | .mul, tuple _ items, count => repeatedItems (tuple fresh) items count
  | .mul, count, list _ items => repeatedItems (list fresh) items count
  | .mul, count, tuple _ items => repeatedItems (tuple fresh) items count
  | op, x, y =>
      (x.toValue.arith op y.toValue).map fun result => (ofValue fresh result).1

/-- `object += other`, and the other operators: a list is changed in place. -/
def inplaceArith
    (op : ArithOp)
    (object other : PyObject F)
    (fresh : ObjId) :
    PyResult (PyObject F) :=
  match op, object with
  | .add, list id items => (list id items).extend other
  | .mul, list id items => repeatedItems (list id) items other
  | op, object => object.arith op other fresh

end Subscript

/-! ## What a method keeps -/

/--
An object after a method of it: the identity is kept, and what the object holds was
held before or has been given to the method.
-/
structure Keeps
    (given : PyObject F → Prop)
    (before after : PyObject F) : Prop where
  id? : after.id? = before.id?
  children : ∀ child ∈ after.children, child ∈ before.children ∨ given child

section Keeps

theorem mem_setItemAt
    {α : Type}
    {items after : List α}
    {index : Int}
    {item other : α}
    (changed : setItemAt items index item = .ok after)
    (member : other ∈ after) :
    other ∈ items ∨ other = item := by
  obtain ⟨place, _, built⟩ := PyResult.bind_eq_ok.mp changed
  cases built
  exact List.mem_or_eq_of_mem_set member

theorem mem_popItemAt
    {α : Type}
    {items after : List α}
    {index : Int}
    {other : α}
    (changed : popItemAt items index = .ok after)
    (member : other ∈ after) :
    other ∈ items := by
  obtain ⟨place, _, built⟩ := PyResult.bind_eq_ok.mp changed
  cases built
  exact List.mem_of_mem_eraseIdx member

theorem mem_insertItemAt
    {α : Type}
    {items : List α}
    {index : Int}
    {item other : α}
    (member : other ∈ insertItemAt items index item) :
    other ∈ items ∨ other = item := by
  unfold insertItemAt insertPosition at member
  rw [List.mem_insertIdx (Nat.min_le_right _ _)] at member
  exact member.symm

theorem mem_assignAttr
    {α : Type}
    {name : String}
    {value other : α}
    {fields : List (String × α)}
    (member : other ∈ (assignAttr name value fields).map Prod.snd) :
    other ∈ fields.map Prod.snd ∨ other = value := by
  induction fields with
  | nil =>
      simpa [assignAttr] using member
  | cons head rest inductionHypothesis =>
      rcases head with ⟨first, old⟩
      simp only [assignAttr] at member
      split at member
      · rcases List.mem_cons.mp member with isValue | inRest
        · exact .inr isValue
        · exact .inl (List.mem_cons_of_mem _ inRest)
      · rcases List.mem_cons.mp member with isOld | inRest
        · exact .inl (List.mem_cons.mpr (.inl isOld))
        · rcases inductionHypothesis inRest with inOld | isValue
          · exact .inl (List.mem_cons_of_mem _ inOld)
          · exact .inr isValue

theorem mem_setKey
    [PyFloat F]
    {α : Type}
    {key : Key F}
    {value other : α}
    {entries : List (Key F × α)}
    (member : other ∈ (setKey key value entries).map Prod.snd) :
    other ∈ entries.map Prod.snd ∨ other = value := by
  induction entries with
  | nil =>
      simpa [setKey] using member
  | cons head rest inductionHypothesis =>
      rcases head with ⟨first, old⟩
      simp only [setKey] at member
      split at member
      · rcases List.mem_cons.mp member with isValue | inRest
        · exact .inr isValue
        · exact .inl (List.mem_cons_of_mem _ inRest)
      · rcases List.mem_cons.mp member with isOld | inRest
        · exact .inl (List.mem_cons.mpr (.inl isOld))
        · rcases inductionHypothesis inRest with inOld | isValue
          · exact .inl (List.mem_cons_of_mem _ inOld)
          · exact .inr isValue

theorem mem_eraseKey
    [PyFloat F]
    {α : Type}
    {key : Key F}
    {other : α}
    {entries : List (Key F × α)}
    (member : other ∈ (eraseKey key entries).map Prod.snd) :
    other ∈ entries.map Prod.snd := by
  induction entries with
  | nil =>
      exact member
  | cons head rest inductionHypothesis =>
      rcases head with ⟨first, old⟩
      simp only [eraseKey] at member
      split at member
      · exact List.mem_cons_of_mem _ member
      · rcases List.mem_cons.mp member with isOld | inRest
        · exact List.mem_cons.mpr (.inl isOld)
        · exact List.mem_cons_of_mem _ (inductionHypothesis inRest)

variable {object after item : PyObject F} {given : PyObject F → Prop}

theorem Keeps.refl (object : PyObject F) : Keeps given object object where
  id? := rfl
  children _ holds := .inl holds

theorem keeps_setAttr
    {name : String}
    (changed : object.setAttr name item = .ok after) :
    Keeps (· = item) object after := by
  cases object with
  | obj id cls fields extras =>
      simp only [setAttr] at changed
      split at changed
      · cases changed
        refine ⟨rfl, fun child holds => ?_⟩
        rcases List.mem_append.mp holds with inFields | inExtras
        · rcases mem_assignAttr inFields with wasHeld | isItem
          · exact .inl (List.mem_append_left _ wasHeld)
          · exact .inr isItem
        · exact .inl (List.mem_append_right _ inExtras)
      · cases changed
        refine ⟨rfl, fun child holds => ?_⟩
        rcases List.mem_append.mp holds with inFields | inExtras
        · exact .inl (List.mem_append_left _ inFields)
        · rcases mem_assignAttr inExtras with wasHeld | isItem
          · exact .inl (List.mem_append_right _ wasHeld)
          · exact .inr isItem
  | none | bool | int | float | str | list | tuple | dict =>
      cases changed

theorem keeps_setAttrValue
    {name : Value F}
    (changed : object.setAttrValue name item = .ok after) :
    Keeps (· = item) object after := by
  cases name with
  | str name =>
      exact keeps_setAttr changed
  | none | bool | int | float | list | tuple | dict | obj =>
      cases changed

variable [PyFloat F]

theorem keeps_setItem
    {index : Value F}
    (changed : object.setItem index item = .ok after) :
    Keeps (· = item) object after := by
  cases object with
  | list id items =>
      obtain ⟨place, _, setting⟩ := PyResult.bind_eq_ok.mp changed
      obtain ⟨others, set, built⟩ := PyResult.bind_eq_ok.mp setting
      cases built
      exact ⟨rfl, fun child holds => mem_setItemAt set holds⟩
  | dict id entries =>
      obtain ⟨key, _, built⟩ := PyResult.bind_eq_ok.mp changed
      cases built
      exact ⟨rfl, fun child holds => mem_setKey holds⟩
  | none | bool | int | float | str | tuple | obj =>
      cases changed

theorem keeps_replaceItem
    (object : PyObject F)
    (index : Value F)
    (item : PyObject F) :
    Keeps (· = item) object (object.replaceItem index item) := by
  unfold replaceItem
  split
  · split
    · rename_i items _ changed
      obtain ⟨place, _, set⟩ := PyResult.bind_eq_ok.mp changed
      exact ⟨rfl, fun child holds => mem_setItemAt set holds⟩
    · exact Keeps.refl _
  · split
    · rename_i changed
      exact keeps_setItem changed
    · exact Keeps.refl _

theorem keeps_pop
    {index : Option (Value F)}
    (changed : object.pop index = .ok after) :
    Keeps given object after := by
  cases object with
  | list id items =>
      cases index with
      | none =>
          obtain ⟨others, popped, built⟩ := PyResult.bind_eq_ok.mp changed
          cases built
          exact ⟨rfl, fun child holds => .inl (mem_popItemAt popped holds)⟩
      | some index =>
          obtain ⟨place, _, popping⟩ := PyResult.bind_eq_ok.mp changed
          obtain ⟨others, popped, built⟩ := PyResult.bind_eq_ok.mp popping
          cases built
          exact ⟨rfl, fun child holds => .inl (mem_popItemAt popped holds)⟩
  | dict id entries =>
      cases index with
      | none =>
          cases changed
      | some index =>
          obtain ⟨key, _, popping⟩ := PyResult.bind_eq_ok.mp changed
          split at popping
          · cases popping
            exact ⟨rfl, fun child holds => .inl (mem_eraseKey holds)⟩
          · cases popping
  | none | bool | int | float | str | tuple | obj =>
      cases changed

omit [PyFloat F] in
theorem keeps_insert
    {index : Value F}
    (changed : object.insert index item = .ok after) :
    Keeps (· = item) object after := by
  cases object with
  | list id items =>
      obtain ⟨place, _, built⟩ := PyResult.bind_eq_ok.mp changed
      cases built
      exact ⟨rfl, fun child holds => mem_insertItemAt holds⟩
  | none | bool | int | float | str | tuple | dict | obj =>
      cases changed

theorem mem_removeFirst
    {item : Value F}
    {items others : List (PyObject F)}
    {child : PyObject F}
    (removed : removeFirst item items = .ok others)
    (member : child ∈ others) :
    child ∈ items := by
  induction items generalizing others with
  | nil =>
      cases removed
  | cons first rest inductionHypothesis =>
      simp only [removeFirst] at removed
      split at removed
      · cases removed
        exact List.mem_cons_of_mem _ member
      · obtain ⟨kept, removedRest, built⟩ := PyResult.bind_eq_ok.mp removed
        cases built
        rcases List.mem_cons.mp member with isFirst | inKept
        · exact List.mem_cons.mpr (.inl isFirst)
        · exact List.mem_cons_of_mem _ (inductionHypothesis removedRest inKept)

theorem keeps_remove
    {item : Value F}
    (changed : object.remove item = .ok after) :
    Keeps given object after := by
  cases object with
  | list id items =>
      obtain ⟨others, removed, built⟩ := PyResult.bind_eq_ok.mp changed
      cases built
      exact ⟨rfl, fun child holds => .inl (mem_removeFirst removed holds)⟩
  | none | bool | int | float | str | tuple | dict | obj =>
      cases changed

omit [PyFloat F] in
theorem keeps_clear
    (changed : object.clear = .ok after) :
    Keeps given object after := by
  cases object with
  | list id items =>
      cases changed
      exact ⟨rfl, nofun⟩
  | dict id entries =>
      cases changed
      exact ⟨rfl, nofun⟩
  | none | bool | int | float | str | tuple | obj =>
      cases changed

end Keeps

end PyObject

end TensorPC
