import TensorPC.Py.Container
import Mathlib.Data.List.Nodup
import Mathlib.Data.List.Pairwise

namespace TensorPC

/-!
# Values with identities

A value whose lists, tuples, dictionaries and dataclass objects carry the number
that `id` returns.  A method that changes an object in place keeps its number, and
puts objects where they are without copying them.
-/

/-- What `id` returns. -/
abbrev ObjId := Nat

/-- A Python value with the identities of its containers. -/
inductive PyObject (F : Type) where
  | none
  | bool (value : Bool)
  | int (value : Int)
  | float (value : F)
  | str (value : String)
  | list (id : ObjId) (items : List (PyObject F))
  | tuple (id : ObjId) (items : List (PyObject F))
  | dict (id : ObjId) (entries : List (Key F × PyObject F))
  | obj
      (id : ObjId)
      (cls : String)
      (fields : List (String × PyObject F))
      (extras : List (String × PyObject F))

variable {F : Type}

namespace PyObject

/-! ## Values and identities -/

mutual

/-- The value without identities. -/
def toValue : PyObject F → Value F
  | none => .none
  | bool value => .bool value
  | int value => .int value
  | float value => .float value
  | str value => .str value
  | list _ items => .list (toValueList items)
  | tuple _ items => .tuple (toValueList items)
  | dict _ entries => .dict (toValueEntries entries)
  | obj _ cls fields extras =>
      .obj cls (toValueFields fields) (toValueFields extras)

/-- The values of items. -/
def toValueList : List (PyObject F) → List (Value F)
  | [] => []
  | item :: rest => item.toValue :: toValueList rest

/-- The values of the entries of a dictionary. -/
def toValueEntries : List (Key F × PyObject F) → List (Key F × Value F)
  | [] => []
  | (key, value) :: rest => (key, value.toValue) :: toValueEntries rest

/-- The values of attributes. -/
def toValueFields : List (String × PyObject F) → List (String × Value F)
  | [] => []
  | (name, value) :: rest => (name, value.toValue) :: toValueFields rest

end

/-- The identity of a container. -/
def id? : PyObject F → Option ObjId
  | list id _ => some id
  | tuple id _ => some id
  | dict id _ => some id
  | obj id _ _ _ => some id
  | _ => Option.none

/-- The objects that a container holds. -/
def children : PyObject F → List (PyObject F)
  | list _ items => items
  | tuple _ items => items
  | dict _ entries => entries.map Prod.snd
  | obj _ _ fields extras => fields.map Prod.snd ++ extras.map Prod.snd
  | _ => []

mutual

/-- The identities of a value and of all that it holds. -/
def ids : PyObject F → List ObjId
  | list id items => id :: idsList items
  | tuple id items => id :: idsList items
  | dict id entries => id :: idsEntries entries
  | obj id _ fields extras => id :: (idsFields fields ++ idsFields extras)
  | _ => []

/-- The identities in items. -/
def idsList : List (PyObject F) → List ObjId
  | [] => []
  | item :: rest => item.ids ++ idsList rest

/-- The identities in the values of a dictionary. -/
def idsEntries : List (Key F × PyObject F) → List ObjId
  | [] => []
  | (_, value) :: rest => value.ids ++ idsEntries rest

/-- The identities in attributes. -/
def idsFields : List (String × PyObject F) → List ObjId
  | [] => []
  | (_, value) :: rest => value.ids ++ idsFields rest

end

theorem idsList_eq_flatMap (items : List (PyObject F)) :
    idsList items = items.flatMap ids := by
  induction items with
  | nil =>
      rfl
  | cons item rest inductionHypothesis =>
      rw [idsList, inductionHypothesis, List.flatMap_cons]

theorem idsEntries_eq_flatMap (entries : List (Key F × PyObject F)) :
    idsEntries entries = (entries.map Prod.snd).flatMap ids := by
  induction entries with
  | nil =>
      rfl
  | cons head rest inductionHypothesis =>
      rcases head with ⟨key, value⟩
      rw [idsEntries, inductionHypothesis, List.map_cons, List.flatMap_cons]

theorem idsFields_eq_flatMap (fields : List (String × PyObject F)) :
    idsFields fields = (fields.map Prod.snd).flatMap ids := by
  induction fields with
  | nil =>
      rfl
  | cons head rest inductionHypothesis =>
      rcases head with ⟨name, value⟩
      rw [idsFields, inductionHypothesis, List.map_cons, List.flatMap_cons]

theorem ids_eq (object : PyObject F) :
    object.ids = object.id?.toList ++ object.children.flatMap ids := by
  cases object with
  | list id items =>
      simp [ids, id?, children, idsList_eq_flatMap]
  | tuple id items =>
      simp [ids, id?, children, idsList_eq_flatMap]
  | dict id entries =>
      simp [ids, id?, children, idsEntries_eq_flatMap]
  | obj id cls fields extras =>
      simp [ids, id?, children, idsFields_eq_flatMap]
  | none | bool | int | float | str =>
      rfl

/-! ## Objects inside objects -/

/-- An object is another one or held by one inside it. -/
inductive Inside : PyObject F → PyObject F → Prop where
  | self (whole : PyObject F) : Inside whole whole
  | held
      {part child whole : PyObject F}
      (holds : child ∈ whole.children)
      (inside : Inside part child) :
      Inside part whole

namespace Inside

theorem trans
    {part middle whole : PyObject F}
    (first : Inside part middle)
    (second : Inside middle whole) :
    Inside part whole := by
  induction second with
  | self =>
      exact first
  | held holds _ inductionHypothesis =>
      exact .held holds inductionHypothesis

theorem ids_subset
    {part whole : PyObject F}
    (inside : Inside part whole) :
    part.ids ⊆ whole.ids := by
  induction inside with
  | self =>
      exact List.Subset.refl _
  | @held child whole holds _ inductionHypothesis =>
      intro id member
      rw [ids_eq whole]
      exact List.mem_append_right _
        (List.mem_flatMap.mpr ⟨child, holds, inductionHypothesis member⟩)

end Inside

theorem mem_ids_of_id?
    {object : PyObject F}
    {id : ObjId}
    (identified : object.id? = some id) :
    id ∈ object.ids := by
  rw [ids_eq, identified]
  exact List.mem_append_left _ (List.mem_singleton.mpr rfl)

theorem nodup_of_holds
    {child whole : PyObject F}
    (noAliasing : whole.ids.Nodup)
    (holds : child ∈ whole.children) :
    child.ids.Nodup := by
  rw [ids_eq] at noAliasing
  exact (List.nodup_flatMap.mp noAliasing.of_append_right).1 child holds

theorem notMem_ids_of_holds
    {child whole : PyObject F}
    {id : ObjId}
    (noAliasing : whole.ids.Nodup)
    (isWhole : whole.id? = some id)
    (holds : child ∈ whole.children) :
    id ∉ child.ids := by
  rw [ids_eq, isWhole] at noAliasing
  intro member
  exact (List.nodup_append.mp noAliasing).2.2 id (List.mem_singleton.mpr rfl) id
    (List.mem_flatMap.mpr ⟨child, holds, member⟩) rfl

theorem eq_of_holds
    {first second whole : PyObject F}
    {id : ObjId}
    (noAliasing : whole.ids.Nodup)
    (holdsFirst : first ∈ whole.children)
    (holdsSecond : second ∈ whole.children)
    (inFirst : id ∈ first.ids)
    (inSecond : id ∈ second.ids) :
    first = second := by
  rw [ids_eq] at noAliasing
  have apart := (List.nodup_flatMap.mp noAliasing.of_append_right).2
  have symmetric : Std.Symm (Function.onFun List.Disjoint (@ids F)) :=
    ⟨fun _ _ disjoint _ inSecond inFirst => disjoint inFirst inSecond⟩
  by_contra different
  exact apart.forall holdsFirst holdsSecond different inFirst inSecond

/-- Where no object sits at two places, an identity belongs to one object. -/
theorem eq_of_id?_eq
    {whole first second : PyObject F}
    {id : ObjId}
    (noAliasing : whole.ids.Nodup)
    (insideFirst : Inside first whole)
    (insideSecond : Inside second whole)
    (isFirst : first.id? = some id)
    (isSecond : second.id? = some id) :
    first = second := by
  induction insideFirst with
  | self =>
      cases insideSecond with
      | self =>
          rfl
      | held holds inside =>
          exact absurd (inside.ids_subset (mem_ids_of_id? isSecond))
            (notMem_ids_of_holds noAliasing isFirst holds)
  | @held child whole holds inside inductionHypothesis =>
      have inChild := inside.ids_subset (mem_ids_of_id? isFirst)
      cases insideSecond with
      | self =>
          exact absurd inChild (notMem_ids_of_holds noAliasing isSecond holds)
      | held holdsOther insideOther =>
          have same :=
            eq_of_holds noAliasing holds holdsOther inChild
              (insideOther.ids_subset (mem_ids_of_id? isSecond))
          subst same
          exact inductionHypothesis (nodup_of_holds noAliasing holds) insideOther

/-! ## New objects -/

mutual

/-- A new object for a value, and the next identity that is not taken. -/
def ofValue (next : ObjId) : Value F → PyObject F × ObjId
  | .none => (none, next)
  | .bool value => (bool value, next)
  | .int value => (int value, next)
  | .float value => (float value, next)
  | .str value => (str value, next)
  | .list items =>
      let (items, after) := ofValueList (next + 1) items
      (list next items, after)
  | .tuple items =>
      let (items, after) := ofValueList (next + 1) items
      (tuple next items, after)
  | .dict entries =>
      let (entries, after) := ofValueEntries (next + 1) entries
      (dict next entries, after)
  | .obj cls fields extras =>
      let (fields, middle) := ofValueFields (next + 1) fields
      let (extras, after) := ofValueFields middle extras
      (obj next cls fields extras, after)

/-- New objects for items. -/
def ofValueList (next : ObjId) : List (Value F) → List (PyObject F) × ObjId
  | [] => ([], next)
  | item :: rest =>
      let (item, middle) := ofValue next item
      let (rest, after) := ofValueList middle rest
      (item :: rest, after)

/-- New objects for the values of a dictionary. -/
def ofValueEntries
    (next : ObjId) :
    List (Key F × Value F) → List (Key F × PyObject F) × ObjId
  | [] => ([], next)
  | (key, value) :: rest =>
      let (value, middle) := ofValue next value
      let (rest, after) := ofValueEntries middle rest
      ((key, value) :: rest, after)

/-- New objects for attributes. -/
def ofValueFields
    (next : ObjId) :
    List (String × Value F) → List (String × PyObject F) × ObjId
  | [] => ([], next)
  | (name, value) :: rest =>
      let (value, middle) := ofValue next value
      let (rest, after) := ofValueFields middle rest
      ((name, value) :: rest, after)

end

/-- The identities of an object are not taken before some number. -/
def IsNew (next : ObjId) (object : PyObject F) : Prop :=
  ∀ id ∈ object.ids, next ≤ id

mutual

/-- A new object takes identities that were not taken. -/
theorem isNew_ofValue :
    ∀ (next : ObjId) (value : Value F),
      next ≤ (ofValue next value).2 ∧ IsNew next (ofValue next value).1
  | _, .none => ⟨Nat.le_refl _, nofun⟩
  | _, .bool _ => ⟨Nat.le_refl _, nofun⟩
  | _, .int _ => ⟨Nat.le_refl _, nofun⟩
  | _, .float _ => ⟨Nat.le_refl _, nofun⟩
  | _, .str _ => ⟨Nat.le_refl _, nofun⟩
  | next, .list items => by
      obtain ⟨grows, held⟩ := isNew_ofValueList (next + 1) items
      refine ⟨Nat.le_of_succ_le grows, fun id member => ?_⟩
      rcases List.mem_cons.mp member with isOwn | inItems
      · exact Nat.le_of_eq isOwn.symm
      · exact Nat.le_of_succ_le (held id inItems)
  | next, .tuple items => by
      obtain ⟨grows, held⟩ := isNew_ofValueList (next + 1) items
      refine ⟨Nat.le_of_succ_le grows, fun id member => ?_⟩
      rcases List.mem_cons.mp member with isOwn | inItems
      · exact Nat.le_of_eq isOwn.symm
      · exact Nat.le_of_succ_le (held id inItems)
  | next, .dict entries => by
      obtain ⟨grows, held⟩ := isNew_ofValueEntries (next + 1) entries
      refine ⟨Nat.le_of_succ_le grows, fun id member => ?_⟩
      rcases List.mem_cons.mp member with isOwn | inEntries
      · exact Nat.le_of_eq isOwn.symm
      · exact Nat.le_of_succ_le (held id inEntries)
  | next, .obj cls fields extras => by
      obtain ⟨grows, heldFields⟩ := isNew_ofValueFields (next + 1) fields
      obtain ⟨growsMore, heldExtras⟩ :=
        isNew_ofValueFields (ofValueFields (next + 1) fields).2 extras
      have after := Nat.le_trans grows growsMore
      refine ⟨Nat.le_of_succ_le after, fun id member => ?_⟩
      rcases List.mem_cons.mp member with isOwn | inAttributes
      · exact Nat.le_of_eq isOwn.symm
      · rcases List.mem_append.mp inAttributes with inFields | inExtras
        · exact Nat.le_of_succ_le (heldFields id inFields)
        · exact Nat.le_of_succ_le (Nat.le_trans grows (heldExtras id inExtras))

theorem isNew_ofValueList :
    ∀ (next : ObjId) (items : List (Value F)),
      next ≤ (ofValueList next items).2 ∧
        ∀ id ∈ idsList (ofValueList next items).1, next ≤ id
  | _, [] => ⟨Nat.le_refl _, nofun⟩
  | next, item :: rest => by
      obtain ⟨grows, held⟩ := isNew_ofValue next item
      obtain ⟨growsMore, heldRest⟩ := isNew_ofValueList (ofValue next item).2 rest
      refine ⟨Nat.le_trans grows growsMore, fun id member => ?_⟩
      rcases List.mem_append.mp member with inItem | inRest
      · exact held id inItem
      · exact Nat.le_trans grows (heldRest id inRest)

theorem isNew_ofValueEntries :
    ∀ (next : ObjId) (entries : List (Key F × Value F)),
      next ≤ (ofValueEntries next entries).2 ∧
        ∀ id ∈ idsEntries (ofValueEntries next entries).1, next ≤ id
  | _, [] => ⟨Nat.le_refl _, nofun⟩
  | next, (_, value) :: rest => by
      obtain ⟨grows, held⟩ := isNew_ofValue next value
      obtain ⟨growsMore, heldRest⟩ :=
        isNew_ofValueEntries (ofValue next value).2 rest
      refine ⟨Nat.le_trans grows growsMore, fun id member => ?_⟩
      rcases List.mem_append.mp member with inValue | inRest
      · exact held id inValue
      · exact Nat.le_trans grows (heldRest id inRest)

theorem isNew_ofValueFields :
    ∀ (next : ObjId) (fields : List (String × Value F)),
      next ≤ (ofValueFields next fields).2 ∧
        ∀ id ∈ idsFields (ofValueFields next fields).1, next ≤ id
  | _, [] => ⟨Nat.le_refl _, nofun⟩
  | next, (_, value) :: rest => by
      obtain ⟨grows, held⟩ := isNew_ofValue next value
      obtain ⟨growsMore, heldRest⟩ :=
        isNew_ofValueFields (ofValue next value).2 rest
      refine ⟨Nat.le_trans grows growsMore, fun id member => ?_⟩
      rcases List.mem_append.mp member with inValue | inRest
      · exact held id inValue
      · exact Nat.le_trans grows (heldRest id inRest)

end

end PyObject

end TensorPC
