import Mathlib.Data.List.Perm.Basic
import Mathlib.Data.List.Count

namespace TensorPC.Dock

/-!
# Trees of user objects

A user object hands out its children; the search functions of the object tree
look for objects of a class among them.  Classes are compared by name, because
a reloaded module has new class objects under the old names.
-/

/-- A class name: `klass.__module__` and `klass.__qualname__`. -/
structure TypeName where
  module : String
  qualname : String
  deriving Repr, DecidableEq

/-- A class: its name, and the names of the other classes in its resolution order. -/
structure PyClass where
  name : TypeName
  parents : List TypeName
  deriving Repr, DecidableEq

/-- `get_qualname_of_type`. -/
def getQualnameOfType (name : TypeName) : String :=
  if name.module = "builtins" then
    name.qualname
  else
    name.module ++ "." ++ name.qualname

/-- `inspect.getmro(klass)`. -/
def PyClass.mro (klass : PyClass) : List TypeName :=
  klass.name :: klass.parents

/-- `get_mro_qualnames_of_type`. -/
def getMroQualnamesOfType (klass : PyClass) : List String :=
  klass.mro.map getQualnameOfType

/--
An object of the tree, and whether it is an instance of the searched node type.
Only such an object is asked for children, and a search starts at one; the names
of the children are not looked at.
-/
inductive UserObject where
  | leaf (identity : Nat) (klass : PyClass)
  | node (identity : Nat) (klass : PyClass) (childs : List UserObject)

/-- `type(v)`. -/
def UserObject.klass : UserObject → PyClass
  | leaf _ klass => klass
  | node _ klass _ => klass

/-- A validator of a search, if it has one. -/
abbrev Validator := Option (UserObject → Bool)

/-- `validator is None or validator(v)`. -/
def Validator.accepts (validator : Validator) (object : UserObject) : Bool :=
  match validator with
  | none => true
  | some accepts => accepts object

/-- `get_qualname_of_type(type(v)) in get_mro_qualnames_of_type(obj_type)`. -/
def isNamedByMro (objType : PyClass) (object : UserObject) : Bool :=
  (getMroQualnamesOfType objType).contains (getQualnameOfType object.klass.name)

/-- `_check_node`. -/
def checkNode (objType : PyClass) (validator : Validator) (node : UserObject) : Bool :=
  isNamedByMro objType node && validator.accepts node

mutual

/-- `find_tree_child_item_may_exist`: the children first, then below each of them. -/
def findTreeChildItemMayExist
    (objType : PyClass) :
    Validator → UserObject → Option UserObject
  | _, .leaf _ _ => none
  | validator, .node _ _ childs =>
      match childs.find? (checkNode objType validator) with
      | some found => some found
      | none => findInChilds objType childs

/-- The loop over `res_foreach`, which does not pass the validator on. -/
def findInChilds (objType : PyClass) : List UserObject → Option UserObject
  | [] => none
  | child :: rest =>
      match findTreeChildItemMayExist objType none child with
      | some found => some found
      | none => findInChilds objType rest

end

mutual

/-- `_get_tree_child_items_recursive`. -/
def getTreeChildItemsRecursive
    (objType : PyClass) :
    Validator → UserObject → List UserObject
  | _, .leaf _ _ => []
  | validator, .node _ _ childs => collectFromChilds objType validator childs

/-- The loop over the children: one named by the resolution order is not searched. -/
def collectFromChilds
    (objType : PyClass) :
    Validator → List UserObject → List UserObject
  | _, [] => []
  | validator, child :: rest =>
      (if isNamedByMro objType child then
        if validator.accepts child then [child] else []
      else
        getTreeChildItemsRecursive objType none child) ++
        collectFromChilds objType validator rest

end

/-- `get_tree_child_items`. -/
def getTreeChildItems
    (objType : PyClass)
    (validator : Validator)
    (root : UserObject) :
    List UserObject :=
  (if checkNode objType validator root then [root] else []) ++
    getTreeChildItemsRecursive objType validator root

/-!
# What the object tree searches find

A search is for the objects whose class is the searched one or a subclass of it
and which the validator accepts.  The code asks the opposite question, whether
the object's class is among the bases of the searched one, hands the validator
only to the first level, and, when it collects, does not look below a match.
-/

mutual

/-- The objects below an object, in the order of the tree. -/
def UserObject.descendants : UserObject → List UserObject
  | .leaf _ _ => []
  | .node _ _ childs => descendantsIn childs

/-- Objects with what lies below them. -/
def descendantsIn : List UserObject → List UserObject
  | [] => []
  | child :: rest => child :: (child.descendants ++ descendantsIn rest)

end

/-- The object's class is the searched one or a subclass of it, by name. -/
def isSubclassByName (objType : PyClass) (object : UserObject) : Bool :=
  (getMroQualnamesOfType object.klass).contains (getQualnameOfType objType.name)

/-- The objects a search is for. -/
def isWanted (objType : PyClass) (validator : Validator) (object : UserObject) : Bool :=
  isSubclassByName objType object && validator.accepts object

/-- The collected objects are the wanted ones of the tree, as often as they are in it. -/
def CollectsWanted (objType : PyClass) (validator : Validator) (root : UserObject) : Prop :=
  (getTreeChildItems objType validator root).Perm
    ((root :: root.descendants).filter (isWanted objType validator))

/-- The found object is a wanted one below the root; nothing is found only if there is none. -/
def FindsWanted (objType : PyClass) (validator : Validator) (root : UserObject) : Prop :=
  match findTreeChildItemMayExist objType validator root with
  | some found => found ∈ root.descendants ∧ isWanted objType validator found = true
  | none => ∀ object ∈ root.descendants, isWanted objType validator object = false

/-- An object with its place: on the first two levels or not, and whether it lies below an
object other than the root whose class is a base of the searched one. -/
structure Place where
  object : UserObject
  outer : Bool
  covered : Bool

mutual

/-- The places below an object. -/
def placesBelow (objType : PyClass) (outer covered : Bool) : UserObject → List Place
  | .leaf _ _ => []
  | .node _ _ childs => placesIn objType outer covered childs

/-- The places of objects and of what lies below them. -/
def placesIn (objType : PyClass) (outer covered : Bool) : List UserObject → List Place
  | [] => []
  | child :: rest =>
      ⟨child, outer, covered⟩ ::
        (placesBelow objType false (covered || isNamedByMro objType child) child ++
          placesIn objType outer covered rest)

end

/-- The places of a tree. -/
def places (objType : PyClass) (root : UserObject) : List Place :=
  ⟨root, true, false⟩ :: placesBelow objType true false root

/-- What the collecting search takes at a place. -/
def Place.taken (objType : PyClass) (validator : Validator) (place : Place) : Bool :=
  !place.covered && isNamedByMro objType place.object &&
    (!place.outer || validator.accepts place.object)

mutual

theorem map_object_placesBelow
    (objType : PyClass)
    (outer covered : Bool)
    (root : UserObject) :
    (placesBelow objType outer covered root).map Place.object = root.descendants := by
  cases root with
  | leaf identity klass =>
      rfl
  | node identity klass childs =>
      exact map_object_placesIn objType outer covered childs

theorem map_object_placesIn
    (objType : PyClass)
    (outer covered : Bool)
    (childs : List UserObject) :
    (placesIn objType outer covered childs).map Place.object = descendantsIn childs := by
  cases childs with
  | nil =>
      rfl
  | cons child rest =>
      simp only [placesIn, descendantsIn, List.map_cons, List.map_append,
        map_object_placesBelow, map_object_placesIn]

end

mutual

theorem filter_taken_placesBelow
    (objType : PyClass)
    (validator : Validator)
    (outer : Bool)
    (root : UserObject) :
    (placesBelow objType outer true root).filter (Place.taken objType validator) = [] := by
  cases root with
  | leaf identity klass =>
      rfl
  | node identity klass childs =>
      exact filter_taken_placesIn objType validator outer childs

theorem filter_taken_placesIn
    (objType : PyClass)
    (validator : Validator)
    (outer : Bool)
    (childs : List UserObject) :
    (placesIn objType outer true childs).filter (Place.taken objType validator) = [] := by
  cases childs with
  | nil =>
      rfl
  | cons child rest =>
      have notTaken : Place.taken objType validator ⟨child, outer, true⟩ = false := by
        simp [Place.taken]
      simp only [placesIn, List.filter_cons, notTaken, Bool.false_eq_true, if_false,
        List.filter_append, Bool.true_or, filter_taken_placesBelow, filter_taken_placesIn,
        List.append_nil]

end

/-- The validator as the recursion has it: only on the first two levels. -/
def Validator.at (validator : Validator) (outer : Bool) : Validator :=
  if outer then validator else none

theorem Validator.accepts_at
    (validator : Validator)
    (outer : Bool)
    (object : UserObject) :
    (validator.at outer).accepts object = (!outer || validator.accepts object) := by
  cases outer <;> simp [Validator.at, Validator.accepts]

mutual

theorem getTreeChildItemsRecursive_eq
    (objType : PyClass)
    (validator : Validator)
    (outer : Bool)
    (root : UserObject) :
    getTreeChildItemsRecursive objType (validator.at outer) root =
      ((placesBelow objType outer false root).filter
        (Place.taken objType validator)).map Place.object := by
  cases root with
  | leaf identity klass =>
      rfl
  | node identity klass childs =>
      exact collectFromChilds_eq objType validator outer childs

theorem collectFromChilds_eq
    (objType : PyClass)
    (validator : Validator)
    (outer : Bool)
    (childs : List UserObject) :
    collectFromChilds objType (validator.at outer) childs =
      ((placesIn objType outer false childs).filter
        (Place.taken objType validator)).map Place.object := by
  cases childs with
  | nil =>
      rfl
  | cons child rest =>
      have below := getTreeChildItemsRecursive_eq objType validator false child
      have others := collectFromChilds_eq objType validator outer rest
      simp only [collectFromChilds, placesIn, others, List.filter_cons, List.filter_append,
        Bool.false_or]
      cases named : isNamedByMro objType child with
      | true =>
          cases accepted : (validator.at outer).accepts child <;>
            rw [Validator.accepts_at] at accepted <;>
            simp [Place.taken, named, accepted, filter_taken_placesBelow]
      | false =>
          have inner : validator.at false = none := rfl
          rw [inner] at below
          simp [Place.taken, named, below]

end

theorem getTreeChildItems_eq
    (objType : PyClass)
    (validator : Validator)
    (root : UserObject) :
    getTreeChildItems objType validator root =
      ((places objType root).filter (Place.taken objType validator)).map Place.object := by
  have below := getTreeChildItemsRecursive_eq objType validator true root
  have whole : validator.at true = validator := rfl
  rw [whole] at below
  have atRoot :
      Place.taken objType validator ⟨root, true, false⟩ = checkNode objType validator root := by
    simp [Place.taken, checkNode]
  rw [getTreeChildItems, places, below, List.filter_cons, atRoot]
  cases checkNode objType validator root <;> simp

/-- Selecting items before and after a map agrees when the selections do. -/
theorem perm_filter_map_iff
    {f : α → β}
    {take : α → Bool}
    {want : β → Bool}
    {items : List α} :
    ((items.filter take).map f).Perm ((items.map f).filter want) ↔
      ∀ item ∈ items, take item = want (f item) := by
  rw [List.filter_map]
  constructor
  · intro agree item member
    have takenWanted : ∀ other, other ∈ items → take other = true → want (f other) = true := by
      intro other listed isTaken
      have collected := agree.subset
        (List.mem_map_of_mem (List.mem_filter.mpr ⟨listed, isTaken⟩))
      obtain ⟨same, selected, equal⟩ := List.mem_map.mp collected
      have isWanted := (List.mem_filter.mp selected).2
      rwa [← equal]
    have sublist : (items.filter take).Sublist (items.filter (want ∘ f)) := by
      have narrowed : (items.filter (want ∘ f)).filter take = items.filter take := by
        rw [List.filter_filter]
        refine List.filter_congr fun other listed => ?_
        cases isTaken : take other with
        | false => rfl
        | true => simpa using takenWanted other listed isTaken
      rw [← narrowed]
      exact List.filter_sublist
    have same : items.filter take = items.filter (want ∘ f) :=
      sublist.eq_of_length (by simpa using agree.length_eq)
    have selected : item ∈ items.filter take ↔ item ∈ items.filter (want ∘ f) := by
      rw [same]
    rw [List.mem_filter, List.mem_filter] at selected
    rw [Bool.eq_iff_iff]
    simpa [member] using selected
  · intro agree
    have same : items.filter take = items.filter (want ∘ f) :=
      List.filter_congr agree
    rw [same]

/-- What the collecting search needs of a tree. -/
structure CollectsRight
    (objType : PyClass)
    (validator : Validator)
    (root : UserObject) : Prop where
  notCovered :
    ∀ place ∈ places objType root,
      place.covered = true → isWanted objType validator place.object = false
  named :
    ∀ place ∈ places objType root,
      isWanted objType validator place.object = true → isNamedByMro objType place.object = true
  wanted :
    ∀ place ∈ places objType root,
      place.covered = false →
      isNamedByMro objType place.object = true →
      (place.outer = true → validator.accepts place.object = true) →
      isWanted objType validator place.object = true

/-- The collecting search is complete exactly on these trees. -/
theorem collectsWanted_iff
    (objType : PyClass)
    (validator : Validator)
    (root : UserObject) :
    CollectsWanted objType validator root ↔ CollectsRight objType validator root := by
  have listed : (places objType root).map Place.object = root :: root.descendants := by
    rw [places, List.map_cons, map_object_placesBelow]
  rw [CollectsWanted, getTreeChildItems_eq, ← listed, perm_filter_map_iff]
  constructor
  · intro agree
    refine ⟨fun place member covered => ?_, fun place member wanted => ?_,
      fun place member notCovered named accepted => ?_⟩
    · rw [← agree place member]
      simp [Place.taken, covered]
    · have taken := (agree place member).trans wanted
      simp only [Place.taken, Bool.and_eq_true] at taken
      exact taken.1.2
    · rw [← agree place member]
      simp only [Place.taken, notCovered, named, Bool.not_false, Bool.true_and]
      cases outer : place.outer with
      | false => rfl
      | true => simpa using accepted outer
  · intro right place member
    cases wanted : isWanted objType validator place.object with
    | true =>
        have notCovered : place.covered = false := by
          by_contra covered
          rw [right.notCovered place member (by simpa using covered)] at wanted
          cases wanted
        have accepted : validator.accepts place.object = true := by
          simp only [isWanted, Bool.and_eq_true] at wanted
          exact wanted.2
        simp [Place.taken, notCovered, accepted, right.named place member wanted]
    | false =>
        by_contra taken
        simp only [Place.taken, Bool.not_eq_false, Bool.and_eq_true, Bool.not_eq_true',
          Bool.or_eq_true] at taken
        obtain ⟨⟨notCovered, named⟩, outerOrAccepted⟩ := taken
        have accepted : place.outer = true → validator.accepts place.object = true := by
          intro outer
          simpa [outer] using outerOrAccepted
        rw [right.wanted place member notCovered named accepted] at wanted
        cases wanted

mutual

/-- The objects below an object in search order, with whether they are its children. -/
def searchBelow (outer : Bool) : UserObject → List (UserObject × Bool)
  | .leaf _ _ => []
  | .node _ _ childs => childs.map (·, outer) ++ searchIn childs

/-- What is searched after the children themselves. -/
def searchIn : List UserObject → List (UserObject × Bool)
  | [] => []
  | child :: rest => searchBelow false child ++ searchIn rest

end

/-- What the finding search asks of an object: the validator only for the children. -/
def stopsAt
    (objType : PyClass)
    (validator : Validator)
    (searched : UserObject × Bool) :
    Bool :=
  checkNode objType (validator.at searched.2) searched.1

mutual

theorem findTreeChildItemMayExist_eq
    (objType : PyClass)
    (validator : Validator)
    (outer : Bool)
    (root : UserObject) :
    findTreeChildItemMayExist objType (validator.at outer) root =
      ((searchBelow outer root).find? (stopsAt objType validator)).map Prod.fst := by
  cases root with
  | leaf identity klass =>
      rfl
  | node identity klass childs =>
      have later := findInChilds_eq objType validator childs
      have first :
          ((childs.map (·, outer)).find? (stopsAt objType validator)).map Prod.fst =
            childs.find? (checkNode objType (validator.at outer)) := by
        rw [List.find?_map, Option.map_map]
        exact Option.map_id'
      rw [findTreeChildItemMayExist, searchBelow, List.find?_append, Option.map_or, first,
        ← later]
      cases childs.find? (checkNode objType (validator.at outer)) <;> rfl

theorem findInChilds_eq
    (objType : PyClass)
    (validator : Validator)
    (childs : List UserObject) :
    findInChilds objType childs =
      ((searchIn childs).find? (stopsAt objType validator)).map Prod.fst := by
  cases childs with
  | nil =>
      rfl
  | cons child rest =>
      have here := findTreeChildItemMayExist_eq objType validator false child
      have later := findInChilds_eq objType validator rest
      have inner : validator.at false = none := rfl
      rw [inner] at here
      rw [findInChilds, searchIn, List.find?_append, Option.map_or, ← here, ← later]
      cases findTreeChildItemMayExist objType none child <;> rfl

end

mutual

theorem mem_searchBelow
    {outer : Bool}
    {object root : UserObject} :
    object ∈ (searchBelow outer root).map Prod.fst ↔ object ∈ root.descendants := by
  cases root with
  | leaf identity klass =>
      rfl
  | node identity klass childs =>
      have below :
          object ∈ childs ∨ object ∈ (searchIn childs).map Prod.fst ↔
            object ∈ descendantsIn childs :=
        mem_searchIn
      simpa [searchBelow, UserObject.descendants] using below

theorem mem_searchIn
    {object : UserObject}
    {childs : List UserObject} :
    object ∈ childs ∨ object ∈ (searchIn childs).map Prod.fst ↔
      object ∈ descendantsIn childs := by
  cases childs with
  | nil =>
      simp [searchIn, descendantsIn]
  | cons child rest =>
      have here :
          object ∈ (searchBelow false child).map Prod.fst ↔ object ∈ child.descendants :=
        mem_searchBelow
      have later :
          object ∈ rest ∨ object ∈ (searchIn rest).map Prod.fst ↔ object ∈ descendantsIn rest :=
        mem_searchIn
      simp only [searchIn, descendantsIn, List.map_append, List.mem_append, List.mem_cons,
        here, ← later]
      tauto

end

/-- What the finding search needs of a tree. -/
structure FindsRight
    (objType : PyClass)
    (validator : Validator)
    (root : UserObject) : Prop where
  firstWanted :
    ∀ earlier searched later,
      searchBelow true root = earlier ++ searched :: later →
      (∀ other ∈ earlier, stopsAt objType validator other = false) →
      stopsAt objType validator searched = true →
      isWanted objType validator searched.1 = true
  stops :
    (∀ searched ∈ searchBelow true root, stopsAt objType validator searched = false) →
    ∀ object ∈ root.descendants, isWanted objType validator object = false

/-- The finding search is complete exactly on these trees. -/
theorem findsWanted_iff
    (objType : PyClass)
    (validator : Validator)
    (root : UserObject) :
    FindsWanted objType validator root ↔ FindsRight objType validator root := by
  have returned := findTreeChildItemMayExist_eq objType validator true root
  have whole : validator.at true = validator := rfl
  rw [whole] at returned
  rw [FindsWanted, returned]
  cases stopped : (searchBelow true root).find? (stopsAt objType validator) with
  | none =>
      have nowhere := List.find?_eq_none.mp stopped
      simp only [Option.map_none]
      constructor
      · intro noneWanted
        refine ⟨fun earlier searched later split _ stops => ?_, fun _ => noneWanted⟩
        have listed : searched ∈ searchBelow true root := by
          rw [split]
          simp
        exact absurd stops (nowhere searched listed)
      · intro right
        exact right.stops fun searched listed => by simpa using nowhere searched listed
  | some searched =>
      obtain ⟨stops, earlier, later, split, before⟩ := List.find?_eq_some_iff_append.mp stopped
      have listed : searched ∈ searchBelow true root := by
        rw [split]
        simp
      have below : searched.1 ∈ root.descendants :=
        mem_searchBelow.mp (List.mem_map_of_mem listed)
      simp only [Option.map_some, below, true_and]
      constructor
      · intro wanted
        refine ⟨fun otherEarlier other otherLater otherSplit otherBefore otherStops => ?_,
          fun nowhere => ?_⟩
        · have same : some other = some searched := by
            rw [← stopped]
            exact (List.find?_eq_some_iff_append.mpr
              ⟨otherStops, otherEarlier, otherLater, otherSplit,
                fun place member => by simp [otherBefore place member]⟩).symm
          cases same
          exact wanted
        · rw [nowhere searched listed] at stops
          cases stops
      · intro right
        exact right.firstWanted earlier searched later split
          (fun other member => by simpa using before other member) stops

/-- Both searches are complete exactly when the tree, the class and the validator let them. -/
theorem searches_complete_iff
    (objType : PyClass)
    (validator : Validator)
    (root : UserObject) :
    CollectsWanted objType validator root ∧ FindsWanted objType validator root ↔
      CollectsRight objType validator root ∧ FindsRight objType validator root :=
  and_congr (collectsWanted_iff objType validator root) (findsWanted_iff objType validator root)

/-- A class of tree objects. -/
def groupClass : PyClass where
  name := ⟨"app", "Group"⟩
  parents := [⟨"tensorpc.dock.core.objtree", "UserObjTree"⟩, ⟨"builtins", "object"⟩]

/-- A class of its own. -/
def cameraClass : PyClass where
  name := ⟨"app", "Camera"⟩
  parents := [⟨"builtins", "object"⟩]

/-- A camera inside a group inside the root. -/
def sampleTree : UserObject :=
  .node 0 groupClass [.node 1 groupClass [.leaf 2 cameraClass]]

/-- A validator that accepts no object: the camera two levels down is returned all the same. -/
theorem not_searches_complete :
    ¬ ∀ objType validator root,
      CollectsWanted objType validator root ∧ FindsWanted objType validator root := by
  intro complete
  have right := (collectsWanted_iff _ _ _).mp
    (complete cameraClass (some fun _ => false) sampleTree).1
  have wanted := right.wanted ⟨.leaf 2 cameraClass, false, false⟩
    (by simp [places, placesBelow, placesIn, sampleTree, isNamedByMro, getMroQualnamesOfType,
      PyClass.mro, cameraClass, groupClass, getQualnameOfType, UserObject.klass])
    rfl (by decide) (by simp)
  revert wanted
  decide

end TensorPC.Dock
