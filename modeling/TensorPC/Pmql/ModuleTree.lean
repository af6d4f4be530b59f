import TensorPC.Py.Dict

namespace TensorPC.Pmql

/-!
# Trees of modules

A query runs on dictionaries made from a torch module: five attributes under
reserved keys, and one entry for each child module.  Flattening such a
dictionary lists its values that are not dictionaries, and the modules without
children, each with the path of keys that leads to it.  Torch modules
themselves are of an arbitrary type.
-/

/-- `SpecialModuleType`. -/
inductive SpecialModuleType
  | normal
  | moduleList
  | moduleDict
  | sequential
  deriving DecidableEq, Repr

namespace SpecialModuleType

def value : SpecialModuleType → Int
  | normal => 0
  | moduleList => 1
  | moduleDict => 2
  | sequential => 3

/-- Whether `_convert_pth_module_to_pytree` numbers the children. -/
def isNumbered : SpecialModuleType → Bool
  | moduleList | sequential => true
  | normal | moduleDict => false

end SpecialModuleType

/-- A torch module: the object, what kind of module it is, the qualified name of its
type, and its named children. -/
inductive TorchModule (M : Type)
  | node
      (module : M)
      (type : SpecialModuleType)
      (typeQualname : String)
      (children : List (String × TorchModule M))

/-- The dictionary that a module is converted to. -/
inductive ModuleTree (M : Type)
  | node
      (fqn : String)
      (type : SpecialModuleType)
      (module : M)
      (typeQualname : String)
      (children : List (String × ModuleTree M))

variable {M : Type}

mutual

/-- `_convert_pth_module_to_pytree`. -/
def convertPthModuleToPytree : TorchModule M → String → ModuleTree M
  | .node module type typeQualname children, fqn =>
      .node fqn type module typeQualname (convertChildren type fqn 0 children)

def convertChildren :
    SpecialModuleType → String → Nat → List (String × TorchModule M) →
      List (String × ModuleTree M)
  | _, _, _, [] => []
  | type, fqn, index, (name, child) :: rest =>
      let key := if type.isNumbered then toString index else name
      (key, convertPthModuleToPytree child (if fqn.isEmpty then key else fqn ++ "." ++ key)) ::
        convertChildren type fqn (index + 1) rest

end

/-- A value under a reserved key. -/
inductive Attribute (M : Type)
  | text (value : String)
  | number (value : Int)
  | object (module : M)
  deriving DecidableEq, Repr

/-- A value of a module dictionary. -/
inductive Value (M : Type)
  | module (tree : ModuleTree M)
  | reserved (value : Attribute M)

namespace ModuleTree

def fqn : ModuleTree M → String
  | node fqn _ _ _ _ => fqn

def typeQualname : ModuleTree M → String
  | node _ _ _ typeQualname _ => typeQualname

def children : ModuleTree M → List (String × ModuleTree M)
  | node _ _ _ _ children => children

/-- The entries under the reserved keys; `__pth_child_cnt__` counts the children. -/
def attributes : ModuleTree M → List (String × Attribute M)
  | node fqn type module typeQualname children => [
      ("__fqn__", .text fqn),
      ("__type__", .number type.value),
      ("__pth_module__", .object module),
      ("__pth_child_cnt__", .number children.length),
      ("__type_qualname__", .text typeQualname)]

/-- The entries of the dictionary. -/
def entries (tree : ModuleTree M) : List (String × Value M) :=
  tree.attributes.map (fun entry => (entry.1, .reserved entry.2)) ++
    tree.children.map (fun entry => (entry.1, .module entry.2))

/-- `tree[key]`, or nothing without such a key. -/
def get? (tree : ModuleTree M) (key : String) : Option (Value M) :=
  tree.entries.lookup key

end ModuleTree

/-- `RESERVED_ATTRS`. -/
def reservedAttrs : List String :=
  ["__fqn__", "__type__", "__pth_module__", "__pth_child_cnt__", "__type_qualname__"]

/-- The children have different names, none of which is reserved. -/
inductive WellFormed : ModuleTree M → Prop
  | node
      {fqn : String}
      {type : SpecialModuleType}
      {module : M}
      {typeQualname : String}
      {children : List (String × ModuleTree M)}
      (distinct : (children.map Prod.fst).Nodup)
      (free : ∀ entry ∈ children, entry.1 ∉ reservedAttrs)
      (wellFormed : ∀ entry ∈ children, WellFormed entry.2) :
      WellFormed (.node fqn type module typeQualname children)

mutual

/-- `pytree.tree_flatten_with_path(tree, is_leaf=...)`: modules without children are leaves,
and so are the values that are not dictionaries. -/
def ModuleTree.flatten : ModuleTree M → List (List String × Value M)
  | .node fqn type module typeQualname children =>
      if children.length = 0 then
        [([], .module (.node fqn type module typeQualname children))]
      else
        (ModuleTree.node fqn type module typeQualname children).attributes.map
            (fun entry => ([entry.1], .reserved entry.2)) ++
          flattenChildren children

def flattenChildren : List (String × ModuleTree M) → List (List String × Value M)
  | [] => []
  | (key, child) :: rest =>
      child.flatten.map (fun leaf => (key :: leaf.1, leaf.2)) ++ flattenChildren rest

end

/-- Flattening any value: an attribute is a leaf at the empty path. -/
def Value.flatten : Value M → List (List String × Value M)
  | .module tree => tree.flatten
  | .reserved value => [([], .reserved value)]

/-- The keys and values along a path, as the engines look them up. -/
def followPath : Value M → List String → PyResult (List (String × Value M))
  | _, [] => .ok []
  | .reserved _, _ :: _ => .error (.typeError "not subscriptable")
  | .module tree, key :: path =>
      match tree.get? key with
      | none => .error (.keyError key)
      | some value => (followPath value path).map ((key, value) :: ·)

/-! ## Traces -/

/-- The modules passed on the way down from a module, with their names. -/
abbrev Trace (M : Type) := List (String × ModuleTree M)

/-- Where a trace from a module ends. -/
def endOf (tree : ModuleTree M) (trace : Trace M) : ModuleTree M :=
  (trace.getLast?.map Prod.snd).getD tree

@[simp] theorem endOf_nil (tree : ModuleTree M) : endOf tree [] = tree :=
  rfl

@[simp] theorem endOf_cons
    (tree : ModuleTree M)
    (entry : String × ModuleTree M)
    (trace : Trace M) :
    endOf tree (entry :: trace) = endOf entry.2 trace := by
  cases trace with
  | nil =>
      rfl
  | cons next rest =>
      simp [endOf, List.getLast?_cons]

theorem endOf_append
    (tree : ModuleTree M)
    (first second : Trace M) :
    endOf tree (first ++ second) = endOf (endOf tree first) second := by
  induction first generalizing tree with
  | nil =>
      rfl
  | cons entry rest inductionHypothesis =>
      simpa using inductionHypothesis entry.2

mutual

/-- The traces from a module to the modules below it that have no children. -/
def ModuleTree.leaves : ModuleTree M → List (Trace M)
  | .node _ _ _ _ children =>
      if children.length = 0 then [[]] else leavesOfChildren children

def leavesOfChildren : List (String × ModuleTree M) → List (Trace M)
  | [] => []
  | (key, child) :: rest =>
      child.leaves.map ((key, child) :: ·) ++ leavesOfChildren rest

end

theorem leavesOfChildren_eq (children : List (String × ModuleTree M)) :
    leavesOfChildren children =
      children.flatMap fun entry => entry.2.leaves.map (entry :: ·) := by
  induction children with
  | nil =>
      rfl
  | cons entry rest inductionHypothesis =>
      rw [leavesOfChildren, inductionHypothesis, List.flatMap_cons]

theorem leaves_eq (tree : ModuleTree M) :
    tree.leaves =
      if tree.children = [] then [[]]
      else tree.children.flatMap fun entry => entry.2.leaves.map (entry :: ·) := by
  cases tree with
  | node fqn type module typeQualname children =>
      cases children with
      | nil =>
          rfl
      | cons entry rest =>
          simp [ModuleTree.leaves, ModuleTree.children, leavesOfChildren_eq]

/-- The module that a value is. -/
def Value.module? : Value M → Option (ModuleTree M)
  | .module tree => some tree
  | .reserved _ => none

mutual

theorem modules_flatten (tree : ModuleTree M) :
    tree.flatten.filterMap (fun leaf => leaf.2.module?.map (leaf.1, ·)) =
      tree.leaves.map fun trace => (trace.map Prod.fst, endOf tree trace) := by
  cases tree with
  | node fqn type module typeQualname children =>
      have below :=
        modules_flattenChildren (.node fqn type module typeQualname children) children
      unfold ModuleTree.flatten ModuleTree.leaves
      split
      · rfl
      · rw [List.filterMap_append, below]
        rfl

theorem modules_flattenChildren
    (tree : ModuleTree M)
    (children : List (String × ModuleTree M)) :
    (flattenChildren children).filterMap (fun leaf => leaf.2.module?.map (leaf.1, ·)) =
      (leavesOfChildren children).map fun trace =>
        (trace.map Prod.fst, endOf tree trace) := by
  cases children with
  | nil =>
      rfl
  | cons entry rest =>
      obtain ⟨key, child⟩ := entry
      have ofChild := congrArg (List.map fun leaf => (key :: leaf.1, leaf.2))
        (modules_flatten child)
      unfold flattenChildren leavesOfChildren
      rw [List.filterMap_append, List.map_append, modules_flattenChildren tree rest]
      refine congrArg (· ++ _) ?_
      rw [List.map_filterMap, List.map_map] at ofChild
      rw [List.filterMap_map, List.map_map]
      simpa [Function.comp_def, Option.map_map] using ofChild

end

/-! ## Looking up children -/

theorem keys_attributes (tree : ModuleTree M) :
    tree.attributes.map Prod.fst = reservedAttrs := by
  cases tree
  rfl

theorem lookup_mapValues
    {α β : Type}
    (f : α → β)
    (entries : List (String × α))
    (key : String) :
    (entries.map fun entry => (entry.1, f entry.2)).lookup key =
      (entries.lookup key).map f := by
  induction entries with
  | nil =>
      rfl
  | cons entry rest inductionHypothesis =>
      obtain ⟨name, value⟩ := entry
      simp only [List.map_cons, List.lookup_cons, inductionHypothesis]
      split <;> rfl

theorem get?_of_free
    {tree : ModuleTree M}
    {key : String}
    (free : key ∉ reservedAttrs) :
    tree.get? key = (tree.children.lookup key).map .module := by
  have noAttribute : tree.attributes.lookup key = none := by
    rw [← keys_attributes tree] at free
    exact Dict.lookup_eq_none_of_notMem free
  unfold ModuleTree.get? ModuleTree.entries
  rw [List.lookup_append, lookup_mapValues, lookup_mapValues, noAttribute]
  rfl

theorem get?_of_reserved
    (tree : ModuleTree M)
    {key : String}
    (reserved : key ∈ reservedAttrs) :
    ∃ value, tree.get? key = some (.reserved value) := by
  rw [← keys_attributes tree] at reserved
  have found : tree.attributes.lookup key ≠ none := by
    intro missing
    obtain ⟨entry, member, rfl⟩ := List.mem_map.mp reserved
    have differs := List.lookup_eq_none_iff.mp missing entry member
    simp at differs
  obtain ⟨value, found⟩ := Option.ne_none_iff_exists'.mp found
  refine ⟨value, ?_⟩
  unfold ModuleTree.get? ModuleTree.entries
  rw [List.lookup_append, lookup_mapValues, found]
  rfl

theorem WellFormed.distinctNames
    {tree : ModuleTree M}
    (wellFormed : WellFormed tree) :
    (tree.children.map Prod.fst).Nodup := by
  cases wellFormed
  assumption

theorem WellFormed.freeName
    {tree : ModuleTree M}
    {entry : String × ModuleTree M}
    (wellFormed : WellFormed tree)
    (member : entry ∈ tree.children) :
    entry.1 ∉ reservedAttrs := by
  cases wellFormed with
  | node _ free _ =>
      exact free entry member

theorem WellFormed.child
    {tree : ModuleTree M}
    {entry : String × ModuleTree M}
    (wellFormed : WellFormed tree)
    (member : entry ∈ tree.children) :
    WellFormed entry.2 := by
  cases wellFormed with
  | node _ _ children =>
      exact children entry member

theorem get?_of_mem
    {tree : ModuleTree M}
    {entry : String × ModuleTree M}
    (wellFormed : WellFormed tree)
    (member : entry ∈ tree.children) :
    tree.get? entry.1 = some (.module entry.2) := by
  rw [get?_of_free (wellFormed.freeName member),
    (Dict.lookup_eq_some_iff wellFormed.distinctNames).mpr member]
  rfl

/-- Following the keys of a trace to a leaf gives the trace. -/
theorem followPath_of_mem_leaves
    {tree : ModuleTree M}
    {trace : Trace M}
    (wellFormed : WellFormed tree)
    (member : trace ∈ tree.leaves) :
    followPath (.module tree) (trace.map Prod.fst) =
      .ok (trace.map fun entry => (entry.1, .module entry.2)) := by
  induction trace generalizing tree with
  | nil =>
      rfl
  | cons entry rest inductionHypothesis =>
      rw [leaves_eq] at member
      split at member
      · simp at member
      obtain ⟨child, isChild, below⟩ := List.mem_flatMap.mp member
      obtain ⟨trace, isLeaf, same⟩ := List.mem_map.mp below
      obtain ⟨rfl, rfl⟩ := List.cons.inj same
      have found := get?_of_mem wellFormed isChild
      have followed := inductionHypothesis (wellFormed.child isChild) isLeaf
      simp only [List.map_cons, followPath, found, followed]
      rfl

/-! ## Converted modules -/

/-- Children that are not numbered have different names, none of which is reserved. -/
inductive WellNamed : TorchModule M → Prop
  | node
      {module : M}
      {type : SpecialModuleType}
      {typeQualname : String}
      {children : List (String × TorchModule M)}
      (distinct : type.isNumbered = false → (children.map Prod.fst).Nodup)
      (free : type.isNumbered = false → ∀ entry ∈ children, entry.1 ∉ reservedAttrs)
      (wellNamed : ∀ entry ∈ children, WellNamed entry.2) :
      WellNamed (.node module type typeQualname children)

theorem keys_convertChildren
    (type : SpecialModuleType)
    (fqn : String)
    (index : Nat)
    (children : List (String × TorchModule M)) :
    (convertChildren type fqn index children).map Prod.fst =
      if type.isNumbered then
        (List.range' index children.length).map fun number => toString number
      else
        children.map Prod.fst := by
  induction children generalizing index with
  | nil =>
      simp [convertChildren]
  | cons entry rest inductionHypothesis =>
      simp only [convertChildren, List.map_cons, inductionHypothesis, List.length_cons,
        List.range'_succ]
      split <;> rfl

theorem toString_notMem_reservedAttrs (number : Nat) :
    toString number ∉ reservedAttrs := by
  intro member
  have noDigit : ∀ key ∈ reservedAttrs, '_' ∈ key.toList := by
    decide
  have underscore := noDigit _ member
  rw [show (toString number).toList = Nat.toDigits 10 number by simp [toString]] at underscore
  exact Nat.underscore_not_in_toDigits underscore

theorem toString_injective
    {first second : Nat}
    (same : toString first = toString second) :
    first = second := by
  have digits := congrArg (fun text => Nat.ofDigitChars 10 text.toList 0) same
  simpa [toString] using digits

mutual

/-- What a module is converted to is well formed. -/
theorem wellFormed_convert
    (torch : TorchModule M)
    (fqn : String)
    (wellNamed : WellNamed torch) :
    WellFormed (convertPthModuleToPytree torch fqn) := by
  cases wellNamed with
  | @node module type typeQualname children distinct free wellNamed =>
      have keys := keys_convertChildren type fqn 0 children
      unfold convertPthModuleToPytree
      cases numbered : type.isNumbered with
      | true =>
          rw [if_pos numbered] at keys
          refine .node ?_ ?_ (wellFormed_convertChildren type fqn 0 children wellNamed)
          · rw [keys]
            exact (List.nodup_range' 1).map fun _ _ => toString_injective
          · intro entry member
            have isKey : entry.1 ∈ (convertChildren type fqn 0 children).map Prod.fst :=
              List.mem_map_of_mem member
            rw [keys] at isKey
            obtain ⟨number, _, same⟩ := List.mem_map.mp isKey
            rw [← same]
            exact toString_notMem_reservedAttrs number
      | false =>
          rw [if_neg (by simp [numbered])] at keys
          refine .node ?_ ?_ (wellFormed_convertChildren type fqn 0 children wellNamed)
          · rw [keys]
            exact distinct numbered
          · intro entry member
            have isKey : entry.1 ∈ (convertChildren type fqn 0 children).map Prod.fst :=
              List.mem_map_of_mem member
            rw [keys] at isKey
            obtain ⟨child, isChild, same⟩ := List.mem_map.mp isKey
            rw [← same]
            exact free numbered child isChild

theorem wellFormed_convertChildren
    (type : SpecialModuleType)
    (fqn : String)
    (index : Nat)
    (children : List (String × TorchModule M))
    (wellNamed : ∀ entry ∈ children, WellNamed entry.2) :
    ∀ entry ∈ convertChildren type fqn index children, WellFormed entry.2 := by
  cases children with
  | nil =>
      intro entry member
      simp [convertChildren] at member
  | cons first rest =>
      obtain ⟨name, child⟩ := first
      intro entry member
      simp only [convertChildren, List.mem_cons] at member
      rcases member with isFirst | inRest
      · subst isFirst
        exact wellFormed_convert child _ (wellNamed (name, child) List.mem_cons_self)
      · exact wellFormed_convertChildren type fqn (index + 1) rest
          (fun other later => wellNamed other (List.mem_cons_of_mem _ later)) entry inRest

end

end TensorPC.Pmql
