import TensorPC.Py.Error
import TensorPC.Lib.RangeSearch
import Mathlib.Data.List.Sort
import Mathlib.Data.Prod.Lex

namespace TensorPC.Pfl

/-!
# Finding syntax nodes by source position

`PFLTreeNodeFinder` collects the nodes of some classes from a tree, sorts them
by their source ranges, and looks positions and lines up among them.  Here a
node is its class, its source range and its child nodes.
-/

open RangeSearch

/-- `SourceLocType`: lines and columns of a node, the end perhaps unknown. -/
structure SourceLoc where
  lineno : Int
  colOffset : Int
  endLineno : Option Int
  endColOffset : Option Int
  deriving DecidableEq

/-- A line and a column, compared as a tuple. -/
abbrev Position := Int ×ₗ Int

/-- A node of the tree with the nodes that `iter_child_nodes` yields. -/
inductive PFLAstNode (κ : Type) where
  | mk (cls : κ) (sourceLoc : SourceLoc) (children : List (PFLAstNode κ))

namespace PFLAstNode

variable {κ : Type}

def cls : PFLAstNode κ → κ
  | mk cls _ _ => cls

def sourceLoc : PFLAstNode κ → SourceLoc
  | mk _ sourceLoc _ => sourceLoc

def children : PFLAstNode κ → List (PFLAstNode κ)
  | mk _ _ children => children

/-- `get_range_start`. -/
def getRangeStart (node : PFLAstNode κ) : Position :=
  toLex (node.sourceLoc.lineno, node.sourceLoc.colOffset)

/-- `get_range_end`. -/
def getRangeEnd (node : PFLAstNode κ) : Option Position :=
  match node.sourceLoc.endLineno, node.sourceLoc.endColOffset with
  | some endLine, some endColumn => some (toLex (endLine, endColumn))
  | _, _ => none

mutual

/-- How many nodes a tree has. -/
def size : PFLAstNode κ → Nat
  | mk _ _ children => 1 + sizeIn children

/-- How many nodes some trees have. -/
def sizeIn : List (PFLAstNode κ) → Nat
  | [] => 0
  | node :: rest => node.size + sizeIn rest

end

/-- The loop of `walk`: nodes leave the queue in the order they entered it. -/
def walkFrom : Nat → List (PFLAstNode κ) → List (PFLAstNode κ)
  | 0, _ => []
  | _ + 1, [] => []
  | fuel + 1, node :: todo => node :: walkFrom fuel (todo ++ node.children)

/-- `walk`: one round of the loop for each node. -/
def walk (node : PFLAstNode κ) : List (PFLAstNode κ) :=
  walkFrom node.size [node]

end PFLAstNode

/-- `PFLTreeNodeFinder`: the requested nodes in order. -/
structure PFLTreeNodeFinder (κ : Type) where
  allNodes : List (PFLAstNode κ)

namespace PFLTreeNodeFinder

variable {κ : Type}

/-- `_sort_key`. -/
def sortKey (node : PFLAstNode κ) : Int ×ₗ Int ×ₗ Int ×ₗ Int :=
  toLex (node.sourceLoc.lineno, toLex (node.sourceLoc.colOffset,
    toLex (node.sourceLoc.endLineno.getD (-1), node.sourceLoc.endColOffset.getD (-1))))

/-- The requested nodes of a tree, sorted; nodes with one range stay in the order of `walk`. -/
def sortedNodes (requested : κ → Bool) (node : PFLAstNode κ) : List (PFLAstNode κ) :=
  (node.walk.filter fun child => requested child.cls).insertionSort
    fun first second => sortKey first ≤ sortKey second

/-- `PFLTreeNodeFinder.__init__`, which asks for the last node. -/
def make
    (requested : κ → Bool)
    (node : PFLAstNode κ) :
    PyResult (PFLTreeNodeFinder κ) :=
  match (sortedNodes requested node).getLast? with
  | some _ => .ok ⟨sortedNodes requested node⟩
  | none => .error .indexError

/-- `find_nearest_node_by_line_col`. -/
def findNearestNodeByLineCol
    (finder : PFLTreeNodeFinder κ)
    (lineno colOffset : Int) :
    Option (PFLAstNode κ) :=
  findNearest PFLAstNode.getRangeStart PFLAstNode.getRangeEnd PFLAstNode.getRangeEnd
    finder.allNodes (toLex (lineno, colOffset))

/-- `find_nearest_node_by_line`. -/
def findNearestNodeByLine
    (finder : PFLTreeNodeFinder κ)
    (lineno : Int) :
    Option (PFLAstNode κ) :=
  findNearest (fun node => node.sourceLoc.lineno) (fun node => node.sourceLoc.endLineno)
    (fun node => node.getRangeEnd.map fun position => (ofLex position).1)
    finder.allNodes lineno

end PFLTreeNodeFinder

/-!
# Which node a source position finds

The ranges of a syntax tree are nested, so among the requested nodes that
contain a position one is innermost.  The finder sees only the sorted list of
the requested nodes; it returns the innermost one where that one stands at the
place at which the lookup stops.
-/

namespace PFLAstNode

mutual

/-- A node and all nodes below it. -/
def subtree : PFLAstNode κ → List (PFLAstNode κ)
  | mk cls sourceLoc children => mk cls sourceLoc children :: subtrees children

/-- The nodes of some trees. -/
def subtrees : List (PFLAstNode κ) → List (PFLAstNode κ)
  | [] => []
  | node :: rest => node.subtree ++ subtrees rest

end

/-- The nodes below a node. -/
def descendants (node : PFLAstNode κ) : List (PFLAstNode κ) :=
  subtrees node.children

attribute [local simp] sizeIn subtrees

theorem subtree_eq (node : PFLAstNode κ) :
    node.subtree = node :: node.descendants := by
  cases node
  rfl

theorem size_eq (node : PFLAstNode κ) :
    node.size = 1 + sizeIn node.children := by
  cases node
  rfl

theorem sizeIn_append (first second : List (PFLAstNode κ)) :
    sizeIn (first ++ second) = sizeIn first + sizeIn second := by
  induction first with
  | nil => simp
  | cons node rest inductionHypothesis =>
      simp only [List.cons_append, sizeIn, inductionHypothesis]
      omega

theorem subtrees_append (first second : List (PFLAstNode κ)) :
    subtrees (first ++ second) = subtrees first ++ subtrees second := by
  induction first with
  | nil => rfl
  | cons node rest inductionHypothesis =>
      simp only [List.cons_append, subtrees, inductionHypothesis, List.append_assoc]

theorem mem_subtrees
    {node : PFLAstNode κ}
    {trees : List (PFLAstNode κ)} :
    node ∈ subtrees trees ↔ ∃ tree ∈ trees, node ∈ tree.subtree := by
  induction trees with
  | nil => simp
  | cons tree rest inductionHypothesis =>
      simp [inductionHypothesis]

/-- With a round for each node the loop yields the nodes of the queued trees. -/
theorem perm_walkFrom
    {fuel : Nat}
    {todo : List (PFLAstNode κ)}
    (enough : sizeIn todo ≤ fuel) :
    (walkFrom fuel todo).Perm (subtrees todo) := by
  induction fuel generalizing todo with
  | zero =>
      cases todo with
      | nil => exact .nil
      | cons node rest =>
          have positive := size_eq node
          simp only [sizeIn] at enough
          omega
  | succ fuel inductionHypothesis =>
      cases todo with
      | nil => exact .nil
      | cons node rest =>
          have fewer : sizeIn (rest ++ node.children) ≤ fuel := by
            have size := size_eq node
            rw [sizeIn_append]
            simp only [sizeIn] at enough
            omega
          have later := inductionHypothesis fewer
          rw [subtrees_append] at later
          rw [walkFrom, subtrees, subtree_eq, List.cons_append]
          exact (later.trans List.perm_append_comm).cons node

theorem mem_walk
    {node root : PFLAstNode κ} :
    node ∈ root.walk ↔ node ∈ root.subtree := by
  have perm : root.walk.Perm (subtrees [root]) := by
    refine perm_walkFrom ?_
    simp
  rw [perm.mem_iff]
  simp

/-- The end of a range that has one. -/
def last (node : PFLAstNode κ) : Position :=
  node.getRangeEnd.getD node.getRangeStart

/-- The node has a source range. -/
def Ranged (node : PFLAstNode κ) : Prop :=
  node.getRangeEnd = some node.last ∧ node.getRangeStart ≤ node.last

/-- Two ranges have no position in common. -/
def Apart (first second : PFLAstNode κ) : Prop :=
  first.last < second.getRangeStart ∨ second.last < first.getRangeStart

instance : Std.Symm (@Apart κ) :=
  ⟨fun _ _ => Or.symm⟩

/-- The range of the first node lies within that of the second. -/
def Within (inner outer : PFLAstNode κ) : Prop :=
  outer.getRangeStart ≤ inner.getRangeStart ∧ inner.last ≤ outer.last

/-- Every node has a range, children lie within their parents, siblings apart. -/
def Nested (root : PFLAstNode κ) : Prop :=
  ∀ node ∈ root.subtree,
    node.Ranged ∧ (∀ child ∈ node.children, child.Within node) ∧
      node.children.Pairwise Apart

/-- The range of the node contains a position. -/
def Contains (node : PFLAstNode κ) (position : Position) : Prop :=
  node.getRangeStart ≤ position ∧ position ≤ node.last

/-- The lines of the node include a line. -/
def Covers (node : PFLAstNode κ) (lineno : Int) : Prop :=
  node.sourceLoc.lineno ≤ lineno ∧ lineno ≤ (ofLex node.last).1

/-- Both nodes cover the same lines. -/
def SameLines (first second : PFLAstNode κ) : Prop :=
  first.sourceLoc.lineno = second.sourceLoc.lineno ∧
    (ofLex first.last).1 = (ofLex second.last).1

theorem size_lt_of_mem_children
    {child node : PFLAstNode κ}
    (member : child ∈ node.children) :
    child.size < node.size := by
  have bounded :
      ∀ trees : List (PFLAstNode κ), child ∈ trees → child.size ≤ sizeIn trees := by
    intro trees listed
    induction trees with
    | nil => cases listed
    | cons tree rest inductionHypothesis =>
        simp only [sizeIn]
        rcases List.mem_cons.mp listed with same | inRest
        · subst same
          omega
        · have bound := inductionHypothesis inRest
          omega
  have bound := bounded _ member
  rw [size_eq node]
  omega

theorem inductionOnChildren
    {holds : PFLAstNode κ → Prop}
    (step : ∀ node, (∀ child ∈ node.children, holds child) → holds node)
    (node : PFLAstNode κ) :
    holds node := by
  induction size : node.size using Nat.strong_induction_on generalizing node with
  | h bound inductionHypothesis =>
      refine step node fun child member => inductionHypothesis child.size ?_ child rfl
      rw [← size]
      exact size_lt_of_mem_children member

theorem mem_subtree_iff
    {node root : PFLAstNode κ} :
    node ∈ root.subtree ↔ node = root ∨ ∃ child ∈ root.children, node ∈ child.subtree := by
  rw [subtree_eq, List.mem_cons, descendants, mem_subtrees]

theorem mem_subtree_self (root : PFLAstNode κ) :
    root ∈ root.subtree :=
  mem_subtree_iff.mpr (.inl rfl)

theorem mem_subtree_trans
    {node middle : PFLAstNode κ}
    (inner : node ∈ middle.subtree)
    (root : PFLAstNode κ) :
    middle ∈ root.subtree → node ∈ root.subtree := by
  induction root using inductionOnChildren with
  | step root inductionHypothesis =>
      intro outer
      rcases mem_subtree_iff.mp outer with same | ⟨child, member, below⟩
      · rwa [← same]
      · exact mem_subtree_iff.mpr
          (.inr ⟨child, member, inductionHypothesis child member below⟩)

theorem Nested.of_mem_subtree
    {node root : PFLAstNode κ}
    (nested : root.Nested)
    (member : node ∈ root.subtree) :
    node.Nested :=
  fun inner below => nested inner (mem_subtree_trans below root member)

theorem Nested.within
    {node : PFLAstNode κ}
    (root : PFLAstNode κ) :
    root.Nested → node ∈ root.subtree → node.Within root := by
  induction root using inductionOnChildren with
  | step root inductionHypothesis =>
      intro nested member
      rcases mem_subtree_iff.mp member with same | ⟨child, isChild, below⟩
      · rw [same]
        exact ⟨le_rfl, le_rfl⟩
      · have childWithin := (nested root (mem_subtree_self root)).2.1 child isChild
        have childListed : child ∈ root.subtree :=
          mem_subtree_iff.mpr (.inr ⟨child, isChild, mem_subtree_self child⟩)
        have within := inductionHypothesis child isChild (nested.of_mem_subtree childListed) below
        exact ⟨childWithin.1.trans within.1, within.2.trans childWithin.2⟩

/-- Of two nodes that contain a position one lies in the tree of the other. -/
theorem Nested.comparable
    {first second : PFLAstNode κ}
    {position : Position}
    (firstContains : first.Contains position)
    (secondContains : second.Contains position)
    (root : PFLAstNode κ) :
    root.Nested → first ∈ root.subtree → second ∈ root.subtree →
      first ∈ second.subtree ∨ second ∈ first.subtree := by
  induction root using inductionOnChildren with
  | step root inductionHypothesis =>
      intro nested firstListed secondListed
      rcases mem_subtree_iff.mp firstListed with same | ⟨child, isChild, below⟩
      · rw [same]
        exact .inr secondListed
      · rcases mem_subtree_iff.mp secondListed with same | ⟨other, isOther, otherBelow⟩
        · rw [same]
          exact .inl firstListed
        · have listed : ∀ node ∈ root.children, node ∈ root.subtree := fun node member =>
            mem_subtree_iff.mpr (.inr ⟨node, member, mem_subtree_self node⟩)
          by_cases same : child = other
          · subst same
            exact inductionHypothesis child isChild
              (nested.of_mem_subtree (listed child isChild)) below otherBelow
          · have firstWithin := Nested.within child
              (nested.of_mem_subtree (listed child isChild)) below
            have secondWithin := Nested.within other
              (nested.of_mem_subtree (listed other isOther)) otherBelow
            have apart := (nested root (mem_subtree_self root)).2.2.forall isChild isOther same
            rcases apart with before | after
            · exact absurd (before.trans_le
                (secondWithin.1.trans (secondContains.1.trans
                  (firstContains.2.trans firstWithin.2)))) (lt_irrefl _)
            · exact absurd (after.trans_le
                (firstWithin.1.trans (firstContains.1.trans
                  (secondContains.2.trans secondWithin.2)))) (lt_irrefl _)

/-- The node contains the position, and no requested node below it does. -/
structure Innermost
    (requested : κ → Bool)
    (root : PFLAstNode κ)
    (position : Position)
    (node : PFLAstNode κ) : Prop where
  listed : node ∈ root.subtree
  isRequested : requested node.cls = true
  contains : node.Contains position
  noneBelow :
    ∀ below ∈ node.descendants, requested below.cls = true → ¬ below.Contains position

/-- There is at most one innermost node. -/
theorem Innermost.unique
    {requested : κ → Bool}
    {root first second : PFLAstNode κ}
    {position : Position}
    (nested : root.Nested)
    (isFirst : Innermost requested root position first)
    (isSecond : Innermost requested root position second) :
    first = second := by
  have below :
      ∀ {inner outer : PFLAstNode κ},
        Innermost requested root position inner →
        Innermost requested root position outer →
        inner ∈ outer.subtree →
        inner = outer := by
    intro inner outer isInner isOuter member
    rw [subtree_eq] at member
    rcases List.mem_cons.mp member with same | isBelow
    · exact same
    · exact absurd isInner.contains (isOuter.noneBelow inner isBelow isInner.isRequested)
  rcases Nested.comparable isFirst.contains isSecond.contains root nested isFirst.listed
    isSecond.listed with inSecond | inFirst
  · exact below isFirst isSecond inSecond
  · exact (below isSecond isFirst inFirst).symm

/-- Where a requested node contains a position, one of them is innermost. -/
theorem exists_innermost
    {requested : κ → Bool}
    {root node : PFLAstNode κ}
    {position : Position}
    (listed : node ∈ root.subtree)
    (isRequested : requested node.cls = true)
    (contains : node.Contains position) :
    ∃ inner, Innermost requested root position inner := by
  have search :
      ∀ tree : PFLAstNode κ, tree ∈ root.subtree →
        (∃ node ∈ tree.subtree, requested node.cls = true ∧ node.Contains position) →
        ∃ inner, Innermost requested root position inner := by
    intro tree
    induction tree using inductionOnChildren with
    | step tree inductionHypothesis =>
        rintro treeListed ⟨node, inTree, isRequested, contains⟩
        by_cases deeper :
            ∃ below ∈ tree.descendants, requested below.cls = true ∧ below.Contains position
        · obtain ⟨below, isBelow, further⟩ := deeper
          obtain ⟨child, isChild, inChild⟩ := mem_subtrees.mp isBelow
          have childListed : child ∈ root.subtree :=
            mem_subtree_trans (mem_subtree_iff.mpr (.inr ⟨child, isChild, mem_subtree_self child⟩))
              root treeListed
          exact inductionHypothesis child isChild childListed ⟨below, inChild, further⟩
        · push Not at deeper
          rw [subtree_eq] at inTree
          rcases List.mem_cons.mp inTree with same | isBelow
          · rw [same] at isRequested contains
            exact ⟨tree, treeListed, isRequested, contains, deeper⟩
          · exact absurd contains (deeper node isBelow isRequested)
  exact search node listed ⟨node, mem_subtree_self node, isRequested, contains⟩

/-- The node covers the line, and the requested nodes below it that do cover the same lines. -/
structure InnermostByLine
    (requested : κ → Bool)
    (root : PFLAstNode κ)
    (lineno : Int)
    (node : PFLAstNode κ) : Prop where
  listed : node ∈ root.subtree
  isRequested : requested node.cls = true
  covers : node.Covers lineno
  sameBelow :
    ∀ below ∈ node.descendants,
      requested below.cls = true → below.Covers lineno → below.SameLines node

end PFLAstNode

namespace PFLTreeNodeFinder

variable {κ : Type} {requested : κ → Bool} {root : PFLAstNode κ}

/-- The finder returns the innermost requested node, and none only if there is none. -/
def FindsByLineCol
    (requested : κ → Bool)
    (root : PFLAstNode κ)
    (lineno colOffset : Int) : Prop :=
  ∃ finder, make requested root = .ok finder ∧
    match finder.findNearestNodeByLineCol lineno colOffset with
    | some found => PFLAstNode.Innermost requested root (toLex (lineno, colOffset)) found
    | none =>
        ∀ node ∈ root.subtree,
          requested node.cls = true → ¬ node.Contains (toLex (lineno, colOffset))

/-- The same for a line, up to nodes covering the same lines. -/
def FindsByLine
    (requested : κ → Bool)
    (root : PFLAstNode κ)
    (lineno : Int) : Prop :=
  ∃ finder, make requested root = .ok finder ∧
    match finder.findNearestNodeByLine lineno with
    | some found => PFLAstNode.InnermostByLine requested root lineno found
    | none => ∀ node ∈ root.subtree, requested node.cls = true → ¬ node.Covers lineno

theorem mem_sortedNodes
    {node : PFLAstNode κ} :
    node ∈ sortedNodes requested root ↔ node ∈ root.subtree ∧ requested node.cls = true := by
  rw [sortedNodes, List.mem_insertionSort, List.mem_filter, PFLAstNode.mem_walk]

theorem pairwise_sortedNodes :
    (sortedNodes requested root).Pairwise fun first second =>
      sortKey first ≤ sortKey second :=
  List.pairwise_insertionSort _ _

theorem pairwise_getRangeStart :
    (sortedNodes requested root).Pairwise fun first second =>
      first.getRangeStart ≤ second.getRangeStart := by
  refine pairwise_sortedNodes.imp fun {first second} ordered => ?_
  simp only [sortKey, Prod.Lex.toLex_le_toLex] at ordered
  simp only [PFLAstNode.getRangeStart, Prod.Lex.toLex_le_toLex]
  rcases ordered with earlierLine | ⟨sameLine, earlierColumn | ⟨sameColumn, _⟩⟩
  · exact .inl earlierLine
  · exact .inr ⟨sameLine, earlierColumn.le⟩
  · exact .inr ⟨sameLine, sameColumn.le⟩

theorem pairwise_lineno :
    (sortedNodes requested root).Pairwise fun first second =>
      first.sourceLoc.lineno ≤ second.sourceLoc.lineno := by
  refine pairwise_sortedNodes.imp fun {first second} ordered => ?_
  simp only [sortKey, Prod.Lex.toLex_le_toLex] at ordered
  rcases ordered with earlierLine | ⟨sameLine, _⟩
  · exact earlierLine.le
  · exact sameLine.le

/-- A finder can be made when a node is requested. -/
theorem make_eq_ok_iff
    {finder : PFLTreeNodeFinder κ} :
    make requested root = .ok finder ↔
      finder = ⟨sortedNodes requested root⟩ ∧
        ∃ node ∈ root.subtree, requested node.cls = true := by
  have some_iff :
      (∃ node ∈ root.subtree, requested node.cls = true) ↔
        sortedNodes requested root ≠ [] := by
    constructor
    · rintro ⟨node, listed, isRequested⟩ empty
      have member := mem_sortedNodes.mpr ⟨listed, isRequested⟩
      rw [empty] at member
      cases member
    · intro nonempty
      obtain ⟨node, member⟩ := List.exists_mem_of_ne_nil _ nonempty
      exact ⟨node, mem_sortedNodes.mp member⟩
  rw [some_iff, make]
  cases isLast : (sortedNodes requested root).getLast? with
  | none =>
      simp [List.getLast?_eq_none_iff.mp isLast]
  | some node =>
      have nonempty : sortedNodes requested root ≠ [] := by
        intro empty
        rw [empty] at isLast
        cases isLast
      simp [nonempty, eq_comm]

section Ranged

variable (ranged : ∀ node ∈ root.subtree, node.Ranged)
include ranged

theorem lines_of_ranged
    {node : PFLAstNode κ}
    (listed : node ∈ root.subtree) :
    node.sourceLoc.endLineno = some (ofLex node.last).1 ∧
      node.sourceLoc.lineno ≤ (ofLex node.last).1 := by
  obtain ⟨ends, ordered⟩ := ranged node listed
  have endLine : node.sourceLoc.endLineno = some (ofLex node.last).1 := by
    generalize node.last = final at ends ⊢
    simp only [PFLAstNode.getRangeEnd] at ends
    split at ends
    · rename_i endLine endColumn isLine isColumn
      cases ends
      exact isLine
    · cases ends
  refine ⟨endLine, ?_⟩
  rcases Prod.Lex.le_iff.mp ordered with earlier | ⟨same, _⟩
  · exact earlier.le
  · exact same.le

theorem findNearestNodeByLineCol_eq_some_iff
    {lineno colOffset : Int}
    {found : PFLAstNode κ} :
    (PFLTreeNodeFinder.mk (sortedNodes requested root)).findNearestNodeByLineCol
        lineno colOffset = some found ↔
      ∃ earlier later,
        sortedNodes requested root = earlier ++ found :: later ∧
          StopsAt PFLAstNode.getRangeStart PFLAstNode.last (toLex (lineno, colOffset))
            earlier found later :=
  findNearest_eq_some_iff pairwise_getRangeStart
    (fun node member => (ranged node (mem_sortedNodes.mp member).1).2)
    (fun node member => (ranged node (mem_sortedNodes.mp member).1).1)
    (fun node member => (ranged node (mem_sortedNodes.mp member).1).1)

theorem findNearestNodeByLine_eq_some_iff
    {lineno : Int}
    {found : PFLAstNode κ} :
    (PFLTreeNodeFinder.mk (sortedNodes requested root)).findNearestNodeByLine lineno =
        some found ↔
      ∃ earlier later,
        sortedNodes requested root = earlier ++ found :: later ∧
          StopsAt (fun node => node.sourceLoc.lineno) (fun node => (ofLex node.last).1) lineno
            earlier found later := by
  refine findNearest_eq_some_iff pairwise_lineno
    (fun node member => (lines_of_ranged ranged (mem_sortedNodes.mp member).1).2)
    (fun node member => (lines_of_ranged ranged (mem_sortedNodes.mp member).1).1)
    (fun node member => ?_)
  rw [(ranged node (mem_sortedNodes.mp member).1).1]
  rfl

end Ranged

/-- The innermost node stands in the sorted list where the lookup of the position stops. -/
def PositionFits
    (requested : κ → Bool)
    (root : PFLAstNode κ)
    (position : Position) : Prop :=
  ∀ node,
    PFLAstNode.Innermost requested root position node →
    ∃ earlier later,
      sortedNodes requested root = earlier ++ node :: later ∧
        StopsAt PFLAstNode.getRangeStart PFLAstNode.last position earlier node later

/-- If the line is covered, the lookup of the line stops at a node that is innermost for it. -/
def LineFits
    (requested : κ → Bool)
    (root : PFLAstNode κ)
    (lineno : Int) : Prop :=
  (∃ node ∈ root.subtree, requested node.cls = true ∧ node.Covers lineno) →
    ∃ node earlier later,
      PFLAstNode.InnermostByLine requested root lineno node ∧
        sortedNodes requested root = earlier ++ node :: later ∧
          StopsAt (fun node => node.sourceLoc.lineno) (fun node => (ofLex node.last).1) lineno
            earlier node later

/-- A position is looked up right exactly when its innermost node stands at the right place. -/
theorem findsByLineCol_iff
    (nested : root.Nested)
    {lineno colOffset : Int} :
    FindsByLineCol requested root lineno colOffset ↔
      (∃ node ∈ root.subtree, requested node.cls = true) ∧
        PositionFits requested root (toLex (lineno, colOffset)) := by
  have ranged : ∀ node ∈ root.subtree, node.Ranged := fun node listed => (nested node listed).1
  constructor
  · rintro ⟨finder, made, right⟩
    obtain ⟨same, some⟩ := make_eq_ok_iff.mp made
    subst same
    refine ⟨some, fun node isInnermost => ?_⟩
    cases finds : (PFLTreeNodeFinder.mk (sortedNodes requested root)).findNearestNodeByLineCol
        lineno colOffset with
    | none =>
        simp only [finds] at right
        exact absurd isInnermost.contains
          (right node isInnermost.listed isInnermost.isRequested)
    | some found =>
        simp only [finds] at right
        rw [isInnermost.unique nested right]
        exact (findNearestNodeByLineCol_eq_some_iff ranged).mp finds
  · rintro ⟨some, fits⟩
    refine ⟨_, make_eq_ok_iff.mpr ⟨rfl, some⟩, ?_⟩
    have placed :
        ∀ node, PFLAstNode.Innermost requested root (toLex (lineno, colOffset)) node →
          (PFLTreeNodeFinder.mk (sortedNodes requested root)).findNearestNodeByLineCol
            lineno colOffset = Option.some node :=
      fun node isInnermost =>
        (findNearestNodeByLineCol_eq_some_iff ranged).mpr (fits node isInnermost)
    cases finds : (PFLTreeNodeFinder.mk (sortedNodes requested root)).findNearestNodeByLineCol
        lineno colOffset with
    | none =>
        intro node listed isRequested contains
        obtain ⟨inner, isInnermost⟩ :=
          PFLAstNode.exists_innermost listed isRequested contains
        rw [placed inner isInnermost] at finds
        cases finds
    | some found =>
        obtain ⟨earlier, later, split, stops⟩ :=
          (findNearestNodeByLineCol_eq_some_iff ranged).mp finds
        have member : found ∈ sortedNodes requested root := by simp [split]
        obtain ⟨listed, isRequested⟩ := mem_sortedNodes.mp member
        obtain ⟨inner, isInnermost⟩ := PFLAstNode.exists_innermost listed isRequested
          (stops.contains (ranged found listed).2)
        rw [placed inner isInnermost] at finds
        cases finds
        exact isInnermost

/-- A line is looked up right exactly when the lookup stops at an innermost node. -/
theorem findsByLine_iff
    (nested : root.Nested)
    {lineno : Int} :
    FindsByLine requested root lineno ↔
      (∃ node ∈ root.subtree, requested node.cls = true) ∧
        LineFits requested root lineno := by
  have ranged : ∀ node ∈ root.subtree, node.Ranged := fun node listed => (nested node listed).1
  constructor
  · rintro ⟨finder, made, right⟩
    obtain ⟨same, some⟩ := make_eq_ok_iff.mp made
    subst same
    refine ⟨some, fun ⟨node, listed, isRequested, covers⟩ => ?_⟩
    cases finds : (PFLTreeNodeFinder.mk (sortedNodes requested root)).findNearestNodeByLine
        lineno with
    | none =>
        simp only [finds] at right
        exact absurd covers (right node listed isRequested)
    | some found =>
        simp only [finds] at right
        obtain ⟨earlier, later, split, stops⟩ :=
          (findNearestNodeByLine_eq_some_iff ranged).mp finds
        exact ⟨found, earlier, later, right, split, stops⟩
  · rintro ⟨some, fits⟩
    refine ⟨_, make_eq_ok_iff.mpr ⟨rfl, some⟩, ?_⟩
    have placed :
        (∃ node ∈ root.subtree, requested node.cls = true ∧ node.Covers lineno) →
        ∃ node, PFLAstNode.InnermostByLine requested root lineno node ∧
          (PFLTreeNodeFinder.mk (sortedNodes requested root)).findNearestNodeByLine
            lineno = Option.some node := by
      intro covered
      obtain ⟨node, earlier, later, isInnermost, split, stops⟩ := fits covered
      exact ⟨node, isInnermost,
        (findNearestNodeByLine_eq_some_iff ranged).mpr ⟨earlier, later, split, stops⟩⟩
    cases finds : (PFLTreeNodeFinder.mk (sortedNodes requested root)).findNearestNodeByLine
        lineno with
    | none =>
        intro node listed isRequested covers
        obtain ⟨inner, _, found⟩ := placed ⟨node, listed, isRequested, covers⟩
        rw [found] at finds
        cases finds
    | some found =>
        obtain ⟨earlier, later, split, stops⟩ :=
          (findNearestNodeByLine_eq_some_iff ranged).mp finds
        have member : found ∈ sortedNodes requested root := by simp [split]
        obtain ⟨listed, isRequested⟩ := mem_sortedNodes.mp member
        obtain ⟨inner, isInnermost, same⟩ := placed ⟨found, listed, isRequested,
          stops.contains (lines_of_ranged ranged listed).2⟩
        rw [same] at finds
        cases finds
        exact isInnermost

/--
Both lookups return the innermost requested node exactly when some node is
requested and the innermost node stands where the lookup stops.
-/
theorem lookups_iff
    (nested : root.Nested)
    (lineno colOffset : Int) :
    (FindsByLineCol requested root lineno colOffset ↔
      (∃ node ∈ root.subtree, requested node.cls = true) ∧
        PositionFits requested root (toLex (lineno, colOffset))) ∧
    (FindsByLine requested root lineno ↔
      (∃ node ∈ root.subtree, requested node.cls = true) ∧
        LineFits requested root lineno) :=
  ⟨findsByLineCol_iff nested, findsByLine_iff nested⟩

/-- The tree of the expression `f(xy).z + g` on one line. -/
def sampleTree : PFLAstNode String :=
  .mk "PFLBinOp" ⟨1, 0, some 1, some 11⟩
    [.mk "PFLAttribute" ⟨1, 0, some 1, some 7⟩
      [.mk "PFLCall" ⟨1, 0, some 1, some 5⟩
        [.mk "PFLName" ⟨1, 0, some 1, some 1⟩ [], .mk "PFLName" ⟨1, 2, some 1, some 4⟩ []]],
      .mk "PFLName" ⟨1, 10, some 1, some 11⟩ []]

/-- The classes that the kernel manager asks for. -/
def sampleRequested (cls : String) : Bool :=
  cls = "PFLName" || cls = "PFLAttribute"

theorem nested_sampleTree :
    sampleTree.Nested := by
  intro node member
  simp only [sampleTree, PFLAstNode.subtree, PFLAstNode.subtrees, List.append_nil,
    List.cons_append, List.nil_append, List.mem_cons, List.not_mem_nil, or_false] at member
  rcases member with same | same | same | same | same | same <;> subst same
  all_goals
    refine ⟨⟨rfl, by decide +kernel⟩, ?_, ?_⟩
    · simp [PFLAstNode.children, PFLAstNode.Within]
      try decide +kernel
    · simp [PFLAstNode.children, PFLAstNode.Apart]
      try decide +kernel

/-- On the sample both lookups can be decided. -/
theorem lookups_iff_sample :
    (FindsByLineCol sampleRequested sampleTree 1 10 ↔
      (∃ node ∈ sampleTree.subtree, sampleRequested node.cls = true) ∧
        PositionFits sampleRequested sampleTree (toLex (1, 10))) ∧
    (FindsByLine sampleRequested sampleTree 1 ↔
      (∃ node ∈ sampleTree.subtree, sampleRequested node.cls = true) ∧
        LineFits sampleRequested sampleTree 1) :=
  lookups_iff nested_sampleTree 1 10

/-- Inside the argument `xy` the attribute around the call is returned. -/
theorem not_findsByLineCol :
    ¬ ∀ (requested : String → Bool) root, root.Nested →
      ∀ lineno colOffset,
        FindsByLineCol requested root lineno colOffset ∧ FindsByLine requested root lineno := by
  intro complete
  obtain ⟨finder, made, right⟩ :=
    (complete sampleRequested sampleTree nested_sampleTree 1 3).1
  obtain ⟨same, _⟩ := make_eq_ok_iff.mp made
  subst same
  have found :
      (PFLTreeNodeFinder.mk (sortedNodes sampleRequested sampleTree)).findNearestNodeByLineCol
        1 3 = some (.mk "PFLAttribute" ⟨1, 0, some 1, some 7⟩
          [.mk "PFLCall" ⟨1, 0, some 1, some 5⟩
            [.mk "PFLName" ⟨1, 0, some 1, some 1⟩ [],
              .mk "PFLName" ⟨1, 2, some 1, some 4⟩ []]]) := by
    rfl
  simp only [found] at right
  refine right.noneBelow (.mk "PFLName" ⟨1, 2, some 1, some 4⟩ []) ?_ rfl ?_
  · simp [PFLAstNode.descendants, PFLAstNode.children, PFLAstNode.subtree, PFLAstNode.subtrees]
  · exact ⟨by decide +kernel, by decide +kernel⟩

end PFLTreeNodeFinder

end TensorPC.Pfl
