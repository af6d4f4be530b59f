import TensorPC.Adv.FragmentRuns
import TensorPC.Py.Dict

namespace TensorPC.Adv

/-!
# What executions read

An execution loads only names that are loaded in the text.  What a block reads
before it assigns a name, its first part reads, or its second part reads after
the first has come to its end without assigning the name.
-/

section Loads

mutual

theorem Expr.mem_loads_of_mem_reads
    {name : String} :
    ∀ {expr : Expr}, name ∈ expr.reads → name ∈ expr.tree.loads
  | .name id, isRead => by
      simpa [Expr.reads, Expr.tree, Tree.loads, Tree.loadsAll] using isRead
  | .node children, isRead => by
      rw [Expr.reads] at isRead
      simp only [Expr.tree, Tree.loads, Option.toList_none, List.nil_append]
      exact Expr.mem_loadsAll_of_mem_readsAll isRead
  | .comprehension bound elements source conditions generators, isRead => by
      simp only [Expr.reads, List.mem_append, List.mem_filter] at isRead
      simp only [Expr.tree, Tree.loads, Tree.loadsAll_append, Tree.loadsAll,
        Option.toList_none, List.nil_append, List.append_nil, List.mem_append]
      rcases isRead with isRead | ⟨(isRead | isRead) | isRead, -⟩
      · exact .inl (.inr (.inl (Expr.mem_loads_of_mem_reads isRead)))
      · exact .inl (.inl (Expr.mem_loadsAll_of_mem_readsAll isRead))
      · exact .inl (.inr (.inr (Expr.mem_loadsAll_of_mem_readsAll isRead)))
      · exact .inr (Expr.mem_loadsAll_of_mem_readsAll isRead)

theorem Expr.mem_loadsAll_of_mem_readsAll
    {name : String} :
    ∀ {exprs : List Expr}, name ∈ Expr.readsAll exprs → name ∈ Tree.loadsAll (Expr.trees exprs)
  | [], isRead => by cases isRead
  | expr :: rest, isRead => by
      rw [Expr.readsAll, List.mem_append] at isRead
      rw [Expr.trees, Tree.loadsAll, List.mem_append]
      exact isRead.imp Expr.mem_loads_of_mem_reads Expr.mem_loadsAll_of_mem_readsAll

end

/-- Everything that the trace loads is among the names. -/
def LoadsWithin (names : List String) (trace : List Event) : Prop :=
  ∀ name, Event.load name ∈ trace → name ∈ names

variable {names others : List String} {trace more : List Event}

theorem LoadsWithin.append
    (first : LoadsWithin names trace)
    (second : LoadsWithin names more) :
    LoadsWithin names (trace ++ more) := by
  intro name loaded
  rcases List.mem_append.mp loaded with loaded | loaded
  · exact first name loaded
  · exact second name loaded

theorem LoadsWithin.mono
    (within : LoadsWithin names trace)
    (subset : names ⊆ others) :
    LoadsWithin others trace :=
  fun name loaded => subset (within name loaded)

theorem loadsWithin_nil (names : List String) :
    LoadsWithin names [] :=
  nofun

theorem loadsWithin_assigns
    (names : List String)
    (targets : List Target) :
    LoadsWithin names (assigns targets) := by
  intro name loaded
  simp [assigns] at loaded

theorem loadsWithin_part
    (names : List String)
    {targets : List Target}
    (part : more <+: assigns targets) :
    LoadsWithin names more :=
  fun name loaded => loadsWithin_assigns names targets name (part.subset loaded)

theorem loadsWithin_assigned
    (names : List String)
    (target : String) :
    LoadsWithin names [.assign target] := by
  intro name loaded
  simp at loaded

theorem loadsWithin_named
    (names : List String)
    (name : Option String) :
    LoadsWithin names (name.toList.map Event.assign) := by
  intro read loaded
  simp at loaded

theorem loadsWithin_augmented
    (names : List String)
    (target : String) :
    LoadsWithin names [.augment target] := by
  intro name loaded
  simp at loaded

theorem loadsWithin_of_evaluates
    {expr : Expr}
    (evaluated : expr.Evaluates trace)
    (subset : expr.tree.loads ⊆ names) :
    LoadsWithin names trace := by
  intro name loaded
  obtain ⟨read, isRead, same⟩ := evaluated _ loaded
  cases same
  exact subset (Expr.mem_loads_of_mem_reads isRead)

end Loads

/-- The trees of a part of a program. -/
def Code.trees : Code → List Tree
  | .statement stmt => [stmt.tree]
  | .block body => Stmt.trees body
  | .forLoop _ body orelse => Stmt.trees body ++ Stmt.trees orelse
  | .withItems items body =>
      items.map (fun item => .node none [item.1.tree]) ++ Stmt.trees body
  | .guarded body handlers orelse =>
      Stmt.trees body ++ Stmt.handlerTrees handlers ++ Stmt.trees orelse
  | .handling handlers => Stmt.handlerTrees handlers

/-- The loaded names of a part of a program. -/
def Code.loads (code : Code) : List String :=
  Tree.loadsAll code.trees

theorem loadsWithin_of_type
    {type : Option Expr}
    {names : List String}
    {trace : List Event}
    (evaluated : ∀ event ∈ trace, ∃ expr ∈ type, ∃ name ∈ expr.reads, event = .load name)
    (subset : Tree.loadsAll (Stmt.optionTree type) ⊆ names) :
    LoadsWithin names trace := by
  intro name loaded
  obtain ⟨expr, isType, read, isRead, same⟩ := evaluated _ loaded
  cases same
  rw [Option.mem_def] at isType
  subst isType
  refine subset ?_
  simpa [Stmt.optionTree, Tree.loadsAll] using Expr.mem_loads_of_mem_reads isRead

theorem Code.loads_statement (stmt : Stmt) :
    (Code.statement stmt).loads = stmt.tree.loads := by
  simp [Code.loads, Code.trees, Tree.loadsAll]

/-- An execution loads only names that are loaded in its part of the program. -/
theorem loadsWithin_of_runs
    {code : Code}
    {trace : List Event}
    {outcome : Outcome}
    (ran : Runs code trace outcome) :
    LoadsWithin code.loads trace := by
  induction ran with
  | nil | returnsNothing | pass | breaks | continues | declared | unhandled =>
      exact loadsWithin_nil _
  | stop ran leaves inductionHypothesis =>
      refine inductionHypothesis.mono ?_
      simp [Code.loads, Code.trees, Stmt.trees, Tree.loadsAll]
  | next ran later first second =>
      refine (first.mono ?_).append (second.mono ?_)
      all_goals simp [Code.loads, Code.trees, Stmt.trees, Tree.loadsAll]
  | assign evaluated =>
      refine (loadsWithin_of_evaluates evaluated ?_).append (loadsWithin_assigns _ _)
      simp [Code.loads_statement, Stmt.tree, Tree.loads, Tree.loadsAll]
  | assignRaises evaluated part =>
      refine (loadsWithin_of_evaluates evaluated ?_).append (loadsWithin_part _ part)
      simp [Code.loads_statement, Stmt.tree, Tree.loads, Tree.loadsAll]
  | annotated evaluated =>
      refine (loadsWithin_of_evaluates evaluated ?_).append (loadsWithin_assigned _ _)
      simp [Code.loads_statement, Stmt.tree, Stmt.optionTree, Tree.loads, Tree.loadsAll]
  | annotatedRaises evaluated =>
      refine loadsWithin_of_evaluates evaluated ?_
      simp [Code.loads_statement, Stmt.tree, Stmt.optionTree, Tree.loads, Tree.loadsAll]
  | augmented evaluated =>
      refine (loadsWithin_augmented _ _).append
        ((loadsWithin_of_evaluates evaluated ?_).append (loadsWithin_assigned _ _))
      simp [Code.loads_statement, Stmt.tree, Stmt.augTree, Tree.loads, Tree.loadsAll]
  | augmentedRaises evaluated =>
      refine (loadsWithin_augmented _ _).append (loadsWithin_of_evaluates evaluated ?_)
      simp [Code.loads_statement, Stmt.tree, Stmt.augTree, Tree.loads, Tree.loadsAll]
  | placeAugmented found evaluated ends =>
      refine (loadsWithin_of_evaluates found ?_).append (loadsWithin_of_evaluates evaluated ?_)
      all_goals simp [Code.loads_statement, Stmt.tree, Stmt.augTree, Tree.loads, Tree.loadsAll]
  | expression evaluated ends =>
      refine loadsWithin_of_evaluates evaluated ?_
      simp [Code.loads_statement, Stmt.tree, Tree.loads, Tree.loadsAll]
  | returns evaluated ends =>
      refine loadsWithin_of_evaluates evaluated ?_
      simp [Code.loads_statement, Stmt.tree, Stmt.optionTree, Tree.loads, Tree.loadsAll]
  | ifRaises evaluated | whileRaises evaluated | forRaises evaluated =>
      refine loadsWithin_of_evaluates evaluated ?_
      simp [Code.loads_statement, Stmt.tree, Tree.loads, Tree.loadsAll]
  | ifBody evaluated ran inductionHypothesis
  | ifOrelse evaluated ran inductionHypothesis
  | whileEnds evaluated ran inductionHypothesis
  | whileBreaks evaluated ran inductionHypothesis
  | whileLeaves evaluated ran leaves inductionHypothesis
  | forStarts evaluated ran inductionHypothesis =>
      refine (loadsWithin_of_evaluates evaluated ?_).append (inductionHypothesis.mono ?_)
      all_goals simp [Code.loads, Code.trees, Stmt.tree, Tree.loads, Tree.loadsAll]
  | whileRound evaluated ran goesOn later first second =>
      refine ((loadsWithin_of_evaluates evaluated ?_).append (first.mono ?_)).append second
      all_goals simp [Code.loads, Code.trees, Stmt.tree, Tree.loads, Tree.loadsAll]
  | loopRaises part =>
      exact loadsWithin_part _ part
  | loopEnds ran inductionHypothesis =>
      refine inductionHypothesis.mono ?_
      simp [Code.loads, Code.trees]
  | loopRound ran goesOn later first second =>
      refine ((loadsWithin_assigns _ _).append (first.mono ?_)).append second
      simp [Code.loads, Code.trees]
  | loopBreaks ran inductionHypothesis
  | loopLeaves ran leaves inductionHypothesis =>
      refine (loadsWithin_assigns _ _).append (inductionHypothesis.mono ?_)
      simp [Code.loads, Code.trees]
  | withStarts ran inductionHypothesis =>
      refine inductionHypothesis.mono ?_
      simp [Code.loads, Code.trees, Stmt.tree, Tree.loads, Tree.loadsAll]
  | withBody ran inductionHypothesis =>
      refine inductionHypothesis.mono ?_
      simp [Code.loads, Code.trees]
  | withRaises evaluated part | withUnpackSwallowed evaluated part =>
      refine (loadsWithin_of_evaluates evaluated ?_).append (loadsWithin_part _ part)
      simp [Code.loads, Code.trees, Tree.loads, Tree.loadsAll]
  | withItem evaluated ran inductionHypothesis
  | withSwallows evaluated ran inductionHypothesis =>
      refine ((loadsWithin_of_evaluates evaluated ?_).append
        (loadsWithin_assigns _ _)).append (inductionHypothesis.mono ?_)
      all_goals simp [Code.loads, Code.trees, Tree.loads, Tree.loadsAll]
  | tryEnds ran cleaned first second
  | tryLeaves ran cleaned leaves first second =>
      refine (first.mono fun name => ?_).append (second.mono fun name => ?_)
      all_goals
        simp only [Code.loads, Code.trees, Stmt.tree, Tree.loads, Tree.loadsAll,
          Tree.loadsAll_append, List.mem_append, Option.toList_none, List.not_mem_nil, false_or,
          or_false]
        tauto
  | guardedOrelse ran later first second
  | guardedRaises ran handled first second =>
      refine (first.mono ?_).append (second.mono ?_)
      all_goals simp [Code.loads, Code.trees]
  | guardedLeaves ran leaves notRaised inductionHypothesis =>
      refine inductionHypothesis.mono ?_
      simp [Code.loads, Code.trees]
  | handlerRaises evaluated =>
      refine loadsWithin_of_type evaluated ?_
      simp [Code.loads, Code.trees, Stmt.handlerTrees, Stmt.handlerTree, Tree.loads,
        Tree.loadsAll]
  | handlerSkips evaluated later inductionHypothesis =>
      refine (loadsWithin_of_type evaluated ?_).append (inductionHypothesis.mono ?_)
      all_goals simp [Code.loads, Code.trees, Stmt.handlerTrees, Stmt.handlerTree, Tree.loads,
        Tree.loadsAll]
  | handlerTakes evaluated ran inductionHypothesis =>
      refine ((loadsWithin_of_type evaluated ?_).append (loadsWithin_named _ _)).append
        (inductionHypothesis.mono ?_)
      all_goals simp [Code.loads, Code.trees, Stmt.handlerTrees, Stmt.handlerTree, Tree.loads,
        Tree.loadsAll]

/-! ## Every part of a program has an execution -/

theorem Expr.evaluates_nil (expr : Expr) :
    expr.Evaluates [] :=
  nofun

theorem exists_handling (handlers : List Handler) :
    ∃ trace outcome, Runs (.handling handlers) trace outcome := by
  cases handlers with
  | nil => exact ⟨_, _, .unhandled⟩
  | cons handler rest =>
      obtain ⟨type, name, body⟩ := handler
      exact ⟨_, _, .handlerRaises (List.forall_mem_nil _)⟩

mutual

theorem exists_runs_statement :
    ∀ stmt : Stmt, ∃ trace outcome, Runs (.statement stmt) trace outcome
  | .assign _ value => ⟨_, _, .assign value.evaluates_nil⟩
  | .annAssign _ _ none => ⟨_, _, .declared⟩
  | .annAssign _ _ (some value) => ⟨_, _, .annotated value.evaluates_nil⟩
  | .augAssign (.name _) value => ⟨_, _, .augmented value.evaluates_nil⟩
  | .augAssign (.place container) value =>
      ⟨_, _, .placeAugmented container.evaluates_nil value.evaluates_nil (.inl rfl)⟩
  | .expression value => ⟨_, _, .expression value.evaluates_nil (.inl rfl)⟩
  | .returnStmt none => ⟨_, _, .returnsNothing⟩
  | .returnStmt (some value) => ⟨_, _, .returns value.evaluates_nil (.inl rfl)⟩
  | .ifStmt test _ _ => ⟨_, _, .ifRaises test.evaluates_nil⟩
  | .forStmt _ iter _ _ => ⟨_, _, .forRaises iter.evaluates_nil⟩
  | .whileStmt test _ _ => ⟨_, _, .whileRaises test.evaluates_nil⟩
  | .withStmt [] body => by
      obtain ⟨trace, outcome, ran⟩ := exists_runs_block body
      exact ⟨_, _, .withStarts (.withBody ran)⟩
  | .withStmt (item :: _) _ =>
      ⟨_, _, .withStarts (.withRaises item.1.evaluates_nil List.nil_prefix)⟩
  | .tryStmt body handlers orelse finalbody => by
      have guarded : ∃ trace outcome, Runs (.guarded body handlers orelse) trace outcome := by
        obtain ⟨trace, outcome, ran⟩ := exists_runs_block body
        by_cases normal : outcome = .normal
        · subst normal
          obtain ⟨more, later, ranOrelse⟩ := exists_runs_block orelse
          exact ⟨_, _, .guardedOrelse ran ranOrelse⟩
        · by_cases raised : outcome = .raised
          · subst raised
            obtain ⟨more, later, handled⟩ := exists_handling handlers
            exact ⟨_, _, .guardedRaises ran handled⟩
          · exact ⟨_, _, .guardedLeaves ran normal raised⟩
      obtain ⟨trace, middle, ran⟩ := guarded
      obtain ⟨more, outcome, cleaned⟩ := exists_runs_block finalbody
      by_cases normal : outcome = .normal
      · subst normal
        exact ⟨_, _, .tryEnds ran cleaned⟩
      · exact ⟨_, _, .tryLeaves ran cleaned normal⟩
  | .pass => ⟨_, _, .pass⟩
  | .breakStmt => ⟨_, _, .breaks⟩
  | .continueStmt => ⟨_, _, .continues⟩

theorem exists_runs_block :
    ∀ body : List Stmt, ∃ trace outcome, Runs (.block body) trace outcome
  | [] => ⟨_, _, .nil⟩
  | stmt :: rest => by
      obtain ⟨trace, outcome, ran⟩ := exists_runs_statement stmt
      by_cases normal : outcome = .normal
      · subst normal
        obtain ⟨more, later, ranRest⟩ := exists_runs_block rest
        exact ⟨_, _, .next ran ranRest⟩
      · exact ⟨_, _, .stop ran normal⟩

end

/-! ## Reads one statement after the other -/

/-- What comes first in two traces in a row. -/
theorem first_append_iff
    {kind : Event → Prop}
    {name : String}
    {trace more : List Event} :
    First kind name (trace ++ more) ↔
      First kind name trace ∨ (Event.assign name ∉ trace ∧ First kind name more) := by
  constructor
  · rintro ⟨earlier, event, later, same, isKind, unassigned⟩
    rcases List.append_eq_append_iff.mp same with ⟨middle, rfl, rest⟩ | ⟨middle, rfl, rest⟩
    · refine .inr ⟨fun assigned => unassigned (List.mem_append_left _ assigned), ?_⟩
      exact ⟨middle, event, later, rest, isKind,
        fun assigned => unassigned (List.mem_append_right _ assigned)⟩
    · cases middle with
      | nil =>
          refine .inr ⟨by simpa using unassigned, ?_⟩
          exact ⟨[], event, later, by simpa using rest.symm, isKind, List.not_mem_nil⟩
      | cons head tail =>
          rw [List.cons_append, List.cons.injEq] at rest
          obtain ⟨rfl, -⟩ := rest
          exact .inl ⟨earlier, event, tail, rfl, isKind, unassigned⟩
  · rintro (⟨earlier, event, later, rfl, isKind, unassigned⟩ |
      ⟨notBefore, earlier, event, later, rfl, isKind, unassigned⟩)
    · exact ⟨earlier, event, later ++ more, by simp, isKind, unassigned⟩
    · refine ⟨trace ++ earlier, event, later, by simp, isKind, fun assigned => ?_⟩
      exact (List.mem_append.mp assigned).elim notBefore unassigned

/-- A block shows what its first statement shows, or what the others show after it. -/
theorem shows_cons_iff
    {kind : Event → Prop}
    {name : String}
    {stmt : Stmt}
    {rest : List Stmt} :
    (Code.block (stmt :: rest)).Shows kind name ↔
      (Code.statement stmt).Shows kind name ∨
        (Code.statement stmt).Passes name ∧ (Code.block rest).Shows kind name := by
  constructor
  · rintro ⟨trace, outcome, ran, first⟩
    cases ran with
    | stop ran leaves => exact .inl ⟨_, _, ran, first⟩
    | next ran later =>
        rcases first_append_iff.mp first with first | ⟨unassigned, first⟩
        · exact .inl ⟨_, _, ran, first⟩
        · exact .inr ⟨⟨_, ran, unassigned⟩, _, _, later, first⟩
  · rintro (⟨trace, outcome, ran, first⟩ | ⟨⟨trace, ran, unassigned⟩, more, outcome, later, first⟩)
    · by_cases normal : outcome = .normal
      · subst normal
        obtain ⟨more, outcome, later⟩ := exists_runs_block rest
        exact ⟨_, _, .next ran later, first_append_iff.mpr (.inl first)⟩
      · exact ⟨_, _, .stop ran normal, first⟩
    · exact ⟨_, _, .next ran later, first_append_iff.mpr (.inr ⟨unassigned, first⟩)⟩

theorem passes_cons_iff
    {name : String}
    {stmt : Stmt}
    {rest : List Stmt} :
    (Code.block (stmt :: rest)).Passes name ↔
      (Code.statement stmt).Passes name ∧ (Code.block rest).Passes name := by
  constructor
  · rintro ⟨trace, ran, unassigned⟩
    cases ran with
    | stop ran leaves => exact absurd rfl leaves
    | next ran later =>
        rw [List.mem_append, not_or] at unassigned
        exact ⟨⟨_, ran, unassigned.1⟩, _, later, unassigned.2⟩
  · rintro ⟨⟨trace, ran, unassigned⟩, more, later, alsoUnassigned⟩
    refine ⟨_, .next ran later, ?_⟩
    rw [List.mem_append, not_or]
    exact ⟨unassigned, alsoUnassigned⟩

theorem shows_append_iff
    {kind : Event → Prop}
    {name : String}
    {earlier later : List Stmt} :
    (Code.block (earlier ++ later)).Shows kind name ↔
      (Code.block earlier).Shows kind name ∨
        (Code.block earlier).Passes name ∧ (Code.block later).Shows kind name := by
  induction earlier with
  | nil =>
      have nothing : ¬ (Code.block []).Shows kind name := by
        rintro ⟨trace, outcome, ran, before, event, after, same, -⟩
        cases ran
        simp at same
      have passes : (Code.block []).Passes name := ⟨[], .nil, List.not_mem_nil⟩
      simp [nothing, passes]
  | cons stmt rest inductionHypothesis =>
      rw [List.cons_append, shows_cons_iff, inductionHypothesis, shows_cons_iff, passes_cons_iff]
      tauto

/-!
# The inputs of a fragment

`parse_fragment` takes every symbol of the scope that the body loads as an
input, unless an assignment at the top of the body overrides it first.
-/

/-- A `BackendHandle` with the fields of its `ADVNodeHandle` that a fragment reads or sets. -/
structure BackendHandle where
  id : String
  name : String
  type : String
  isInput : Bool
  symbolName : String
  default : Option String
  sourceNodeId : Option String
  sourceHandleId : Option String
  isSymHandle : Bool
  dictKey : Option String
  index : Int
  deriving DecidableEq

/-- The symbols that a fragment can use, each under its own name. -/
structure SymbolScope where
  handles : Dict String BackendHandle
  keyed : ∀ name handle, handles.get? name = some handle → handle.symbolName = name

/-- The tables of `_ExtractSymbolFromFragment`: the scope that is left and the symbols taken. -/
structure Extractor where
  scope : Dict String BackendHandle
  assignedSymbols : Dict String BackendHandle

namespace Extractor

/-- Take a loaded name out of the scope. -/
def take (self : Extractor) (name : String) : Extractor :=
  match self.scope.get? name with
  | some handle =>
      { scope := self.scope.erase name
        assignedSymbols := self.assignedSymbols.set name handle }
  | none => self

/-- `_extract_symbol_from_node`. -/
def extractSymbolFromNode (self : Extractor) (root : Tree) : Extractor :=
  (Tree.walk [root]).foldl take self

/-- An assignment overrides the name of a target that is nothing but a name. -/
def overrideTarget (self : Extractor) : Target → Extractor
  | .name id => { self with scope := self.scope.erase id }
  | .tuple _ => self

/-- One round of the loop in `parse_block`. -/
def parseStatement (self : Extractor) : Stmt → Extractor
  | .assign targets value => (targets.foldl overrideTarget self).extractSymbolFromNode value.tree
  | .annAssign target _ value =>
      match value with
      | some value => (self.overrideTarget (.name target)).extractSymbolFromNode value.tree
      | none => self.overrideTarget (.name target)
  | stmt => self.extractSymbolFromNode stmt.tree

/-- `parse_block`. -/
def parseBlock (self : Extractor) (body : List Stmt) : Extractor :=
  body.foldl parseStatement self

end Extractor

/-- `"-".join(id.split("-", 1)[1:])`. -/
def withoutIdKind (id : String) : String :=
  String.ofList ((id.toList.dropWhile fun letter => letter != '-').drop 1)

namespace BackendHandle

/-- `copy` without a node and an offset. -/
def copy (self : BackendHandle) : BackendHandle :=
  { self with isSymHandle := false }

/-- The input handle of a symbol: `copy` with the prefix of inputs, then marked as an input. -/
def asInput (self : BackendHandle) : BackendHandle :=
  { self with
    id := "inp-" ++ withoutIdKind self.id
    isSymHandle := false
    isInput := true }

/-- Handles without default come first, then the index counts. -/
def comesBefore (first second : BackendHandle) : Bool :=
  match first.default, second.default with
  | none, some _ => true
  | some _, none => false
  | _, _ => decide (first.index ≤ second.index)

end BackendHandle

/-- `FragmentOutputDesc`: the kind, and the symbol and alias of every output. -/
structure FragmentOutputDesc where
  isDict : Bool
  mapping : List (String × String × String)

/-- The handles that `parse_fragment` returns. -/
structure FragmentHandles where
  inputHandles : List BackendHandle
  outputHandles : List BackendHandle

/-- One output handle. -/
def outputHandle
    (nodeId : String)
    (isDict : Bool)
    (curScope : Dict String BackendHandle)
    (entry : String × String × String) :
    PyResult BackendHandle :=
  match curScope.get? entry.2.1 with
  | none =>
      .error (.assertionError ("Output symbol " ++ entry.2.1 ++ " not found in global scope"))
  | some handle =>
      .ok { handle.copy with
        sourceNodeId := some nodeId
        sourceHandleId := some handle.id
        name := entry.2.2
        symbolName := entry.2.2
        dictKey := if isDict then some entry.1 else handle.dictKey }

/-- `parse_fragment` after the text was parsed and its `mark_outputs` call was read. -/
def parseFragment
    (nodeId : String)
    (body : List Stmt)
    (outputDesc : FragmentOutputDesc)
    (curScope : SymbolScope) :
    PyResult FragmentHandles := do
  let symbolExtractor : Extractor :=
    Extractor.parseBlock { scope := curScope.handles, assignedSymbols := .empty } body
  let outputHandles ←
    outputDesc.mapping.mapM (outputHandle nodeId outputDesc.isDict curScope.handles)
  return {
    inputHandles :=
      (symbolExtractor.assignedSymbols.values.map BackendHandle.asInput).mergeSort
        BackendHandle.comesBefore
    outputHandles := outputHandles }

end TensorPC.Adv
