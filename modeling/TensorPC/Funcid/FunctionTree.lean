import Mathlib.Data.List.Basic

namespace TensorPC.Funcid

/-!
# Folding a function to the statements that mention a name

The syntax tree of a function, and `NodeFoldingTransformer`, which prunes the
children of a node before it decides about the node.
-/

/-- An expression, pattern or argument: a `Name`, or a node with its children. -/
inductive ExprNode where
  | name (id : String)
  | node (children : List ExprNode)

mutual

/-- The ids of the `Name` nodes that a visitor meets. -/
def ExprNode.names : ExprNode → List String
  | .name id => [id]
  | .node children => ExprNode.namesAll children

def ExprNode.namesAll : List ExprNode → List String
  | [] => []
  | expr :: rest => expr.names ++ ExprNode.namesAll rest

end

inductive SimpleKind where
  | Return | Delete | Assign | TypeAlias | AugAssign | AnnAssign | Raise | Assert
  | Import | ImportFrom | Global | Nonlocal | Expr | Pass | Break | Continue
  deriving DecidableEq

/-- The statements that hold names as strings and not as `Name` nodes. -/
def SimpleKind.listsIdentifiers : SimpleKind → Bool
  | .Import | .ImportFrom | .Global | .Nonlocal => true
  | _ => false

/-- The statements without an expression. -/
def SimpleKind.isChildless : SimpleKind → Bool
  | .Import | .ImportFrom | .Global | .Nonlocal | .Pass | .Break | .Continue => true
  | _ => false

/-- A simple statement.  `identifiers` are the names that an import binds or
that a `global` or `nonlocal` lists. -/
structure SimpleStmt where
  kind : SimpleKind
  lineno : Nat
  exprs : List ExprNode
  identifiers : List String
  childless : kind.isChildless = true → exprs = []
  unlisted : kind.listsIdentifiers = false → identifiers = []

def SimpleStmt.names
    (stmt : SimpleStmt) :
    List String :=
  ExprNode.namesAll stmt.exprs

def SimpleStmt.mentions
    (target : String)
    (stmt : SimpleStmt) :
    Bool :=
  stmt.names.contains target || stmt.identifiers.contains target

/-- The first line of a compound statement or of one of its clauses, without
the keyword; the decorators of a definition belong to it. -/
structure Header where
  lineno : Nat
  exprs : List ExprNode

def Header.names
    (header : Header) :
    List String :=
  ExprNode.namesAll header.exprs

/-- The statements with a body and an `else` part. -/
inductive BranchKind where
  | If | For | AsyncFor | While
  deriving DecidableEq

inductive WithKind where
  | With | AsyncWith

inductive DefinitionKind where
  | FunctionDef | AsyncFunctionDef | ClassDef

mutual

/-- A statement. `tryStmt true` is `TryStar`. -/
inductive Stmt where
  | simple (stmt : SimpleStmt)
  | branch (kind : BranchKind) (header : Header) (body orelse : List Stmt)
  | withStmt (kind : WithKind) (header : Header) (body : List Stmt)
  | tryStmt (star : Bool) (header : Header) (body : List Stmt) (handlers : Clauses)
      (orelse finalbody : List Stmt)
  | matchStmt (header : Header) (cases : Clauses)
  | definition (kind : DefinitionKind) (header : Header) (body : List Stmt)

/-- The handlers of a `try` or the cases of a `match`, each with its body. -/
inductive Clauses where
  | nil
  | cons (header : Header) (body : List Stmt) (rest : Clauses)

end

/-- A function definition that is folded. -/
structure FunctionNode where
  isAsync : Bool
  header : Header
  body : List Stmt

/-! ## The names in a tree -/

mutual

/-- The ids of the `Name` nodes below a statement, with those of definitions
inside it if `nested` is set. -/
def Stmt.names
    (nested : Bool) :
    Stmt → List String
  | .simple stmt => stmt.names
  | .branch _ header body orelse =>
      header.names ++ (Stmt.namesAll nested body ++ Stmt.namesAll nested orelse)
  | .withStmt _ header body => header.names ++ Stmt.namesAll nested body
  | .tryStmt _ header body handlers orelse finalbody =>
      header.names ++ (Stmt.namesAll nested body ++ (handlers.names nested ++
        (Stmt.namesAll nested orelse ++ Stmt.namesAll nested finalbody)))
  | .matchStmt header cases => header.names ++ cases.names nested
  | .definition _ header body =>
      if nested then header.names ++ Stmt.namesAll nested body else []

def Stmt.namesAll
    (nested : Bool) :
    List Stmt → List String
  | [] => []
  | stmt :: rest => stmt.names nested ++ Stmt.namesAll nested rest

def Clauses.names
    (nested : Bool) :
    Clauses → List String
  | .nil => []
  | .cons header body rest =>
      (header.names ++ Stmt.namesAll nested body) ++ rest.names nested

end

/-! ## The transformer -/

/-- What a visit method of the transformer does with its node: nothing but
visit its children, keep it if a `Name` in it has the identifier, or remove it. -/
inductive VisitMethod where
  | genericVisit
  | onlyKeepNodeContainsTargetIdentifier
  | remove

def VisitMethod.keeps
    (contains : Bool) :
    VisitMethod → Bool
  | .genericVisit => true
  | .onlyKeepNodeContainsTargetIdentifier => contains
  | .remove => false

/-- The visit method for each class of simple statements. -/
def SimpleKind.visitMethod : SimpleKind → VisitMethod
  | .Return | .Assign | .AnnAssign | .Expr | .AugAssign | .TypeAlias | .Raise
  | .Import | .ImportFrom => .onlyKeepNodeContainsTargetIdentifier
  | .Continue => .remove
  | .Delete | .Assert | .Global | .Nonlocal | .Pass | .Break => .genericVisit

/-- `_only_keep_node_contains_target_identifier`, after the children of the
node have been visited. -/
def onlyKeepNodeContainsTargetIdentifier
    (target : String)
    (node : Stmt) :
    Option Stmt :=
  if (node.names true).contains target then
    some node
  else
    none

mutual

/-- `NodeFoldingTransformer.visit`.  A definition is not the root, which is
never visited from inside itself. -/
def Stmt.visit
    (target : String) :
    Stmt → Option Stmt
  | .simple stmt =>
      if stmt.kind.visitMethod.keeps (stmt.names.contains target) then
        some (.simple stmt)
      else
        none
  | .branch kind header body orelse =>
      onlyKeepNodeContainsTargetIdentifier target
        (.branch kind header (Stmt.visitAll target body) (Stmt.visitAll target orelse))
  | .withStmt kind header body =>
      onlyKeepNodeContainsTargetIdentifier target
        (.withStmt kind header (Stmt.visitAll target body))
  | .tryStmt star header body handlers orelse finalbody =>
      onlyKeepNodeContainsTargetIdentifier target
        (.tryStmt star header (Stmt.visitAll target body) (handlers.visitHandlers target)
          (Stmt.visitAll target orelse) (Stmt.visitAll target finalbody))
  | .matchStmt header cases =>
      onlyKeepNodeContainsTargetIdentifier target
        (.matchStmt header (cases.visitCases target))
  | .definition _ _ _ => none

def Stmt.visitAll
    (target : String) :
    List Stmt → List Stmt
  | [] => []
  | stmt :: rest => (stmt.visit target).toList ++ Stmt.visitAll target rest

/-- Handlers of a `try`; `visit_ExceptHandler` drops those without the name. -/
def Clauses.visitHandlers
    (target : String) :
    Clauses → Clauses
  | .nil => .nil
  | .cons header body rest =>
      if (header.names ++ Stmt.namesAll true (Stmt.visitAll target body)).contains target then
        .cons header (Stmt.visitAll target body) (rest.visitHandlers target)
      else
        rest.visitHandlers target

/-- Cases of a `match`, which have no visit method. -/
def Clauses.visitCases
    (target : String) :
    Clauses → Clauses
  | .nil => .nil
  | .cons header body rest =>
      .cons header (Stmt.visitAll target body) (rest.visitCases target)

end

def foldFuncNodeWithTargetIdentifier
    (tree : FunctionNode)
    (target : String) :
    FunctionNode where
  isAsync := tree.isAsync
  header := tree.header
  body := Stmt.visitAll target tree.body

/-! ## What survives -/

/-- No visit method removes a statement with the name in it. -/
theorem SimpleStmt.keeps_of_mem_names
    {target : String}
    {stmt : SimpleStmt}
    (named : target ∈ stmt.names) :
    stmt.kind.visitMethod.keeps (stmt.names.contains target) = true := by
  have contained : stmt.names.contains target = true := by simpa using named
  rw [contained]
  rcases stmt with ⟨kind, lineno, exprs, identifiers, childless, unlisted⟩
  cases kind with
  | Continue =>
      have empty := childless rfl
      subst empty
      cases named
  | _ => rfl

theorem mem_namesAll_onlyKeep
    {target : String}
    {nested : Bool}
    {node : Stmt}
    (agrees : target ∈ node.names nested ↔ target ∈ node.names true) :
    target ∈ Stmt.namesAll nested (onlyKeepNodeContainsTargetIdentifier target node).toList ↔
      target ∈ node.names true := by
  rw [onlyKeepNodeContainsTargetIdentifier]
  by_cases named : target ∈ node.names true
  · simp [Stmt.namesAll, named, agrees]
  · simp [Stmt.namesAll, named]

theorem Stmt.namesAll_append
    (nested : Bool)
    (first second : List Stmt) :
    Stmt.namesAll nested (first ++ second) =
      Stmt.namesAll nested first ++ Stmt.namesAll nested second := by
  induction first with
  | nil => rfl
  | cons stmt rest inductionHypothesis =>
      simp [Stmt.namesAll, inductionHypothesis]

mutual

/-- A pruned statement has the name exactly if the statement had it outside of
nested definitions. -/
theorem Stmt.mem_names_visit
    {target : String}
    (nested : Bool) :
    (stmt : Stmt) →
    (target ∈ Stmt.namesAll nested (stmt.visit target).toList ↔
      target ∈ stmt.names false)
  | .simple stmt => by
      rw [Stmt.visit, Stmt.names]
      by_cases named : target ∈ stmt.names
      · rw [if_pos (SimpleStmt.keeps_of_mem_names named)]
        simp [Stmt.namesAll, Stmt.names, named]
      · split <;> simp [Stmt.namesAll, Stmt.names, named]
  | .branch kind header body orelse => by
      have inBody := fun flag => @Stmt.mem_namesAll_visitAll target flag body
      have inOrelse := fun flag => @Stmt.mem_namesAll_visitAll target flag orelse
      rw [Stmt.visit, mem_namesAll_onlyKeep]
        <;> simp [Stmt.names, inBody, inOrelse]
  | .withStmt kind header body => by
      have inBody := fun flag => @Stmt.mem_namesAll_visitAll target flag body
      rw [Stmt.visit, mem_namesAll_onlyKeep] <;> simp [Stmt.names, inBody]
  | .tryStmt star header body handlers orelse finalbody => by
      have inBody := fun flag => @Stmt.mem_namesAll_visitAll target flag body
      have inHandlers := fun flag => @Clauses.mem_names_visitHandlers target flag handlers
      have inOrelse := fun flag => @Stmt.mem_namesAll_visitAll target flag orelse
      have inFinal := fun flag => @Stmt.mem_namesAll_visitAll target flag finalbody
      rw [Stmt.visit, mem_namesAll_onlyKeep]
        <;> simp [Stmt.names, inBody, inHandlers, inOrelse, inFinal]
  | .matchStmt header cases => by
      have inCases := fun flag => @Clauses.mem_names_visitCases target flag cases
      rw [Stmt.visit, mem_namesAll_onlyKeep] <;> simp [Stmt.names, inCases]
  | .definition kind header body => by
      simp [Stmt.visit, Stmt.names, Stmt.namesAll]

theorem Stmt.mem_namesAll_visitAll
    {target : String}
    (nested : Bool) :
    (stmts : List Stmt) →
    (target ∈ Stmt.namesAll nested (Stmt.visitAll target stmts) ↔
      target ∈ Stmt.namesAll false stmts)
  | [] => by
      simp [Stmt.visitAll, Stmt.namesAll]
  | stmt :: rest => by
      rw [Stmt.visitAll, Stmt.namesAll_append, Stmt.namesAll, List.mem_append,
        List.mem_append, Stmt.mem_names_visit nested stmt,
        Stmt.mem_namesAll_visitAll nested rest]

theorem Clauses.mem_names_visitHandlers
    {target : String}
    (nested : Bool) :
    (handlers : Clauses) →
    (target ∈ (handlers.visitHandlers target).names nested ↔
      target ∈ handlers.names false)
  | .nil => by
      simp [Clauses.visitHandlers, Clauses.names]
  | .cons header body rest => by
      have inBody := fun flag => @Stmt.mem_namesAll_visitAll target flag body
      have inRest := @Clauses.mem_names_visitHandlers target nested rest
      rw [Clauses.visitHandlers]
      by_cases named : target ∈ header.names ∨ target ∈ Stmt.namesAll false body
      · simp [Clauses.names, inBody, inRest, named]
      · rw [not_or] at named
        simp [Clauses.names, inBody, inRest, named.1, named.2]

theorem Clauses.mem_names_visitCases
    {target : String}
    (nested : Bool) :
    (handlers : Clauses) →
    (target ∈ (handlers.visitCases target).names nested ↔
      target ∈ handlers.names false)
  | .nil => by
      simp [Clauses.visitCases, Clauses.names]
  | .cons header body rest => by
      have inBody := @Stmt.mem_namesAll_visitAll target nested body
      have inRest := @Clauses.mem_names_visitCases target nested rest
      simp only [Clauses.visitCases, Clauses.names, List.mem_append, inBody, inRest]

end

/-- Whether the transformer keeps a statement, read off the statement itself. -/
def Stmt.survives
    (target : String) :
    Stmt → Bool
  | .simple stmt => stmt.kind.visitMethod.keeps (stmt.names.contains target)
  | .definition _ _ _ => false
  | stmt => (stmt.names false).contains target

/-- Whether the transformer keeps a handler. -/
def handlerSurvives
    (target : String)
    (header : Header)
    (body : List Stmt) :
    Bool :=
  (header.names ++ Stmt.namesAll false body).contains target

/-- The statement that the transformer makes of one that survives. -/
def Stmt.pruned
    (target : String) :
    Stmt → Stmt
  | .branch kind header body orelse =>
      .branch kind header (Stmt.visitAll target body) (Stmt.visitAll target orelse)
  | .withStmt kind header body => .withStmt kind header (Stmt.visitAll target body)
  | .tryStmt star header body handlers orelse finalbody =>
      .tryStmt star header (Stmt.visitAll target body) (handlers.visitHandlers target)
        (Stmt.visitAll target orelse) (Stmt.visitAll target finalbody)
  | .matchStmt header cases => .matchStmt header (cases.visitCases target)
  | stmt => stmt

theorem mem_names_pruned
    {target : String}
    (nested : Bool)
    {stmt : Stmt}
    (survives : stmt.survives target = true) :
    target ∈ (stmt.pruned target).names nested ↔ target ∈ stmt.names false := by
  cases stmt with
  | simple stmt => rfl
  | definition kind header body => cases survives
  | branch kind header body orelse =>
      simp [Stmt.pruned, Stmt.names, Stmt.mem_namesAll_visitAll]
  | withStmt kind header body =>
      simp [Stmt.pruned, Stmt.names, Stmt.mem_namesAll_visitAll]
  | tryStmt star header body handlers orelse finalbody =>
      simp [Stmt.pruned, Stmt.names, Stmt.mem_namesAll_visitAll,
        Clauses.mem_names_visitHandlers]
  | matchStmt header cases =>
      simp [Stmt.pruned, Stmt.names, Clauses.mem_names_visitCases]

theorem Stmt.visit_eq
    (target : String)
    (stmt : Stmt) :
    stmt.visit target =
      if stmt.survives target then
        some (stmt.pruned target)
      else
        none := by
  cases stmt with
  | simple stmt => rfl
  | definition kind header body => rfl
  | branch kind header body orelse =>
      simp [Stmt.visit, onlyKeepNodeContainsTargetIdentifier, Stmt.survives, Stmt.pruned,
        Stmt.names, Stmt.mem_namesAll_visitAll]
  | withStmt kind header body =>
      simp [Stmt.visit, onlyKeepNodeContainsTargetIdentifier, Stmt.survives, Stmt.pruned,
        Stmt.names, Stmt.mem_namesAll_visitAll]
  | tryStmt star header body handlers orelse finalbody =>
      simp [Stmt.visit, onlyKeepNodeContainsTargetIdentifier, Stmt.survives, Stmt.pruned,
        Stmt.names, Stmt.mem_namesAll_visitAll, Clauses.mem_names_visitHandlers]
  | matchStmt header cases =>
      simp [Stmt.visit, onlyKeepNodeContainsTargetIdentifier, Stmt.survives, Stmt.pruned,
        Stmt.names, Clauses.mem_names_visitCases]

theorem Clauses.visitHandlers_cons
    (target : String)
    (header : Header)
    (body : List Stmt)
    (rest : Clauses) :
    (Clauses.cons header body rest).visitHandlers target =
      if handlerSurvives target header body then
        .cons header (Stmt.visitAll target body) (rest.visitHandlers target)
      else
        rest.visitHandlers target := by
  simp [Clauses.visitHandlers, handlerSurvives, Stmt.mem_namesAll_visitAll]

end TensorPC.Funcid
