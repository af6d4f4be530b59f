import Mathlib.Data.List.Basic

namespace TensorPC.Adv

/-!
# The statements of a fragment

The body of a fragment is a list of Python statements without nested functions
or classes.  `ast.walk` goes through a statement breadth first; only the names
that it loads matter here, so a node is its loaded name and its children.
-/

/-- A node of a syntax tree with the name it loads, if it is a loaded name. -/
inductive Tree where
  | node (load : Option String) (children : List Tree)

namespace Tree

mutual

/-- The number of nodes. -/
def size : Tree → Nat
  | node _ children => 1 + sizes children

def sizes : List Tree → Nat
  | [] => 0
  | tree :: rest => size tree + sizes rest

end

mutual

/-- The names that a tree loads. -/
def loads : Tree → List String
  | node load children => load.toList ++ loadsAll children

def loadsAll : List Tree → List String
  | [] => []
  | tree :: rest => loads tree ++ loadsAll rest

end

theorem sizes_append (first second : List Tree) :
    sizes (first ++ second) = sizes first + sizes second := by
  induction first with
  | nil => simp [sizes]
  | cons tree rest inductionHypothesis =>
      simp only [List.cons_append, sizes, inductionHypothesis, Nat.add_assoc]

@[simp] theorem loadsAll_append (first second : List Tree) :
    loadsAll (first ++ second) = loadsAll first ++ loadsAll second := by
  induction first with
  | nil => simp [loadsAll]
  | cons tree rest inductionHypothesis =>
      simp only [List.cons_append, loadsAll, inductionHypothesis, List.append_assoc]

/-- The loaded names in the order of `ast.walk`, from the nodes that are still to be visited. -/
def walk : List Tree → List String
  | [] => []
  | node load children :: rest => load.toList ++ walk (rest ++ children)
termination_by queue => sizes queue
decreasing_by
  simp only [sizes_append, sizes, size]
  omega

theorem mem_walk_iff
    (queue : List Tree)
    (name : String) :
    name ∈ walk queue ↔ name ∈ loadsAll queue := by
  induction queue using walk.induct with
  | case1 => simp [walk, loadsAll]
  | case2 load children rest inductionHypothesis =>
      rw [walk, List.mem_append, inductionHypothesis]
      simp only [loadsAll, loads, loadsAll_append, List.mem_append]
      tauto

end Tree

/--
An expression.  A comprehension has names of its own, and only its first
iterable is evaluated outside their scope.
-/
inductive Expr where
  | name (id : String)
  | node (children : List Expr)
  | comprehension
      (bound : List String)
      (elements : List Expr)
      (source : Expr)
      (conditions generators : List Expr)

namespace Expr

mutual

/-- The syntax tree of an expression. -/
def tree : Expr → Tree
  | name id => .node (some id) []
  | node children => .node none (trees children)
  | comprehension _ elements source conditions generators =>
      .node none
        (trees elements ++ [.node none (tree source :: trees conditions)] ++ trees generators)

def trees : List Expr → List Tree
  | [] => []
  | expr :: rest => tree expr :: trees rest

end

mutual

/-- The names of the body that evaluating an expression may read. -/
def reads : Expr → List String
  | name id => [id]
  | node children => readsAll children
  | comprehension bound elements source conditions generators =>
      reads source ++
        (readsAll elements ++ readsAll conditions ++ readsAll generators).filter fun id =>
          !bound.contains id

def readsAll : List Expr → List String
  | [] => []
  | expr :: rest => reads expr ++ readsAll rest

end

end Expr

/-- The target of an assignment, a loop or a context manager. -/
inductive Target where
  | name (id : String)
  | tuple (elts : List Target)

mutual

/-- The names that a target assigns. -/
def Target.names : Target → List String
  | .name id => [id]
  | .tuple elts => targetNames elts

def targetNames : List Target → List String
  | [] => []
  | target :: rest => Target.names target ++ targetNames rest

end

/-- The target of an augmented assignment: a name, or a place found by evaluating an expression. -/
inductive AugTarget where
  | name (id : String)
  | place (container : Expr)

mutual

inductive Stmt where
  | assign (targets : List Target) (value : Expr)
  | annAssign (target : String) ( annotation : Expr) (value : Option Expr)
  | augAssign (target : AugTarget) (value : Expr)
  | expression (value : Expr)
  | returnStmt (value : Option Expr)
  | ifStmt (test : Expr) (body orelse : List Stmt)
  | forStmt (target : Target) (iter : Expr) (body orelse : List Stmt)
  | whileStmt (test : Expr) (body orelse : List Stmt)
  | withStmt (items : List (Expr × Option Target)) (body : List Stmt)
  | tryStmt (body : List Stmt) (handlers : List Handler) (orelse finalbody : List Stmt)
  | pass
  | breakStmt
  | continueStmt

inductive Handler where
  | handler (type : Option Expr) (name : Option String) (body : List Stmt)

end

namespace Stmt

/-- The tree of an expression that may be missing. -/
def optionTree : Option Expr → List Tree
  | none => []
  | some expr => [expr.tree]

/-- The tree of the target of an augmented assignment, whose name is stored. -/
def augTree : AugTarget → List Tree
  | .name _ => []
  | .place container => [container.tree]

mutual

/-- The syntax tree of a statement. -/
def tree : Stmt → Tree
  | assign _ value => .node none [value.tree]
  | annAssign _ annotation value => .node none (Expr.tree annotation :: optionTree value)
  | augAssign target value => .node none (augTree target ++ [value.tree])
  | expression value => .node none [value.tree]
  | returnStmt value => .node none (optionTree value)
  | ifStmt test body orelse => .node none (test.tree :: (trees body ++ trees orelse))
  | forStmt _ iter body orelse => .node none (iter.tree :: (trees body ++ trees orelse))
  | whileStmt test body orelse => .node none (test.tree :: (trees body ++ trees orelse))
  | withStmt items body =>
      .node none (items.map (fun item => .node none [item.1.tree]) ++ trees body)
  | tryStmt body handlers orelse finalbody =>
      .node none (trees body ++ handlerTrees handlers ++ trees orelse ++ trees finalbody)
  | pass => .node none []
  | breakStmt => .node none []
  | continueStmt => .node none []

def trees : List Stmt → List Tree
  | [] => []
  | stmt :: rest => tree stmt :: trees rest

def handlerTree : Handler → Tree
  | .handler type _ body => .node none (optionTree type ++ trees body)

def handlerTrees : List Handler → List Tree
  | [] => []
  | handler :: rest => handlerTree handler :: handlerTrees rest

end

end Stmt

/-!
# Executions of a fragment

An execution is known by the names it reads and assigns, in order.  Values are
not: a test may go either way, a loop may run any number of rounds, any
expression may raise after reading some of its names, and a context manager may
swallow what its body raised.
-/

/-- What an execution does with a name.  An augmented assignment reads its own target. -/
inductive Event where
  | load (name : String)
  | augment (name : String)
  | assign (name : String)
  deriving DecidableEq

/-- How a statement ends. -/
inductive Outcome where
  | normal
  | broke
  | continued
  | returned
  | raised
  deriving DecidableEq

/-- The reads of an expression, whether it has a value or raises. -/
def Expr.Evaluates (expr : Expr) (trace : List Event) : Prop :=
  ∀ event ∈ trace, ∃ name ∈ expr.reads, event = .load name

/-- The assignments to the names of targets. -/
def assigns (targets : List Target) : List Event :=
  (targetNames targets).map Event.assign

/-- The part of a program that is executed. -/
inductive Code where
  | statement (stmt : Stmt)
  | block (body : List Stmt)
  | forLoop (target : Target) (body orelse : List Stmt)
  | withItems (items : List (Expr × Option Target)) (body : List Stmt)
  | guarded (body : List Stmt) (handlers : List Handler) (orelse : List Stmt)
  | handling (handlers : List Handler)

/-- The executions of a part of a program. -/
inductive Runs : Code → List Event → Outcome → Prop
  | nil :
      Runs (.block []) [] .normal
  | stop
      (ran : Runs (.statement stmt) trace outcome)
      (leaves : outcome ≠ .normal) :
      Runs (.block (stmt :: rest)) trace outcome
  | next
      (ran : Runs (.statement stmt) trace .normal)
      (later : Runs (.block rest) more outcome) :
      Runs (.block (stmt :: rest)) (trace ++ more) outcome
  | assign
      (evaluated : value.Evaluates trace) :
      Runs (.statement (.assign targets value)) (trace ++ assigns targets) .normal
  | assignRaises
      (evaluated : value.Evaluates trace)
      (part : more <+: assigns targets) :
      Runs (.statement (.assign targets value)) (trace ++ more) .raised
  | annotated
      (evaluated : value.Evaluates trace) :
      Runs (.statement (.annAssign target annotation (some value)))
        (trace ++ [.assign target]) .normal
  | annotatedRaises
      (evaluated : value.Evaluates trace) :
      Runs (.statement (.annAssign target annotation (some value))) trace .raised
  | declared :
      Runs (.statement (.annAssign target annotation none)) [] .normal
  | augmented
      (evaluated : value.Evaluates trace) :
      Runs (.statement (.augAssign (.name target) value))
        (.augment target :: trace ++ [.assign target]) .normal
  | augmentedRaises
      (evaluated : value.Evaluates trace) :
      Runs (.statement (.augAssign (.name target) value)) (.augment target :: trace) .raised
  | placeAugmented
      (found : container.Evaluates trace)
      (evaluated : value.Evaluates more)
      (ends : outcome = .normal ∨ outcome = .raised) :
      Runs (.statement (.augAssign (.place container) value)) (trace ++ more) outcome
  | expression
      (evaluated : value.Evaluates trace)
      (ends : outcome = .normal ∨ outcome = .raised) :
      Runs (.statement (.expression value)) trace outcome
  | returnsNothing :
      Runs (.statement (.returnStmt none)) [] .returned
  | returns
      (evaluated : value.Evaluates trace)
      (ends : outcome = .returned ∨ outcome = .raised) :
      Runs (.statement (.returnStmt (some value))) trace outcome
  | pass :
      Runs (.statement .pass) [] .normal
  | breaks :
      Runs (.statement .breakStmt) [] .broke
  | continues :
      Runs (.statement .continueStmt) [] .continued
  | ifRaises
      (evaluated : test.Evaluates trace) :
      Runs (.statement (.ifStmt test body orelse)) trace .raised
  | ifBody
      (evaluated : test.Evaluates trace)
      (ran : Runs (.block body) more outcome) :
      Runs (.statement (.ifStmt test body orelse)) (trace ++ more) outcome
  | ifOrelse
      (evaluated : test.Evaluates trace)
      (ran : Runs (.block orelse) more outcome) :
      Runs (.statement (.ifStmt test body orelse)) (trace ++ more) outcome
  | whileRaises
      (evaluated : test.Evaluates trace) :
      Runs (.statement (.whileStmt test body orelse)) trace .raised
  | whileEnds
      (evaluated : test.Evaluates trace)
      (ran : Runs (.block orelse) more outcome) :
      Runs (.statement (.whileStmt test body orelse)) (trace ++ more) outcome
  | whileRound
      (evaluated : test.Evaluates trace)
      (ran : Runs (.block body) more middle)
      (goesOn : middle = .normal ∨ middle = .continued)
      (later : Runs (.statement (.whileStmt test body orelse)) rest outcome) :
      Runs (.statement (.whileStmt test body orelse)) (trace ++ more ++ rest) outcome
  | whileBreaks
      (evaluated : test.Evaluates trace)
      (ran : Runs (.block body) more .broke) :
      Runs (.statement (.whileStmt test body orelse)) (trace ++ more) .normal
  | whileLeaves
      (evaluated : test.Evaluates trace)
      (ran : Runs (.block body) more outcome)
      (leaves : outcome = .returned ∨ outcome = .raised) :
      Runs (.statement (.whileStmt test body orelse)) (trace ++ more) outcome
  | forRaises
      (evaluated : iter.Evaluates trace) :
      Runs (.statement (.forStmt target iter body orelse)) trace .raised
  | forStarts
      (evaluated : iter.Evaluates trace)
      (ran : Runs (.forLoop target body orelse) more outcome) :
      Runs (.statement (.forStmt target iter body orelse)) (trace ++ more) outcome
  | loopRaises
      (part : trace <+: assigns [target]) :
      Runs (.forLoop target body orelse) trace .raised
  | loopEnds
      (ran : Runs (.block orelse) trace outcome) :
      Runs (.forLoop target body orelse) trace outcome
  | loopRound
      (ran : Runs (.block body) trace middle)
      (goesOn : middle = .normal ∨ middle = .continued)
      (later : Runs (.forLoop target body orelse) rest outcome) :
      Runs (.forLoop target body orelse) (assigns [target] ++ trace ++ rest) outcome
  | loopBreaks
      (ran : Runs (.block body) trace .broke) :
      Runs (.forLoop target body orelse) (assigns [target] ++ trace) .normal
  | loopLeaves
      (ran : Runs (.block body) trace outcome)
      (leaves : outcome = .returned ∨ outcome = .raised) :
      Runs (.forLoop target body orelse) (assigns [target] ++ trace) outcome
  | withStarts
      (ran : Runs (.withItems items body) trace outcome) :
      Runs (.statement (.withStmt items body)) trace outcome
  | withBody
      (ran : Runs (.block body) trace outcome) :
      Runs (.withItems [] body) trace outcome
  | withRaises
      (evaluated : item.1.Evaluates trace)
      (part : more <+: assigns item.2.toList) :
      Runs (.withItems (item :: items) body) (trace ++ more) .raised
  | withUnpackSwallowed
      (evaluated : expr.Evaluates trace)
      (part : more <+: assigns [.tuple elts]) :
      Runs (.withItems ((expr, some (.tuple elts)) :: items) body) (trace ++ more) .normal
  | withItem
      (evaluated : item.1.Evaluates trace)
      (ran : Runs (.withItems items body) more outcome) :
      Runs (.withItems (item :: items) body) (trace ++ assigns item.2.toList ++ more) outcome
  | withSwallows
      (evaluated : item.1.Evaluates trace)
      (ran : Runs (.withItems items body) more .raised) :
      Runs (.withItems (item :: items) body) (trace ++ assigns item.2.toList ++ more) .normal
  | tryEnds
      (ran : Runs (.guarded body handlers orelse) trace outcome)
      (cleaned : Runs (.block finalbody) more .normal) :
      Runs (.statement (.tryStmt body handlers orelse finalbody)) (trace ++ more) outcome
  | tryLeaves
      (ran : Runs (.guarded body handlers orelse) trace middle)
      (cleaned : Runs (.block finalbody) more outcome)
      (leaves : outcome ≠ .normal) :
      Runs (.statement (.tryStmt body handlers orelse finalbody)) (trace ++ more) outcome
  | guardedOrelse
      (ran : Runs (.block body) trace .normal)
      (later : Runs (.block orelse) more outcome) :
      Runs (.guarded body handlers orelse) (trace ++ more) outcome
  | guardedLeaves
      (ran : Runs (.block body) trace outcome)
      (leaves : outcome ≠ .normal)
      (notRaised : outcome ≠ .raised) :
      Runs (.guarded body handlers orelse) trace outcome
  | guardedRaises
      (ran : Runs (.block body) trace .raised)
      (handled : Runs (.handling handlers) more outcome) :
      Runs (.guarded body handlers orelse) (trace ++ more) outcome
  | unhandled :
      Runs (.handling []) [] .raised
  | handlerRaises
      (evaluated : ∀ event ∈ trace, ∃ expr ∈ type, ∃ name ∈ expr.reads, event = .load name) :
      Runs (.handling (.handler type name body :: handlers)) trace .raised
  | handlerSkips
      (evaluated : ∀ event ∈ trace, ∃ expr ∈ type, ∃ name ∈ expr.reads, event = .load name)
      (later : Runs (.handling handlers) more outcome) :
      Runs (.handling (.handler type name body :: handlers)) (trace ++ more) outcome
  | handlerTakes
      (evaluated : ∀ event ∈ trace, ∃ expr ∈ type, ∃ name ∈ expr.reads, event = .load name)
      (ran : Runs (.block body) more outcome) :
      Runs (.handling (.handler type name body :: handlers))
        (trace ++ name.toList.map Event.assign ++ more) outcome

/-- The event reads the name. -/
def Event.Reads (event : Event) (name : String) : Prop :=
  event = .load name ∨ event = .augment name

/-- An event of the kind comes before the name is assigned. -/
def First (kind : Event → Prop) (name : String) (trace : List Event) : Prop :=
  ∃ earlier event later,
    trace = earlier ++ event :: later ∧ kind event ∧ Event.assign name ∉ earlier

/-- Some execution has an event of the kind before it assigns the name. -/
def Code.Shows (code : Code) (kind : Event → Prop) (name : String) : Prop :=
  ∃ trace outcome, Runs code trace outcome ∧ First kind name trace

/-- Some execution reads the name before it assigns it. -/
def Code.ReadsFirst (code : Code) (name : String) : Prop :=
  code.Shows (fun event => event.Reads name) name

/-- Some execution augments the name before it assigns it. -/
def Code.AugmentsFirst (code : Code) (name : String) : Prop :=
  code.Shows (fun event => event = .augment name) name

/-- Some execution comes to the end without assigning the name. -/
def Code.Passes (code : Code) (name : String) : Prop :=
  ∃ trace, Runs code trace .normal ∧ Event.assign name ∉ trace

end TensorPC.Adv
