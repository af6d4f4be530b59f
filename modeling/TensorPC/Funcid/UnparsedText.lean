import TensorPC.Funcid.FunctionTree
import TensorPC.Lib.Indentation

namespace TensorPC.Funcid

/-!
# Unparsed text and what Python's parser accepts

`ast.unparse` writes one line for a simple statement, and a line with an
indented block for each clause of a compound one.  The parser walks over the
lines of a block and knows which clauses may follow.
-/

open Indentation

/-- The clause that a line ending in a colon opens. -/
inductive Keyword where
  | branch (kind : BranchKind)
  | elifPart
  | elsePart
  | withBlock (kind : WithKind)
  | tryBlock
  | exceptPart (star : Bool)
  | finallyPart
  | matchBlock
  | casePart
  | definition (kind : DefinitionKind)

/-- A logical line without its indentation. -/
inductive LineHead where
  | statement (stmt : SimpleStmt)
  | opener (keyword : Keyword) (exprs : List ExprNode)

def LineHead.isStatement : LineHead → Bool
  | .statement _ => true
  | .opener _ _ => false

/-! ## `ast.unparse` -/

/-- An `else` or `finally` part, which is not written when it is empty. -/
def partLines
    (keyword : Keyword) :
    List (Block LineHead) → List (Block LineHead)
  | [] => []
  | first :: rest => [.line (.opener keyword []) (first :: rest)]

/-- The lines of an `if` as the `elif` of the one before. -/
def asElif : List (Block LineHead) → List (Block LineHead)
  | .line (.opener (.branch .If) exprs) inner :: rest =>
      .line (.opener .elifPart exprs) inner :: rest
  | blocks => blocks

def isLoneIf : List Stmt → Bool
  | [.branch .If _ _ _] => true
  | _ => false

mutual

def Stmt.unparse : Stmt → List (Block LineHead)
  | .simple stmt => [.line (.statement stmt) []]
  | .branch kind header body orelse =>
      .line (.opener (.branch kind) header.exprs) (Stmt.unparseAll body) ::
        if kind = .If && isLoneIf orelse then
          asElif (Stmt.unparseAll orelse)
        else
          partLines .elsePart (Stmt.unparseAll orelse)
  | .withStmt kind header body =>
      [.line (.opener (.withBlock kind) header.exprs) (Stmt.unparseAll body)]
  | .tryStmt star _ body handlers orelse finalbody =>
      .line (.opener .tryBlock []) (Stmt.unparseAll body) ::
        (handlers.unparse (.exceptPart star) ++
          (partLines .elsePart (Stmt.unparseAll orelse) ++
            partLines .finallyPart (Stmt.unparseAll finalbody)))
  | .matchStmt header cases =>
      [.line (.opener .matchBlock header.exprs) (cases.unparse .casePart)]
  | .definition kind header body =>
      [.line (.opener (.definition kind) header.exprs) (Stmt.unparseAll body)]

def Stmt.unparseAll : List Stmt → List (Block LineHead)
  | [] => []
  | stmt :: rest => stmt.unparse ++ Stmt.unparseAll rest

def Clauses.unparse
    (keyword : Keyword) :
    Clauses → List (Block LineHead)
  | .nil => []
  | .cons header body rest =>
      .line (.opener keyword header.exprs) (Stmt.unparseAll body) :: rest.unparse keyword

end

/-- The definition line of a function, over its body. -/
def FunctionNode.unparse
    (tree : FunctionNode) :
    List (Block LineHead) :=
  (Stmt.definition (if tree.isAsync then .AsyncFunctionDef else .FunctionDef)
    tree.header tree.body).unparse

/-- The lines of the folded function, with its definition line or without. -/
def foldFuncNodeWithTargetIdentifierToCode
    (tree : FunctionNode)
    (target : String)
    (withFunc : Bool) :
    List (Nat × LineHead) :=
  let node := foldFuncNodeWithTargetIdentifier tree target
  if withFunc then
    flatten 0 node.unparse
  else
    flatten 0 (Stmt.unparseAll node.body)

/-! ## The grammar of blocks -/

/-- What may follow in a block: a statement, also one of the clauses that
continue the statement before, only a clause of the `try` before, or a case. -/
inductive Expects where
  | statement
  | afterIf
  | afterLoop
  | afterTry
  | afterExcept (star : Bool)
  | afterTryElse
  | cases

/-- What may follow a line that starts a statement. -/
def starts : LineHead → Option Expects
  | .statement _ => some .statement
  | .opener (.branch .If) _ => some .afterIf
  | .opener (.branch _) _ => some .afterLoop
  | .opener (.withBlock _) _ => some .statement
  | .opener .tryBlock _ => some .afterTry
  | .opener .matchBlock _ => some .statement
  | .opener (.definition _) _ => some .statement
  | _ => none

/-- What may follow a clause of the statement before. -/
def continues : Expects → LineHead → Option Expects
  | .afterIf, .opener .elifPart _ => some .afterIf
  | .afterIf, .opener .elsePart _ => some .statement
  | .afterLoop, .opener .elsePart _ => some .statement
  | .afterTry, .opener (.exceptPart star) _ => some (.afterExcept star)
  | .afterTry, .opener .finallyPart _ => some .statement
  | .afterExcept star, .opener (.exceptPart other) _ =>
      if star = other then some (.afterExcept star) else none
  | .afterExcept _, .opener .elsePart _ => some .afterTryElse
  | .afterExcept _, .opener .finallyPart _ => some .statement
  | .afterTryElse, .opener .finallyPart _ => some .statement
  | .cases, .opener .casePart _ => some .cases
  | _, _ => none

/-- Whether a new statement may stand here, or the block may end. -/
def Expects.ready : Expects → Bool
  | .afterTry | .cases => false
  | _ => true

def Expects.next
    (state : Expects)
    (head : LineHead) :
    Option Expects :=
  match state.ready, starts head with
  | true, some after => some after
  | _, _ => continues state head

/-- What the block under a line holds. -/
def LineHead.inside : LineHead → Expects
  | .opener .matchBlock _ => .cases
  | _ => .statement

def Expects.mayEnd : Expects → Bool
  | .afterTry => false
  | _ => true

/-- The parser on the lines of one block: each clause has a block under it,
and no simple statement has one. -/
def accepts : Expects → List (Block LineHead) → Bool
  | state, [] => state.mayEnd
  | state, .line head inner :: rest =>
      (inner.isEmpty == head.isStatement && accepts head.inside inner) &&
        match state.next head with
        | some after => accepts after rest
        | none => false

/-- Whether lines of text parse. -/
def parses
    (lines : List (Nat × LineHead)) :
    Bool :=
  match readBlocks 0 lines with
  | some blocks => accepts .statement blocks
  | none => false

theorem parses_flatten
    (blocks : List (Block LineHead)) :
    parses (flatten 0 blocks) = accepts .statement blocks := by
  rw [parses, readBlocks_flatten]

/-! ## Trees whose text parses -/

def Clauses.isEmpty : Clauses → Bool
  | .nil => true
  | .cons _ _ _ => false

mutual

/-- Every clause has a statement, and every `try` a handler or at least a
`finally` part. -/
def Stmt.wellFormed : Stmt → Bool
  | .simple _ => true
  | .branch _ _ body orelse =>
      !body.isEmpty && Stmt.wellFormedAll body && Stmt.wellFormedAll orelse
  | .withStmt _ _ body => !body.isEmpty && Stmt.wellFormedAll body
  | .tryStmt _ _ body handlers orelse finalbody =>
      !body.isEmpty && Stmt.wellFormedAll body && handlers.wellFormed &&
        Stmt.wellFormedAll orelse && Stmt.wellFormedAll finalbody &&
        (!handlers.isEmpty || orelse.isEmpty && !finalbody.isEmpty)
  | .matchStmt _ cases => !cases.isEmpty && cases.wellFormed
  | .definition _ _ body => !body.isEmpty && Stmt.wellFormedAll body

def Stmt.wellFormedAll : List Stmt → Bool
  | [] => true
  | stmt :: rest => stmt.wellFormed && Stmt.wellFormedAll rest

def Clauses.wellFormed : Clauses → Bool
  | .nil => true
  | .cons _ body rest => (!body.isEmpty && Stmt.wellFormedAll body) && rest.wellFormed

end

/-! ## Text parses exactly if the tree is well formed -/

/-- The block ends here or goes on with a new statement. -/
def fresh : List (Block LineHead) → Bool
  | [] => true
  | .line head _ :: _ => (starts head).isSome

theorem next_of_starts
    {state : Expects}
    (ready : state.ready = true)
    {head : LineHead}
    (started : starts head = some after) :
    state.next head = some after := by
  simp only [Expects.next, ready, started]

theorem accepts_of_fresh
    {state : Expects}
    (ready : state.ready = true)
    {rest : List (Block LineHead)}
    (isFresh : fresh rest = true) :
    accepts state rest = accepts .statement rest := by
  rcases rest with _ | ⟨⟨head, inner⟩, rest⟩
  · rw [accepts, accepts]
    cases state with
    | afterTry => cases ready
    | _ => rfl
  · obtain ⟨after, started⟩ := Option.isSome_iff_exists.mp isFresh
    rw [accepts, accepts, next_of_starts ready started, next_of_starts rfl started]

theorem fresh_unparse_append
    (stmt : Stmt)
    (rest : List (Block LineHead)) :
    fresh (stmt.unparse ++ rest) = true := by
  cases stmt with
  | branch kind header body orelse => cases kind <;> rfl
  | _ => rfl

theorem fresh_unparseAll_append
    (stmts : List Stmt)
    {rest : List (Block LineHead)}
    (isFresh : fresh rest = true) :
    fresh (Stmt.unparseAll stmts ++ rest) = true := by
  cases stmts with
  | nil => exact isFresh
  | cons stmt others =>
      rw [Stmt.unparseAll, List.append_assoc]
      exact fresh_unparse_append stmt _

theorem isEmpty_unparseAll
    (stmts : List Stmt) :
    (Stmt.unparseAll stmts).isEmpty = stmts.isEmpty := by
  cases stmts with
  | nil => rfl
  | cons stmt others => cases stmt <;> simp [Stmt.unparseAll, Stmt.unparse]

theorem isEmpty_unparse
    (keyword : Keyword)
    (clauses : Clauses) :
    (clauses.unparse keyword).isEmpty = clauses.isEmpty := by
  cases clauses <;> rfl

/-- One clause with its block. -/
theorem accepts_opener
    {state after : Expects}
    {keyword : Keyword}
    {exprs : List ExprNode}
    (follows : state.next (.opener keyword exprs) = some after)
    (inner rest : List (Block LineHead)) :
    accepts state (.line (.opener keyword exprs) inner :: rest) =
      ((!inner.isEmpty && accepts (LineHead.inside (.opener keyword exprs)) inner) &&
        accepts after rest) := by
  simp [accepts, follows, LineHead.isStatement]

/-- A part that may be left out. -/
theorem accepts_partLines
    {state : Expects}
    {keyword : Keyword}
    (follows : state.next (.opener keyword []) = some after)
    (plain : LineHead.inside (.opener keyword []) = .statement)
    (lines rest : List (Block LineHead)) :
    accepts state (partLines keyword lines ++ rest) =
      if lines.isEmpty then
        accepts state rest
      else
        accepts .statement lines && accepts after rest := by
  cases lines with
  | nil => rfl
  | cons first others =>
      rw [partLines, List.singleton_append, accepts_opener follows, plain]
      rfl

theorem accepts_asElif
    (stmts : List Stmt)
    (lone : isLoneIf stmts = true)
    (rest : List (Block LineHead)) :
    accepts .afterIf (asElif (Stmt.unparseAll stmts) ++ rest) =
      accepts .afterIf (Stmt.unparseAll stmts ++ rest) := by
  rcases stmts with _ | ⟨stmt, _ | ⟨second, others⟩⟩
  · cases lone
  · cases stmt with
    | branch kind header body orelse =>
        cases kind with
        | If => simp [Stmt.unparseAll, Stmt.unparse, asElif, accepts, Expects.next,
            Expects.ready, starts, continues, LineHead.inside, LineHead.isStatement]
        | _ => cases lone
    | _ => cases lone
  · cases stmt with
    | branch kind header body orelse => cases kind <;> cases lone
    | _ => cases lone

theorem accepts_statement_nil :
    accepts .statement [] = true := by
  rw [accepts, Expects.mayEnd]
  exact Expects.noConfusion

/-- What follows the handlers of a `try`. -/
theorem accepts_tryParts
    (star : Bool)
    (orelse finalbody : List (Block LineHead))
    {rest : List (Block LineHead)}
    (isFresh : fresh rest = true) :
    accepts (.afterExcept star)
        (partLines .elsePart orelse ++ (partLines .finallyPart finalbody ++ rest)) =
      ((accepts .statement orelse && accepts .statement finalbody) &&
        accepts .statement rest) := by
  have ending :
      ∀ state : Expects, state.ready = true →
        state.next (.opener .finallyPart []) = some .statement →
        accepts state (partLines .finallyPart finalbody ++ rest) =
          (accepts .statement finalbody && accepts .statement rest) := by
    intro state ready follows
    rw [accepts_partLines follows rfl]
    split
    next empty =>
      rw [List.isEmpty_iff.mp empty, accepts_statement_nil, accepts_of_fresh ready isFresh,
        Bool.true_and]
    next => rfl
  rw [accepts_partLines rfl rfl, ending .afterTryElse rfl rfl]
  split
  next empty =>
    rw [List.isEmpty_iff.mp empty, accepts_statement_nil, ending _ rfl rfl, Bool.true_and]
  next => rw [Bool.and_assoc]

/-- A `try` without handlers goes on with its `finally` part. -/
theorem accepts_noHandlers
    (orelse finalbody : List (Block LineHead))
    {rest : List (Block LineHead)}
    (isFresh : fresh rest = true) :
    accepts .afterTry
        (partLines .elsePart orelse ++ (partLines .finallyPart finalbody ++ rest)) =
      ((orelse.isEmpty && (!finalbody.isEmpty && accepts .statement finalbody)) &&
        accepts .statement rest) := by
  cases orelse with
  | cons first others =>
      rw [partLines, List.singleton_append, accepts]
      simp [Expects.next, Expects.ready, continues]
  | nil =>
      rw [partLines, List.nil_append, accepts_partLines rfl rfl]
      cases finalbody with
      | cons first others => simp
      | nil =>
          rcases rest with _ | ⟨⟨head, inner⟩, rest⟩
          · simp [accepts, Expects.mayEnd]
          · obtain ⟨after, started⟩ := Option.isSome_iff_exists.mp isFresh
            have stuck : Expects.afterTry.next head = none := by
              rcases head with stmt | ⟨keyword, exprs⟩
              · rfl
              · cases keyword <;> first | rfl | cases started
            simp [accepts, stuck]

mutual

theorem Stmt.accepts_unparse :
    (stmt : Stmt) →
    {state : Expects} →
    state.ready = true →
    {rest : List (Block LineHead)} →
    fresh rest = true →
    accepts state (stmt.unparse ++ rest) =
      (stmt.wellFormed && accepts .statement rest)
  | .simple stmt, state, ready, rest, isFresh => by
      have follows : state.next (.statement stmt) = some .statement :=
        next_of_starts ready rfl
      simp [Stmt.unparse, Stmt.wellFormed, accepts, follows, LineHead.isStatement,
        LineHead.inside, Expects.mayEnd]
  | .branch kind header body orelse, state, ready, rest, isFresh => by
      have inBody := Stmt.accepts_block body
      have inOrelse := @Stmt.accepts_unparseAll orelse
      obtain ⟨after, started, ready', follows, isIf⟩ :
          ∃ after, starts (.opener (.branch kind) header.exprs) = some after ∧
            after.ready = true ∧ after.next (.opener .elsePart []) = some .statement ∧
            (kind = .If → after = .afterIf) := by
        cases kind with
        | If => exact ⟨_, rfl, rfl, rfl, fun _ => rfl⟩
        | _ => exact ⟨_, rfl, rfl, rfl, nofun⟩
      have tail :
          accepts after
            ((if (decide (kind = .If) && isLoneIf orelse) = true then
                asElif (Stmt.unparseAll orelse)
              else
                partLines .elsePart (Stmt.unparseAll orelse)) ++ rest) =
            (Stmt.wellFormedAll orelse && accepts .statement rest) := by
        by_cases lone : (decide (kind = .If) && isLoneIf orelse) = true
        · rw [if_pos lone]
          rw [Bool.and_eq_true, decide_eq_true_eq] at lone
          rw [isIf lone.1, accepts_asElif orelse lone.2]
          exact inOrelse rfl isFresh
        · rw [if_neg lone, accepts_partLines follows rfl, isEmpty_unparseAll,
            Stmt.accepts_block orelse]
          split
          next empty =>
            rw [List.isEmpty_iff.mp empty, accepts_of_fresh ready' isFresh, Stmt.wellFormedAll,
              Bool.true_and]
          next => rfl
      rw [Stmt.unparse, List.cons_append, accepts_opener (next_of_starts ready started), tail,
        isEmpty_unparseAll, Stmt.wellFormed, ← inBody, ← Bool.and_assoc]
      rfl
  | .withStmt kind header body, state, ready, rest, isFresh => by
      have inBody := Stmt.accepts_block body
      rw [Stmt.unparse, List.singleton_append, accepts_opener (next_of_starts ready rfl),
        isEmpty_unparseAll, Stmt.wellFormed, ← inBody]
      rfl
  | .tryStmt star header body handlers orelse finalbody, state, ready, rest, isFresh => by
      have inBody := Stmt.accepts_block body
      have inOrelse := Stmt.accepts_block orelse
      have inFinal := Stmt.accepts_block finalbody
      rw [Stmt.unparse, List.cons_append, accepts_opener (next_of_starts ready rfl),
        isEmpty_unparseAll, Stmt.wellFormed, ← inBody, ← inOrelse, ← inFinal,
        List.append_assoc, List.append_assoc]
      cases handlers with
      | nil =>
          rw [Clauses.unparse, List.nil_append, accepts_noHandlers _ _ isFresh,
            isEmpty_unparseAll, isEmpty_unparseAll]
          cases orelse with
          | nil => simp [Clauses.wellFormed, Clauses.isEmpty, LineHead.inside, inOrelse,
              Stmt.wellFormedAll, Bool.and_assoc, Bool.and_comm, Bool.and_left_comm]
          | cons first others => simp [Clauses.isEmpty]
      | cons clause clauseBody others =>
          have inClause := Stmt.accepts_block clauseBody
          have inOthers := @Clauses.accepts_unparse others (.afterExcept star) (.exceptPart star)
            (fun _ => by simp [Expects.next, Expects.ready, starts, continues]) (fun _ => rfl)
          rw [Clauses.unparse, List.cons_append, @accepts_opener _ (.afterExcept star) _ _ rfl,
            inOthers, accepts_tryParts star _ _ isFresh, isEmpty_unparseAll, Clauses.wellFormed,
            ← inClause]
          simp [Clauses.isEmpty, LineHead.inside, Bool.and_assoc]
  | .matchStmt header cases, state, ready, rest, isFresh => by
      have inCases := @Clauses.accepts_unparse cases .cases .casePart
        (fun _ => rfl) (fun _ => rfl) []
      have mayEnd : accepts .cases [] = true := by simp [accepts, Expects.mayEnd]
      rw [List.append_nil, mayEnd, Bool.and_true] at inCases
      rw [Stmt.unparse, List.singleton_append, accepts_opener (next_of_starts ready rfl),
        isEmpty_unparse, Stmt.wellFormed, ← inCases]
      rfl
  | .definition kind header body, state, ready, rest, isFresh => by
      have inBody := Stmt.accepts_block body
      rw [Stmt.unparse, List.singleton_append, accepts_opener (next_of_starts ready rfl),
        isEmpty_unparseAll, Stmt.wellFormed, ← inBody]
      rfl

theorem Stmt.accepts_block :
    (stmts : List Stmt) →
    accepts .statement (Stmt.unparseAll stmts) = Stmt.wellFormedAll stmts
  | [] => by
      rw [Stmt.unparseAll, accepts]
      rfl
  | stmt :: others => by
      have isFresh : fresh (Stmt.unparseAll others) = true := by
        simpa using @fresh_unparseAll_append others [] rfl
      rw [Stmt.unparseAll, Stmt.accepts_unparse stmt rfl isFresh, Stmt.accepts_block others,
        Stmt.wellFormedAll]

theorem Stmt.accepts_unparseAll :
    (stmts : List Stmt) →
    {state : Expects} →
    state.ready = true →
    {rest : List (Block LineHead)} →
    fresh rest = true →
    accepts state (Stmt.unparseAll stmts ++ rest) =
      (Stmt.wellFormedAll stmts && accepts .statement rest)
  | [], state, ready, rest, isFresh => by
      rw [Stmt.unparseAll, Stmt.wellFormedAll, List.nil_append, Bool.true_and]
      exact accepts_of_fresh ready isFresh
  | stmt :: others, state, ready, rest, isFresh => by
      rw [Stmt.unparseAll, List.append_assoc,
        Stmt.accepts_unparse stmt ready (fresh_unparseAll_append others isFresh),
        Stmt.accepts_unparseAll others rfl isFresh, Stmt.wellFormedAll, Bool.and_assoc]

theorem Clauses.accepts_unparse :
    (clauses : Clauses) →
    {state : Expects} →
    {keyword : Keyword} →
    (∀ exprs, state.next (.opener keyword exprs) = some state) →
    (∀ exprs, LineHead.inside (.opener keyword exprs) = .statement) →
    (rest : List (Block LineHead)) →
    accepts state (clauses.unparse keyword ++ rest) =
      (clauses.wellFormed && accepts state rest)
  | .nil, state, keyword, follows, plain, rest => by
      simp [Clauses.unparse, Clauses.wellFormed]
  | .cons header body others, state, keyword, follows, plain, rest => by
      rw [Clauses.unparse, List.cons_append, accepts_opener (follows _), plain,
        isEmpty_unparseAll, Stmt.accepts_block body,
        Clauses.accepts_unparse others follows plain rest, Clauses.wellFormed, ← Bool.and_assoc]

end

end TensorPC.Funcid
