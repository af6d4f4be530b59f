import TensorPC.Funcid.UnparsedText

namespace TensorPC.Funcid

/-!
# When folded code is valid and complete

What the folded function holds is compared with the function, statement by
statement.  A block that loses all its statements no longer parses; statements
without a visit method stay without the name, and imports go although they
bind it.
-/

/-! ## Statements and where they stand -/

inductive Part where
  | body | orelse | finalbody | handler | case
  deriving DecidableEq

/-- A clause of a compound statement. -/
structure Enclosing where
  header : Header
  part : Part

/-- A simple statement and the clauses around it, the outermost first. -/
structure Place where
  path : List Enclosing
  stmt : SimpleStmt

def Place.within
    (header : Header)
    (part : Part)
    (place : Place) :
    Place where
  path := ⟨header, part⟩ :: place.path
  stmt := place.stmt

mutual

/-- The simple statements outside of nested definitions, in order. -/
def Stmt.places : Stmt → List Place
  | .simple stmt => [⟨[], stmt⟩]
  | .branch _ header body orelse =>
      (Stmt.placesAll body).map (Place.within header .body) ++
        (Stmt.placesAll orelse).map (Place.within header .orelse)
  | .withStmt _ header body => (Stmt.placesAll body).map (Place.within header .body)
  | .tryStmt _ header body handlers orelse finalbody =>
      (Stmt.placesAll body).map (Place.within header .body) ++
        ((handlers.places .handler).map (Place.within header .handler) ++
          ((Stmt.placesAll orelse).map (Place.within header .orelse) ++
            (Stmt.placesAll finalbody).map (Place.within header .finalbody)))
  | .matchStmt header cases => (cases.places .case).map (Place.within header .case)
  | .definition _ _ _ => []

def Stmt.placesAll : List Stmt → List Place
  | [] => []
  | stmt :: rest => stmt.places ++ Stmt.placesAll rest

def Clauses.places
    (part : Part) :
    Clauses → List Place
  | .nil => []
  | .cons header body rest =>
      (Stmt.placesAll body).map (Place.within header part) ++ rest.places part

end

mutual

/-- The compound statements of a tree; nothing inside nested definitions. -/
def Stmt.compounds : Stmt → List Stmt
  | .simple _ => []
  | .branch kind header body orelse =>
      .branch kind header body orelse :: (Stmt.compoundsAll body ++ Stmt.compoundsAll orelse)
  | .withStmt kind header body => .withStmt kind header body :: Stmt.compoundsAll body
  | .tryStmt star header body handlers orelse finalbody =>
      .tryStmt star header body handlers orelse finalbody ::
        (Stmt.compoundsAll body ++ (handlers.compounds ++
          (Stmt.compoundsAll orelse ++ Stmt.compoundsAll finalbody)))
  | .matchStmt header cases => .matchStmt header cases :: cases.compounds
  | .definition kind header body => [.definition kind header body]

def Stmt.compoundsAll : List Stmt → List Stmt
  | [] => []
  | stmt :: rest => stmt.compounds ++ Stmt.compoundsAll rest

def Clauses.compounds : Clauses → List Stmt
  | .nil => []
  | .cons _ body rest => Stmt.compoundsAll body ++ rest.compounds

end

def Clauses.headerNames : Clauses → List String
  | .nil => []
  | .cons header _ rest => header.names ++ rest.headerNames

/-- The names in a compound statement itself, not in the statements it encloses. -/
def Stmt.ownNames : Stmt → List String
  | .simple _ => []
  | .branch _ header _ _ => header.names
  | .withStmt _ header _ => header.names
  | .tryStmt _ header _ handlers _ _ => header.names ++ handlers.headerNames
  | .matchStmt header cases => header.names ++ cases.headerNames
  | .definition _ header _ => header.names

/-- One of some compound statements has the name in itself, or one of some
simple statements has it. -/
def Mentioned
    (target : String)
    (compounds : List Stmt)
    (places : List Place) :
    Prop :=
  (∃ compound ∈ compounds, target ∈ compound.ownNames) ∨
    ∃ place ∈ places, place.stmt.mentions target = true

/-- A compound statement has the name in itself or encloses a statement with it. -/
def Stmt.Mentioning
    (target : String)
    (stmt : Stmt) :
    Prop :=
  Mentioned target stmt.compounds stmt.places

/-- Folded code is valid and complete. -/
structure FoldedRight
    (tree : FunctionNode)
    (target : String) :
    Prop where
  parsesWithFunc : parses (foldFuncNodeWithTargetIdentifierToCode tree target true) = true
  parsesWithoutFunc : parses (foldFuncNodeWithTargetIdentifierToCode tree target false) = true
  simples :
    Stmt.placesAll (foldFuncNodeWithTargetIdentifier tree target).body =
      (Stmt.placesAll tree.body).filter fun place => place.stmt.mentions target
  compounds :
    ∀ compound ∈ Stmt.compoundsAll (foldFuncNodeWithTargetIdentifier tree target).body,
      compound.Mentioning target

/-! ## The condition on the function -/

def anySurvives
    (target : String)
    (stmts : List Stmt) :
    Bool :=
  stmts.any (Stmt.survives target)

mutual

/-- No clause that survives loses its statements, and a `try` keeps a handler,
or has no `else` part and keeps its `finally` part. -/
def Stmt.staysValid
    (target : String) :
    Stmt → Bool
  | .simple _ => true
  | .branch kind header body orelse =>
      !(Stmt.branch kind header body orelse).survives target ||
        anySurvives target body && Stmt.staysValidAll target body &&
          Stmt.staysValidAll target orelse
  | .withStmt kind header body =>
      !(Stmt.withStmt kind header body).survives target ||
        anySurvives target body && Stmt.staysValidAll target body
  | .tryStmt star header body handlers orelse finalbody =>
      !(Stmt.tryStmt star header body handlers orelse finalbody).survives target ||
        anySurvives target body && Stmt.staysValidAll target body &&
          handlers.handlersStayValid target && Stmt.staysValidAll target orelse &&
            Stmt.staysValidAll target finalbody &&
              (handlers.anyHandlerSurvives target ||
                !anySurvives target orelse && anySurvives target finalbody)
  | .matchStmt header cases =>
      !(Stmt.matchStmt header cases).survives target ||
        !cases.isEmpty && cases.casesStayValid target
  | .definition _ _ _ => true

def Stmt.staysValidAll
    (target : String) :
    List Stmt → Bool
  | [] => true
  | stmt :: rest => stmt.staysValid target && Stmt.staysValidAll target rest

def Clauses.handlersStayValid
    (target : String) :
    Clauses → Bool
  | .nil => true
  | .cons header body rest =>
      (!handlerSurvives target header body ||
        anySurvives target body && Stmt.staysValidAll target body) &&
        rest.handlersStayValid target

def Clauses.casesStayValid
    (target : String) :
    Clauses → Bool
  | .nil => true
  | .cons _ body rest =>
      anySurvives target body && Stmt.staysValidAll target body && rest.casesStayValid target

def Clauses.anyHandlerSurvives
    (target : String) :
    Clauses → Bool
  | .nil => false
  | .cons header body rest =>
      handlerSurvives target header body || rest.anyHandlerSurvives target

end

/-- No simple statement in a dropped statement has the name. -/
def dropsNoMention
    (target : String)
    (places : List Place) :
    Bool :=
  places.all fun place => !place.stmt.mentions target

mutual

/-- The simple statements that stay are those with the name: what stands in
clauses that survive has it or a visit method that drops it, imports do not
bind it, and a `global` or `nonlocal` for it stands in no dropped clause. -/
def Stmt.keepsMentions
    (target : String) :
    Stmt → Bool
  | .simple stmt =>
      stmt.kind.visitMethod.keeps (stmt.names.contains target) == stmt.mentions target
  | .branch kind header body orelse =>
      if (Stmt.branch kind header body orelse).survives target then
        Stmt.keepsMentionsAll target body && Stmt.keepsMentionsAll target orelse
      else
        dropsNoMention target (Stmt.branch kind header body orelse).places
  | .withStmt kind header body =>
      if (Stmt.withStmt kind header body).survives target then
        Stmt.keepsMentionsAll target body
      else
        dropsNoMention target (Stmt.withStmt kind header body).places
  | .tryStmt star header body handlers orelse finalbody =>
      if (Stmt.tryStmt star header body handlers orelse finalbody).survives target then
        Stmt.keepsMentionsAll target body && handlers.handlersKeepMentions target &&
          Stmt.keepsMentionsAll target orelse && Stmt.keepsMentionsAll target finalbody
      else
        dropsNoMention target
          (Stmt.tryStmt star header body handlers orelse finalbody).places
  | .matchStmt header cases =>
      if (Stmt.matchStmt header cases).survives target then
        cases.casesKeepMentions target
      else
        dropsNoMention target (Stmt.matchStmt header cases).places
  | .definition _ _ _ => true

def Stmt.keepsMentionsAll
    (target : String) :
    List Stmt → Bool
  | [] => true
  | stmt :: rest => stmt.keepsMentions target && Stmt.keepsMentionsAll target rest

def Clauses.handlersKeepMentions
    (target : String) :
    Clauses → Bool
  | .nil => true
  | .cons header body rest =>
      (if handlerSurvives target header body then
        Stmt.keepsMentionsAll target body
      else
        dropsNoMention target (Stmt.placesAll body)) && rest.handlersKeepMentions target

def Clauses.casesKeepMentions
    (target : String) :
    Clauses → Bool
  | .nil => true
  | .cons _ body rest =>
      Stmt.keepsMentionsAll target body && rest.casesKeepMentions target

end

/-- The function's own body keeps a statement, and everything in it is kept as
the parser and the reader of the folded code need it. -/
def FunctionNode.foldsWell
    (tree : FunctionNode)
    (target : String) :
    Bool :=
  anySurvives target tree.body && Stmt.staysValidAll target tree.body &&
    Stmt.keepsMentionsAll target tree.body

/-! ## Validity -/

@[simp] theorem visitAll_cons
    (target : String)
    (stmt : Stmt)
    (rest : List Stmt) :
    Stmt.visitAll target (stmt :: rest) =
      if stmt.survives target then
        stmt.pruned target :: Stmt.visitAll target rest
      else
        Stmt.visitAll target rest := by
  rw [Stmt.visitAll, Stmt.visit_eq]
  split <;> rfl

theorem isEmpty_visitAll
    (target : String)
    (stmts : List Stmt) :
    (Stmt.visitAll target stmts).isEmpty = !anySurvives target stmts := by
  induction stmts with
  | nil => rfl
  | cons stmt rest inductionHypothesis =>
      rw [visitAll_cons, anySurvives, List.any_cons]
      split
      next survives => simp [survives]
      next dropped => simpa [dropped, anySurvives] using inductionHypothesis

theorem isEmpty_visitHandlers
    (target : String)
    (handlers : Clauses) :
    (handlers.visitHandlers target).isEmpty = !handlers.anyHandlerSurvives target := by
  fun_induction Clauses.anyHandlerSurvives target handlers with
  | case1 => rfl
  | case2 header body rest inductionHypothesis =>
      rw [Clauses.visitHandlers_cons]
      split
      next survives => simp [survives, Clauses.isEmpty]
      next dropped => simpa [dropped] using inductionHypothesis

theorem isEmpty_visitCases
    (target : String)
    (cases : Clauses) :
    (cases.visitCases target).isEmpty = cases.isEmpty := by
  cases cases <;> rfl

mutual

theorem Stmt.wellFormed_pruned
    {target : String} :
    (stmt : Stmt) →
    stmt.survives target = true →
    (stmt.pruned target).wellFormed = stmt.staysValid target
  | .simple _, _ => by
      rfl
  | .branch kind header body orelse, survives => by
      simp [Stmt.pruned, Stmt.wellFormed, Stmt.staysValid, survives, isEmpty_visitAll,
        Stmt.wellFormedAll_visitAll body, Stmt.wellFormedAll_visitAll orelse]
  | .withStmt kind header body, survives => by
      simp [Stmt.pruned, Stmt.wellFormed, Stmt.staysValid, survives, isEmpty_visitAll,
        Stmt.wellFormedAll_visitAll body]
  | .tryStmt star header body handlers orelse finalbody, survives => by
      simp [Stmt.pruned, Stmt.wellFormed, Stmt.staysValid, survives, isEmpty_visitAll,
        isEmpty_visitHandlers, Stmt.wellFormedAll_visitAll body,
        Clauses.wellFormed_visitHandlers handlers, Stmt.wellFormedAll_visitAll orelse,
        Stmt.wellFormedAll_visitAll finalbody]
  | .matchStmt header cases, survives => by
      simp [Stmt.pruned, Stmt.wellFormed, Stmt.staysValid, survives, isEmpty_visitCases,
        Clauses.wellFormed_visitCases cases]
  | .definition _ _ _, survives => by
      cases survives

/-- The folded statements parse exactly if no clause loses its block. -/
theorem Stmt.wellFormedAll_visitAll
    {target : String} :
    (stmts : List Stmt) →
    Stmt.wellFormedAll (Stmt.visitAll target stmts) = Stmt.staysValidAll target stmts
  | [] => by
      rfl
  | stmt :: rest => by
      rw [visitAll_cons, Stmt.staysValidAll]
      split
      next survives =>
        rw [Stmt.wellFormedAll, Stmt.wellFormed_pruned stmt survives,
          Stmt.wellFormedAll_visitAll rest]
      next dropped =>
        have valid : stmt.staysValid target = true := by
          cases stmt <;> simp [Stmt.staysValid, dropped]
        rw [valid, Bool.true_and, Stmt.wellFormedAll_visitAll rest]

theorem Clauses.wellFormed_visitHandlers
    {target : String} :
    (handlers : Clauses) →
    (handlers.visitHandlers target).wellFormed = handlers.handlersStayValid target
  | .nil => by
      rfl
  | .cons header body rest => by
      rw [Clauses.visitHandlers_cons, Clauses.handlersStayValid]
      split
      next survives =>
        simp [Clauses.wellFormed, survives, isEmpty_visitAll, Stmt.wellFormedAll_visitAll body,
          Clauses.wellFormed_visitHandlers rest]
      next dropped => simp [dropped, Clauses.wellFormed_visitHandlers rest]

theorem Clauses.wellFormed_visitCases
    {target : String} :
    (cases : Clauses) →
    (cases.visitCases target).wellFormed = cases.casesStayValid target
  | .nil => by
      rfl
  | .cons header body rest => by
      simp [Clauses.visitCases, Clauses.wellFormed, Clauses.casesStayValid, isEmpty_visitAll,
        Stmt.wellFormedAll_visitAll body, Clauses.wellFormed_visitCases rest]

end

theorem parsesWithoutFunc_eq
    (tree : FunctionNode)
    (target : String) :
    parses (foldFuncNodeWithTargetIdentifierToCode tree target false) =
      Stmt.staysValidAll target tree.body := by
  rw [foldFuncNodeWithTargetIdentifierToCode, if_neg (by decide), parses_flatten,
    Stmt.accepts_block]
  exact Stmt.wellFormedAll_visitAll tree.body

theorem parsesWithFunc_eq
    (tree : FunctionNode)
    (target : String) :
    parses (foldFuncNodeWithTargetIdentifierToCode tree target true) =
      (anySurvives target tree.body && Stmt.staysValidAll target tree.body) := by
  have accepted :=
    Stmt.accepts_block [.definition (if tree.isAsync then .AsyncFunctionDef else .FunctionDef)
      tree.header (Stmt.visitAll target tree.body)]
  rw [Stmt.unparseAll, Stmt.unparseAll, List.append_nil, Stmt.wellFormedAll,
    Stmt.wellFormedAll, Stmt.wellFormed, Bool.and_true, isEmpty_visitAll,
    Stmt.wellFormedAll_visitAll tree.body, Bool.not_not] at accepted
  rw [foldFuncNodeWithTargetIdentifierToCode, if_pos rfl, parses_flatten]
  exact accepted

/-! ## Which simple statements stay -/

/-- What is kept of some places are those with the name. -/
def KeepsMentions
    (target : String)
    (kept places : List Place) :
    Prop :=
  kept = places.filter fun place => place.stmt.mentions target

theorem keepsMentions_nil
    (target : String)
    (places : List Place) :
    KeepsMentions target [] places ↔ dropsNoMention target places = true := by
  rw [KeepsMentions, eq_comm, List.filter_eq_nil_iff, dropsNoMention, List.all_eq_true]
  simp

/-- Parts that only lose places are right together exactly if each is. -/
theorem keepsMentions_append
    {target : String}
    {first second firstPlaces secondPlaces : List Place}
    (fromFirst : first.Sublist firstPlaces)
    (fromSecond : second.Sublist secondPlaces) :
    KeepsMentions target (first ++ second) (firstPlaces ++ secondPlaces) ↔
      KeepsMentions target first firstPlaces ∧ KeepsMentions target second secondPlaces := by
  simp only [KeepsMentions, List.filter_append]
  constructor
  · intro agrees
    have mentioned :
        ∀ place ∈ first ++ second, place.stmt.mentions target = true := by
      intro place listed
      rw [agrees, ← List.filter_append] at listed
      exact (List.mem_filter.mp listed).2
    have firstKept := fromFirst.filter fun place => place.stmt.mentions target
    rw [List.filter_eq_self.mpr fun place listed =>
      mentioned place (List.mem_append_left _ listed)] at firstKept
    have secondKept := fromSecond.filter fun place => place.stmt.mentions target
    rw [List.filter_eq_self.mpr fun place listed =>
      mentioned place (List.mem_append_right _ listed)] at secondKept
    have lengths := congrArg List.length agrees
    simp only [List.length_append] at lengths
    have firstLength := firstKept.length_le
    have secondLength := secondKept.length_le
    exact ⟨firstKept.eq_of_length (by omega), secondKept.eq_of_length (by omega)⟩
  · rintro ⟨agreesFirst, agreesSecond⟩
    rw [← agreesFirst, ← agreesSecond]

theorem keepsMentions_within
    (target : String)
    (header : Header)
    (part : Part)
    (kept places : List Place) :
    KeepsMentions target (kept.map (Place.within header part))
        (places.map (Place.within header part)) ↔
      KeepsMentions target kept places := by
  have injective : Function.Injective (Place.within header part) := by
    rintro ⟨path, stmt⟩ ⟨otherPath, otherStmt⟩ agrees
    simpa [Place.within] using agrees
  rw [KeepsMentions, KeepsMentions, List.filter_map]
  exact (List.map_injective_iff.mpr injective).eq_iff

theorem Stmt.placesAll_append
    (first second : List Stmt) :
    Stmt.placesAll (first ++ second) = Stmt.placesAll first ++ Stmt.placesAll second := by
  induction first with
  | nil => rfl
  | cons stmt rest inductionHypothesis =>
      simp [Stmt.placesAll, inductionHypothesis]

mutual

theorem Stmt.places_pruned_sublist
    {target : String} :
    (stmt : Stmt) →
    (stmt.pruned target).places.Sublist stmt.places
  | .simple _ => List.Sublist.refl _
  | .branch _ _ body orelse =>
      ((Stmt.placesAll_visitAll_sublist body).map _).append
        ((Stmt.placesAll_visitAll_sublist orelse).map _)
  | .withStmt _ _ body => (Stmt.placesAll_visitAll_sublist body).map _
  | .tryStmt _ _ body handlers orelse finalbody =>
      ((Stmt.placesAll_visitAll_sublist body).map _).append
        (((Clauses.places_visitHandlers_sublist handlers).map _).append
          (((Stmt.placesAll_visitAll_sublist orelse).map _).append
            ((Stmt.placesAll_visitAll_sublist finalbody).map _)))
  | .matchStmt _ cases => (Clauses.places_visitCases_sublist cases).map _
  | .definition _ _ _ => List.Sublist.refl _

theorem Stmt.placesAll_visitAll_sublist
    {target : String} :
    (stmts : List Stmt) →
    (Stmt.placesAll (Stmt.visitAll target stmts)).Sublist (Stmt.placesAll stmts)
  | [] => List.Sublist.refl _
  | stmt :: rest => by
      rw [visitAll_cons, Stmt.placesAll]
      split
      · exact (Stmt.places_pruned_sublist stmt).append (Stmt.placesAll_visitAll_sublist rest)
      · exact (Stmt.placesAll_visitAll_sublist rest).trans (List.sublist_append_right _ _)

theorem Clauses.places_visitHandlers_sublist
    {target : String} :
    (handlers : Clauses) →
    ((handlers.visitHandlers target).places .handler).Sublist (handlers.places .handler)
  | .nil => List.Sublist.refl _
  | .cons header body rest => by
      rw [Clauses.visitHandlers_cons, Clauses.places]
      split
      · exact ((Stmt.placesAll_visitAll_sublist body).map _).append
          (Clauses.places_visitHandlers_sublist rest)
      · exact (Clauses.places_visitHandlers_sublist rest).trans (List.sublist_append_right _ _)

theorem Clauses.places_visitCases_sublist
    {target : String} :
    (cases : Clauses) →
    ((cases.visitCases target).places .case).Sublist (cases.places .case)
  | .nil => List.Sublist.refl _
  | .cons _ body rest =>
      ((Stmt.placesAll_visitAll_sublist body).map _).append
        (Clauses.places_visitCases_sublist rest)

end

/-- A compound statement that survives is right if its clauses are, and one that
is dropped if it has no such statement. -/
theorem keepsMentions_visit
    {target : String}
    {stmt : Stmt}
    {clauses : Bool}
    (agrees :
      KeepsMentions target (stmt.pruned target).places stmt.places ↔ clauses = true) :
    KeepsMentions target (Stmt.placesAll (stmt.visit target).toList) stmt.places ↔
      (if stmt.survives target then
        clauses
      else
        dropsNoMention target stmt.places) = true := by
  rw [Stmt.visit_eq]
  split
  · rw [← agrees, Option.toList_some, Stmt.placesAll, Stmt.placesAll, List.append_nil]
  · exact keepsMentions_nil target _

mutual

theorem Stmt.keepsMentions_iff
    {target : String} :
    (stmt : Stmt) →
    (KeepsMentions target (Stmt.placesAll (stmt.visit target).toList) stmt.places ↔
      stmt.keepsMentions target = true)
  | .simple stmt => by
      rw [Stmt.visit, Stmt.keepsMentions, beq_iff_eq]
      cases kept : stmt.kind.visitMethod.keeps (stmt.names.contains target) <;>
        cases mentioned : stmt.mentions target <;>
          simp [KeepsMentions, Stmt.places, Stmt.placesAll, mentioned]
  | .branch kind header body orelse => by
      refine keepsMentions_visit ?_
      rw [Stmt.pruned, Stmt.places, Stmt.places, keepsMentions_append
        ((Stmt.placesAll_visitAll_sublist body).map _)
        ((Stmt.placesAll_visitAll_sublist orelse).map _), keepsMentions_within,
        keepsMentions_within, Stmt.keepsMentionsAll_iff body,
        Stmt.keepsMentionsAll_iff orelse, Bool.and_eq_true]
  | .withStmt kind header body => by
      refine keepsMentions_visit ?_
      rw [← Stmt.keepsMentionsAll_iff body]
      exact keepsMentions_within target header .body _ _
  | .tryStmt star header body handlers orelse finalbody => by
      refine keepsMentions_visit ?_
      have inBody := (@Stmt.placesAll_visitAll_sublist target body).map
        (Place.within header .body)
      have inHandlers := (@Clauses.places_visitHandlers_sublist target handlers).map
        (Place.within header .handler)
      have inOrelse := (@Stmt.placesAll_visitAll_sublist target orelse).map
        (Place.within header .orelse)
      have inFinal := (@Stmt.placesAll_visitAll_sublist target finalbody).map
        (Place.within header .finalbody)
      rw [Stmt.pruned, Stmt.places, Stmt.places,
        keepsMentions_append inBody (inHandlers.append (inOrelse.append inFinal)),
        keepsMentions_append inHandlers (inOrelse.append inFinal),
        keepsMentions_append inOrelse inFinal, keepsMentions_within, keepsMentions_within,
        keepsMentions_within, keepsMentions_within, Stmt.keepsMentionsAll_iff body,
        Clauses.handlersKeepMentions_iff handlers, Stmt.keepsMentionsAll_iff orelse,
        Stmt.keepsMentionsAll_iff finalbody]
      simp only [Bool.and_eq_true, and_assoc]
  | .matchStmt header cases => by
      refine keepsMentions_visit ?_
      rw [← Clauses.casesKeepMentions_iff cases]
      exact keepsMentions_within target header .case _ _
  | .definition _ _ _ => by
      simp [Stmt.visit, Stmt.keepsMentions, KeepsMentions, Stmt.placesAll, Stmt.places]

/-- The folded statements hold exactly the simple statements with the name. -/
theorem Stmt.keepsMentionsAll_iff
    {target : String} :
    (stmts : List Stmt) →
    (KeepsMentions target (Stmt.placesAll (Stmt.visitAll target stmts))
        (Stmt.placesAll stmts) ↔
      Stmt.keepsMentionsAll target stmts = true)
  | [] => by
      simp [KeepsMentions, Stmt.visitAll, Stmt.placesAll, Stmt.keepsMentionsAll]
  | stmt :: rest => by
      have first : (Stmt.placesAll (stmt.visit target).toList).Sublist stmt.places := by
        simpa [Stmt.visitAll, Stmt.placesAll] using
          @Stmt.placesAll_visitAll_sublist target [stmt]
      rw [Stmt.visitAll, Stmt.placesAll_append, Stmt.placesAll,
        keepsMentions_append first (Stmt.placesAll_visitAll_sublist rest),
        Stmt.keepsMentions_iff stmt, Stmt.keepsMentionsAll_iff rest, Stmt.keepsMentionsAll,
        Bool.and_eq_true]

theorem Clauses.handlersKeepMentions_iff
    {target : String} :
    (handlers : Clauses) →
    (KeepsMentions target ((handlers.visitHandlers target).places .handler)
        (handlers.places .handler) ↔
      handlers.handlersKeepMentions target = true)
  | .nil => by
      simp [KeepsMentions, Clauses.visitHandlers, Clauses.places,
        Clauses.handlersKeepMentions]
  | .cons header body rest => by
      have others := @Clauses.places_visitHandlers_sublist target rest
      rw [Clauses.visitHandlers_cons, Clauses.handlersKeepMentions, Bool.and_eq_true,
        ← Clauses.handlersKeepMentions_iff rest, Clauses.places]
      split
      · rw [Clauses.places, keepsMentions_append
          ((Stmt.placesAll_visitAll_sublist body).map _) others, keepsMentions_within,
          Stmt.keepsMentionsAll_iff body]
      · have dropped := @keepsMentions_append target _ _ _ _ (List.nil_sublist
          ((Stmt.placesAll body).map (Place.within header .handler))) others
        rw [List.nil_append] at dropped
        rw [dropped, keepsMentions_nil, dropsNoMention, dropsNoMention, List.all_map]
        rfl

theorem Clauses.casesKeepMentions_iff
    {target : String} :
    (cases : Clauses) →
    (KeepsMentions target ((cases.visitCases target).places .case) (cases.places .case) ↔
      cases.casesKeepMentions target = true)
  | .nil => by
      simp [KeepsMentions, Clauses.visitCases, Clauses.places, Clauses.casesKeepMentions]
  | .cons header body rest => by
      rw [Clauses.visitCases, Clauses.places, Clauses.places, keepsMentions_append
        ((Stmt.placesAll_visitAll_sublist body).map _)
        (Clauses.places_visitCases_sublist rest), keepsMentions_within,
        Stmt.keepsMentionsAll_iff body, Clauses.casesKeepMentions_iff rest,
        Clauses.casesKeepMentions, Bool.and_eq_true]

end

/-! ## Which compound statements stay -/

theorem Mentioned.append_left
    {target : String}
    {compounds : List Stmt}
    {places : List Place}
    (mentioned : Mentioned target compounds places)
    (moreCompounds : List Stmt)
    (morePlaces : List Place) :
    Mentioned target (compounds ++ moreCompounds) (places ++ morePlaces) := by
  rcases mentioned with ⟨compound, listed, named⟩ | ⟨place, listed, named⟩
  · exact Or.inl ⟨compound, List.mem_append_left _ listed, named⟩
  · exact Or.inr ⟨place, List.mem_append_left _ listed, named⟩

theorem Mentioned.append_right
    {target : String}
    {compounds : List Stmt}
    {places : List Place}
    (mentioned : Mentioned target compounds places)
    (moreCompounds : List Stmt)
    (morePlaces : List Place) :
    Mentioned target (moreCompounds ++ compounds) (morePlaces ++ places) := by
  rcases mentioned with ⟨compound, listed, named⟩ | ⟨place, listed, named⟩
  · exact Or.inl ⟨compound, List.mem_append_right _ listed, named⟩
  · exact Or.inr ⟨place, List.mem_append_right _ listed, named⟩

theorem Mentioned.within
    {target : String}
    {compounds : List Stmt}
    {places : List Place}
    (mentioned : Mentioned target compounds places)
    (header : Header)
    (part : Part) :
    Mentioned target compounds (places.map (Place.within header part)) := by
  rcases mentioned with inCompound | ⟨place, listed, named⟩
  · exact Or.inl inCompound
  · exact Or.inr ⟨_, List.mem_map_of_mem listed, named⟩

theorem Mentioned.cons
    {target : String}
    {compounds : List Stmt}
    {places : List Place}
    (mentioned : Mentioned target compounds places)
    (stmt : Stmt) :
    Mentioned target (stmt :: compounds) places :=
  mentioned.append_right [stmt] []

mutual

/-- A name in a statement is its own or that of a statement it encloses. -/
theorem Stmt.mentioning_of_mem_names
    {target : String} :
    (stmt : Stmt) →
    target ∈ stmt.names false →
    Mentioned target stmt.compounds stmt.places
  | .simple stmt, named => by
      refine Or.inr ⟨⟨[], stmt⟩, List.mem_singleton.mpr rfl, ?_⟩
      rw [SimpleStmt.mentions, Bool.or_eq_true]
      exact Or.inl (List.contains_iff_mem.mpr named)
  | .branch kind header body orelse, named => by
      simp only [Stmt.names, List.mem_append] at named
      rcases named with own | inBody | inOrelse
      · exact Or.inl ⟨_, List.mem_cons_self, own⟩
      · exact (((Stmt.mentioned_of_mem_namesAll body inBody).within _ _).append_left _ _).cons _
      · exact (((Stmt.mentioned_of_mem_namesAll orelse inOrelse).within _ _).append_right
          _ _).cons _
  | .withStmt kind header body, named => by
      simp only [Stmt.names, List.mem_append] at named
      rcases named with own | inBody
      · exact Or.inl ⟨_, List.mem_cons_self, own⟩
      · exact ((Stmt.mentioned_of_mem_namesAll body inBody).within _ _).cons _
  | .tryStmt star header body handlers orelse finalbody, named => by
      simp only [Stmt.names, List.mem_append] at named
      rcases named with own | inBody | inHandlers | inOrelse | inFinal
      · exact Or.inl ⟨_, List.mem_cons_self, List.mem_append_left _ own⟩
      · exact (((Stmt.mentioned_of_mem_namesAll body inBody).within _ _).append_left _ _).cons _
      · rcases Clauses.mentioned_of_mem_names .handler handlers inHandlers with own | inside
        · exact Or.inl ⟨_, List.mem_cons_self, List.mem_append_right _ own⟩
        · exact ((((inside.within _ _).append_left _ _).append_right _ _)).cons _
      · exact (((((Stmt.mentioned_of_mem_namesAll orelse inOrelse).within _ _).append_left
          _ _).append_right _ _).append_right _ _).cons _
      · exact (((((Stmt.mentioned_of_mem_namesAll finalbody inFinal).within _ _).append_right
          _ _).append_right _ _).append_right _ _).cons _
  | .matchStmt header cases, named => by
      simp only [Stmt.names, List.mem_append] at named
      rcases named with own | inCases
      · exact Or.inl ⟨_, List.mem_cons_self, List.mem_append_left _ own⟩
      · rcases Clauses.mentioned_of_mem_names .case cases inCases with own | inside
        · exact Or.inl ⟨_, List.mem_cons_self, List.mem_append_right _ own⟩
        · exact (inside.within _ _).cons _
  | .definition _ _ _, named => by
      cases named

theorem Stmt.mentioned_of_mem_namesAll
    {target : String} :
    (stmts : List Stmt) →
    target ∈ Stmt.namesAll false stmts →
    Mentioned target (Stmt.compoundsAll stmts) (Stmt.placesAll stmts)
  | stmt :: rest, named => by
      rw [Stmt.namesAll, List.mem_append] at named
      rcases named with inFirst | inRest
      · exact (Stmt.mentioning_of_mem_names stmt inFirst).append_left _ _
      · exact (Stmt.mentioned_of_mem_namesAll rest inRest).append_right _ _

theorem Clauses.mentioned_of_mem_names
    {target : String}
    (part : Part) :
    (clauses : Clauses) →
    target ∈ clauses.names false →
    target ∈ clauses.headerNames ∨
      Mentioned target clauses.compounds (clauses.places part)
  | .cons header body rest, named => by
      simp only [Clauses.names, List.mem_append] at named
      rcases named with (own | inBody) | inRest
      · exact Or.inl (List.mem_append_left _ own)
      · exact Or.inr
          (((Stmt.mentioned_of_mem_namesAll body inBody).within _ _).append_left _ _)
      · rcases Clauses.mentioned_of_mem_names part rest inRest with own | inside
        · exact Or.inl (List.mem_append_right _ own)
        · exact Or.inr (inside.append_right _ _)

end

mutual

/-- Every compound statement that stays has the name somewhere in it. -/
theorem Stmt.mem_names_of_mem_compounds
    {target : String}
    {compound : Stmt} :
    (stmt : Stmt) →
    stmt.survives target = true →
    compound ∈ (stmt.pruned target).compounds →
    target ∈ compound.names false
  | .simple stmt, survives, listed => by
      cases listed
  | .branch kind header body orelse, survives, listed => by
      simp only [Stmt.pruned, Stmt.compounds, List.mem_cons, List.mem_append] at listed
      rcases listed with rfl | inBody | inOrelse
      · exact (mem_names_pruned false survives).mpr (List.contains_iff_mem.mp survives)
      · exact Stmt.mem_names_of_mem_compoundsAll body inBody
      · exact Stmt.mem_names_of_mem_compoundsAll orelse inOrelse
  | .withStmt kind header body, survives, listed => by
      simp only [Stmt.pruned, Stmt.compounds, List.mem_cons] at listed
      rcases listed with rfl | inBody
      · exact (mem_names_pruned false survives).mpr (List.contains_iff_mem.mp survives)
      · exact Stmt.mem_names_of_mem_compoundsAll body inBody
  | .tryStmt star header body handlers orelse finalbody, survives, listed => by
      simp only [Stmt.pruned, Stmt.compounds, List.mem_cons, List.mem_append] at listed
      rcases listed with rfl | inBody | inHandlers | inOrelse | inFinal
      · exact (mem_names_pruned false survives).mpr (List.contains_iff_mem.mp survives)
      · exact Stmt.mem_names_of_mem_compoundsAll body inBody
      · exact Clauses.mem_names_of_mem_handlers handlers inHandlers
      · exact Stmt.mem_names_of_mem_compoundsAll orelse inOrelse
      · exact Stmt.mem_names_of_mem_compoundsAll finalbody inFinal
  | .matchStmt header cases, survives, listed => by
      simp only [Stmt.pruned, Stmt.compounds, List.mem_cons] at listed
      rcases listed with rfl | inCases
      · exact (mem_names_pruned false survives).mpr (List.contains_iff_mem.mp survives)
      · exact Clauses.mem_names_of_mem_cases cases inCases
  | .definition _ _ _, survives, _ => by
      cases survives

theorem Stmt.mem_names_of_mem_compoundsAll
    {target : String}
    {compound : Stmt} :
    (stmts : List Stmt) →
    compound ∈ Stmt.compoundsAll (Stmt.visitAll target stmts) →
    target ∈ compound.names false
  | stmt :: rest, listed => by
      rw [visitAll_cons] at listed
      split at listed
      next survives =>
        rw [Stmt.compoundsAll, List.mem_append] at listed
        rcases listed with inFirst | inRest
        · exact Stmt.mem_names_of_mem_compounds stmt survives inFirst
        · exact Stmt.mem_names_of_mem_compoundsAll rest inRest
      next => exact Stmt.mem_names_of_mem_compoundsAll rest listed

theorem Clauses.mem_names_of_mem_handlers
    {target : String}
    {compound : Stmt} :
    (handlers : Clauses) →
    compound ∈ (handlers.visitHandlers target).compounds →
    target ∈ compound.names false
  | .cons header body rest, listed => by
      rw [Clauses.visitHandlers_cons] at listed
      split at listed
      · rw [Clauses.compounds, List.mem_append] at listed
        rcases listed with inBody | inRest
        · exact Stmt.mem_names_of_mem_compoundsAll body inBody
        · exact Clauses.mem_names_of_mem_handlers rest inRest
      · exact Clauses.mem_names_of_mem_handlers rest listed

theorem Clauses.mem_names_of_mem_cases
    {target : String}
    {compound : Stmt} :
    (cases : Clauses) →
    compound ∈ (cases.visitCases target).compounds →
    target ∈ compound.names false
  | .cons header body rest, listed => by
      rw [Clauses.visitCases, Clauses.compounds, List.mem_append] at listed
      rcases listed with inBody | inRest
      · exact Stmt.mem_names_of_mem_compoundsAll body inBody
      · exact Clauses.mem_names_of_mem_cases rest inRest

end

/-! ## Folding -/

/-- Folded code is valid and complete exactly if the function folds well. -/
theorem foldedRight_iff_foldsWell
    (tree : FunctionNode)
    (target : String) :
    FoldedRight tree target ↔ tree.foldsWell target = true := by
  have withFunc := parsesWithFunc_eq tree target
  have withoutFunc := parsesWithoutFunc_eq tree target
  have exactly := @Stmt.keepsMentionsAll_iff target tree.body
  rw [FunctionNode.foldsWell, Bool.and_eq_true, ← withFunc]
  constructor
  · intro right
    exact ⟨right.parsesWithFunc, exactly.mp right.simples⟩
  · rintro ⟨parsed, keeps⟩
    have parsedBody := parsed
    rw [withFunc, ← withoutFunc, Bool.and_eq_true] at parsedBody
    refine ⟨parsed, parsedBody.2, exactly.mpr keeps, ?_⟩
    intro compound listed
    exact Stmt.mentioning_of_mem_names compound
      (Stmt.mem_names_of_mem_compoundsAll tree.body listed)

/-- A call guarded by `flag`, and an assignment after it. -/
def guardedCall : FunctionNode where
  isAsync := false
  header := ⟨1, []⟩
  body :=
    [.branch .If ⟨2, [.name "flag"]⟩
        [.simple ⟨.Expr, 3, [.node [.name "log"]], [], nofun, fun _ => rfl⟩] [],
      .simple ⟨.Assign, 4, [.name "value", .node []], [], nofun, fun _ => rfl⟩]

/-- Folded to `flag`, the `if` stays without a statement under it. -/
theorem not_foldedRight_guardedCall :
    ¬FoldedRight guardedCall "flag" := by
  intro right
  have parsed := right.parsesWithFunc
  rw [parsesWithFunc_eq] at parsed
  revert parsed
  decide

end TensorPC.Funcid
