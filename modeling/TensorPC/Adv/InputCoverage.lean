import TensorPC.Adv.FragmentReads

namespace TensorPC.Adv

/-!
# Which reads the inputs cover

A statement at the top of the body either overrides a symbol of the scope,
because it assigns to the name, or takes it, because it loads the name, or does
not touch it.  The first that does one of the two decides whether the symbol is
an input.
-/

/-- The target is nothing but the name. -/
def Target.isName (name : String) : Target → Bool
  | .name id => decide (id = name)
  | .tuple _ => false

namespace Stmt

/-- `parse_block` takes the name out of the scope before it looks for loads. -/
def overrides (name : String) : Stmt → Bool
  | assign targets _ => targets.any (Target.isName name)
  | annAssign target _ _ => decide (target = name)
  | _ => false

/-- The trees in which `parse_block` looks for loads. -/
def searched : Stmt → List Tree
  | assign _ value => [value.tree]
  | annAssign _ _ value => optionTree value
  | stmt => [stmt.tree]

/-- `parse_block` takes the name as an input if it is still in the scope. -/
def takes (name : String) (stmt : Stmt) : Bool :=
  !stmt.overrides name && decide (name ∈ Tree.loadsAll stmt.searched)

/-- The statement decides whether the name becomes an input. -/
def touches (name : String) (stmt : Stmt) : Bool :=
  stmt.overrides name || stmt.takes name

end Stmt

/-- The first statement that touches the name takes it. -/
def isTaken (name : String) : List Stmt → Bool
  | [] => false
  | stmt :: rest => if stmt.touches name then stmt.takes name else isTaken name rest

namespace Extractor

/-- What is left of the scope, and what was taken, after the names were looked up. -/
theorem foldl_take
    (names : List String)
    (self : Extractor)
    (name : String) :
    (names.foldl take self).scope.get? name =
        (if name ∈ names then none else self.scope.get? name) ∧
      (names.foldl take self).assignedSymbols.get? name =
        if name ∈ names then (self.scope.get? name).or (self.assignedSymbols.get? name)
        else self.assignedSymbols.get? name := by
  induction names generalizing self with
  | nil => simp
  | cons first rest inductionHypothesis =>
      obtain ⟨scope, assigned⟩ := inductionHypothesis (self.take first)
      have step :
          (self.take first).scope.get? name =
              (if name = first then none else self.scope.get? name) ∧
            (self.take first).assignedSymbols.get? name =
              if name = first then (self.scope.get? name).or (self.assignedSymbols.get? name)
              else self.assignedSymbols.get? name := by
        unfold take
        cases found : self.scope.get? first with
        | none =>
            by_cases same : name = first
            · subst same
              simp [found]
            · simp [same]
        | some handle =>
            by_cases same : name = first
            · subst same
              simp [found]
            · simp [same, Dict.get?_erase, Dict.get?_set]
      rw [List.foldl_cons, scope, assigned, step.1, step.2]
      by_cases later : name ∈ rest
      · by_cases same : name = first <;> simp [later, same]
      · by_cases same : name = first <;> simp [later, same]

theorem extractSymbolFromNode_spec
    (self : Extractor)
    (root : Tree)
    (name : String) :
    (self.extractSymbolFromNode root).scope.get? name =
        (if name ∈ Tree.loadsAll [root] then none else self.scope.get? name) ∧
      (self.extractSymbolFromNode root).assignedSymbols.get? name =
        if name ∈ Tree.loadsAll [root] then
          (self.scope.get? name).or (self.assignedSymbols.get? name)
        else self.assignedSymbols.get? name := by
  have spec := foldl_take (Tree.walk [root]) self name
  simp only [Tree.mem_walk_iff] at spec
  exact spec

theorem foldl_overrideTarget
    (targets : List Target)
    (self : Extractor)
    (name : String) :
    (targets.foldl overrideTarget self).scope.get? name =
        (if targets.any (Target.isName name) then none else self.scope.get? name) ∧
      (targets.foldl overrideTarget self).assignedSymbols = self.assignedSymbols := by
  induction targets generalizing self with
  | nil => simp
  | cons target rest inductionHypothesis =>
      obtain ⟨scope, assigned⟩ := inductionHypothesis (self.overrideTarget target)
      rw [List.foldl_cons, scope, assigned]
      cases target with
      | tuple elts => simp [overrideTarget, Target.isName]
      | name id =>
          refine ⟨?_, rfl⟩
          by_cases same : id = name
          · subst same
            simp [overrideTarget, Target.isName]
          · simp [overrideTarget, Target.isName, same, Dict.get?_erase, Ne.symm same]

theorem search_spec
    {self overridden : Extractor}
    {name : String}
    {stmt : Stmt}
    (scope :
      overridden.scope.get? name =
        if stmt.overrides name then none else self.scope.get? name)
    (assigned : overridden.assignedSymbols = self.assignedSymbols)
    {root : Tree}
    (searched : Tree.loadsAll stmt.searched = Tree.loadsAll [root]) :
    (overridden.extractSymbolFromNode root).scope.get? name =
        (if stmt.touches name then none else self.scope.get? name) ∧
      (overridden.extractSymbolFromNode root).assignedSymbols.get? name =
        if stmt.takes name then (self.scope.get? name).or (self.assignedSymbols.get? name)
        else self.assignedSymbols.get? name := by
  obtain ⟨newScope, newAssigned⟩ := overridden.extractSymbolFromNode_spec root name
  rw [newScope, newAssigned, scope, assigned, Stmt.touches, Stmt.takes, searched]
  cases stmt.overrides name with
  | true => simp
  | false => by_cases loaded : name ∈ Tree.loadsAll [root] <;> simp [loaded]

/-- One statement. -/
theorem parseStatement_spec
    (self : Extractor)
    (stmt : Stmt)
    (name : String) :
    (self.parseStatement stmt).scope.get? name =
        (if stmt.touches name then none else self.scope.get? name) ∧
      (self.parseStatement stmt).assignedSymbols.get? name =
        if stmt.takes name then (self.scope.get? name).or (self.assignedSymbols.get? name)
        else self.assignedSymbols.get? name := by
  have plain : ∀ root : Tree,
      stmt.overrides name = false →
      Tree.loadsAll stmt.searched = Tree.loadsAll [root] →
      (self.extractSymbolFromNode root).scope.get? name =
          (if stmt.touches name then none else self.scope.get? name) ∧
        (self.extractSymbolFromNode root).assignedSymbols.get? name =
          if stmt.takes name then (self.scope.get? name).or (self.assignedSymbols.get? name)
          else self.assignedSymbols.get? name := by
    intro root stays searched
    exact search_spec (by rw [stays]; rfl) rfl searched
  have declared : ∀ target : String,
      (self.overrideTarget (.name target)).scope.get? name =
        if decide (target = name) then none else self.scope.get? name := by
    intro target
    by_cases same : target = name
    · subst same
      simp [overrideTarget]
    · simp [overrideTarget, same, Dict.get?_erase, Ne.symm same]
  cases stmt with
  | assign targets value =>
      obtain ⟨scope, assigned⟩ := foldl_overrideTarget targets self name
      exact search_spec scope assigned rfl
  | annAssign target annotation value =>
      cases value with
      | some value =>
          exact @search_spec self _ name (.annAssign target annotation (some value))
            (declared target) rfl value.tree rfl
      | none =>
          have touches :
              (Stmt.annAssign target annotation none).touches name = decide (target = name) := by
            simp [Stmt.touches, Stmt.takes, Stmt.overrides, Stmt.searched, Stmt.optionTree,
              Tree.loadsAll]
          have takes : (Stmt.annAssign target annotation none).takes name = false := by
            simp [Stmt.takes, Stmt.searched, Stmt.optionTree, Tree.loadsAll]
          rw [touches, takes]
          exact ⟨declared target, rfl⟩
  | _ => exact plain _ rfl rfl

/-- A whole block. -/
theorem parseBlock_spec
    (self : Extractor)
    (body : List Stmt)
    (name : String) :
    (self.parseBlock body).assignedSymbols.get? name =
      if isTaken name body then (self.scope.get? name).or (self.assignedSymbols.get? name)
      else self.assignedSymbols.get? name := by
  unfold parseBlock
  induction body generalizing self with
  | nil => simp [isTaken]
  | cons stmt rest inductionHypothesis =>
      obtain ⟨scope, assigned⟩ := self.parseStatement_spec stmt name
      rw [List.foldl_cons, inductionHypothesis, scope, assigned, isTaken]
      cases touched : stmt.touches name with
      | false =>
          have notTaken : stmt.takes name = false := by
            unfold Stmt.touches at touched
            rw [Bool.or_eq_false_iff] at touched
            exact touched.2
          simp [notTaken]
      | true =>
          cases isTaken name rest <;> simp

end Extractor

/-- A statement at the top loads only names among which `parse_block` searches. -/
theorem Stmt.mem_searched_of_load
    {stmt : Stmt}
    {name : String}
    {trace : List Event}
    {outcome : Outcome}
    (ran : Runs (.statement stmt) trace outcome)
    (loaded : Event.load name ∈ trace) :
    name ∈ Tree.loadsAll stmt.searched := by
  have within := loadsWithin_of_runs ran name loaded
  rw [Code.loads_statement] at within
  have valueLoads : ∀ value : Expr, value.Evaluates trace →
      name ∈ Tree.loadsAll [value.tree] := by
    intro value evaluated
    exact loadsWithin_of_evaluates evaluated (by simp [Tree.loadsAll]) name loaded
  cases stmt with
  | annAssign target annotation value =>
      cases ran with
      | annotated evaluated =>
          refine loadsWithin_of_evaluates evaluated ?_ name (by simpa using loaded)
          simp [Stmt.searched, Stmt.optionTree, Tree.loadsAll]
      | annotatedRaises evaluated => exact valueLoads _ evaluated
      | declared => cases loaded
  | assign targets value =>
      simpa [Stmt.searched, Stmt.tree, Tree.loads] using within
  | _ => simpa [Stmt.searched, Tree.loadsAll] using within

/-- Statements that do not touch a name read it only by augmenting it. -/
theorem readsFirst_of_untouched
    {name : String}
    {body : List Stmt}
    (untouched : ∀ stmt ∈ body, stmt.touches name = false) :
    (Code.block body).ReadsFirst name ↔ (Code.block body).AugmentsFirst name := by
  have step : ∀ stmt : Stmt,
      stmt.touches name = false →
      ((Code.statement stmt).Shows (fun event => event.Reads name) name ↔
        (Code.statement stmt).Shows (fun event => event = .augment name) name) := by
    intro stmt notTouched
    refine exists_congr fun trace => exists_congr fun outcome => and_congr_right fun ran => ?_
    refine exists_congr fun earlier => exists_congr fun event => exists_congr fun later =>
      and_congr_right fun same => and_congr_left fun _ => ?_
    refine or_iff_right fun isLoad => ?_
    subst isLoad
    have searched : name ∈ Tree.loadsAll stmt.searched :=
      Stmt.mem_searched_of_load ran (by rw [same]; simp)
    simp only [Stmt.touches, Stmt.takes, Bool.or_eq_false_iff] at notTouched
    simp [notTouched.1, searched] at notTouched
  unfold Code.ReadsFirst Code.AugmentsFirst
  induction body with
  | nil =>
      refine exists_congr fun trace => exists_congr fun outcome => and_congr_right fun ran => ?_
      cases ran
      refine iff_of_false ?_ ?_ <;> simp [First]
  | cons stmt rest inductionHypothesis =>
      rw [List.forall_mem_cons] at untouched
      rw [shows_cons_iff, shows_cons_iff]
      exact or_congr (step stmt untouched.1)
        (and_congr_right fun _ => inductionHypothesis untouched.2)

/-- The value that a statement assigns. -/
def Stmt.value? : Stmt → Option Expr
  | .assign _ value => some value
  | .annAssign _ _ value => value
  | _ => none

/--
When the inputs cover a symbol of the scope.  Where no statement at the top
loads or overrides the name, no execution augments it unassigned.  Where the
first that does so overrides it, no execution augments it before; and if one
comes there without having assigned it, the assigned value does not read it
and, after a declaration without a value, neither does the rest.
-/
structure Clear (name : String) (body : List Stmt) : Prop where
  untouched :
    (∀ stmt ∈ body, stmt.touches name = false) →
    ¬ (Code.block body).AugmentsFirst name
  overridden :
    ∀ earlier stmt later,
      body = earlier ++ stmt :: later →
      (∀ other ∈ earlier, other.touches name = false) →
      stmt.overrides name = true →
      ¬ (Code.block earlier).AugmentsFirst name ∧
        ((Code.block earlier).Passes name →
          match stmt.value? with
          | some value => name ∉ value.reads
          | none => ¬ (Code.block later).ReadsFirst name)

theorem touched_cases
    (name : String)
    (body : List Stmt) :
    (∀ stmt ∈ body, stmt.touches name = false) ∨
      ∃ earlier stmt later,
        body = earlier ++ stmt :: later ∧
          (∀ other ∈ earlier, other.touches name = false) ∧ stmt.touches name = true := by
  induction body with
  | nil => exact .inl nofun
  | cons stmt rest inductionHypothesis =>
      cases touched : stmt.touches name with
      | true => exact .inr ⟨[], stmt, rest, rfl, nofun, touched⟩
      | false =>
          rcases inductionHypothesis with none | ⟨earlier, other, later, rfl, before, touches⟩
          · exact .inl (List.forall_mem_cons.mpr ⟨touched, none⟩)
          · exact .inr ⟨stmt :: earlier, other, later, rfl,
              List.forall_mem_cons.mpr ⟨touched, before⟩, touches⟩

theorem isTaken_append
    {name : String}
    {earlier : List Stmt}
    (untouched : ∀ other ∈ earlier, other.touches name = false)
    (body : List Stmt) :
    isTaken name (earlier ++ body) = isTaken name body := by
  induction earlier with
  | nil => rfl
  | cons stmt rest inductionHypothesis =>
      rw [List.forall_mem_cons] at untouched
      rw [List.cons_append, isTaken, untouched.1]
      exact inductionHypothesis untouched.2

/-- The first statement that touches a name is found in one way. -/
theorem touched_unique
    {name : String}
    {earlier others : List Stmt}
    {stmt other : Stmt}
    {later more : List Stmt}
    (same : earlier ++ stmt :: later = others ++ other :: more)
    (untouched : ∀ before ∈ earlier, before.touches name = false)
    (touches : stmt.touches name = true)
    (alsoUntouched : ∀ before ∈ others, before.touches name = false)
    (alsoTouches : other.touches name = true) :
    earlier = others ∧ stmt = other ∧ later = more := by
  induction earlier generalizing others with
  | nil =>
      cases others with
      | nil =>
          cases same
          exact ⟨rfl, rfl, rfl⟩
      | cons head tail =>
          cases same
          rw [alsoUntouched stmt List.mem_cons_self] at touches
          cases touches
  | cons first rest inductionHypothesis =>
      cases others with
      | nil =>
          cases same
          rw [untouched other List.mem_cons_self] at alsoTouches
          cases alsoTouches
      | cons head tail =>
          rw [List.cons_append, List.cons_append, List.cons.injEq] at same
          obtain ⟨rfl, same⟩ := same
          rw [List.forall_mem_cons] at untouched alsoUntouched
          obtain ⟨rfl, sameStmt, sameLater⟩ :=
            inductionHypothesis same untouched.2 alsoUntouched.2
          exact ⟨rfl, sameStmt, sameLater⟩

theorem shows_value_iff
    {name : String}
    {stmt : Stmt}
    {value : Expr}
    (evaluates : ∀ trace, value.Evaluates trace → Runs (.statement stmt) trace .raised)
    (within :
      ∀ trace outcome,
        Runs (.statement stmt) trace outcome →
        First (fun event => event.Reads name) name trace → name ∈ value.reads) :
    (Code.statement stmt).Shows (fun event => event.Reads name) name ↔ name ∈ value.reads := by
  constructor
  · rintro ⟨trace, outcome, ran, first⟩
    exact within trace outcome ran first
  · intro isRead
    have evaluated : value.Evaluates [.load name] := by
      intro event isEvent
      exact ⟨name, isRead, List.mem_singleton.mp isEvent⟩
    exact ⟨_, _, evaluates _ evaluated, [], _, [], rfl, .inl rfl, List.not_mem_nil⟩

theorem mem_reads_of_first
    {name : String}
    {value : Expr}
    {trace more : List Event}
    (evaluated : value.Evaluates trace)
    (assigned : ∀ event ∈ more, ∃ target, event = .assign target)
    (first : First (fun event => event.Reads name) name (trace ++ more)) :
    name ∈ value.reads := by
  obtain ⟨earlier, event, later, same, reads, -⟩ := first
  have isEvent : event ∈ trace ++ more := by
    rw [same]
    simp
  rcases List.mem_append.mp isEvent with isEvent | isEvent
  · obtain ⟨read, isRead, rfl⟩ := evaluated event isEvent
    rcases reads with same | same
    · cases same
      exact isRead
    · cases same
  · obtain ⟨target, rfl⟩ := assigned event isEvent
    rcases reads with same | same <;> cases same

theorem assign_mem_of_isName
    {name : String}
    {targets : List Target}
    (isTarget : targets.any (Target.isName name) = true) :
    Event.assign name ∈ assigns targets := by
  induction targets with
  | nil => cases isTarget
  | cons target rest inductionHypothesis =>
      rw [List.any_cons, Bool.or_eq_true] at isTarget
      simp only [assigns, targetNames, List.map_append, List.mem_append]
      rcases isTarget with isHead | isLater
      · cases target with
        | name id =>
            simp only [Target.isName, decide_eq_true_eq] at isHead
            subst isHead
            simp [Target.names]
        | tuple elts => cases isHead
      · exact .inr (inductionHypothesis isLater)

theorem exists_of_mem_assigns
    {targets : List Target}
    {event : Event}
    (isEvent : event ∈ assigns targets) :
    ∃ target, event = .assign target := by
  obtain ⟨target, -, rfl⟩ := List.mem_map.mp isEvent
  exact ⟨target, rfl⟩

/-- What an overriding statement shows, and the rest after it. -/
theorem shows_overriding_iff
    {name : String}
    {stmt : Stmt}
    {later : List Stmt}
    (overrides : stmt.overrides name = true) :
    (Code.block (stmt :: later)).ReadsFirst name ↔
      match stmt.value? with
      | some value => name ∈ value.reads
      | none => (Code.block later).ReadsFirst name := by
  unfold Code.ReadsFirst
  rw [shows_cons_iff]
  cases stmt with
  | assign targets value =>
      have readsValue :=
        @shows_value_iff name (.assign targets value) value
          (fun trace evaluated => by
            simpa using Runs.assignRaises evaluated (List.nil_prefix (l := assigns targets)))
          (fun trace outcome ran first => by
            cases ran with
            | assign evaluated =>
                exact mem_reads_of_first evaluated (fun _ => exists_of_mem_assigns) first
            | assignRaises evaluated part =>
                exact mem_reads_of_first evaluated
                  (fun _ isEvent => exists_of_mem_assigns (part.subset isEvent)) first)
      have stays : ¬ (Code.statement (.assign targets value)).Passes name := by
        rintro ⟨trace, ran, unassigned⟩
        cases ran with
        | assign evaluated =>
            exact unassigned (List.mem_append_right _ (assign_mem_of_isName overrides))
      simp only [readsValue, stays, false_and, or_false]
      rfl
  | annAssign target annotation value =>
      simp only [Stmt.overrides, decide_eq_true_eq] at overrides
      subst overrides
      cases value with
      | some value =>
          have readsValue :=
            @shows_value_iff target (.annAssign target annotation (some value)) value
              (fun trace evaluated => .annotatedRaises evaluated)
              (fun trace outcome ran first => by
                cases ran with
                | annotated evaluated =>
                    refine mem_reads_of_first evaluated (fun event isEvent => ?_) first
                    exact ⟨target, List.mem_singleton.mp isEvent⟩
                | annotatedRaises evaluated =>
                    rw [← List.append_nil trace] at first
                    exact mem_reads_of_first evaluated (List.forall_mem_nil _) first)
          have stays :
              ¬ (Code.statement (.annAssign target annotation (some value))).Passes target := by
            rintro ⟨trace, ran, unassigned⟩
            cases ran with
            | annotated evaluated => exact unassigned (by simp)
          simp only [readsValue, stays, false_and, or_false]
          rfl
      | none =>
          have nothing :
              ¬ (Code.statement (.annAssign target annotation none)).Shows
                (fun event => event.Reads target) target := by
            rintro ⟨trace, outcome, ran, earlier, event, later, same, -⟩
            cases ran
            simp at same
          have passes : (Code.statement (.annAssign target annotation none)).Passes target :=
            ⟨[], .declared, List.not_mem_nil⟩
          simp only [nothing, passes, true_and, false_or]
          rfl
  | _ => cases overrides

/-- A name that is not taken is read unassigned exactly when it is not clear. -/
theorem clear_iff
    (name : String)
    (body : List Stmt) :
    ((Code.block body).ReadsFirst name → isTaken name body = true) ↔ Clear name body := by
  rcases touched_cases name body with none | ⟨earlier, stmt, later, rfl, before, touches⟩
  · have notTaken : isTaken name body = false := by
      have whole := isTaken_append none []
      rw [List.append_nil] at whole
      exact whole
    rw [notTaken, readsFirst_of_untouched none]
    constructor
    · intro never
      refine ⟨fun _ augments => absurd (never augments) Bool.false_ne_true, ?_⟩
      rintro earlier stmt later rfl - overrides
      have untouched := none stmt (by simp)
      rw [Stmt.touches, overrides] at untouched
      cases untouched
    · intro clear augments
      exact absurd augments (clear.untouched none)
  · rw [isTaken_append before, isTaken, touches, if_pos rfl]
    cases overrides : stmt.overrides name with
    | false =>
        have taken : stmt.takes name = true := by
          rw [Stmt.touches, overrides] at touches
          exact touches
        refine iff_of_true (fun _ => taken) ⟨fun untouched => ?_, ?_⟩
        · rw [untouched stmt (by simp)] at touches
          cases touches
        · intro others other more same alsoBefore alsoOverrides
          obtain ⟨-, rfl, -⟩ := touched_unique same before touches alsoBefore
            (by rw [Stmt.touches, alsoOverrides]; rfl)
          rw [overrides] at alsoOverrides
          cases alsoOverrides
    | true =>
        have notTaken : stmt.takes name = false := by
          rw [Stmt.takes, overrides]
          rfl
        have parts :
            (Code.block (earlier ++ stmt :: later)).ReadsFirst name ↔
              (Code.block earlier).AugmentsFirst name ∨
                (Code.block earlier).Passes name ∧
                  (Code.block (stmt :: later)).ReadsFirst name := by
          rw [← readsFirst_of_untouched before]
          exact shows_append_iff
        rw [notTaken, parts, shows_overriding_iff overrides]
        constructor
        · intro never
          refine ⟨fun untouched => ?_, ?_⟩
          · rw [untouched stmt (by simp)] at touches
            cases touches
          · intro others other more same alsoBefore alsoOverrides
            obtain ⟨rfl, rfl, rfl⟩ := touched_unique same before touches alsoBefore
              (by rw [Stmt.touches, alsoOverrides]; rfl)
            refine ⟨fun augments => absurd (never (.inl augments)) Bool.false_ne_true,
              fun passes => ?_⟩
            cases isValue : stmt.value? with
            | some value =>
                rw [isValue] at never
                exact fun reads => absurd (never (.inr ⟨passes, reads⟩)) Bool.false_ne_true
            | none =>
                rw [isValue] at never
                exact fun reads => absurd (never (.inr ⟨passes, reads⟩)) Bool.false_ne_true
        · intro clear reads
          obtain ⟨noAugment, noRead⟩ := clear.overridden earlier stmt later rfl before overrides
          rcases reads with augments | ⟨passes, reads⟩
          · exact absurd augments noAugment
          · have nothing := noRead passes
            cases isValue : stmt.value? with
            | some value =>
                rw [isValue] at nothing reads
                exact absurd reads nothing
            | none =>
                rw [isValue] at nothing reads
                exact absurd reads nothing

/-- The inputs cover what executions read first, are loaded symbols, and are listed once. -/
structure Covers
    (handles : FragmentHandles)
    (body : List Stmt)
    (scope : SymbolScope) : Prop where
  reads :
    ∀ name ∈ scope.handles.keys,
      (Code.block body).ReadsFirst name →
      ∃ handle ∈ handles.inputHandles, handle.symbolName = name
  symbols :
    ∀ handle ∈ handles.inputHandles,
      handle.symbolName ∈ scope.handles.keys ∧
        handle.symbolName ∈ Tree.loadsAll (Stmt.trees body)
  once : (handles.inputHandles.map BackendHandle.symbolName).Nodup

/-- A name that is taken is loaded. -/
theorem mem_loads_of_isTaken
    {name : String}
    {body : List Stmt}
    (taken : isTaken name body = true) :
    name ∈ Tree.loadsAll (Stmt.trees body) := by
  induction body with
  | nil => cases taken
  | cons stmt rest inductionHypothesis =>
      rw [isTaken] at taken
      rw [Stmt.trees, Tree.loadsAll, List.mem_append]
      split at taken
      · rw [Stmt.takes, Bool.and_eq_true, decide_eq_true_eq] at taken
        refine .inl ?_
        cases stmt with
        | assign targets value =>
            simpa [Stmt.searched, Stmt.tree, Tree.loads] using taken.2
        | annAssign target annotation value =>
            have searched := taken.2
            simp only [Stmt.searched] at searched
            simp [Stmt.tree, Tree.loads, Tree.loadsAll, searched]
        | _ => simpa [Stmt.searched, Tree.loadsAll] using taken.2
      · exact .inr (inductionHypothesis taken)

/-- The input handles are those of the taken symbols. -/
theorem map_symbolName_perm
    {nodeId : String}
    {body : List Stmt}
    {outputDesc : FragmentOutputDesc}
    {scope : SymbolScope}
    {handles : FragmentHandles}
    (parsed : parseFragment nodeId body outputDesc scope = .ok handles) :
    (handles.inputHandles.map BackendHandle.symbolName).Nodup ∧
      ∀ name,
        name ∈ handles.inputHandles.map BackendHandle.symbolName ↔
          name ∈ scope.handles.keys ∧ isTaken name body = true := by
  obtain ⟨outputs, -, made⟩ := PyResult.bind_eq_ok.mp parsed
  cases made
  obtain ⟨taken, isTakenDict⟩ : ∃ taken,
      (Extractor.parseBlock { scope := scope.handles, assignedSymbols := .empty }
        body).assignedSymbols = taken :=
    ⟨_, rfl⟩
  have spec : ∀ name, taken.get? name =
      if isTaken name body then scope.handles.get? name else none := by
    intro name
    rw [← isTakenDict, Extractor.parseBlock_spec]
    simp
  have keyed : ∀ name handle, taken.get? name = some handle → handle.symbolName = name := by
    intro name handle found
    rw [spec] at found
    split at found
    · exact scope.keyed name handle found
    · cases found
  have perm :
      ((((taken.values.map BackendHandle.asInput).mergeSort BackendHandle.comesBefore)).map
        BackendHandle.symbolName).Perm taken.keys := by
    refine ((List.mergeSort_perm _ _).map _).trans ?_
    rw [List.map_map, ← Dict.map_values_eq_keys keyed]
    rfl
  rw [isTakenDict]
  refine ⟨perm.nodup_iff.mpr taken.nodup_keys, fun name => ?_⟩
  rw [perm.mem_iff, Dict.mem_keys_iff, spec, Dict.mem_keys_iff]
  cases isTaken name body <;> simp

/-- The inputs cover what executions read first exactly when every symbol of the scope is clear. -/
theorem covers_iff
    {nodeId : String}
    {body : List Stmt}
    {outputDesc : FragmentOutputDesc}
    {scope : SymbolScope}
    {handles : FragmentHandles}
    (parsed : parseFragment nodeId body outputDesc scope = .ok handles) :
    Covers handles body scope ↔ ∀ name ∈ scope.handles.keys, Clear name body := by
  obtain ⟨once, isInput⟩ := map_symbolName_perm parsed
  have input : ∀ name,
      (∃ handle ∈ handles.inputHandles, handle.symbolName = name) ↔
        name ∈ scope.handles.keys ∧ isTaken name body = true := by
    intro name
    rw [← isInput, List.mem_map]
  constructor
  · intro covers name isSymbol
    refine (clear_iff name body).mp fun reads => ?_
    exact ((input name).mp (covers.reads name isSymbol reads)).2
  · intro clear
    refine ⟨fun name isSymbol reads => ?_, fun handle isHandle => ?_, once⟩
    · exact (input name).mpr ⟨isSymbol, (clear_iff name body).mpr (clear name isSymbol) reads⟩
    · have parts := (input handle.symbolName).mp ⟨handle, isHandle, rfl⟩
      exact ⟨parts.1, mem_loads_of_isTaken parts.2⟩

/-- The handle of a symbol `x`. -/
def sampleHandle : BackendHandle where
  id := "out-x"
  name := "x"
  type := "int"
  isInput := false
  symbolName := "x"
  default := none
  sourceNodeId := some "symbols"
  sourceHandleId := some "out-x"
  isSymHandle := true
  dictKey := none
  index := 0

/-- A scope with this symbol. -/
def sampleScope : SymbolScope where
  handles := Dict.empty.set "x" sampleHandle
  keyed := by
    intro name handle found
    rw [Dict.get?_set] at found
    split at found
    · rename_i same
      cases found
      exact same.symm
    · cases found

/-- The output `x` alone. -/
def sampleOutput : FragmentOutputDesc where
  isDict := false
  mapping := [("", "x", "x")]

/-- The inputs of a fragment that only prints `x`. -/
theorem covers_iff_sample :
    ∃ handles,
      parseFragment "node" [.expression (.node [.name "print", .name "x"])] sampleOutput
          sampleScope = .ok handles ∧
        (Covers handles [.expression (.node [.name "print", .name "x"])] sampleScope ↔
          ∀ name ∈ sampleScope.handles.keys,
            Clear name [.expression (.node [.name "print", .name "x"])]) := by
  obtain ⟨handles, parsed⟩ :
      ∃ handles,
        parseFragment "node" [.expression (.node [.name "print", .name "x"])] sampleOutput
          sampleScope = .ok handles :=
    ⟨_, rfl⟩
  exact ⟨handles, parsed, covers_iff parsed⟩

/-- The fragment that counts `x` up reads it, but `x` is no input. -/
theorem not_covers_assign :
    ∃ handles,
      parseFragment "node" [.assign [.name "x"] (.node [.name "x"])] sampleOutput sampleScope =
          .ok handles ∧
        ¬ Covers handles [.assign [.name "x"] (.node [.name "x"])] sampleScope := by
  obtain ⟨handles, parsed⟩ :
      ∃ handles,
        parseFragment "node" [.assign [.name "x"] (.node [.name "x"])] sampleOutput sampleScope =
          .ok handles :=
    ⟨_, rfl⟩
  refine ⟨handles, parsed, fun covers => ?_⟩
  have isSymbol : "x" ∈ sampleScope.handles.keys := by decide
  have evaluated : (Expr.node [.name "x"]).Evaluates [.load "x"] := by
    intro event isEvent
    exact ⟨"x", by simp [Expr.reads, Expr.readsAll], List.mem_singleton.mp isEvent⟩
  have reads : (Code.block [.assign [.name "x"] (.node [.name "x"])]).ReadsFirst "x" := by
    refine ⟨_, _, .next (.assign evaluated) .nil, [], .load "x", [.assign "x"], rfl, .inl rfl,
      List.not_mem_nil⟩
  obtain ⟨handle, isHandle, same⟩ := covers.reads "x" isSymbol reads
  have taken := ((map_symbolName_perm parsed).2 "x").mp (List.mem_map.mpr ⟨handle, isHandle, same⟩)
  simp [isTaken, Stmt.touches, Stmt.takes, Stmt.overrides, Target.isName] at taken

end TensorPC.Adv
