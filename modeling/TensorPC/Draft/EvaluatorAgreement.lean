import TensorPC.Draft.AsDict
import TensorPC.Py.Json

namespace TensorPC.Draft

/-!
# The two evaluators

On which expressions `evaluate_draft_ast_json` computes the dictionary of what
`evaluate_draft_ast` computes.  It does so as long as no evaluated node is one
that it treats in its own way, and no evaluated test looks at dataclass objects.
-/

variable {F : Type} [PyBuiltins F]

/-! ## Nodes that both evaluators treat alike -/

/-- A test of a computed value, passed when the computation raises. -/
def whenOk
    {α : Type}
    (outcome : PyResult α)
    (test : α → Bool) :
    Bool :=
  match outcome with
  | .ok value => test value
  | .error _ => true

omit [PyBuiltins F] in
theorem whenOk_ok
    {α : Type}
    {outcome : PyResult α}
    {test : α → Bool}
    {value : α}
    (passed : whenOk outcome test = true)
    (computed : outcome = .ok value) :
    test value = true := by
  subst computed
  exact passed

/-- A test of operands comes out the same on their dictionaries. -/
def operandsAgree
    (op : BinaryOp)
    (x y : Value F) :
    Bool :=
  match op with
  | .eq => (asDict x).pyEq (asDict y) == x.pyEq y
  | .ne => (asDict x).pyEq (asDict y) == x.pyEq y
  | .order op =>
      whenOk (Value.pyOrder op x y) fun holds =>
        match Value.pyOrder op (asDict x) (asDict y) with
        | .ok holdsDict => holdsDict == holds
        | .error _ => false
  | .and => !isEmptyObject x
  | .or => !isEmptyObject x
  | .arith _ => true

/-- The operators whose result `evaluate_draft_ast_json` puts into a tuple. -/
def isTupled : BinaryOp → Bool
  | .eq => false
  | .ne => false
  | .order _ => false
  | .and => true
  | .or => true
  | .arith _ => true

/-- The names in a path list that are read from objects are fields. -/
def pathAgrees (target path : Value F) : Bool :=
  match path with
  | .list items => pathHasFields target items
  | _ => true

mutual

/--
The nodes inside of `array`, which `evaluate_draft_ast` evaluates on the
dictionaries: none of them reads an attribute.
-/
def agreesInArray (obj : Value F) : DraftASTNode F → Bool
  | .name value => isRootName value || value == "getRoot()"
  | .jsonLiteral _ => true
  | .stringLiteral _ => true
  | .getAttr _ _ => false
  | .arrayGetItem target _ => agreesInArray obj target
  | .dictGetItem target _ => agreesInArray obj target
  | .binaryOp op x y =>
      agreesInArray obj x && agreesInArray obj y &&
        whenOk (evaluateDraftAst obj x) fun first =>
          whenOk (evaluateDraftAst obj y) fun second =>
            operandsAgree op first second
  | .unaryNot x =>
      agreesInArray obj x &&
        whenOk (evaluateDraftAst obj x) fun value => !isEmptyObject value
  | .getItem target key => agreesInArray obj target && agreesInArray obj key
  | .getattr _ _ => false
  | .cformat fmt args =>
      agreesInArray obj fmt && allAgreeInArray obj args &&
        whenOk (evaluateDraftAsts obj args) fun values => values.all isPlain
  | .getItemPath target path =>
      agreesInArray obj target && agreesInArray obj path &&
        whenOk (evaluateDraftAst obj target) fun target =>
          whenOk (evaluateDraftAst obj path) fun path =>
            pathAgrees target path
  | .notNull children => notNullAgreesInArray obj children
  | .where cond x y =>
      agreesInArray obj cond && agreesInArray obj x && agreesInArray obj y &&
        whenOk (evaluateDraftAst obj cond) fun value => !isEmptyObject value
  | .array children => allAgreeInArray obj children
  | .concat children => allAgreeInArray obj children
  | .len x => agreesInArray obj x
  | .otherFunc _ _ => true

/-- All children are such nodes. -/
def allAgreeInArray (obj : Value F) : List (DraftASTNode F) → Bool
  | [] => true
  | child :: rest => agreesInArray obj child && allAgreeInArray obj rest

/-- The children of `not_null` that are evaluated are such nodes. -/
def notNullAgreesInArray (obj : Value F) : List (DraftASTNode F) → Bool
  | [] => true
  | child :: rest =>
      agreesInArray obj child &&
        whenOk (evaluateDraftAst obj child) fun value =>
          match value with
          | .none => notNullAgreesInArray obj rest
          | _ => true

end

mutual

/--
No evaluated node is `&&`, `||`, `!`, an arithmetic operator, `len` or the name
`getRoot()`, no child of `array` reads an attribute, every attribute that is
read is a field, and comparisons, conditions and formats come out the same on
the dictionaries of dataclass objects.
-/
def evaluatorsAgree (obj : Value F) : DraftASTNode F → Bool
  | .name value =>
      isRootName value || (value != "getRoot()" && hasField obj value)
  | .jsonLiteral _ => true
  | .stringLiteral _ => true
  | .getAttr target value =>
      evaluatorsAgree obj target &&
        whenOk (evaluateDraftAst obj target) fun target =>
          hasField target value
  | .arrayGetItem target _ => evaluatorsAgree obj target
  | .dictGetItem target _ => evaluatorsAgree obj target
  | .binaryOp op x y =>
      !isTupled op && evaluatorsAgree obj x && evaluatorsAgree obj y &&
        whenOk (evaluateDraftAst obj x) fun first =>
          whenOk (evaluateDraftAst obj y) fun second =>
            operandsAgree op first second
  | .unaryNot _ => false
  | .getItem target key => evaluatorsAgree obj target && evaluatorsAgree obj key
  | .getattr target key =>
      evaluatorsAgree obj target && evaluatorsAgree obj key &&
        whenOk (evaluateDraftAst obj target) fun target =>
          whenOk (evaluateDraftAst obj key) fun key =>
            match key with
            | .str name => hasField target name
            | _ => true
  | .cformat fmt args =>
      evaluatorsAgree obj fmt && allEvaluatorsAgree obj args &&
        whenOk (evaluateDraftAsts obj args) fun values => values.all isPlain
  | .getItemPath target path =>
      evaluatorsAgree obj target && evaluatorsAgree obj path &&
        whenOk (evaluateDraftAst obj target) fun target =>
          whenOk (evaluateDraftAst obj path) fun path =>
            pathAgrees target path
  | .notNull children => notNullEvaluatorsAgree obj children
  | .where cond x y =>
      evaluatorsAgree obj cond && evaluatorsAgree obj x &&
        evaluatorsAgree obj y &&
        whenOk (evaluateDraftAst obj cond) fun value => !isEmptyObject value
  | .array children => allAgreeInArray obj children
  | .concat children => allEvaluatorsAgree obj children
  | .len _ => false
  | .otherFunc _ _ => true

/-- The evaluators agree on all children. -/
def allEvaluatorsAgree (obj : Value F) : List (DraftASTNode F) → Bool
  | [] => true
  | child :: rest => evaluatorsAgree obj child && allEvaluatorsAgree obj rest

/-- The evaluators agree on the children of `not_null` that are evaluated. -/
def notNullEvaluatorsAgree (obj : Value F) : List (DraftASTNode F) → Bool
  | [] => true
  | child :: rest =>
      evaluatorsAgree obj child &&
        whenOk (evaluateDraftAst obj child) fun value =>
          match value with
          | .none => notNullEvaluatorsAgree obj rest
          | _ => true

end

/-! ## Agreement -/

/-- An operator has the same outcome on dictionaries. -/
theorem compareOp_asDict
    {op : BinaryOp}
    {x y result : Value F}
    (agree : operandsAgree op x y = true)
    (computed : compareOp op x y = .ok result) :
    compareOp op (asDict x) (asDict y) = .ok (asDict result) := by
  cases op with
  | eq =>
      cases computed
      simp only [operandsAgree, beq_iff_eq] at agree
      simp [compareOp, agree, asDict]
  | ne =>
      cases computed
      simp only [operandsAgree, beq_iff_eq] at agree
      simp [compareOp, agree, asDict]
  | order op =>
      simp only [compareOp] at computed
      cases ordered : Value.pyOrder op x y with
      | error raised =>
          simp [ordered, Except.map] at computed
      | ok holds =>
          simp only [ordered, Except.map, Except.ok.injEq] at computed
          subst computed
          simp only [operandsAgree, ordered, whenOk] at agree
          split at agree
          · rename_i holdsDict orderedDict
            simp only [beq_iff_eq] at agree
            simp [compareOp, orderedDict, agree, Except.map, asDict]
          · cases agree
  | and =>
      cases computed
      have truth : (asDict x).truthy = x.truthy :=
        truthy_asDict (by simpa [operandsAgree] using agree)
      simp only [compareOp, truth]
      split
      · rfl
      · rfl
  | or =>
      cases computed
      have truth : (asDict x).truthy = x.truthy :=
        truthy_asDict (by simpa [operandsAgree] using agree)
      simp only [compareOp, truth]
      split
      · rfl
      · rfl
  | arith op =>
      exact arith_asDict computed

theorem where_asDict
    {cond : Value F}
    (x y : Value F)
    (notEmpty : (!isEmptyObject cond) = true) :
    (if (asDict cond).truthy then asDict x else asDict y) =
      asDict (if cond.truthy then x else y) := by
  rw [truthy_asDict (by simpa using notEmpty)]
  split
  · rfl
  · rfl

/-- A format has the same outcome on plain arguments. -/
theorem percent_asDict
    {fmt result : Value F}
    {args : List (Value F)}
    (plain : args.all isPlain = true)
    (computed : percent fmt args = .ok result) :
    percent (asDict fmt) (args.map asDict) = .ok (asDict result) := by
  have same : args.map asDict = args := by
    refine (List.map_congr_left fun arg member => ?_).trans (List.map_id args)
    exact asDict_of_isPlain arg (List.all_eq_true.mp plain arg member)
  rw [same]
  cases fmt with
  | str text =>
      simp only [percent, asDict] at *
      cases formatted : PyBuiltins.percentFormat text args with
      | error raised =>
          simp [formatted, Except.map] at computed
      | ok text =>
          simp only [formatted, Except.map, Except.ok.injEq] at *
          subst computed
          rfl
  | none | bool | int | float | list | tuple | dict | obj =>
      cases computed

theorem getItemPathOf_asDict
    {target path result : Value F}
    (agree : pathAgrees target path = true)
    (computed : getItemPathOf target path = .ok result) :
    getItemPathOf (asDict target) (asDict path) = .ok (asDict result) := by
  cases path with
  | list items =>
      simpa [getItemPathOf, asDict] using followPath_asDict agree computed
  | none | bool | int | float | str | tuple | dict | obj =>
      cases computed

mutual

/-- `evaluate_draft_ast` computes on dictionaries what it computes on objects. -/
theorem evaluateDraftAst_asDict :
    ∀ (obj : Value F) (node : DraftASTNode F) (result : Value F),
      agreesInArray obj node = true →
      evaluateDraftAst obj node = .ok result →
      evaluateDraftAst (asDict obj) node = .ok (asDict result)
  | obj, .name value, result, agree, computed => by
      simp only [agreesInArray] at agree
      simp only [evaluateDraftAst, agree, ↓reduceIte, Except.ok.injEq] at *
      rw [computed]
  | obj, .jsonLiteral literal, result, _, computed => by
      cases computed
      simp [evaluateDraftAst, asDict_of_isPlain _ literal.plain]
  | obj, .stringLiteral value, result, _, computed => by
      cases computed
      rfl
  | obj, .getAttr target value, result, agree, _ => by
      simp [agreesInArray] at agree
  | obj, .arrayGetItem target value, result, agree, computed => by
      obtain ⟨found, evaluated, read⟩ := PyResult.bind_eq_ok.mp computed
      have target := evaluateDraftAst_asDict obj target found agree evaluated
      have item := getItem_asDict read
      rw [asDict_toValue] at item
      simp [evaluateDraftAst, target, item, bind, Except.bind]
  | obj, .dictGetItem target value, result, agree, computed => by
      obtain ⟨found, evaluated, read⟩ := PyResult.bind_eq_ok.mp computed
      have target := evaluateDraftAst_asDict obj target found agree evaluated
      have item := getItem_asDict read
      rw [asDict_toValue] at item
      simp [evaluateDraftAst, target, item, bind, Except.bind]
  | obj, .binaryOp op x y, result, agree, computed => by
      obtain ⟨first, evaluatedX, computed⟩ := PyResult.bind_eq_ok.mp computed
      obtain ⟨second, evaluatedY, compared⟩ := PyResult.bind_eq_ok.mp computed
      simp only [agreesInArray, Bool.and_eq_true] at agree
      have atFirst := whenOk_ok agree.2 evaluatedX
      have operands := whenOk_ok atFirst evaluatedY
      have x := evaluateDraftAst_asDict obj x first agree.1.1 evaluatedX
      have y := evaluateDraftAst_asDict obj y second agree.1.2 evaluatedY
      simp [evaluateDraftAst, x, y, compareOp_asDict operands compared, bind,
        Except.bind]
  | obj, .unaryNot x, result, agree, computed => by
      obtain ⟨value, evaluated, computed⟩ := PyResult.bind_eq_ok.mp computed
      cases computed
      simp only [agreesInArray, Bool.and_eq_true] at agree
      have notEmpty := whenOk_ok agree.2 evaluated
      have x := evaluateDraftAst_asDict obj x value agree.1 evaluated
      have truth : (asDict value).truthy = value.truthy :=
        truthy_asDict (by simpa using notEmpty)
      simp [evaluateDraftAst, x, truth, asDict, bind, Except.bind]
  | obj, .getItem target key, result, agree, computed => by
      obtain ⟨k, evaluatedKey, computed⟩ := PyResult.bind_eq_ok.mp computed
      obtain ⟨found, evaluated, read⟩ := PyResult.bind_eq_ok.mp computed
      simp only [agreesInArray, Bool.and_eq_true] at agree
      have key := evaluateDraftAst_asDict obj key k agree.2 evaluatedKey
      have target := evaluateDraftAst_asDict obj target found agree.1 evaluated
      simp [evaluateDraftAst, key, target, getItem_asDict read, bind,
        Except.bind]
  | obj, .getattr target key, result, agree, _ => by
      simp [agreesInArray] at agree
  | obj, .cformat fmt args, result, agree, computed => by
      obtain ⟨text, evaluatedFmt, computed⟩ := PyResult.bind_eq_ok.mp computed
      obtain ⟨values, evaluatedArgs, formatted⟩ :=
        PyResult.bind_eq_ok.mp computed
      simp only [agreesInArray, Bool.and_eq_true] at agree
      have plain := whenOk_ok agree.2 evaluatedArgs
      have fmt := evaluateDraftAst_asDict obj fmt text agree.1.1 evaluatedFmt
      have args :=
        evaluateDraftAsts_asDict obj args values agree.1.2 evaluatedArgs
      simp [evaluateDraftAst, fmt, args, percent_asDict plain formatted, bind,
        Except.bind]
  | obj, .getItemPath target path, result, agree, computed => by
      obtain ⟨found, evaluated, computed⟩ := PyResult.bind_eq_ok.mp computed
      obtain ⟨pathList, evaluatedPath, followed⟩ :=
        PyResult.bind_eq_ok.mp computed
      simp only [agreesInArray, Bool.and_eq_true] at agree
      have atTarget := whenOk_ok agree.2 evaluated
      have fields := whenOk_ok atTarget evaluatedPath
      have target :=
        evaluateDraftAst_asDict obj target found agree.1.1 evaluated
      have path :=
        evaluateDraftAst_asDict obj path pathList agree.1.2 evaluatedPath
      simp [evaluateDraftAst, target, path,
        getItemPathOf_asDict fields followed, bind, Except.bind]
  | obj, .notNull children, result, agree, computed =>
      evaluateNotNull_asDict obj children result agree computed
  | obj, .where cond x y, result, agree, computed => by
      obtain ⟨test, evaluatedCond, computed⟩ := PyResult.bind_eq_ok.mp computed
      obtain ⟨first, evaluatedX, computed⟩ := PyResult.bind_eq_ok.mp computed
      obtain ⟨second, evaluatedY, computed⟩ := PyResult.bind_eq_ok.mp computed
      cases computed
      simp only [agreesInArray, Bool.and_eq_true] at agree
      have notEmpty := whenOk_ok agree.2 evaluatedCond
      have cond :=
        evaluateDraftAst_asDict obj cond test agree.1.1.1 evaluatedCond
      have x := evaluateDraftAst_asDict obj x first agree.1.1.2 evaluatedX
      have y := evaluateDraftAst_asDict obj y second agree.1.2 evaluatedY
      simp only [evaluateDraftAst, cond, x, y, bind, Except.bind,
        where_asDict first second notEmpty]
  | obj, .array children, result, agree, computed => by
      obtain ⟨items, evaluated, computed⟩ := PyResult.bind_eq_ok.mp computed
      cases computed
      have children :=
        evaluateDraftAsts_asDict obj children items agree evaluated
      simp [evaluateDraftAst, children, asDict, bind, Except.bind]
  | obj, .concat children, result, agree, computed => by
      obtain ⟨items, evaluated, summed⟩ := PyResult.bind_eq_ok.mp computed
      have children :=
        evaluateDraftAsts_asDict obj children items agree evaluated
      simp [evaluateDraftAst, children, sumLists_asDict summed, bind,
        Except.bind]
  | obj, .len x, result, agree, computed => by
      obtain ⟨value, evaluated, measured⟩ := PyResult.bind_eq_ok.mp computed
      have x := evaluateDraftAst_asDict obj x value agree evaluated
      simp [evaluateDraftAst, x, len_asDict measured, bind, Except.bind]
  | obj, .otherFunc _ _, result, _, computed => by
      cases computed

theorem evaluateDraftAsts_asDict :
    ∀ (obj : Value F) (nodes : List (DraftASTNode F)) (results : List (Value F)),
      allAgreeInArray obj nodes = true →
      evaluateDraftAsts obj nodes = .ok results →
      evaluateDraftAsts (asDict obj) nodes = .ok (results.map asDict)
  | obj, [], results, _, computed => by
      cases computed
      rfl
  | obj, node :: rest, results, agree, computed => by
      obtain ⟨value, evaluated, computed⟩ := PyResult.bind_eq_ok.mp computed
      obtain ⟨values, others, computed⟩ := PyResult.bind_eq_ok.mp computed
      cases computed
      simp only [allAgreeInArray, Bool.and_eq_true] at agree
      have first := evaluateDraftAst_asDict obj node value agree.1 evaluated
      have others := evaluateDraftAsts_asDict obj rest values agree.2 others
      simp [evaluateDraftAsts, first, others, bind, Except.bind]

theorem evaluateNotNull_asDict :
    ∀ (obj : Value F) (nodes : List (DraftASTNode F)) (result : Value F),
      notNullAgreesInArray obj nodes = true →
      evaluateNotNull obj nodes = .ok result →
      evaluateNotNull (asDict obj) nodes = .ok (asDict result)
  | obj, [], result, _, computed => by
      cases computed
      rfl
  | obj, node :: rest, result, agree, computed => by
      obtain ⟨value, evaluated, computed⟩ := PyResult.bind_eq_ok.mp computed
      simp only [notNullAgreesInArray, Bool.and_eq_true] at agree
      have later := whenOk_ok agree.2 evaluated
      have first := evaluateDraftAst_asDict obj node value agree.1 evaluated
      simp only [evaluateNotNull, first, bind, Except.bind]
      cases value with
      | none =>
          exact evaluateNotNull_asDict obj rest result later computed
      | bool | int | float | str | list | tuple | dict | obj =>
          cases computed
          rfl

end

mutual

/-- `evaluate_draft_ast_json` computes the dictionary of what the other computes. -/
theorem evaluateDraftAstJson_asDict :
    ∀ (obj : Value F) (node : DraftASTNode F) (result : Value F),
      evaluatorsAgree obj node = true →
      evaluateDraftAst obj node = .ok result →
      evaluateDraftAstJson (asDict obj) node = .ok (asDict result)
  | obj, .name value, result, agree, computed => by
      simp only [evaluatorsAgree, Bool.or_eq_true, Bool.and_eq_true,
        bne_iff_ne, ne_eq] at agree
      by_cases root : isRootName value = true
      · simp only [evaluateDraftAst, evaluateDraftAstJson, root, Bool.true_or,
          ↓reduceIte, Except.ok.injEq] at *
        rw [computed]
      · have field := agree.resolve_left root
        have notCall : (value == "getRoot()") = false := by
          simp [field.1]
        simp only [evaluateDraftAst, evaluateDraftAstJson, notCall, root,
          Bool.or_self, Bool.false_eq_true, ↓reduceIte] at *
        exact getItem_asDict_of_getAttr computed field.2
  | obj, .jsonLiteral literal, result, _, computed => by
      cases computed
      simp [evaluateDraftAstJson, asDict_of_isPlain _ literal.plain]
  | obj, .stringLiteral value, result, _, computed => by
      cases computed
      rfl
  | obj, .getAttr target value, result, agree, computed => by
      obtain ⟨found, evaluated, read⟩ := PyResult.bind_eq_ok.mp computed
      simp only [evaluatorsAgree, Bool.and_eq_true] at agree
      have field := whenOk_ok agree.2 evaluated
      have target :=
        evaluateDraftAstJson_asDict obj target found agree.1 evaluated
      simp [evaluateDraftAstJson, target,
        getItem_asDict_of_getAttr read field, bind, Except.bind]
  | obj, .arrayGetItem target value, result, agree, computed => by
      obtain ⟨found, evaluated, read⟩ := PyResult.bind_eq_ok.mp computed
      have target :=
        evaluateDraftAstJson_asDict obj target found agree evaluated
      have item := getItem_asDict read
      rw [asDict_toValue] at item
      simp [evaluateDraftAstJson, target, item, bind, Except.bind]
  | obj, .dictGetItem target value, result, agree, computed => by
      obtain ⟨found, evaluated, read⟩ := PyResult.bind_eq_ok.mp computed
      have target :=
        evaluateDraftAstJson_asDict obj target found agree evaluated
      have item := getItem_asDict read
      rw [asDict_toValue] at item
      simp [evaluateDraftAstJson, target, item, bind, Except.bind]
  | obj, .binaryOp op x y, result, agree, computed => by
      obtain ⟨first, evaluatedX, computed⟩ := PyResult.bind_eq_ok.mp computed
      obtain ⟨second, evaluatedY, compared⟩ := PyResult.bind_eq_ok.mp computed
      simp only [evaluatorsAgree, Bool.and_eq_true] at agree
      have atFirst := whenOk_ok agree.2 evaluatedX
      have operands := whenOk_ok atFirst evaluatedY
      have x := evaluateDraftAstJson_asDict obj x first agree.1.1.2 evaluatedX
      have y := evaluateDraftAstJson_asDict obj y second agree.1.2 evaluatedY
      have bare : ∀ a b : Value F, compareOpJson op a b = compareOp op a b := by
        intro a b
        have notTupled := agree.1.1.1
        cases op <;> first
          | rfl
          | simp [isTupled] at notTupled
      simp [evaluateDraftAstJson, x, y, bare,
        compareOp_asDict operands compared, bind, Except.bind]
  | obj, .unaryNot x, result, agree, _ => by
      simp [evaluatorsAgree] at agree
  | obj, .getItem target key, result, agree, computed => by
      obtain ⟨k, evaluatedKey, computed⟩ := PyResult.bind_eq_ok.mp computed
      obtain ⟨found, evaluated, read⟩ := PyResult.bind_eq_ok.mp computed
      simp only [evaluatorsAgree, Bool.and_eq_true] at agree
      have key := evaluateDraftAstJson_asDict obj key k agree.2 evaluatedKey
      have target :=
        evaluateDraftAstJson_asDict obj target found agree.1 evaluated
      simp [evaluateDraftAstJson, key, target, getItem_asDict read, bind,
        Except.bind]
  | obj, .getattr target key, result, agree, computed => by
      obtain ⟨found, evaluated, computed⟩ := PyResult.bind_eq_ok.mp computed
      obtain ⟨k, evaluatedKey, read⟩ := PyResult.bind_eq_ok.mp computed
      simp only [evaluatorsAgree, Bool.and_eq_true] at agree
      have atTarget := whenOk_ok agree.2 evaluated
      have field := whenOk_ok atTarget evaluatedKey
      have target :=
        evaluateDraftAstJson_asDict obj target found agree.1.1 evaluated
      have key := evaluateDraftAstJson_asDict obj key k agree.1.2 evaluatedKey
      cases k with
      | str name =>
          simp [evaluateDraftAstJson, target, key, asDict,
            getItem_asDict_of_getAttr read field, bind, Except.bind]
      | none | bool | int | float | list | tuple | dict | obj =>
          cases read
  | obj, .cformat fmt args, result, agree, computed => by
      obtain ⟨text, evaluatedFmt, computed⟩ := PyResult.bind_eq_ok.mp computed
      obtain ⟨values, evaluatedArgs, formatted⟩ :=
        PyResult.bind_eq_ok.mp computed
      simp only [evaluatorsAgree, Bool.and_eq_true] at agree
      have plain := whenOk_ok agree.2 evaluatedArgs
      have fmt :=
        evaluateDraftAstJson_asDict obj fmt text agree.1.1 evaluatedFmt
      have args :=
        evaluateDraftAstsJson_asDict obj args values agree.1.2 evaluatedArgs
      simp [evaluateDraftAstJson, fmt, args, percent_asDict plain formatted,
        bind, Except.bind]
  | obj, .getItemPath target path, result, agree, computed => by
      obtain ⟨found, evaluated, computed⟩ := PyResult.bind_eq_ok.mp computed
      obtain ⟨pathList, evaluatedPath, followed⟩ :=
        PyResult.bind_eq_ok.mp computed
      simp only [evaluatorsAgree, Bool.and_eq_true] at agree
      have atTarget := whenOk_ok agree.2 evaluated
      have fields := whenOk_ok atTarget evaluatedPath
      have target :=
        evaluateDraftAstJson_asDict obj target found agree.1.1 evaluated
      have path :=
        evaluateDraftAstJson_asDict obj path pathList agree.1.2 evaluatedPath
      simp [evaluateDraftAstJson, target, path,
        getItemPathOf_asDict fields followed, bind, Except.bind]
  | obj, .notNull children, result, agree, computed =>
      evaluateNotNullJson_asDict obj children result agree computed
  | obj, .where cond x y, result, agree, computed => by
      obtain ⟨test, evaluatedCond, computed⟩ := PyResult.bind_eq_ok.mp computed
      obtain ⟨first, evaluatedX, computed⟩ := PyResult.bind_eq_ok.mp computed
      obtain ⟨second, evaluatedY, computed⟩ := PyResult.bind_eq_ok.mp computed
      cases computed
      simp only [evaluatorsAgree, Bool.and_eq_true] at agree
      have notEmpty := whenOk_ok agree.2 evaluatedCond
      have cond :=
        evaluateDraftAstJson_asDict obj cond test agree.1.1.1 evaluatedCond
      have x := evaluateDraftAstJson_asDict obj x first agree.1.1.2 evaluatedX
      have y := evaluateDraftAstJson_asDict obj y second agree.1.2 evaluatedY
      simp only [evaluateDraftAstJson, cond, x, y, bind, Except.bind,
        where_asDict first second notEmpty]
  | obj, .array children, result, agree, computed => by
      obtain ⟨items, evaluated, computed⟩ := PyResult.bind_eq_ok.mp computed
      cases computed
      have children :=
        evaluateDraftAsts_asDict obj children items agree evaluated
      simp [evaluateDraftAstJson, children, asDict, bind, Except.bind]
  | obj, .concat children, result, agree, computed => by
      obtain ⟨items, evaluated, summed⟩ := PyResult.bind_eq_ok.mp computed
      have children :=
        evaluateDraftAstsJson_asDict obj children items agree evaluated
      simp [evaluateDraftAstJson, children, sumLists_asDict summed, bind,
        Except.bind]
  | obj, .len x, result, agree, _ => by
      simp [evaluatorsAgree] at agree
  | obj, .otherFunc _ _, result, _, computed => by
      cases computed

theorem evaluateDraftAstsJson_asDict :
    ∀ (obj : Value F) (nodes : List (DraftASTNode F)) (results : List (Value F)),
      allEvaluatorsAgree obj nodes = true →
      evaluateDraftAsts obj nodes = .ok results →
      evaluateDraftAstsJson (asDict obj) nodes = .ok (results.map asDict)
  | obj, [], results, _, computed => by
      cases computed
      rfl
  | obj, node :: rest, results, agree, computed => by
      obtain ⟨value, evaluated, computed⟩ := PyResult.bind_eq_ok.mp computed
      obtain ⟨values, others, computed⟩ := PyResult.bind_eq_ok.mp computed
      cases computed
      simp only [allEvaluatorsAgree, Bool.and_eq_true] at agree
      have first := evaluateDraftAstJson_asDict obj node value agree.1 evaluated
      have others := evaluateDraftAstsJson_asDict obj rest values agree.2 others
      simp [evaluateDraftAstsJson, first, others, bind, Except.bind]

theorem evaluateNotNullJson_asDict :
    ∀ (obj : Value F) (nodes : List (DraftASTNode F)) (result : Value F),
      notNullEvaluatorsAgree obj nodes = true →
      evaluateNotNull obj nodes = .ok result →
      evaluateNotNullJson (asDict obj) nodes = .ok (asDict result)
  | obj, [], result, _, computed => by
      cases computed
      rfl
  | obj, node :: rest, result, agree, computed => by
      obtain ⟨value, evaluated, computed⟩ := PyResult.bind_eq_ok.mp computed
      simp only [notNullEvaluatorsAgree, Bool.and_eq_true] at agree
      have later := whenOk_ok agree.2 evaluated
      have first := evaluateDraftAstJson_asDict obj node value agree.1 evaluated
      simp only [evaluateNotNullJson, first, bind, Except.bind]
      cases value with
      | none =>
          exact evaluateNotNullJson_asDict obj rest result later computed
      | bool | int | float | str | list | tuple | dict | obj =>
          cases computed
          rfl

end

/--
On a dataclass model, an expression without such nodes evaluates on the
dictionary of the model to the dictionary of its value.
-/
theorem evaluateDraftAstJson_agrees
    {cls : String}
    {fields extras : List (String × Value F)}
    {node : DraftASTNode F}
    {result : Value F}
    (agree : evaluatorsAgree (.obj cls fields extras) node = true)
    (evaluated : evaluateDraftAst (.obj cls fields extras) node = .ok result) :
    evaluateDraftAstJson (asDict (.obj cls fields extras)) node =
      .ok (asDict result) :=
  evaluateDraftAstJson_asDict _ node result agree evaluated

/-- A model with one nested dataclass object. -/
def sampleModel : Value WholeFloat :=
  .obj "Model"
    [("a", .int 1), ("c", .bool true), ("e", .list [.int 1, .int 2]),
      ("h", .obj "NestedModel" [("a", .int 3)] [])]
    []

/-- The literal `1`. -/
def oneLiteral : DraftASTNode WholeFloat :=
  .jsonLiteral ⟨.int 1, rfl⟩

/-- `where(a == 1, h, null)`. -/
def sampleWhere : DraftASTNode WholeFloat :=
  .where (.binaryOp .eq (.name "a") oneLiteral)
    (.getAttr (.name "") "h") (.jsonLiteral ⟨.none, rfl⟩)

/-- The nested object, chosen by a condition, comes back as a dictionary. -/
theorem evaluateDraftAstJson_agrees_where :
    evaluateDraftAst sampleModel sampleWhere =
        .ok (.obj "NestedModel" [("a", .int 3)] []) ∧
      evaluateDraftAstJson (asDict sampleModel) sampleWhere =
        .ok (.dict [(.str "a", .int 3)]) := by
  have agree : evaluatorsAgree sampleModel sampleWhere = true := by
    decide +kernel
  have evaluated :
      evaluateDraftAst sampleModel sampleWhere =
        .ok (.obj "NestedModel" [("a", .int 3)] []) :=
    rfl
  exact ⟨evaluated, evaluateDraftAstJson_agrees agree evaluated⟩

/-- The dictionary evaluator puts the outcome of `!` into a tuple. -/
theorem evaluateDraftAstJson_disagrees_not :
    evaluateDraftAst sampleModel (.unaryNot (.name "c")) =
        .ok (.bool false) ∧
      evaluateDraftAstJson (asDict sampleModel) (.unaryNot (.name "c")) ≠
        .ok (asDict (.bool false)) := by
  refine ⟨rfl, ?_⟩
  intro same
  have tupled :
      evaluateDraftAstJson (asDict sampleModel) (.unaryNot (.name "c")) =
        .ok (.tuple [.bool false, .list []]) :=
    rfl
  rw [tupled] at same
  cases same

end TensorPC.Draft
