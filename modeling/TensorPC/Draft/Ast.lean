import TensorPC.Py.Container

namespace TensorPC.Draft

/-!
# Draft expressions

The expressions that drafts of a data model build, and the two functions that
evaluate them: one on dataclass objects, one on the dictionaries they are stored
as.  A node has the children that the draft operations give it.
-/

/-- The values of `JSON_LITERAL` nodes, which hold no dataclass object. -/
def isPlain {F : Type} : Value F → Bool
  | .none => true
  | .bool _ => true
  | .int _ => true
  | .float _ => true
  | .str _ => true
  | .list items => isPlainList items
  | .tuple items => isPlainList items
  | .dict entries => isPlainDict entries
  | .obj _ _ _ => false
where
  /-- No item of a list holds a dataclass object. -/
  isPlainList : List (Value F) → Bool
    | [] => true
    | item :: rest => isPlain item && isPlainList rest
  /-- No value of a dictionary holds a dataclass object. -/
  isPlainDict : List (Key F × Value F) → Bool
    | [] => true
    | (_, value) :: rest => isPlain value && isPlainDict rest

/-- A JSON-serializable literal. -/
structure JsonLiteral (F : Type) where
  value : Value F
  plain : isPlain value = true

/-- The operators of `BINARY_OP` nodes. -/
inductive BinaryOp where
  | eq
  | ne
  | order (op : OrderOp)
  | and
  | or
  | arith (op : ArithOp)
  deriving Repr, DecidableEq

/-- `DraftASTNode`; the function call nodes are named after their function. -/
inductive DraftASTNode (F : Type) where
  | name (value : String)
  | jsonLiteral (value : JsonLiteral F)
  | stringLiteral (value : String)
  | getAttr (target : DraftASTNode F) (value : String)
  | arrayGetItem (target : DraftASTNode F) (value : Key F)
  | dictGetItem (target : DraftASTNode F) (value : Key F)
  | binaryOp (op : BinaryOp) (x y : DraftASTNode F)
  /-- `UNARY_OP` with the operator `!`. -/
  | unaryNot (x : DraftASTNode F)
  | getItem (target key : DraftASTNode F)
  /-- The function `getattr`. -/
  | getattr (target key : DraftASTNode F)
  | cformat (fmt : DraftASTNode F) (args : List (DraftASTNode F))
  | getItemPath (target path : DraftASTNode F)
  | notNull (children : List (DraftASTNode F))
  | where (cond x y : DraftASTNode F)
  | array (children : List (DraftASTNode F))
  | concat (children : List (DraftASTNode F))
  | len (x : DraftASTNode F)
  /-- A function that the evaluators do not implement. -/
  | otherFunc (value : String) (children : List (DraftASTNode F))

variable {F : Type} [PyBuiltins F]

/-! ## Operations of both evaluators -/

/-- `x op y` for the operators that compare. -/
def compareOp
    (op : BinaryOp)
    (x y : Value F) :
    PyResult (Value F) :=
  match op with
  | .eq => .ok (.bool (x.pyEq y))
  | .ne => .ok (.bool (!x.pyEq y))
  | .order op => (Value.pyOrder op x y).map .bool
  | .and => .ok (if x.truthy then y else x)
  | .or => .ok (if x.truthy then x else y)
  | .arith op => x.arith op y

/-- `fmt % tuple(args)`. -/
def percent
    (fmt : Value F)
    (args : List (Value F)) :
    PyResult (Value F) :=
  match fmt with
  | .str text => (PyBuiltins.percentFormat text args).map .str
  | _ => .error (.typeError "unsupported operand type(s) for %")

/-- `isinstance(value, (Sequence, Mapping))`. -/
def isSequenceOrMapping : Value F → Bool
  | .list _ => true
  | .tuple _ => true
  | .str _ => true
  | .dict _ => true
  | _ => false

/-- `dataclasses.is_dataclass(value)`. -/
def isDataclass : Value F → Bool
  | .obj _ _ _ => true
  | _ => false

/-- The loop of `getItemPath` over its path list. -/
def followPath
    (curObj : Value F) :
    List (Value F) → PyResult (Value F)
  | [] => .ok curObj
  | p :: rest =>
      if isSequenceOrMapping curObj then do
        let curObj ← curObj.getItem p
        followPath curObj rest
      else do
        pyAssert (isDataclass curObj) ""
        let curObj ← curObj.getAttrValue p
        followPath curObj rest

/-- `getItemPath`: the path has to be a list. -/
def getItemPathOf (target path : Value F) : PyResult (Value F) :=
  match path with
  | .list items => followPath target items
  | _ => .error (.assertionError "")

/-- `sum(values, [])`. -/
def sumLists (values : List (Value F)) : PyResult (Value F) :=
  values.foldlM (Value.arith .add) (.list [])

/-- The names of the model itself. -/
def isRootName (value : String) : Bool :=
  value == "" || value == "$"

/-! ## Evaluation on dataclass objects -/

mutual

/-- `evaluate_draft_ast`. -/
def evaluateDraftAst (obj : Value F) : DraftASTNode F → PyResult (Value F)
  | .name value =>
      if isRootName value || value == "getRoot()" then
        .ok obj
      else
        obj.getAttr value
  | .jsonLiteral literal => .ok literal.value
  | .stringLiteral value => .ok (.str value)
  | .getAttr target value => do
      let target ← evaluateDraftAst obj target
      target.getAttr value
  | .arrayGetItem target value => do
      let target ← evaluateDraftAst obj target
      target.getItem value.toValue
  | .dictGetItem target value => do
      let target ← evaluateDraftAst obj target
      target.getItem value.toValue
  | .binaryOp op x y => do
      let x ← evaluateDraftAst obj x
      let y ← evaluateDraftAst obj y
      compareOp op x y
  | .unaryNot x => do
      let x ← evaluateDraftAst obj x
      .ok (.bool (!x.truthy))
  | .getItem target key => do
      let k ← evaluateDraftAst obj key
      let target ← evaluateDraftAst obj target
      target.getItem k
  | .getattr target key => do
      let target ← evaluateDraftAst obj target
      let key ← evaluateDraftAst obj key
      target.getAttrValue key
  | .cformat fmt args => do
      let fmt ← evaluateDraftAst obj fmt
      let args ← evaluateDraftAsts obj args
      percent fmt args
  | .getItemPath target path => do
      let target ← evaluateDraftAst obj target
      let pathList ← evaluateDraftAst obj path
      getItemPathOf target pathList
  | .notNull children => evaluateNotNull obj children
  | .where cond x y => do
      let cond ← evaluateDraftAst obj cond
      let x ← evaluateDraftAst obj x
      let y ← evaluateDraftAst obj y
      .ok (if cond.truthy then x else y)
  | .array children => do
      let items ← evaluateDraftAsts obj children
      .ok (.list items)
  | .concat children => do
      let items ← evaluateDraftAsts obj children
      sumLists items
  | .len x => do
      let x ← evaluateDraftAst obj x
      x.len
  | .otherFunc _ _ => .error .notImplementedError

/-- `[evaluate_draft_ast(child, obj) for child in children]`. -/
def evaluateDraftAsts
    (obj : Value F) :
    List (DraftASTNode F) → PyResult (List (Value F))
  | [] => .ok []
  | child :: rest => do
      let value ← evaluateDraftAst obj child
      let values ← evaluateDraftAsts obj rest
      .ok (value :: values)

/-- The loop of `not_null`, which stops at the first value that is not `None`. -/
def evaluateNotNull
    (obj : Value F) :
    List (DraftASTNode F) → PyResult (Value F)
  | [] => .ok .none
  | child :: rest => do
      let res ← evaluateDraftAst obj child
      match res with
      | .none => evaluateNotNull obj rest
      | res => .ok res

end

/-! ## Evaluation on dictionaries -/

/-- `x op y, []`: a tuple of the result and an empty list. -/
def withEmptyList (value : Value F) : Value F :=
  .tuple [value, .list []]

/-- The operators of `evaluate_draft_ast_json`. -/
def compareOpJson
    (op : BinaryOp)
    (x y : Value F) :
    PyResult (Value F) :=
  match op with
  | .eq => compareOp op x y
  | .ne => compareOp op x y
  | .order _ => compareOp op x y
  | .and => (compareOp op x y).map withEmptyList
  | .or => (compareOp op x y).map withEmptyList
  | .arith _ => (compareOp op x y).map withEmptyList

mutual

/-- `evaluate_draft_ast_json`; the children of `array` go to the other evaluator. -/
def evaluateDraftAstJson (obj : Value F) : DraftASTNode F → PyResult (Value F)
  | .name value =>
      if isRootName value then
        .ok obj
      else
        obj.getItem (.str value)
  | .jsonLiteral literal => .ok literal.value
  | .stringLiteral value => .ok (.str value)
  | .getAttr target value => do
      let target ← evaluateDraftAstJson obj target
      target.getItem (.str value)
  | .arrayGetItem target value => do
      let target ← evaluateDraftAstJson obj target
      target.getItem value.toValue
  | .dictGetItem target value => do
      let target ← evaluateDraftAstJson obj target
      target.getItem value.toValue
  | .binaryOp op x y => do
      let x ← evaluateDraftAstJson obj x
      let y ← evaluateDraftAstJson obj y
      compareOpJson op x y
  | .unaryNot x => do
      let x ← evaluateDraftAstJson obj x
      .ok (withEmptyList (.bool (!x.truthy)))
  | .getItem target key => do
      let k ← evaluateDraftAstJson obj key
      let target ← evaluateDraftAstJson obj target
      target.getItem k
  | .getattr target key => do
      let src ← evaluateDraftAstJson obj target
      let tgt ← evaluateDraftAstJson obj key
      src.getItem tgt
  | .cformat fmt args => do
      let fmt ← evaluateDraftAstJson obj fmt
      let args ← evaluateDraftAstsJson obj args
      percent fmt args
  | .getItemPath target path => do
      let target ← evaluateDraftAstJson obj target
      let pathList ← evaluateDraftAstJson obj path
      getItemPathOf target pathList
  | .notNull children => evaluateNotNullJson obj children
  | .where cond x y => do
      let cond ← evaluateDraftAstJson obj cond
      let x ← evaluateDraftAstJson obj x
      let y ← evaluateDraftAstJson obj y
      .ok (if cond.truthy then x else y)
  | .array children => do
      let items ← evaluateDraftAsts obj children
      .ok (.list items)
  | .concat children => do
      let items ← evaluateDraftAstsJson obj children
      sumLists items
  | .len _ => .error .notImplementedError
  | .otherFunc _ _ => .error .notImplementedError

/-- `[evaluate_draft_ast_json(child, obj) for child in children]`. -/
def evaluateDraftAstsJson
    (obj : Value F) :
    List (DraftASTNode F) → PyResult (List (Value F))
  | [] => .ok []
  | child :: rest => do
      let value ← evaluateDraftAstJson obj child
      let values ← evaluateDraftAstsJson obj rest
      .ok (value :: values)

/-- The loop of `not_null`. -/
def evaluateNotNullJson
    (obj : Value F) :
    List (DraftASTNode F) → PyResult (Value F)
  | [] => .ok .none
  | child :: rest => do
      let res ← evaluateDraftAstJson obj child
      match res with
      | .none => evaluateNotNullJson obj rest
      | res => .ok res

end

end TensorPC.Draft
