import TensorPC.Draft.Ast

namespace TensorPC.Draft

/-!
# Texts of draft expressions

A draft expression has two texts: one in the syntax of JMESPath, one in the syntax of
the frontend language.  Field names, list indices and dictionary keys are written as
they are.
-/

/-- What the texts of literals rest on: `str` of a float, `json.dumps` and `str`. -/
class LiteralTexts (F : Type) where
  floatText : F → String
  jsonDumps : Value F → String
  /-- `str(json.loads(json.dumps(value)))`. -/
  normalizedText : Value F → String

variable {F : Type}

/-- The name `_FRONTEND_SUPPORTED_FUNCS`. -/
def frontendSupportedFuncs : List String :=
  ["getItem", "getAttr", "cformat", "getItemPath", "not_null", "where", "array", "concat",
    "colorFromSlice", "colorFromName", "npToList", "npGetSubArray", "npSliceFirstAxis", "join",
    "len"]

/-- The text of an operator. -/
def BinaryOp.text : BinaryOp → String
  | eq => "=="
  | ne => "!="
  | order .gt => ">"
  | order .lt => "<"
  | order .ge => ">="
  | order .le => "<="
  | and => "&&"
  | or => "||"
  | arith .add => "+"
  | arith .sub => "-"
  | arith .mul => "*"
  | arith .div => "/"
  | arith .floorDiv => "//"

/-- An operator in the frontend language. -/
def BinaryOp.pflText : BinaryOp → String
  | and => "and"
  | or => "or"
  | op => op.text

/-- `f"{value}"` of a boolean. -/
def boolText (value : Bool) : String :=
  if value then "True" else "False"

/-- The assertion of function calls. -/
def requireSupported (func : String) : PyResult Unit :=
  pyAssert (frontendSupportedFuncs.contains func) ("unsupported func " ++ func)

/-- `f"{func}(" + ",".join(children) + ")"`. -/
def callText
    (func : String)
    (children : List String) :
    String :=
  func ++ "(" ++ String.intercalate "," children ++ ")"

section Texts

variable [LiteralTexts F]

/-- `f"{node.value}"` of an index or a key. -/
def keyText : Key F → String
  | .none => "None"
  | .bool value => boolText value
  | .int value => toString value
  | .float value => LiteralTexts.floatText value
  | .str value => value

/-- A literal in JMESPath. -/
def jmesLiteral : Value F → String
  | .bool value => "`" ++ (if value then "true" else "false") ++ "`"
  | .int value => "`" ++ toString value ++ "`"
  | .float value => "`" ++ LiteralTexts.floatText value ++ "`"
  | value => "`" ++ LiteralTexts.jsonDumps value ++ "`"

/-- A literal in the frontend language. -/
def pflLiteral : Value F → String
  | .bool value => boolText value
  | .int value => toString value
  | .float value => LiteralTexts.floatText value
  | value => LiteralTexts.normalizedText value

mutual

/-- `_draft_ast_to_jmes_path_recursive`. -/
def draftAstToJmesPath : DraftASTNode F → PyResult String
  | .name value => .ok (if value = "" then "$" else value)
  | .jsonLiteral literal => .ok (jmesLiteral literal.value)
  | .stringLiteral value => .ok ("'" ++ value ++ "'")
  | .getAttr target value => do
      let childValue ← draftAstToJmesPath target
      if childValue = "" ∨ childValue = "$" then
        .ok value
      else
        .ok (childValue ++ "." ++ value)
  | .arrayGetItem target value => do
      let childValue ← draftAstToJmesPath target
      .ok (childValue ++ "[" ++ keyText value ++ "]")
  | .dictGetItem target value => do
      let childValue ← draftAstToJmesPath target
      .ok (childValue ++ ".\"" ++ keyText value ++ "\"")
  | .binaryOp op x y => do
      let x ← draftAstToJmesPath x
      let y ← draftAstToJmesPath y
      .ok ("(" ++ x ++ op.text ++ y ++ ")")
  | .unaryNot x => do
      let x ← draftAstToJmesPath x
      .ok ("!" ++ x)
  | .getItem target key => do
      requireSupported "getItem"
      let target ← draftAstToJmesPath target
      let key ← draftAstToJmesPath key
      .ok (callText "getItem" [target, key])
  | .getattr target key => do
      requireSupported "getattr"
      let target ← draftAstToJmesPath target
      let key ← draftAstToJmesPath key
      .ok (callText "getattr" [target, key])
  | .cformat fmt args => do
      requireSupported "cformat"
      let fmt ← draftAstToJmesPath fmt
      let args ← draftAstsToJmesPaths args
      .ok (callText "cformat" (fmt :: args))
  | .getItemPath target path => do
      requireSupported "getItemPath"
      let target ← draftAstToJmesPath target
      let path ← draftAstToJmesPath path
      .ok (callText "getItemPath" [target, path])
  | .notNull children => do
      requireSupported "not_null"
      let children ← draftAstsToJmesPaths children
      .ok (callText "not_null" children)
  | .where cond x y => do
      requireSupported "where"
      let cond ← draftAstToJmesPath cond
      let x ← draftAstToJmesPath x
      let y ← draftAstToJmesPath y
      .ok (callText "where" [cond, x, y])
  | .array children => do
      requireSupported "array"
      let children ← draftAstsToJmesPaths children
      .ok (callText "array" children)
  | .concat children => do
      requireSupported "concat"
      let children ← draftAstsToJmesPaths children
      .ok (callText "concat" children)
  | .len x => do
      requireSupported "len"
      let x ← draftAstToJmesPath x
      .ok (callText "len" [x])
  | .otherFunc value children => do
      requireSupported value
      let children ← draftAstsToJmesPaths children
      .ok (callText value children)

/-- `[_draft_ast_to_jmes_path_recursive(child) for child in node.children]`. -/
def draftAstsToJmesPaths : List (DraftASTNode F) → PyResult (List String)
  | [] => .ok []
  | child :: rest => do
      let text ← draftAstToJmesPath child
      let texts ← draftAstsToJmesPaths rest
      .ok (text :: texts)

end

mutual

/-- `_draft_ast_to_pfl_path_recursive`. -/
def draftAstToPflPath : DraftASTNode F → PyResult String
  | .name value => .ok (if value = "" then "getRoot()" else value)
  | .jsonLiteral literal => .ok (pflLiteral literal.value)
  | .stringLiteral value => .ok ("'" ++ value ++ "'")
  | .getAttr target value => do
      let childValue ← draftAstToPflPath target
      if childValue = "" ∨ childValue = "getRoot()" then
        .ok value
      else
        .ok (childValue ++ "." ++ value)
  | .arrayGetItem target value => do
      let childValue ← draftAstToPflPath target
      .ok (childValue ++ "[" ++ keyText value ++ "]")
  | .dictGetItem target value => do
      let childValue ← draftAstToPflPath target
      match value with
      | .str text => .ok (childValue ++ "['" ++ text ++ "']")
      | _ => .error (.assertionError "")
  | .binaryOp op x y => do
      let x ← draftAstToPflPath x
      let y ← draftAstToPflPath y
      .ok ("(" ++ x ++ " " ++ op.pflText ++ " " ++ y ++ ")")
  | .unaryNot x => do
      let x ← draftAstToPflPath x
      .ok ("!" ++ x)
  | .getItem target key => do
      requireSupported "getItem"
      let target ← draftAstToPflPath target
      let key ← draftAstToPflPath key
      .ok (callText "getItem" [target, key])
  | .getattr target key => do
      requireSupported "getattr"
      let target ← draftAstToPflPath target
      let key ← draftAstToPflPath key
      .ok (callText "getattr" [target, key])
  | .cformat fmt args => do
      requireSupported "cformat"
      let fmt ← draftAstToPflPath fmt
      let args ← draftAstsToPflPaths args
      .ok (callText "cformat" (fmt :: args))
  | .getItemPath target path => do
      requireSupported "getItemPath"
      let target ← draftAstToPflPath target
      let path ← draftAstToPflPath path
      .ok (callText "getItemPath" [target, path])
  | .notNull children => do
      requireSupported "not_null"
      let children ← draftAstsToPflPaths children
      .ok (callText "not_null" children)
  | .where cond x y => do
      requireSupported "where"
      let cond ← draftAstToPflPath cond
      let x ← draftAstToPflPath x
      let y ← draftAstToPflPath y
      .ok ("((" ++ x ++ ") if (" ++ cond ++ ") else (" ++ y ++ "))")
  | .array children => do
      requireSupported "array"
      let children ← draftAstsToPflPaths children
      .ok (callText "array" children)
  | .concat children => do
      requireSupported "concat"
      let children ← draftAstsToPflPaths children
      .ok (callText "concat" children)
  | .len x => do
      requireSupported "len"
      let x ← draftAstToPflPath x
      .ok (callText "len" [x])
  | .otherFunc value children => do
      requireSupported value
      let children ← draftAstsToPflPaths children
      .ok (callText value children)

/-- `[_draft_ast_to_pfl_path_recursive(child) for child in node.children]`. -/
def draftAstsToPflPaths : List (DraftASTNode F) → PyResult (List String)
  | [] => .ok []
  | child :: rest => do
      let text ← draftAstToPflPath child
      let texts ← draftAstsToPflPaths rest
      .ok (text :: texts)

end

/-- `DraftASTNode.get_jmes_path`. -/
def DraftASTNode.getJmesPath (node : DraftASTNode F) : PyResult String :=
  match node with
  | .name value => .ok (if value ≠ "" then value else "$")
  | node => draftAstToJmesPath node

/-- `DraftASTNode.get_pfl_path`. -/
def DraftASTNode.getPflPath (node : DraftASTNode F) : PyResult String := do
  let res ← draftAstToPflPath node
  .ok (if res = "" then "getRoot()" else res)

end Texts

/-! ## Access paths -/

/-- The letters of identifiers. -/
def isNameLetter (letter : Char) : Bool :=
  letter.isAlphanum || letter = '_' || 128 ≤ letter.toNat

/-- The name of a dataclass field. -/
structure FieldName where
  text : String
  nonempty : text.toList ≠ []
  letters : ∀ letter ∈ text.toList, isNameLetter letter = true

/-- One access of a path: a field, a list item or the value of a string key. -/
inductive Access where
  | field (name : FieldName)
  | item (index : Int)
  | key (text : String)

/-- The accesses of a path, from the root on. -/
abbrev AccessPath := List Access

/-- The node of an access. -/
def Access.node (target : DraftASTNode F) : Access → DraftASTNode F
  | .field name => .getAttr target name.text
  | .item index => .arrayGetItem target (.int index)
  | .key text => .dictGetItem target (.str text)

/-- The node of a path. -/
def AccessPath.node (path : AccessPath) : DraftASTNode F :=
  path.foldl Access.node (.name "")

end TensorPC.Draft
