import TensorPC.Py.Dict

namespace TensorPC.Pfl

/-!
# Signatures and the arguments of a call

`PFLExprFuncInfo.from_signature` and `match_args_to_sig`.  Annotations are only
passed on: what the parser makes of them is a parameter.
-/

/-- `inspect.Parameter`, without its kind. -/
structure Parameter (A D : Type) where
  name : String
  annotation : Option A
  default : Option D

/-- `inspect.Parameter.kind`, for parameters that can be given by name. -/
inductive ParameterKind where
  | positionalOrKeyword
  | varPositional
  | keywordOnly
  | varKeyword
  deriving DecidableEq, Repr

/-- `inspect.Signature`: the parameters in the order of their kinds, with different names.  A
return annotation may be missing, or be `None`. -/
structure Signature (A D : Type) where
  positional : List (Parameter A D)
  varPositional : Option (Parameter A D)
  keywordOnly : List (Parameter A D)
  varKeyword : Option (Parameter A D)
  returnAnnotation : Option (Option A)
  distinct :
    ((positional ++ varPositional.toList ++ keywordOnly ++ varKeyword.toList).map
      Parameter.name).Nodup

/-- `sig.parameters.values()`. -/
def Signature.parameters {A D : Type} (sig : Signature A D) :
    List (ParameterKind × Parameter A D) :=
  sig.positional.map (.positionalOrKeyword, ·) ++
    sig.varPositional.toList.map (.varPositional, ·) ++
    sig.keywordOnly.map (.keywordOnly, ·) ++
    sig.varKeyword.toList.map (.varKeyword, ·)

/-- `PFLTemplateFnSpecMeta` and `PFLTemplateFnSpecArgsMeta`. -/
inductive TemplateMeta where
  | fnSpec (key : String)
  | fnSpecArgs (key : String)

/-- What the parser makes of annotations: annotated types of type `T`, and infos of type `I`. -/
structure TypeParser (A D T I : Type) where
  isSelf : A → Bool
  parseType : A → Option T → PyResult T
  metadata : T → List TemplateMeta
  fromAnnotype : T → PyResult I
  fromReturnAnnotype : T → PyResult I
  fromValue : D → PyResult I
  unknown : I
  noneType : I

/-- `PFLExprFuncArgInfo`. -/
structure PFLExprFuncArgInfo (D I : Type) where
  name : String
  type : I
  default : Option D
  defaultType : Option I
  isVaargs : Bool
  isKwVaargs : Bool
  isTypeParsed : Bool
  isTemplateFnArgSpec : Bool
  templateFnArgSpecIdx : Option Nat

/-- `PFLExprFuncInfo`. -/
structure PFLExprFuncInfo (D I : Type) where
  name : String
  args : List (PFLExprFuncArgInfo D I)
  returnType : I
  isMethod : Bool
  hasTemplateFnSpec : Bool
  boundSelfType : Option I

section Signature

variable {A D T I : Type}

/-! ## From a signature -/

/-- The loop variables of `from_signature`. -/
structure SignatureScan (D I : Type) where
  cnt : Nat
  args : List (PFLExprFuncArgInfo D I)
  templateSpecArgMetaIdx : Dict String Nat
  templateSpecMetaIdx : Dict String Nat

/-- The annotated type of a parameter; nothing when it is parsed later. -/
def paramAnnotype
    (parser : TypeParser A D T I)
    (selfType : Option T)
    (delayParseArgs : Bool)
    (cnt : Nat)
    (param : Parameter A D) :
    PyResult (Option T) :=
  if selfType.isSome ∧ cnt = 0 then
    .ok selfType
  else if delayParseArgs then
    .ok none
  else
    match param.annotation with
    | none => .error (.assertionError ("param " ++ param.name ++ " must have annotation"))
    | some anno =>
        if parser.isSelf anno then
          match selfType with
          | some selfType => .ok (some selfType)
          | none => .error (.assertionError "")
        else
          (parser.parseType anno selfType).map some

/-- One of the metadata of an annotation. -/
def scanMeta
    (scan : SignatureScan D I × Bool)
    (found : TemplateMeta) :
    PyResult (SignatureScan D I × Bool) :=
  match found with
  | .fnSpec key =>
      .ok ({ scan.1 with
        templateSpecMetaIdx := scan.1.templateSpecMetaIdx.set key scan.1.cnt }, scan.2)
  | .fnSpecArgs key => do
      pyAssert (!scan.1.templateSpecArgMetaIdx.contains key)
        "only one arg spec allowed for each key."
      return ({ scan.1 with
        templateSpecArgMetaIdx := scan.1.templateSpecArgMetaIdx.set key scan.1.cnt }, true)

/-- `arg_type`. -/
def paramArgType
    (parser : TypeParser A D T I) :
    Option T → PyResult I
  | some annotype => parser.fromAnnotype annotype
  | none => .ok parser.unknown

/-- The info of a parameter. -/
def paramArgInfo
    (parser : TypeParser A D T I)
    (annotype : Option T)
    (isTemplateFnArgSpec : Bool)
    (kind : ParameterKind)
    (param : Parameter A D) :
    PyResult (PFLExprFuncArgInfo D I) := do
  let type ← paramArgType parser annotype
  pyAssert (!(param.default.isSome && isTemplateFnArgSpec))
    "arg with default value can't be marked with `PFLTemplateFnSpecArgsMeta`"
  let defaultType ← param.default.mapM parser.fromValue
  return {
    name := param.name
    type := type
    default := param.default
    defaultType := defaultType
    isVaargs := kind = .varPositional
    isKwVaargs := false
    isTypeParsed := annotype.isSome
    isTemplateFnArgSpec := isTemplateFnArgSpec
    templateFnArgSpecIdx := none }

/-- The loop of `from_signature`: a skipped parameter is not counted. -/
def scanParameter
    (parser : TypeParser A D T I)
    (isBoundMethod : Bool)
    (selfType : Option T)
    (delayParseArgs : Bool)
    (scan : SignatureScan D I)
    (param : ParameterKind × Parameter A D) :
    PyResult (SignatureScan D I) :=
  if isBoundMethod ∧ scan.cnt = 0 then
    .ok scan
  else do
    let annotype ← paramAnnotype parser selfType delayParseArgs scan.cnt param.2
    let marked ← ((annotype.map parser.metadata).getD []).foldlM scanMeta (scan, false)
    let arg ← paramArgInfo parser annotype marked.2 param.1 param.2
    return { marked.1 with args := scan.args ++ [arg], cnt := scan.cnt + 1 }

/-- `return_type`. -/
def signatureReturnType
    (parser : TypeParser A D T I)
    (selfType : Option T)
    (delayParseArgs : Bool) :
    Option (Option A) → PyResult I
  | none => .ok (if delayParseArgs then parser.unknown else parser.noneType)
  | some none => .ok parser.noneType
  | some (some anno) =>
      if parser.isSelf anno then
        match selfType with
        | some selfType => parser.fromReturnAnnotype selfType
        | none => .error (.assertionError "")
      else
        parser.parseType anno selfType >>= parser.fromReturnAnnotype

/-- Connects a parameter with the one that has the arguments for it. -/
def setSpecIdx
    (specArgs : Dict String Nat)
    (args : List (PFLExprFuncArgInfo D I))
    (spec : String × Nat) :
    PyResult (List (PFLExprFuncArgInfo D I)) :=
  match specArgs.get? spec.1 with
  | none => .error (.assertionError ("PFLTemplateFnSpecArgsMeta " ++ spec.1 ++ " not found"))
  | some index =>
      .ok (args.modify spec.2 fun arg => { arg with templateFnArgSpecIdx := some index })

/-- `from_signature`. -/
def fromSignature
    (parser : TypeParser A D T I)
    (name : String)
    (sig : Signature A D)
    (isBoundMethod : Bool)
    (selfType : Option T)
    (delayParseArgs : Bool) :
    PyResult (PFLExprFuncInfo D I) := do
  let scan ← sig.parameters.foldlM
    (scanParameter parser isBoundMethod selfType delayParseArgs)
    { cnt := 0, args := [], templateSpecArgMetaIdx := .empty, templateSpecMetaIdx := .empty }
  scan.templateSpecArgMetaIdx.keys.forM fun key =>
    pyAssert (scan.templateSpecMetaIdx.contains key)
      ("PFLTemplateFnSpecMeta " ++ key ++ " not found")
  let args ← scan.templateSpecMetaIdx.entries.foldlM
    (setSpecIdx scan.templateSpecArgMetaIdx) scan.args
  let returnType ← signatureReturnType parser selfType delayParseArgs sig.returnAnnotation
  return {
    name := name
    args := args
    returnType := returnType
    isMethod := selfType.isSome
    hasTemplateFnSpec := !scan.templateSpecMetaIdx.entries.isEmpty
    boundSelfType := none }

end Signature

/-! ## The arguments of a call -/

/-- `FuncMatchResult`. -/
structure FuncMatchResult (D I β : Type) where
  args : List (PFLExprFuncArgInfo D I × Option β)
  vararg : Option (PFLExprFuncArgInfo D I × List β)
  varKwarg : Option (PFLExprFuncArgInfo D I × Dict String β)

/-- `FuncMatchResult.__post_init__`. -/
def FuncMatchResult.checked {D I β : Type} (result : FuncMatchResult D I β) :
    PyResult (FuncMatchResult D I β) := do
  result.args.forM fun arg =>
    pyAssert (!arg.1.isVaargs && !arg.1.isKwVaargs) "args should not contain vaargs or kw vaargs"
  result.vararg.toList.forM fun vararg =>
    pyAssert vararg.1.isVaargs "vararg should be vaargs"
  result.varKwarg.toList.forM fun varKwarg =>
    pyAssert varKwarg.1.isKwVaargs "var_kwarg should be kw vaargs"
  return result

/-- The local variables of `match_args_to_sig`. -/
structure MatchState (D I β : Type) where
  matchArgs : List (PFLExprFuncArgInfo D I × Option β)
  varargs : List β
  varKwargs : Dict String β

namespace PFLExprFuncInfo

variable {D I β : Type}

/-- `get_bounded_type`. -/
def getBoundedType
    (info : PFLExprFuncInfo D I)
    (boundSelf : I) :
    PFLExprFuncInfo D I :=
  { info with boundSelfType := some boundSelf }

/-- `_vararg_pos`: the last one wins. -/
def varargPos (info : PFLExprFuncInfo D I) : Option Nat :=
  ((info.args.zipIdx.filter fun arg => arg.1.isVaargs).getLast?).map Prod.snd

/-- `_arg_name_to_idx`. -/
def argNameToIdx (info : PFLExprFuncInfo D I) : Dict String Nat :=
  .ofList (info.args.zipIdx.map fun arg => (arg.1.name, arg.2))

/-- `bound_arg_inc`. -/
def boundArgInc (info : PFLExprFuncInfo D I) : Nat :=
  if info.boundSelfType.isSome then 1 else 0

/-- `self.args and self.args[-1].is_kw_vaargs`. -/
def lastIsKwVaargs (info : PFLExprFuncInfo D I) : Bool :=
  (info.args.getLast?.map PFLExprFuncArgInfo.isKwVaargs).getD false

/-- The largest number of positional arguments, without a variadic one. -/
def maxNumArgs (info : PFLExprFuncInfo D I) : Nat :=
  info.args.length - (if info.lastIsKwVaargs then 1 else 0)

/-- `match_args[arg_idx] = (self.args[arg_idx], a)`. -/
def setArg
    (info : PFLExprFuncInfo D I)
    (state : MatchState D I β)
    (argIdx : Nat)
    (value : β) :
    PyResult (MatchState D I β) :=
  match info.args[argIdx]? with
  | some arg => .ok { state with matchArgs := state.matchArgs.set argIdx (arg, some value) }
  | none => .error .indexError

/-- One round of the loop over the positional arguments. -/
def placeArg
    (info : PFLExprFuncInfo D I)
    (state : MatchState D I β)
    (argIdx : Nat)
    (value : β) :
    PyResult (MatchState D I β) :=
  match info.varargPos with
  | none => info.setArg state argIdx value
  | some position =>
      if argIdx < position then
        info.setArg state argIdx value
      else
        .ok { state with varargs := state.varargs ++ [value] }

/-- The loop over the positional arguments. -/
def matchPositional
    (info : PFLExprFuncInfo D I) :
    Nat → List β → MatchState D I β → PyResult (MatchState D I β)
  | _, [], state => .ok state
  | argIdx, value :: rest, state => do
      let next ← info.placeArg state argIdx value
      info.matchPositional (argIdx + 1) rest next

/-- One round of the loop over the keyword arguments. -/
def matchKeyword
    (info : PFLExprFuncInfo D I)
    (state : MatchState D I β)
    (kwarg : String × β) :
    PyResult (MatchState D I β) :=
  match info.argNameToIdx.get? kwarg.1 with
  | none => .error (.keyError kwarg.1)
  | some argIdx =>
      match info.args[argIdx]? with
      | none => .error .indexError
      | some argInfo =>
          if argInfo.isKwVaargs then do
            pyAssert info.lastIsKwVaargs ""
            return { state with varKwargs := state.varKwargs.set kwarg.1 kwarg.2 }
          else
            info.setArg state argIdx kwarg.2

/-- Without the receiver. -/
def removeBound
    (info : PFLExprFuncInfo D I)
    (matchArgs : List (PFLExprFuncArgInfo D I × Option β)) :
    PyResult (List (PFLExprFuncArgInfo D I × Option β)) :=
  if info.boundSelfType.isSome then do
    pyAssert (decide (0 < matchArgs.length)) ""
    return matchArgs.tail
  else
    .ok matchArgs

/-- `match_args_to_sig`; the text of the first assertion has the printed signature in front. -/
def matchArgsToSig
    (info : PFLExprFuncInfo D I)
    (args : List β)
    (kwargs : Dict String β) :
    PyResult (FuncMatchResult D I β) := do
  pyAssert (decide (info.varargPos = none → args.length + info.boundArgInc ≤ info.maxNumArgs))
    ("expect at most " ++ toString info.maxNumArgs ++ " pos args, but got " ++
      toString args.length)
  let positional ← info.matchPositional info.boundArgInc args
    { matchArgs := info.args.map fun arg => (arg, none), varargs := [], varKwargs := .empty }
  let state ← kwargs.entries.foldlM info.matchKeyword positional
  let matchArgs ← info.removeBound state.matchArgs
  FuncMatchResult.checked {
    args := matchArgs.filter fun arg => !arg.1.isVaargs && !arg.1.isKwVaargs
    vararg := (info.varargPos.bind (info.args[·]?)).map fun arg => (arg, state.varargs)
    varKwarg :=
      if info.lastIsKwVaargs then info.args.getLast?.map fun arg => (arg, state.varKwargs)
      else none }

end PFLExprFuncInfo

end TensorPC.Pfl
