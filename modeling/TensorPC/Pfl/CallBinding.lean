import TensorPC.Pfl.ArgumentMatching

namespace TensorPC.Pfl

/-!
# Binding of calls

What Python binds the parameters of a function to, and when `match_args_to_sig`
does the same.  Python refuses a parameter that is given twice, and collects
what has no parameter of its own; both are missing from the matching.
-/

variable {A D T I β : Type}

/-! ## Python -/

/-- What the parameters of a call are bound to; a parameter without an argument is left out by
the call. -/
structure CallBinding (β : Type) where
  arguments : List (String × Option β)
  varPositional : Option (String × List β)
  varKeyword : Option (String × List (String × β))

namespace Signature

variable (sig : Signature A D)

/-- The names that can be given by keyword. -/
def keywordNames : List String :=
  (sig.positional ++ sig.keywordOnly).map Parameter.name

/-- The names of all parameters. -/
def names : List String :=
  sig.parameters.map fun param => param.2.name

/-- Python accepts a call, apart from missing arguments.  In front of the arguments there are
receivers that the call passes by itself. -/
structure Accepts
    (receivers : Nat)
    (args : List β)
    (kwargs : Dict String β) :
    Prop where
  notTooMany : sig.varPositional = none → receivers + args.length ≤ sig.positional.length
  notTwice :
    ∀ name ∈ kwargs.keys,
      name ∉ (sig.positional.take (receivers + args.length)).map Parameter.name
  isKnown : sig.varKeyword = none → ∀ name ∈ kwargs.keys, name ∈ sig.keywordNames

/-- Python's binding of an accepted call, without the receivers. -/
def binding
    (receivers : Nat)
    (args : List β)
    (kwargs : Dict String β) :
    CallBinding β where
  arguments :=
    ((sig.positional.drop receivers).zipIdx.map fun param =>
        (param.1.name, args[param.2]?.or (kwargs.get? param.1.name))) ++
      sig.keywordOnly.map fun param => (param.name, kwargs.get? param.name)
  varPositional :=
    sig.varPositional.map fun param =>
      (param.name, args.drop (sig.positional.length - receivers))
  varKeyword :=
    sig.varKeyword.map fun param =>
      (param.name, kwargs.entries.filter fun kwarg => decide (kwarg.1 ∉ sig.keywordNames))

end Signature

/-- The binding that a match describes. -/
def FuncMatchResult.binding (result : FuncMatchResult D I β) : CallBinding β where
  arguments := result.args.map fun arg => (arg.1.name, arg.2)
  varPositional := result.vararg.map fun vararg => (vararg.1.name, vararg.2)
  varKeyword := result.varKwarg.map fun varKwarg => (varKwarg.1.name, varKwarg.2.entries)

/-! ## Calls -/

/-- How the function of a signature is taken: as it is, as a method of a type, as such a method
with a receiver from `get_bounded_type`, or as a bound method. -/
inductive CallMode (T I : Type) where
  | plain
  | unboundMethod (selfType : T)
  | boundedMethod (selfType : T) (boundSelf : I)
  | boundMethod (selfType : T)

/-- The number of receivers that a call passes by itself. -/
def CallMode.receivers : CallMode T I → Nat
  | .plain => 0
  | .unboundMethod _ => 0
  | .boundedMethod _ _ => 1
  | .boundMethod _ => 1

/-- A function that can be called; with a receiver it has a parameter for it. -/
structure Callable (A D T I : Type) where
  name : String
  sig : Signature A D
  mode : CallMode T I
  delayParseArgs : Bool
  hasSelf : mode.receivers ≤ sig.positional.length

namespace Callable

/-- What `from_signature` makes of the function. -/
def funcInfo
    (parser : TypeParser A D T I)
    (callable : Callable A D T I) :
    PyResult (PFLExprFuncInfo D I) :=
  match callable.mode with
  | .plain =>
      fromSignature parser callable.name callable.sig false none callable.delayParseArgs
  | .unboundMethod selfType =>
      fromSignature parser callable.name callable.sig false (some selfType)
        callable.delayParseArgs
  | .boundedMethod selfType boundSelf =>
      (fromSignature parser callable.name callable.sig false (some selfType)
        callable.delayParseArgs).map (·.getBoundedType boundSelf)
  | .boundMethod selfType =>
      fromSignature parser callable.name callable.sig true (some selfType)
        callable.delayParseArgs

/-- Python accepts the call, apart from missing arguments. -/
def Accepts
    (callable : Callable A D T I)
    (args : List β)
    (kwargs : Dict String β) :
    Prop :=
  callable.sig.Accepts callable.mode.receivers args kwargs

/-- A call is matched as Python binds it, and raises when Python refuses it. -/
structure BindsLikePython
    (callable : Callable A D T I)
    (args : List β)
    (kwargs : Dict String β)
    (outcome : PyResult (FuncMatchResult D I β)) :
    Prop where
  binds :
    callable.Accepts args kwargs →
      ∃ result,
        outcome = .ok result ∧
          result.binding = callable.sig.binding callable.mode.receivers args kwargs
  raises : ¬ callable.Accepts args kwargs → ∃ raised, outcome = .error raised

/-- The calls that are matched as Python binds them. -/
def MatchesPython
    (callable : Callable A D T I)
    (args : List β)
    (kwargs : Dict String β) :
    Prop :=
  match callable.mode with
  | .boundMethod _ =>
      callable.Accepts args kwargs → callable.sig.parameters.length = 1
  | mode =>
      (callable.Accepts args kwargs → callable.sig.varKeyword = none) ∧
        (¬ callable.Accepts args kwargs →
          (∃ name ∈ kwargs.keys, name ∉ callable.sig.names) ∨
            callable.sig.varPositional = none ∧
              callable.sig.parameters.length < mode.receivers + args.length)

end Callable

/-! ## The infos of the parameters -/

theorem Signature.names_eq (sig : Signature A D) :
    sig.names =
      (sig.positional ++ sig.varPositional.toList ++ sig.keywordOnly ++
        sig.varKeyword.toList).map Parameter.name := by
  simp [Signature.names, Signature.parameters, Function.comp_def]

section Roles

variable {sig : Signature A D} {info : PFLExprFuncInfo D I}

theorem names_of_roles
    (roles : info.args.map PFLExprFuncArgInfo.role = sig.parameters.map paramRole) :
    info.args.map PFLExprFuncArgInfo.name = sig.names := by
  have names := congrArg (List.map Prod.fst) roles
  rw [List.map_map, List.map_map] at names
  exact names

theorem distinct_of_roles
    (roles : info.args.map PFLExprFuncArgInfo.role = sig.parameters.map paramRole) :
    (info.args.map PFLExprFuncArgInfo.name).Nodup := by
  rw [names_of_roles roles, sig.names_eq]
  exact sig.distinct

theorem unmarked_of_roles
    (roles : info.args.map PFLExprFuncArgInfo.role = sig.parameters.map paramRole) :
    ∀ arg ∈ info.args, arg.isKwVaargs = false := by
  intro arg member
  have isRole := List.mem_map_of_mem (f := PFLExprFuncArgInfo.role) member
  rw [roles] at isRole
  obtain ⟨param, _, same⟩ := List.mem_map.mp isRole
  exact (congrArg (fun role => role.2.2) same).symm

/-- The infos of the parameters, by their kinds. -/
structure ArgParts (sig : Signature A D) (info : PFLExprFuncInfo D I) where
  positional : List (PFLExprFuncArgInfo D I)
  varPositional : List (PFLExprFuncArgInfo D I)
  keywordOnly : List (PFLExprFuncArgInfo D I)
  varKeyword : List (PFLExprFuncArgInfo D I)
  args_eq : info.args = positional ++ varPositional ++ keywordOnly ++ varKeyword
  positionalRoles :
    positional.map PFLExprFuncArgInfo.role =
      sig.positional.map fun param => (param.name, false, false)
  varPositionalRoles :
    varPositional.map PFLExprFuncArgInfo.role =
      sig.varPositional.toList.map fun param => (param.name, true, false)
  keywordOnlyRoles :
    keywordOnly.map PFLExprFuncArgInfo.role =
      sig.keywordOnly.map fun param => (param.name, false, false)
  varKeywordRoles :
    varKeyword.map PFLExprFuncArgInfo.role =
      sig.varKeyword.toList.map fun param => (param.name, false, false)

theorem argParts_of_roles
    (roles : info.args.map PFLExprFuncArgInfo.role = sig.parameters.map paramRole) :
    Nonempty (ArgParts sig info) := by
  unfold Signature.parameters at roles
  simp only [List.map_append, List.map_map] at roles
  obtain ⟨inner, varKeyword, isArgs, roles, isVarKeyword⟩ := List.map_eq_append_iff.mp roles
  obtain ⟨front, keywordOnly, isInner, roles, isKeywordOnly⟩ := List.map_eq_append_iff.mp roles
  obtain ⟨positional, varPositional, isFront, isPositional, isVarPositional⟩ :=
    List.map_eq_append_iff.mp roles
  exact ⟨{
    positional := positional
    varPositional := varPositional
    keywordOnly := keywordOnly
    varKeyword := varKeyword
    args_eq := by rw [isArgs, isInner, isFront]
    positionalRoles := isPositional
    varPositionalRoles := isVarPositional
    keywordOnlyRoles := isKeywordOnly
    varKeywordRoles := isVarKeyword }⟩

theorem isVaargs_of_roles
    {args : List (PFLExprFuncArgInfo D I)}
    {params : List (Parameter A D)}
    {isVaargs : Bool}
    (roles :
      args.map PFLExprFuncArgInfo.role =
        params.map fun param => (param.name, isVaargs, false)) :
    ∀ arg ∈ args, arg.isVaargs = isVaargs := by
  intro arg member
  have isRole := List.mem_map_of_mem (f := PFLExprFuncArgInfo.role) member
  rw [roles] at isRole
  obtain ⟨param, _, same⟩ := List.mem_map.mp isRole
  exact (congrArg (fun role => role.2.1) same).symm

theorem map_name_of_roles
    {args : List (PFLExprFuncArgInfo D I)}
    {params : List (Parameter A D)}
    {isVaargs : Bool}
    (roles :
      args.map PFLExprFuncArgInfo.role =
        params.map fun param => (param.name, isVaargs, false)) :
    args.map PFLExprFuncArgInfo.name = params.map Parameter.name := by
  have names := congrArg (List.map Prod.fst) roles
  rw [List.map_map, List.map_map] at names
  exact names

namespace ArgParts

variable (parts : ArgParts sig info)

include parts in
theorem varargPos_eq_none
    (noVararg : sig.varPositional = none) :
    info.varargPos = none := by
  have empty : parts.varPositional = [] := by
    have roles := parts.varPositionalRoles
    rw [noVararg] at roles
    exact List.map_eq_nil_iff.mp roles
  rw [PFLExprFuncInfo.varargPos_eq_none_iff]
  intro arg member
  rw [parts.args_eq, empty, List.append_nil, List.append_assoc] at member
  rcases List.mem_append.mp member with isPositional | later
  · exact isVaargs_of_roles parts.positionalRoles arg isPositional
  · rcases List.mem_append.mp later with isKeywordOnly | isVarKeyword
    · exact isVaargs_of_roles parts.keywordOnlyRoles arg isKeywordOnly
    · exact isVaargs_of_roles parts.varKeywordRoles arg isVarKeyword

theorem filter_zipIdx_eq_nil
    {args : List (PFLExprFuncArgInfo D I)}
    {start : Nat}
    (unmarked : ∀ arg ∈ args, arg.isVaargs = false) :
    ((args.zipIdx start).filter fun arg => arg.1.isVaargs) = [] := by
  rw [List.filter_eq_nil_iff]
  intro arg member
  rw [unmarked arg.1 (List.fst_mem_of_mem_zipIdx member)]
  exact Bool.false_ne_true

/-- The variadic parameter comes after the positional ones. -/
theorem varargPos_eq_some
    {param : Parameter A D}
    (isVararg : sig.varPositional = some param) :
    ∃ arg,
      parts.varPositional = [arg] ∧
        arg.name = param.name ∧
        info.varargPos = some parts.positional.length ∧
          info.args[parts.positional.length]? = some arg := by
  have roles := parts.varPositionalRoles
  rw [isVararg] at roles
  obtain ⟨arg, single, role⟩ := List.map_eq_singleton_iff.mp roles
  have isVaargs : arg.isVaargs = true := congrArg (fun role => role.2.1) role
  have split : info.args =
      parts.positional ++ arg :: (parts.keywordOnly ++ parts.varKeyword) := by
    rw [parts.args_eq, single]
    simp
  have later : ∀ other ∈ parts.keywordOnly ++ parts.varKeyword, other.isVaargs = false := by
    intro other member
    rcases List.mem_append.mp member with isKeywordOnly | isVarKeyword
    · exact isVaargs_of_roles parts.keywordOnlyRoles other isKeywordOnly
    · exact isVaargs_of_roles parts.varKeywordRoles other isVarKeyword
  refine ⟨arg, single, congrArg Prod.fst role, ?_, ?_⟩
  · have front := @filter_zipIdx_eq_nil D I parts.positional 0
      (isVaargs_of_roles parts.positionalRoles)
    rw [PFLExprFuncInfo.varargPos, split, List.zipIdx_append, List.filter_append, front,
      List.zipIdx_cons, List.filter_cons, if_pos isVaargs, filter_zipIdx_eq_nil later,
      Nat.zero_add]
    rfl
  · rw [split]
    simp

theorem length_positional : parts.positional.length = sig.positional.length := by
  have lengths := congrArg List.length parts.positionalRoles
  rw [List.length_map, List.length_map] at lengths
  exact lengths

theorem length_le_positionalLimit :
    parts.positional.length ≤ info.positionalLimit := by
  unfold PFLExprFuncInfo.positionalLimit
  cases vararg : sig.varPositional with
  | none =>
      rw [parts.varargPos_eq_none vararg, parts.args_eq]
      simp only [Option.getD_none, List.length_append]
      omega
  | some param =>
      obtain ⟨arg, _, _, position, _⟩ := parts.varargPos_eq_some vararg
      rw [position]
      exact Nat.le_refl _

include parts in
theorem vararg_eq (args : List β) :
    ((info.varargPos.bind (info.args[·]?)).map fun arg =>
        (arg, args.drop (info.positionalLimit - info.boundArgInc))).map
          (fun vararg => (vararg.1.name, vararg.2)) =
      sig.varPositional.map fun param =>
        (param.name, args.drop (sig.positional.length - info.boundArgInc)) := by
  cases vararg : sig.varPositional with
  | none =>
      rw [parts.varargPos_eq_none vararg]
      rfl
  | some param =>
      obtain ⟨arg, _, sameName, position, found⟩ := parts.varargPos_eq_some vararg
      rw [PFLExprFuncInfo.positionalLimit, position, Option.bind_some, found,
        ← parts.length_positional, Option.map_some, Option.map_some, Option.map_some, sameName]
      rfl

section Accepted

variable {args : List β} {kwargs : Dict String β} {values : String → Option β}

include parts in
theorem positionalValue_keywordOnly
    (accepts : sig.Accepts info.boundArgInc args kwargs)
    {index : Nat}
    (behind : parts.positional.length + parts.varPositional.length ≤ index) :
    info.positionalValue info.boundArgInc args index = none := by
  unfold PFLExprFuncInfo.positionalValue
  cases vararg : sig.varPositional with
  | none =>
      have bound := accepts.notTooMany vararg
      rw [← parts.length_positional] at bound
      split
      · exact List.getElem?_eq_none (by omega)
      · rfl
  | some param =>
      obtain ⟨arg, _, _, position, _⟩ := parts.varargPos_eq_some vararg
      rw [PFLExprFuncInfo.positionalLimit, position, if_neg]
      rintro ⟨_, inLimit⟩
      change index < parts.positional.length at inLimit
      omega

/-- Keyword-only parameters are bound to keyword arguments. -/
theorem keywordOnly_eq
    (accepts : sig.Accepts info.boundArgInc args kwargs)
    (valued : ∀ (index : Nat) (arg : PFLExprFuncArgInfo D I),
      info.args[index]? = some arg →
        values arg.name =
          (kwargs.get? arg.name).or (info.positionalValue info.boundArgInc args index)) :
    (parts.keywordOnly.map fun arg => (arg.name, values arg.name)) =
      sig.keywordOnly.map fun param => (param.name, kwargs.get? param.name) := by
  have byName : (parts.keywordOnly.map fun arg => (arg.name, values arg.name)) =
      (parts.keywordOnly.map PFLExprFuncArgInfo.name).map
        fun name => (name, kwargs.get? name) := by
    rw [List.map_map]
    refine List.map_congr_left fun arg member => congrArg (Prod.mk arg.name) ?_
    obtain ⟨place, inRange, rfl⟩ := List.mem_iff_getElem.mp member
    have found :
        info.args[parts.positional.length + parts.varPositional.length + place]? =
          some parts.keywordOnly[place] := by
      rw [parts.args_eq, List.append_assoc, ← List.length_append, List.getElem?_append_right
        (Nat.le_add_right _ _), Nat.add_sub_cancel_left, List.getElem?_append_left inRange,
        List.getElem?_eq_getElem inRange]
    rw [valued _ _ found, parts.positionalValue_keywordOnly accepts (Nat.le_add_right _ _),
      Option.or_none]
  rw [byName, map_name_of_roles parts.keywordOnlyRoles, List.map_map]
  rfl

/-- Positional parameters are bound to the argument at their place, or by name. -/
theorem positional_eq
    (accepts : sig.Accepts info.boundArgInc args kwargs)
    (valued : ∀ (index : Nat) (arg : PFLExprFuncArgInfo D I),
      info.args[index]? = some arg →
        values arg.name =
          (kwargs.get? arg.name).or (info.positionalValue info.boundArgInc args index)) :
    ((parts.positional.drop info.boundArgInc).map fun arg => (arg.name, values arg.name)) =
      (sig.positional.drop info.boundArgInc).zipIdx.map fun param =>
        (param.1.name, args[param.2]?.or (kwargs.get? param.1.name)) := by
  refine List.ext_getElem? fun place => ?_
  rw [List.getElem?_map, List.getElem?_map, List.getElem?_zipIdx, List.getElem?_drop,
    List.getElem?_drop]
  have sameName := congrArg (·[info.boundArgInc + place]?)
    (map_name_of_roles parts.positionalRoles)
  simp only [List.getElem?_map] at sameName
  cases isArg : parts.positional[info.boundArgInc + place]? with
  | none =>
      rw [isArg] at sameName
      rw [Option.map_eq_none_iff.mp sameName.symm]
      rfl
  | some arg =>
      rw [isArg] at sameName
      obtain ⟨param, isParam, name⟩ := Option.map_eq_some_iff.mp sameName.symm
      have inRange := (List.getElem?_eq_some_iff.mp isArg).1
      have found : info.args[info.boundArgInc + place]? = some arg := by
        rw [parts.args_eq, List.append_assoc, List.append_assoc,
          List.getElem?_append_left inRange]
        exact isArg
      have position : info.positionalValue info.boundArgInc args (info.boundArgInc + place) =
          args[place]? := by
        rw [PFLExprFuncInfo.positionalValue, if_pos ⟨Nat.le_add_right _ _,
          Nat.lt_of_lt_of_le inRange parts.length_le_positionalLimit⟩, Nat.add_sub_cancel_left]
      rw [isParam, Option.map_some, Option.map_some, Option.map_some, valued _ _ found, position,
        name, Nat.zero_add]
      refine congrArg (fun value => some (arg.name, value)) ?_
      cases given : args[place]? with
      | none =>
          exact Option.or_none
      | some value =>
          -- A parameter that has an argument at its place is not named again.
          have isTaken : arg.name ∈
              (sig.positional.take (info.boundArgInc + args.length)).map Parameter.name := by
            rw [← name]
            refine List.mem_map_of_mem (List.mem_of_getElem? (i := info.boundArgInc + place) ?_)
            rw [List.getElem?_take_of_lt (Nat.add_lt_add_left
              (List.getElem?_eq_some_iff.mp given).1 _)]
            exact isParam
          have notNamed : kwargs.get? arg.name = none := by
            refine Option.eq_none_iff_forall_not_mem.mpr fun again isNamed => ?_
            refine accepts.notTwice _ (Dict.mem_keys_iff.mpr ?_) isTaken
            rw [Option.mem_def.mp isNamed]
            rfl
          rw [notNamed]
          rfl

theorem filter_matched :
    (((info.args.map fun arg => (arg, values arg.name)).drop info.boundArgInc).filter
        fun arg => !arg.1.isVaargs && !arg.1.isKwVaargs) =
      ((info.args.drop info.boundArgInc).filter fun arg =>
        !arg.isVaargs && !arg.isKwVaargs).map fun arg => (arg, values arg.name) := by
  rw [← List.map_drop, List.filter_map]
  rfl

include parts in
theorem named_args
    (roles : info.args.map PFLExprFuncArgInfo.role = sig.parameters.map paramRole)
    (noVarKeyword : sig.varKeyword = none)
    (receiver : info.boundArgInc ≤ sig.positional.length) :
    ((info.args.drop info.boundArgInc).filter fun arg => !arg.isVaargs && !arg.isKwVaargs) =
      parts.positional.drop info.boundArgInc ++ parts.keywordOnly := by
  have noVarKeywordArg : parts.varKeyword = [] := by
    have isNone := parts.varKeywordRoles
    rw [noVarKeyword] at isNone
    exact List.map_eq_nil_iff.mp isNone
  have unmarked := unmarked_of_roles roles
  rw [parts.args_eq, noVarKeywordArg, List.append_nil] at unmarked ⊢
  have kept : ∀ {others : List (PFLExprFuncArgInfo D I)},
      (∀ arg ∈ others, arg.isVaargs = false ∧ arg.isKwVaargs = false) →
        (others.filter fun arg => !arg.isVaargs && !arg.isKwVaargs) = others := by
    intro others plain
    refine List.filter_eq_self.mpr fun arg member => ?_
    rw [(plain arg member).1, (plain arg member).2]
    rfl
  have removed :
      (parts.varPositional.filter fun arg => !arg.isVaargs && !arg.isKwVaargs) = [] := by
    refine List.filter_eq_nil_iff.mpr fun arg member => ?_
    rw [isVaargs_of_roles parts.varPositionalRoles arg member]
    exact Bool.false_ne_true
  rw [List.append_assoc, List.drop_append_of_le_length (parts.length_positional ▸ receiver),
    List.filter_append, List.filter_append, removed, List.nil_append, kept, kept]
  · intro arg member
    exact ⟨isVaargs_of_roles parts.keywordOnlyRoles arg member,
      unmarked arg (List.mem_append_right _ member)⟩
  · intro arg member
    have isPositional := List.mem_of_mem_drop member
    exact ⟨isVaargs_of_roles parts.positionalRoles arg isPositional,
      unmarked arg (List.mem_append_left _ (List.mem_append_left _ isPositional))⟩

include parts in
/-- An accepted call is matched as Python binds it, unless there is `**kwargs`. -/
theorem binding_eq
    (roles : info.args.map PFLExprFuncArgInfo.role = sig.parameters.map paramRole)
    (noVarKeyword : sig.varKeyword = none)
    (receiver : info.boundArgInc ≤ sig.positional.length)
    (accepts : sig.Accepts info.boundArgInc args kwargs)
    (valued : ∀ (index : Nat) (arg : PFLExprFuncArgInfo D I),
      info.args[index]? = some arg →
        values arg.name =
          (kwargs.get? arg.name).or (info.positionalValue info.boundArgInc args index)) :
    FuncMatchResult.binding {
        args :=
          ((info.args.map fun arg => (arg, values arg.name)).drop info.boundArgInc).filter
            fun arg => !arg.1.isVaargs && !arg.1.isKwVaargs
        vararg :=
          (info.varargPos.bind (info.args[·]?)).map fun arg =>
            (arg, args.drop (info.positionalLimit - info.boundArgInc))
        varKwarg := none } =
      sig.binding info.boundArgInc args kwargs := by
  unfold FuncMatchResult.binding Signature.binding
  rw [filter_matched, parts.named_args roles noVarKeyword receiver, parts.vararg_eq args,
    noVarKeyword, List.map_map, List.map_append]
  have positional := parts.positional_eq accepts valued
  have keywordOnly := parts.keywordOnly_eq accepts valued
  rw [← positional, ← keywordOnly]
  rfl

end Accepted

end ArgParts

end Roles

/-! ## When calls are bound like Python binds them -/

namespace Callable

section Described

variable {parser : TypeParser A D T I} {callable : Callable A D T I}
variable {info : PFLExprFuncInfo D I} {args : List β} {kwargs : Dict String β}

/-- The infos of a function that is not a bound method. -/
theorem roles_of_funcInfo
    (notBound : ∀ selfType, callable.mode ≠ .boundMethod selfType)
    (described : callable.funcInfo parser = .ok info) :
    info.args.map PFLExprFuncArgInfo.role = callable.sig.parameters.map paramRole ∧
      info.boundArgInc = callable.mode.receivers := by
  unfold funcInfo at described
  cases mode : callable.mode with
  | plain =>
      rw [mode] at described
      obtain ⟨roles, noReceiver⟩ := roles_of_fromSignature described
      refine ⟨roles, ?_⟩
      rw [PFLExprFuncInfo.boundArgInc, noReceiver]
      rfl
  | unboundMethod selfType =>
      rw [mode] at described
      obtain ⟨roles, noReceiver⟩ := roles_of_fromSignature described
      refine ⟨roles, ?_⟩
      rw [PFLExprFuncInfo.boundArgInc, noReceiver]
      rfl
  | boundedMethod selfType boundSelf =>
      rw [mode] at described
      obtain ⟨unbound, unboundDescribed, rfl⟩ := PyResult.map_eq_ok described
      obtain ⟨roles, _⟩ := roles_of_fromSignature unboundDescribed
      exact ⟨roles, rfl⟩
  | boundMethod selfType =>
      exact absurd mode (notBound selfType)

theorem args_ne_nil
    (notBound : ∀ selfType, callable.mode ≠ .boundMethod selfType)
    (described : callable.funcInfo parser = .ok info)
    (bound : info.boundSelfType.isSome = true) :
    info.args ≠ [] := by
  obtain ⟨roles, receivers⟩ := roles_of_funcInfo notBound described
  obtain ⟨parts⟩ := argParts_of_roles roles
  intro noArgs
  have isOne : info.boundArgInc = 1 := if_pos bound
  have receiver := callable.hasSelf
  rw [← receivers, isOne, ← parts.length_positional] at receiver
  rw [parts.args_eq] at noArgs
  simp only [List.append_eq_nil_iff] at noArgs
  rw [noArgs.1.1.1] at receiver
  cases receiver

theorem varargPos_eq_none_iff
    (notBound : ∀ selfType, callable.mode ≠ .boundMethod selfType)
    (described : callable.funcInfo parser = .ok info) :
    info.varargPos = none ↔ callable.sig.varPositional = none := by
  obtain ⟨parts⟩ := argParts_of_roles (roles_of_funcInfo notBound described).1
  refine ⟨fun isNone => ?_, parts.varargPos_eq_none⟩
  cases vararg : callable.sig.varPositional with
  | none =>
      rfl
  | some param =>
      obtain ⟨arg, _, _, position, _⟩ := parts.varargPos_eq_some vararg
      rw [isNone] at position
      cases position

/-- Calls are matched unless they are beyond all parameters. -/
theorem matched_iff
    (notBound : ∀ selfType, callable.mode ≠ .boundMethod selfType)
    (described : callable.funcInfo parser = .ok info) :
    (∃ result, info.matchArgsToSig args kwargs = .ok result) ↔
      (callable.sig.varPositional = none →
          callable.mode.receivers + args.length ≤ callable.sig.parameters.length) ∧
        ∀ name ∈ kwargs.keys, name ∈ callable.sig.names := by
  obtain ⟨roles, receivers⟩ := roles_of_funcInfo notBound described
  have sameLength : info.args.length = callable.sig.parameters.length := by
    have lengths := congrArg List.length roles
    rw [List.length_map, List.length_map] at lengths
    exact lengths
  rw [← varargPos_eq_none_iff notBound described, ← receivers, ← sameLength,
    ← names_of_roles roles]
  constructor
  · rintro ⟨result, matched⟩
    exact PFLExprFuncInfo.fits_of_matchArgsToSig (distinct_of_roles roles)
      (unmarked_of_roles roles) matched
  · rintro ⟨fits, known⟩
    obtain ⟨values, _, matched⟩ := PFLExprFuncInfo.matchArgsToSig_of_fits
      (distinct_of_roles roles) (unmarked_of_roles roles) (args_ne_nil notBound described) fits
      known
    exact ⟨_, matched⟩

theorem varKeyword_of_matched
    {result : FuncMatchResult D I β}
    (notBound : ∀ selfType, callable.mode ≠ .boundMethod selfType)
    (described : callable.funcInfo parser = .ok info)
    (matched : info.matchArgsToSig args kwargs = .ok result) :
    result.binding.varKeyword = none := by
  obtain ⟨roles, _⟩ := roles_of_funcInfo notBound described
  obtain ⟨fits, known⟩ := PFLExprFuncInfo.fits_of_matchArgsToSig (distinct_of_roles roles)
    (unmarked_of_roles roles) matched
  obtain ⟨values, _, again⟩ := PFLExprFuncInfo.matchArgsToSig_of_fits
    (distinct_of_roles roles) (unmarked_of_roles roles) (args_ne_nil notBound described) fits known
  obtain rfl := Except.ok.inj (again.symm.trans matched)
  rfl

theorem fits_of_accepts
    (accepts : callable.Accepts args kwargs)
    (noVarKeyword : callable.sig.varKeyword = none) :
    (callable.sig.varPositional = none →
        callable.mode.receivers + args.length ≤ callable.sig.parameters.length) ∧
      ∀ name ∈ kwargs.keys, name ∈ callable.sig.names := by
  constructor
  · intro noVararg
    refine Nat.le_trans (accepts.notTooMany noVararg) ?_
    simp only [Signature.parameters, List.length_append, List.length_map]
    omega
  · intro name member
    have isKnown := accepts.isKnown noVarKeyword name member
    rw [Signature.names_eq]
    simp only [Signature.keywordNames, List.map_append, List.mem_append] at isKnown ⊢
    tauto

/-- An accepted call of a function without `**kwargs` is bound like Python binds it. -/
theorem binds_of_accepts
    (notBound : ∀ selfType, callable.mode ≠ .boundMethod selfType)
    (described : callable.funcInfo parser = .ok info)
    (accepts : callable.Accepts args kwargs)
    (noVarKeyword : callable.sig.varKeyword = none) :
    ∃ result,
      info.matchArgsToSig args kwargs = .ok result ∧
        result.binding = callable.sig.binding callable.mode.receivers args kwargs := by
  obtain ⟨roles, receivers⟩ := roles_of_funcInfo notBound described
  obtain ⟨parts⟩ := argParts_of_roles roles
  obtain ⟨fits, known⟩ := fits_of_accepts accepts noVarKeyword
  have sameLength : info.args.length = callable.sig.parameters.length := by
    have lengths := congrArg List.length roles
    rw [List.length_map, List.length_map] at lengths
    exact lengths
  have receiver := callable.hasSelf
  unfold Accepts at accepts
  rw [← varargPos_eq_none_iff notBound described, ← receivers, ← sameLength] at fits
  rw [← names_of_roles roles] at known
  rw [← receivers] at accepts receiver ⊢
  obtain ⟨values, valued, matched⟩ := PFLExprFuncInfo.matchArgsToSig_of_fits
    (distinct_of_roles roles) (unmarked_of_roles roles) (args_ne_nil notBound described) fits known
  exact ⟨_, matched, parts.binding_eq roles noVarKeyword receiver accepts valued⟩

/-- The calls of a function that is not a bound method. -/
theorem bindsLikePython_iff_of_notBound
    (notBound : ∀ selfType, callable.mode ≠ .boundMethod selfType)
    (described : callable.funcInfo parser = .ok info) :
    callable.BindsLikePython args kwargs (info.matchArgsToSig args kwargs) ↔
      (callable.Accepts args kwargs → callable.sig.varKeyword = none) ∧
        (¬ callable.Accepts args kwargs →
          (∃ name ∈ kwargs.keys, name ∉ callable.sig.names) ∨
            callable.sig.varPositional = none ∧
              callable.sig.parameters.length < callable.mode.receivers + args.length) := by
  have isMatched := @matched_iff A D T I β parser callable info args kwargs notBound described
  constructor
  · rintro ⟨binds, raises⟩
    refine ⟨fun accepts => ?_, fun refused => ?_⟩
    · obtain ⟨result, matched, same⟩ := binds accepts
      have nothing := varKeyword_of_matched notBound described matched
      rw [same] at nothing
      exact Option.map_eq_none_iff.mp nothing
    · obtain ⟨raised, failed⟩ := raises refused
      have notMatched : ¬ ∃ result, info.matchArgsToSig args kwargs = .ok result := by
        rintro ⟨result, matched⟩
        rw [failed] at matched
        cases matched
      rw [isMatched] at notMatched
      by_contra neither
      apply notMatched
      refine ⟨fun noVararg => ?_, fun name member => ?_⟩
      · by_contra tooMany
        exact neither (.inr ⟨noVararg, Nat.lt_of_not_le tooMany⟩)
      · by_contra unknown
        exact neither (.inl ⟨name, member, unknown⟩)
  · rintro ⟨noVarKeyword, beyond⟩
    refine ⟨fun accepts => binds_of_accepts notBound described accepts (noVarKeyword accepts),
      fun refused => ?_⟩
    cases outcome : info.matchArgsToSig args kwargs with
    | error raised =>
        exact ⟨raised, rfl⟩
    | ok result =>
        obtain ⟨fits, known⟩ := isMatched.mp ⟨result, outcome⟩
        rcases beyond refused with ⟨name, member, unknown⟩ | ⟨noVararg, tooMany⟩
        · exact absurd (known name member) unknown
        · exact absurd (fits noVararg) (Nat.not_le.mpr tooMany)

/-! ### Bound methods -/

/-- A bound method is matched with nothing at all. -/
theorem matchArgsToSig_of_noArgs
    (noArgs : info.args = [])
    (noReceiver : info.boundSelfType = none) :
    (args = [] ∧ kwargs.keys = [] ∧
        info.matchArgsToSig args kwargs = .ok { args := [], vararg := none, varKwarg := none }) ∨
      ¬ (args = [] ∧ kwargs.keys = []) ∧
        ∃ raised, info.matchArgsToSig args kwargs = .error raised := by
  have unmarked : ∀ arg ∈ info.args, arg.isKwVaargs = false := by
    rw [noArgs]
    exact fun arg member => absurd member List.not_mem_nil
  have distinct : (info.args.map PFLExprFuncArgInfo.name).Nodup := by
    rw [noArgs]
    exact List.nodup_nil
  have noVararg : info.varargPos = none := by
    rw [PFLExprFuncInfo.varargPos, noArgs]
    rfl
  have noInc : info.boundArgInc = 0 := by
    rw [PFLExprFuncInfo.boundArgInc, noReceiver]
    rfl
  cases outcome : info.matchArgsToSig args kwargs with
  | error raised =>
      refine .inr ⟨?_, raised, rfl⟩
      rintro ⟨rfl, noKwargs⟩
      obtain ⟨values, _, matched⟩ := @PFLExprFuncInfo.matchArgsToSig_of_fits D I β info [] kwargs
        distinct unmarked (fun bound => by rw [noReceiver] at bound; cases bound)
        (fun _ => by rw [noInc]; exact Nat.zero_le _)
        (fun name member => by rw [noKwargs] at member; cases member)
      rw [matched] at outcome
      cases outcome
  | ok result =>
      obtain ⟨fits, known⟩ := PFLExprFuncInfo.fits_of_matchArgsToSig distinct unmarked outcome
      obtain ⟨values, _, matched⟩ := PFLExprFuncInfo.matchArgsToSig_of_fits distinct unmarked
        (fun bound => by rw [noReceiver] at bound; cases bound) fits known
      have none := fits noVararg
      rw [noArgs, noInc, Nat.zero_add] at none
      refine .inl ⟨List.length_eq_zero_iff.mp (Nat.le_zero.mp none), ?_, ?_⟩
      · rw [List.eq_nil_iff_forall_not_mem]
        intro name member
        have isName := known name member
        rw [noArgs] at isName
        cases isName
      · rw [outcome] at matched
        rw [Except.ok.inj matched, noArgs, noVararg]
        simp

theorem infos_of_boundMethod
    {selfType : T}
    (mode : callable.mode = .boundMethod selfType)
    (described : callable.funcInfo parser = .ok info) :
    info.args = [] ∧ info.boundSelfType = none := by
  unfold funcInfo at described
  rw [mode] at described
  exact args_of_fromSignature_bound described

theorem accepts_nothing
    (noKwargs : kwargs.keys = []) :
    callable.Accepts ([] : List β) kwargs where
  notTooMany := fun _ => callable.hasSelf
  notTwice := by
    rw [noKwargs]
    exact fun name member => absurd member List.not_mem_nil
  isKnown := by
    rw [noKwargs]
    exact fun _ name member => absurd member List.not_mem_nil

theorem length_parameters_eq_one_iff
    (hasSelf : 1 ≤ callable.sig.positional.length) :
    callable.sig.parameters.length = 1 ↔
      callable.sig.positional.length = 1 ∧
        callable.sig.varPositional = none ∧
          callable.sig.keywordOnly = [] ∧ callable.sig.varKeyword = none := by
  simp only [Signature.parameters, List.length_append, List.length_map]
  cases callable.sig.varPositional <;> cases callable.sig.varKeyword <;>
    cases callable.sig.keywordOnly <;>
      simp only [Option.toList_none, Option.toList_some, List.length_nil, List.length_cons,
        reduceCtorEq, and_true, and_false, false_and, iff_false]
  all_goals omega

theorem nothing_of_accepts
    (receivers : callable.mode.receivers = 1)
    (onlySelf : callable.sig.parameters.length = 1)
    (accepts : callable.Accepts args kwargs) :
    args = [] ∧ kwargs.keys = [] := by
  have hasSelf := callable.hasSelf
  rw [receivers] at hasSelf
  obtain ⟨positional, noVararg, noKeywordOnly, noVarKeyword⟩ :=
    (length_parameters_eq_one_iff hasSelf).mp onlySelf
  have notTooMany := accepts.notTooMany noVararg
  rw [receivers, positional] at notTooMany
  refine ⟨List.length_eq_zero_iff.mp (by omega), List.eq_nil_iff_forall_not_mem.mpr ?_⟩
  intro name member
  have isKnown := accepts.isKnown noVarKeyword name member
  have notTwice := accepts.notTwice name member
  rw [receivers, List.take_of_length_le (by omega)] at notTwice
  rw [Signature.keywordNames, noKeywordOnly, List.append_nil] at isKnown
  exact notTwice isKnown

/-- The calls of a bound method. -/
theorem bindsLikePython_iff_of_boundMethod
    {selfType : T}
    (mode : callable.mode = .boundMethod selfType)
    (described : callable.funcInfo parser = .ok info) :
    callable.BindsLikePython args kwargs (info.matchArgsToSig args kwargs) ↔
      (callable.Accepts args kwargs → callable.sig.parameters.length = 1) := by
  obtain ⟨noArgs, noReceiver⟩ := infos_of_boundMethod mode described
  have receivers : callable.mode.receivers = 1 := by
    rw [mode]
    rfl
  have hasSelf := callable.hasSelf
  rw [receivers] at hasSelf
  have outcome := @matchArgsToSig_of_noArgs D I β info args kwargs noArgs noReceiver
  constructor
  · rintro ⟨binds, _⟩ accepts
    obtain ⟨result, matched, same⟩ := binds accepts
    rcases outcome with ⟨_, _, isEmpty⟩ | ⟨_, raised, failed⟩
    · obtain rfl := Except.ok.inj (isEmpty.symm.trans matched)
      have noArguments := (congrArg CallBinding.arguments same).symm
      have noVararg := (congrArg CallBinding.varPositional same).symm
      have noVarKeyword := (congrArg CallBinding.varKeyword same).symm
      obtain ⟨noPositional, noKeywordOnly⟩ := List.append_eq_nil_iff.mp noArguments
      rw [List.map_eq_nil_iff, List.zipIdx_eq_nil_iff, List.drop_eq_nil_iff,
        receivers] at noPositional
      exact (length_parameters_eq_one_iff hasSelf).mpr
        ⟨Nat.le_antisymm noPositional hasSelf, Option.map_eq_none_iff.mp noVararg,
          List.map_eq_nil_iff.mp noKeywordOnly, Option.map_eq_none_iff.mp noVarKeyword⟩
    · rw [failed] at matched
      cases matched
  · intro onlySelf
    refine ⟨fun accepts => ?_, fun refused => ?_⟩
    · obtain ⟨rfl, noKwargs⟩ := nothing_of_accepts receivers (onlySelf accepts) accepts
      obtain ⟨positional, noVararg, noKeywordOnly, noVarKeyword⟩ :=
        (length_parameters_eq_one_iff hasSelf).mp (onlySelf accepts)
      rcases outcome with ⟨_, _, matched⟩ | ⟨notNothing, _⟩
      · refine ⟨_, matched, ?_⟩
        have noPositional : callable.sig.positional.drop 1 = [] :=
          List.drop_eq_nil_iff.mpr (Nat.le_of_eq positional)
        unfold Signature.binding
        rw [receivers, noPositional, noKeywordOnly, noVararg, noVarKeyword]
        rfl
      · exact absurd ⟨rfl, noKwargs⟩ notNothing
    · rcases outcome with ⟨rfl, noKwargs, _⟩ | ⟨_, failed⟩
      · exact absurd (accepts_nothing noKwargs) refused
      · exact failed

end Described

/-- Calls are matched as Python binds them exactly in the cases of `MatchesPython`. -/
theorem bindsLikePython_iff
    {parser : TypeParser A D T I}
    {callable : Callable A D T I}
    {info : PFLExprFuncInfo D I}
    (described : callable.funcInfo parser = .ok info)
    (args : List β)
    (kwargs : Dict String β) :
    callable.BindsLikePython args kwargs (info.matchArgsToSig args kwargs) ↔
      callable.MatchesPython args kwargs := by
  unfold MatchesPython
  split
  · next selfType mode =>
      exact bindsLikePython_iff_of_boundMethod mode described
  · next mode notBound =>
      exact bindsLikePython_iff_of_notBound notBound described

/-! ## Examples -/

/-- A parser for annotations that say nothing. -/
def sampleParser : TypeParser Unit Unit Unit Unit where
  isSelf _ := false
  parseType _ _ := .ok ()
  metadata _ := []
  fromAnnotype _ := .ok ()
  fromReturnAnnotype _ := .ok ()
  fromValue _ := .ok ()
  unknown := ()
  noneType := ()

/-- `def f(a, *, b)`. -/
def sampleCallable : Callable Unit Unit Unit Unit where
  name := "f"
  sig := {
    positional := [{ name := "a", annotation := some (), default := none }]
    varPositional := none
    keywordOnly := [{ name := "b", annotation := some (), default := none }]
    varKeyword := none
    returnAnnotation := none
    distinct := by decide }
  mode := .plain
  delayParseArgs := false
  hasSelf := Nat.zero_le _

/-- The info of a parameter that is not variadic. -/
def sampleArgInfo (name : String) : PFLExprFuncArgInfo Unit Unit where
  name := name
  type := ()
  default := none
  defaultType := none
  isVaargs := false
  isKwVaargs := false
  isTypeParsed := true
  isTemplateFnArgSpec := false
  templateFnArgSpecIdx := none

/-- The info of the function. -/
def sampleInfo : PFLExprFuncInfo Unit Unit where
  name := "f"
  args := [sampleArgInfo "a", sampleArgInfo "b"]
  returnType := ()
  isMethod := false
  hasTemplateFnSpec := false
  boundSelfType := none

/-- `f(1, b=2)`. -/
theorem bindsLikePython_iff_sample :
    sampleCallable.BindsLikePython [1] (Dict.ofList [("b", 2)])
      (sampleInfo.matchArgsToSig [1] (Dict.ofList [("b", 2)])) := by
  refine (@bindsLikePython_iff Unit Unit Unit Unit Nat sampleParser sampleCallable sampleInfo rfl
    [1] (Dict.ofList [("b", 2)])).mpr ⟨fun _ => rfl, fun refused => absurd ?_ refused⟩
  exact {
    notTooMany := fun _ => Nat.le_refl _
    notTwice := by decide
    isKnown := by decide }

/-- `f(1, a=2)` gives the parameter twice. -/
theorem not_bindsLikePython :
    ¬ ∀ (callable : Callable Unit Unit Unit Unit) (info : PFLExprFuncInfo Unit Unit)
        (args : List Nat) (kwargs : Dict String Nat),
      callable.funcInfo sampleParser = .ok info →
        callable.BindsLikePython args kwargs (info.matchArgsToSig args kwargs) := by
  intro binds
  have refused : ¬ sampleCallable.Accepts [1] (Dict.ofList [("a", 2)]) := fun accepts =>
    accepts.notTwice "a" (by decide) (by decide)
  obtain ⟨raised, failed⟩ := (binds sampleCallable sampleInfo [1] (Dict.ofList [("a", 2)])
    rfl).raises refused
  cases failed

end Callable

end TensorPC.Pfl
