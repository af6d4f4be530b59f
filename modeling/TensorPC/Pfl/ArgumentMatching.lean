import TensorPC.Pfl.Signature

namespace TensorPC.Pfl

/-!
# What is matched

The infos of a signature have its names, and `*args` is marked in them.  Since
names differ, both loops of `match_args_to_sig` assign values to names.
-/

variable {A D T I β : Type}

/-! ## The infos of a signature -/

/-- The part of an info that matching looks at. -/
def PFLExprFuncArgInfo.role (arg : PFLExprFuncArgInfo D I) : String × Bool × Bool :=
  (arg.name, arg.isVaargs, arg.isKwVaargs)

/-- What `from_signature` records of a parameter: `**kwargs` is not marked. -/
def paramRole (param : ParameterKind × Parameter A D) : String × Bool × Bool :=
  (param.2.name, decide (param.1 = .varPositional), false)

section FromSignature

variable {parser : TypeParser A D T I} {selfType : Option T} {delayParseArgs : Bool}

theorem role_of_paramArgInfo
    {annotype : Option T}
    {isTemplateFnArgSpec : Bool}
    {kind : ParameterKind}
    {param : Parameter A D}
    {arg : PFLExprFuncArgInfo D I}
    (described : paramArgInfo parser annotype isTemplateFnArgSpec kind param = .ok arg) :
    arg.role = paramRole (kind, param) := by
  obtain ⟨type, _, described⟩ := PyResult.bind_eq_ok.mp described
  obtain ⟨⟨⟩, _, described⟩ := PyResult.bind_eq_ok.mp described
  obtain ⟨defaultType, _, described⟩ := PyResult.bind_eq_ok.mp described
  obtain rfl := Except.ok.inj described
  rfl

/-- The loop over the parameters describes each of them. -/
theorem roles_of_scan
    {params : List (ParameterKind × Parameter A D)}
    {scan after : SignatureScan D I}
    (scanned :
      params.foldlM (scanParameter parser false selfType delayParseArgs) scan = .ok after) :
    after.args.map PFLExprFuncArgInfo.role =
      scan.args.map PFLExprFuncArgInfo.role ++ params.map paramRole := by
  induction params generalizing scan with
  | nil =>
      obtain rfl := Except.ok.inj scanned
      simp
  | cons param params inductionHypothesis =>
      obtain ⟨next, one, rest⟩ := PyResult.bind_eq_ok.mp scanned
      have notBound : ¬ (false = true ∧ scan.cnt = 0) := fun bound => nomatch bound.1
      unfold scanParameter at one
      rw [if_neg notBound] at one
      obtain ⟨annotype, _, one⟩ := PyResult.bind_eq_ok.mp one
      obtain ⟨marked, _, one⟩ := PyResult.bind_eq_ok.mp one
      obtain ⟨arg, described, one⟩ := PyResult.bind_eq_ok.mp one
      obtain rfl := Except.ok.inj one
      rw [inductionHypothesis rest, List.map_append, List.map_singleton,
        role_of_paramArgInfo described, List.append_assoc]
      rfl

theorem scan_of_isBoundMethod
    {params : List (ParameterKind × Parameter A D)}
    {scan : SignatureScan D I}
    (start : scan.cnt = 0) :
    params.foldlM (scanParameter parser true selfType delayParseArgs) scan = .ok scan := by
  induction params with
  | nil =>
      rfl
  | cons param params inductionHypothesis =>
      have skipped :
          scanParameter parser true selfType delayParseArgs scan param = .ok scan :=
        if_pos ⟨rfl, start⟩
      rw [List.foldlM_cons, skipped]
      exact inductionHypothesis

theorem map_role_modify
    {args : List (PFLExprFuncArgInfo D I)}
    {position index : Nat} :
    (args.modify position fun arg => { arg with templateFnArgSpecIdx := some index }).map
        PFLExprFuncArgInfo.role =
      args.map PFLExprFuncArgInfo.role := by
  induction args generalizing position with
  | nil =>
      simp
  | cons arg args inductionHypothesis =>
      cases position with
      | zero =>
          rfl
      | succ position =>
          rw [List.modify_succ_cons, List.map_cons, List.map_cons, inductionHypothesis]

theorem roles_of_setSpecIdx
    {specArgs : Dict String Nat}
    {specs : List (String × Nat)}
    {args after : List (PFLExprFuncArgInfo D I)}
    (connected : specs.foldlM (setSpecIdx specArgs) args = .ok after) :
    after.map PFLExprFuncArgInfo.role = args.map PFLExprFuncArgInfo.role := by
  induction specs generalizing args with
  | nil =>
      obtain rfl := Except.ok.inj connected
      rfl
  | cons spec specs inductionHypothesis =>
      obtain ⟨next, one, rest⟩ := PyResult.bind_eq_ok.mp connected
      rw [inductionHypothesis rest]
      unfold setSpecIdx at one
      split at one
      · cases one
      · obtain rfl := Except.ok.inj one
        exact map_role_modify

theorem fromSignature_eq_ok
    {name : String}
    {sig : Signature A D}
    {isBoundMethod : Bool}
    {info : PFLExprFuncInfo D I}
    (described : fromSignature parser name sig isBoundMethod selfType delayParseArgs = .ok info) :
    ∃ scan,
      sig.parameters.foldlM (scanParameter parser isBoundMethod selfType delayParseArgs)
          { cnt := 0, args := [], templateSpecArgMetaIdx := .empty,
            templateSpecMetaIdx := .empty } = .ok scan ∧
        info.args.map PFLExprFuncArgInfo.role = scan.args.map PFLExprFuncArgInfo.role ∧
          info.boundSelfType = none := by
  obtain ⟨scan, scanned, described⟩ := PyResult.bind_eq_ok.mp described
  obtain ⟨⟨⟩, _, described⟩ := PyResult.bind_eq_ok.mp described
  obtain ⟨args, connected, described⟩ := PyResult.bind_eq_ok.mp described
  obtain ⟨returnType, _, described⟩ := PyResult.bind_eq_ok.mp described
  obtain rfl := Except.ok.inj described
  exact ⟨scan, scanned, roles_of_setSpecIdx connected, rfl⟩

theorem roles_of_fromSignature
    {name : String}
    {sig : Signature A D}
    {info : PFLExprFuncInfo D I}
    (described : fromSignature parser name sig false selfType delayParseArgs = .ok info) :
    info.args.map PFLExprFuncArgInfo.role = sig.parameters.map paramRole ∧
      info.boundSelfType = none := by
  obtain ⟨scan, scanned, roles, notBound⟩ := fromSignature_eq_ok described
  refine ⟨roles.trans ?_, notBound⟩
  rw [roles_of_scan scanned]
  rfl

theorem args_of_fromSignature_bound
    {name : String}
    {sig : Signature A D}
    {info : PFLExprFuncInfo D I}
    (described : fromSignature parser name sig true selfType delayParseArgs = .ok info) :
    info.args = [] ∧ info.boundSelfType = none := by
  obtain ⟨scan, scanned, roles, notBound⟩ := fromSignature_eq_ok described
  rw [scan_of_isBoundMethod rfl] at scanned
  obtain rfl := Except.ok.inj scanned
  exact ⟨List.map_eq_nil_iff.mp roles, notBound⟩

end FromSignature

/-! ## Matching -/

namespace PFLExprFuncInfo

section Names

variable {info : PFLExprFuncInfo D I}

/-- The index of a name. -/
theorem argNameToIdx_eq_some_iff
    (distinct : (info.args.map PFLExprFuncArgInfo.name).Nodup)
    {name : String}
    {index : Nat} :
    info.argNameToIdx.get? name = some index ↔
      ∃ arg, info.args[index]? = some arg ∧ arg.name = name := by
  have keys :
      ((info.args.zipIdx.map fun arg => (arg.1.name, arg.2)).map Prod.fst).Nodup := by
    rw [List.map_map]
    have names : (info.args.zipIdx.map (Prod.fst ∘ fun arg => (arg.1.name, arg.2))) =
        info.args.map PFLExprFuncArgInfo.name := by
      conv_rhs => rw [← @List.zipIdx_map_fst _ 0 info.args, List.map_map]
      rfl
    rw [names]
    exact distinct
  rw [argNameToIdx, Dict.get?_ofList keys, Dict.lookup_eq_some_iff keys, List.mem_map]
  constructor
  · rintro ⟨⟨arg, position⟩, member, same⟩
    obtain ⟨rfl, rfl⟩ := Prod.mk.inj same
    exact ⟨arg, List.mem_zipIdx_iff_getElem?.mp member, rfl⟩
  · rintro ⟨arg, found, rfl⟩
    exact ⟨(arg, index), List.mem_zipIdx_iff_getElem?.mpr found, rfl⟩

theorem argNameToIdx_isSome_iff
    (distinct : (info.args.map PFLExprFuncArgInfo.name).Nodup)
    {name : String} :
    (∃ index, info.argNameToIdx.get? name = some index) ↔
      name ∈ info.args.map PFLExprFuncArgInfo.name := by
  simp only [argNameToIdx_eq_some_iff distinct]
  constructor
  · rintro ⟨index, arg, found, rfl⟩
    exact List.mem_map_of_mem (List.mem_of_getElem? found)
  · intro member
    obtain ⟨arg, isArg, rfl⟩ := List.mem_map.mp member
    obtain ⟨index, inRange, rfl⟩ := List.mem_iff_getElem.mp isArg
    exact ⟨index, _, List.getElem?_eq_getElem inRange, rfl⟩

theorem varargPos_eq_some
    {position : Nat}
    (found : info.varargPos = some position) :
    ∃ arg, info.args[position]? = some arg ∧ arg.isVaargs = true := by
  obtain ⟨⟨arg, index⟩, last, rfl⟩ := Option.map_eq_some_iff.mp found
  obtain ⟨member, isVaargs⟩ := List.mem_filter.mp (List.mem_of_getLast? last)
  exact ⟨arg, List.mem_zipIdx_iff_getElem?.mp member, isVaargs⟩

theorem varargPos_eq_none_iff :
    info.varargPos = none ↔ ∀ arg ∈ info.args, arg.isVaargs = false := by
  rw [varargPos, Option.map_eq_none_iff, List.getLast?_eq_none_iff, List.filter_eq_nil_iff]
  constructor
  · intro unmarked arg member
    obtain ⟨index, inRange, rfl⟩ := List.mem_iff_getElem.mp member
    have isIndex : (info.args[index], index) ∈ info.args.zipIdx :=
      List.mem_zipIdx_iff_getElem?.mpr (List.getElem?_eq_getElem inRange)
    exact Bool.eq_false_iff.mpr (unmarked _ isIndex)
  · rintro unmarked ⟨arg, index⟩ isIndex
    rw [unmarked arg (List.mem_of_getElem? (List.mem_zipIdx_iff_getElem?.mp isIndex))]
    exact Bool.false_ne_true

end Names

/-- The matched arguments give every name its value. -/
def Holds
    (info : PFLExprFuncInfo D I)
    (state : MatchState D I β)
    (values : String → Option β) :
    Prop :=
  state.matchArgs = info.args.map fun arg => (arg, values arg.name)

/-- Setting one entry sets the value of its name. -/
theorem set_matched
    {args : List (PFLExprFuncArgInfo D I)}
    (distinct : (args.map PFLExprFuncArgInfo.name).Nodup)
    (values : String → Option β)
    {index : Nat}
    {arg : PFLExprFuncArgInfo D I}
    (found : args[index]? = some arg)
    (value : β) :
    (args.map fun other => (other, values other.name)).set index (arg, some value) =
      args.map fun other => (other, Function.update values arg.name (some value) other.name) := by
  induction args generalizing index with
  | nil =>
      rfl
  | cons first rest inductionHypothesis =>
      obtain ⟨notInRest, distinct⟩ := List.nodup_cons.mp distinct
      cases index with
      | zero =>
          obtain rfl := Option.some.inj found
          rw [List.map_cons, List.set_cons_zero, List.map_cons, Function.update_self]
          refine congrArg (_ :: ·) (List.map_congr_left fun other member => ?_)
          rw [Function.update_of_ne]
          intro same
          exact notInRest (same ▸ List.mem_map_of_mem member)
      | succ index =>
          rw [List.map_cons, List.set_cons_succ, List.map_cons,
            inductionHypothesis distinct found, Function.update_of_ne]
          intro same
          exact notInRest (same ▸ List.mem_map_of_mem (List.mem_of_getElem? found))

section Match

variable {info : PFLExprFuncInfo D I} {state : MatchState D I β} {values : String → Option β}

theorem setArg_of_getElem?
    (distinct : (info.args.map PFLExprFuncArgInfo.name).Nodup)
    (holds : Holds info state values)
    {index : Nat}
    {arg : PFLExprFuncArgInfo D I}
    (found : info.args[index]? = some arg)
    (value : β) :
    ∃ after,
      info.setArg state index value = .ok after ∧
        Holds info after (Function.update values arg.name (some value)) ∧
          after.varargs = state.varargs ∧ after.varKwargs = state.varKwargs := by
  unfold setArg
  rw [found]
  refine ⟨_, rfl, ?_, rfl, rfl⟩
  change state.matchArgs.set index (arg, some value) = _
  rw [holds]
  exact set_matched distinct values found value

/-- The number of parameters that positional arguments can fill. -/
def positionalLimit (info : PFLExprFuncInfo D I) : Nat :=
  info.varargPos.getD info.args.length

/-- The value that the positional arguments have for an index. -/
def positionalValue
    (info : PFLExprFuncInfo D I)
    (start : Nat)
    (args : List β)
    (index : Nat) :
    Option β :=
  if start ≤ index ∧ index < info.positionalLimit then args[index - start]? else none

theorem lt_length_of_lt_positionalLimit
    {index : Nat}
    (below : index < info.positionalLimit) :
    index < info.args.length := by
  unfold positionalLimit at below
  cases position : info.varargPos with
  | none =>
      rw [position] at below
      exact below
  | some found =>
      obtain ⟨arg, isArg, _⟩ := varargPos_eq_some position
      rw [position] at below
      exact Nat.lt_trans below (List.getElem?_eq_some_iff.mp isArg).1

theorem placeArg_of_lt
    {index : Nat}
    (below : index < info.positionalLimit)
    (value : β) :
    info.placeArg state index value = info.setArg state index value := by
  unfold placeArg
  cases position : info.varargPos with
  | none =>
      rfl
  | some found =>
      rw [positionalLimit, position] at below
      exact if_pos below

theorem placeArg_of_not_lt
    {index : Nat}
    (fits : info.varargPos = none → index < info.args.length)
    (notBelow : ¬ index < info.positionalLimit)
    (value : β) :
    info.placeArg state index value =
      .ok { state with varargs := state.varargs ++ [value] } := by
  unfold placeArg
  cases position : info.varargPos with
  | none =>
      rw [positionalLimit, position] at notBelow
      exact absurd (fits position) notBelow
  | some found =>
      rw [positionalLimit, position] at notBelow
      exact if_neg notBelow

theorem positionalValue_cons
    {start : Nat}
    (below : start < info.positionalLimit)
    (value : β)
    (rest : List β)
    (index : Nat) :
    info.positionalValue start (value :: rest) index =
      if index = start then some value else info.positionalValue (start + 1) rest index := by
  unfold positionalValue
  rcases Nat.lt_trichotomy index start with before | rfl | later
  · rw [if_neg (by omega), if_neg (by omega), if_neg (by omega)]
  · rw [if_pos ⟨Nat.le_refl _, below⟩, if_pos rfl, Nat.sub_self]
    rfl
  · have shift : index - start = index - (start + 1) + 1 := by omega
    rw [shift, List.getElem?_cons_succ, if_neg (Nat.ne_of_gt later)]
    by_cases inLimit : index < info.positionalLimit
    · rw [if_pos ⟨Nat.le_of_lt later, inLimit⟩, if_pos ⟨later, inLimit⟩]
    · rw [if_neg fun both => inLimit both.2, if_neg fun both => inLimit both.2]

theorem index_of_name
    (distinct : (info.args.map PFLExprFuncArgInfo.name).Nodup)
    {first second : Nat}
    {firstArg secondArg : PFLExprFuncArgInfo D I}
    (isFirst : info.args[first]? = some firstArg)
    (isSecond : info.args[second]? = some secondArg)
    (sameName : firstArg.name = secondArg.name) :
    first = second := by
  have firstIndex := (argNameToIdx_eq_some_iff distinct).mpr ⟨firstArg, isFirst, rfl⟩
  have secondIndex := (argNameToIdx_eq_some_iff distinct).mpr ⟨secondArg, isSecond, rfl⟩
  rw [sameName, secondIndex] at firstIndex
  exact (Option.some.inj firstIndex).symm

/-- The loop over the positional arguments, when they are not too many. -/
theorem matchPositional_of_fits
    (distinct : (info.args.map PFLExprFuncArgInfo.name).Nodup)
    {start : Nat}
    {args : List β}
    (fits : info.varargPos = none → start + args.length ≤ info.args.length)
    (holds : Holds info state values) :
    ∃ after filled,
      info.matchPositional start args state = .ok after ∧
        Holds info after filled ∧
        (∀ (index : Nat) (arg : PFLExprFuncArgInfo D I),
          info.args[index]? = some arg →
            filled arg.name = (info.positionalValue start args index).or (values arg.name)) ∧
        after.varargs = state.varargs ++ args.drop (info.positionalLimit - start) := by
  induction args generalizing start state values with
  | nil =>
      refine ⟨state, values, rfl, holds, ?_, by simp⟩
      intro index arg found
      simp [positionalValue]
  | cons value rest inductionHypothesis =>
      have further : info.varargPos = none → start + 1 + rest.length ≤ info.args.length := by
        intro noVararg
        have bound := fits noVararg
        rw [List.length_cons] at bound
        omega
      by_cases below : start < info.positionalLimit
      · obtain ⟨first, isFirst⟩ : ∃ first, info.args[start]? = some first :=
          ⟨_, List.getElem?_eq_getElem (lt_length_of_lt_positionalLimit below)⟩
        obtain ⟨next, assigned, nextHolds, sameVarargs, _⟩ :=
          setArg_of_getElem? distinct holds isFirst value
        obtain ⟨after, filled, ran, afterHolds, isFilled, varargs⟩ :=
          inductionHypothesis further nextHolds
        refine ⟨after, filled, ?_, afterHolds, ?_, ?_⟩
        · rw [matchPositional, placeArg_of_lt below, assigned]
          exact ran
        · intro index arg found
          rw [isFilled index arg found, positionalValue_cons below]
          by_cases same : index = start
          · subst same
            obtain rfl := Option.some.inj (isFirst.symm.trans found)
            have notLater : ¬ (index + 1 ≤ index ∧ index < info.positionalLimit) := fun both =>
              Nat.not_succ_le_self _ both.1
            rw [Function.update_self, if_pos rfl, positionalValue, if_neg notLater]
            rfl
          · have otherName : arg.name ≠ first.name := fun sameName =>
              same (index_of_name distinct found isFirst sameName)
            rw [Function.update_of_ne otherName, if_neg same]
        · have shift : info.positionalLimit - start = info.positionalLimit - (start + 1) + 1 := by
            omega
          rw [varargs, sameVarargs, shift, List.drop_succ_cons]
      · have inRange : info.varargPos = none → start < info.args.length := fun noVararg =>
          Nat.lt_of_lt_of_le (Nat.lt_add_of_pos_right (Nat.succ_pos rest.length)) (fits noVararg)
        obtain ⟨after, filled, ran, afterHolds, isFilled, varargs⟩ :=
          @inductionHypothesis { state with varargs := state.varargs ++ [value] } values (start + 1)
            further holds
        refine ⟨after, filled, ?_, afterHolds, ?_, ?_⟩
        · rw [matchPositional, placeArg_of_not_lt inRange below]
          exact ran
        · intro index arg found
          rw [isFilled index arg found, positionalValue, if_neg (by omega), positionalValue,
            if_neg (by omega)]
        · rw [varargs, Nat.sub_eq_zero_of_le (by omega), Nat.sub_eq_zero_of_le (by omega)]
          simp

/-- The loop over the keyword arguments, when all names are known. -/
theorem matchKeywords_of_known
    (distinct : (info.args.map PFLExprFuncArgInfo.name).Nodup)
    (unmarked : ∀ arg ∈ info.args, arg.isKwVaargs = false)
    {kwargs : List (String × β)}
    (keys : (kwargs.map Prod.fst).Nodup)
    (known : ∀ kwarg ∈ kwargs, kwarg.1 ∈ info.args.map PFLExprFuncArgInfo.name)
    (holds : Holds info state values) :
    ∃ after,
      kwargs.foldlM info.matchKeyword state = .ok after ∧
        Holds info after (fun name => (kwargs.lookup name).or (values name)) ∧
          after.varargs = state.varargs := by
  induction kwargs generalizing state values with
  | nil =>
      exact ⟨state, rfl, holds, rfl⟩
  | cons kwarg kwargs inductionHypothesis =>
      obtain ⟨key, value⟩ := kwarg
      obtain ⟨notLater, laterKeys⟩ := List.nodup_cons.mp keys
      obtain ⟨isName, laterKnown⟩ := List.forall_mem_cons.mp known
      obtain ⟨index, isIndex⟩ := (argNameToIdx_isSome_iff distinct).mpr isName
      obtain ⟨arg, found, rfl⟩ := (argNameToIdx_eq_some_iff distinct).mp isIndex
      obtain ⟨next, assigned, nextHolds, sameVarargs, _⟩ :=
        setArg_of_getElem? distinct holds found value
      have one : info.matchKeyword state (arg.name, value) = .ok next := by
        unfold matchKeyword
        simp only [isIndex, found]
        rw [unmarked arg (List.mem_of_getElem? found), if_neg Bool.false_ne_true]
        exact assigned
      obtain ⟨after, ran, afterHolds, varargs⟩ := inductionHypothesis laterKeys laterKnown nextHolds
      refine ⟨after, ?_, ?_, varargs.trans sameVarargs⟩
      · rw [List.foldlM_cons, one]
        exact ran
      · unfold Holds at afterHolds ⊢
        rw [afterHolds]
        refine List.map_congr_left fun other _ => congrArg (Prod.mk other) ?_
        change (kwargs.lookup other.name).or (Function.update values arg.name _ other.name) =
          (List.lookup other.name ((arg.name, value) :: kwargs)).or (values other.name)
        by_cases same : other.name = arg.name
        · rw [same, Function.update_self, Dict.lookup_eq_none_of_notMem notLater,
            List.lookup_cons_self]
          rfl
        · rw [Function.update_of_ne same, List.lookup_cons, beq_eq_false_iff_ne.mpr same]

theorem known_of_matchKeywords
    (distinct : (info.args.map PFLExprFuncArgInfo.name).Nodup)
    {kwargs : List (String × β)}
    {after : MatchState D I β}
    (matched : kwargs.foldlM info.matchKeyword state = .ok after) :
    ∀ kwarg ∈ kwargs, kwarg.1 ∈ info.args.map PFLExprFuncArgInfo.name := by
  induction kwargs generalizing state with
  | nil =>
      intro kwarg member
      cases member
  | cons kwarg kwargs inductionHypothesis =>
      obtain ⟨next, one, rest⟩ := PyResult.bind_eq_ok.mp matched
      refine List.forall_mem_cons.mpr ⟨?_, inductionHypothesis rest⟩
      unfold matchKeyword at one
      split at one
      · cases one
      · next index isIndex =>
          exact (argNameToIdx_isSome_iff distinct).mp ⟨index, isIndex⟩

theorem lastIsKwVaargs_eq_false
    (unmarked : ∀ arg ∈ info.args, arg.isKwVaargs = false) :
    info.lastIsKwVaargs = false := by
  unfold lastIsKwVaargs
  cases last : info.args.getLast? with
  | none =>
      rfl
  | some arg =>
      exact unmarked arg (List.mem_of_getLast? last)

theorem removeBound_eq
    (hasSelf : info.boundSelfType.isSome = true → info.args ≠ [])
    (values : String → Option β) :
    info.removeBound (info.args.map fun arg => (arg, values arg.name)) =
      .ok ((info.args.map fun arg => (arg, values arg.name)).drop info.boundArgInc) := by
  unfold removeBound boundArgInc
  cases bound : info.boundSelfType.isSome with
  | false =>
      rfl
  | true =>
      have present : 0 < (info.args.map fun arg => (arg, values arg.name)).length := by
        rw [List.length_map]
        exact List.length_pos_iff.mpr (hasSelf bound)
      rw [if_pos rfl, if_pos rfl, decide_eq_true present, ← List.tail_drop]
      rfl

/-- The checks of `FuncMatchResult` pass. -/
theorem checked_eq
    {matchArgs : List (PFLExprFuncArgInfo D I × Option β)}
    {varargs : List β} :
    FuncMatchResult.checked {
        args := matchArgs.filter fun arg => !arg.1.isVaargs && !arg.1.isKwVaargs
        vararg := (info.varargPos.bind (info.args[·]?)).map fun arg => (arg, varargs)
        varKwarg := none } =
      .ok {
        args := matchArgs.filter fun arg => !arg.1.isVaargs && !arg.1.isKwVaargs
        vararg := (info.varargPos.bind (info.args[·]?)).map fun arg => (arg, varargs)
        varKwarg := none } := by
  have named : (matchArgs.filter fun arg => !arg.1.isVaargs && !arg.1.isKwVaargs).forM (fun arg =>
      pyAssert (!arg.1.isVaargs && !arg.1.isKwVaargs)
        "args should not contain vaargs or kw vaargs") = .ok () := by
    refine PyResult.forM_of_forall fun arg member => ?_
    rw [(List.mem_filter.mp member).2]
    rfl
  have variadic :
      ((info.varargPos.bind (info.args[·]?)).map fun arg => (arg, varargs)).toList.forM (fun arg =>
        pyAssert arg.1.isVaargs "vararg should be vaargs") = .ok () := by
    refine PyResult.forM_of_forall fun vararg member => ?_
    obtain ⟨arg, isArg, rfl⟩ := Option.map_eq_some_iff.mp (Option.mem_toList.mp member)
    obtain ⟨position, isPosition, found⟩ := Option.bind_eq_some_iff.mp isArg
    obtain ⟨marked, isMarked, isVaargs⟩ := varargPos_eq_some isPosition
    obtain rfl := Option.some.inj (found.symm.trans isMarked)
    exact pyAssert_eq_ok.mpr isVaargs
  unfold FuncMatchResult.checked
  rw [named]
  change (List.forM _ _ >>= _ : PyResult _) = _
  rw [variadic]
  rfl

/-- What a call is matched with. -/
theorem matchArgsToSig_of_fits
    {args : List β}
    {kwargs : Dict String β}
    (distinct : (info.args.map PFLExprFuncArgInfo.name).Nodup)
    (unmarked : ∀ arg ∈ info.args, arg.isKwVaargs = false)
    (hasSelf : info.boundSelfType.isSome = true → info.args ≠ [])
    (fits : info.varargPos = none → info.boundArgInc + args.length ≤ info.args.length)
    (known : ∀ name ∈ kwargs.keys, name ∈ info.args.map PFLExprFuncArgInfo.name) :
    ∃ values : String → Option β,
      (∀ (index : Nat) (arg : PFLExprFuncArgInfo D I),
        info.args[index]? = some arg →
          values arg.name =
            (kwargs.get? arg.name).or (info.positionalValue info.boundArgInc args index)) ∧
        info.matchArgsToSig args kwargs = .ok {
          args :=
            ((info.args.map fun arg => (arg, values arg.name)).drop info.boundArgInc).filter
              fun arg => !arg.1.isVaargs && !arg.1.isKwVaargs
          vararg :=
            (info.varargPos.bind (info.args[·]?)).map fun arg =>
              (arg, args.drop (info.positionalLimit - info.boundArgInc))
          varKwarg := none } := by
  have noKwVaargs := lastIsKwVaargs_eq_false unmarked
  have counted : decide
      (info.varargPos = none → args.length + info.boundArgInc ≤ info.maxNumArgs) = true := by
    refine decide_eq_true fun noVararg => ?_
    rw [maxNumArgs, noKwVaargs, if_neg Bool.false_ne_true, Nat.add_comm]
    exact fits noVararg
  have start : Holds info
      { matchArgs := info.args.map fun arg => (arg, none), varargs := [], varKwargs := .empty }
      (fun _ => (none : Option β)) :=
    rfl
  obtain ⟨positional, filled, placed, filledHolds, isFilled, isVarargs⟩ :=
    matchPositional_of_fits distinct fits start
  obtain ⟨after, named, afterHolds, sameVarargs⟩ := matchKeywords_of_known distinct unmarked
    kwargs.nodup (fun kwarg member => known _ (List.mem_map_of_mem member)) filledHolds
  refine ⟨fun name => (kwargs.get? name).or (filled name), ?_, ?_⟩
  · intro index arg found
    change (kwargs.get? arg.name).or (filled arg.name) = _
    rw [isFilled index arg found, Option.or_none]
  · unfold matchArgsToSig
    rw [counted]
    change (info.matchPositional _ _ _ >>= _ : PyResult _) = _
    rw [placed]
    change (kwargs.entries.foldlM _ _ >>= _ : PyResult _) = _
    rw [named]
    change (info.removeBound after.matchArgs >>= _ : PyResult _) = _
    have removed := removeBound_eq hasSelf fun name => (kwargs.get? name).or (filled name)
    rw [afterHolds]
    change (info.removeBound (info.args.map fun arg =>
      (arg, (kwargs.get? arg.name).or (filled arg.name))) >>= _ : PyResult _) = _
    rw [removed]
    change FuncMatchResult.checked _ = _
    rw [noKwVaargs, sameVarargs, isVarargs, List.nil_append]
    exact checked_eq

/-- A matched call has not too many arguments, and no unknown names. -/
theorem fits_of_matchArgsToSig
    {args : List β}
    {kwargs : Dict String β}
    {result : FuncMatchResult D I β}
    (distinct : (info.args.map PFLExprFuncArgInfo.name).Nodup)
    (unmarked : ∀ arg ∈ info.args, arg.isKwVaargs = false)
    (matched : info.matchArgsToSig args kwargs = .ok result) :
    (info.varargPos = none → info.boundArgInc + args.length ≤ info.args.length) ∧
      ∀ name ∈ kwargs.keys, name ∈ info.args.map PFLExprFuncArgInfo.name := by
  obtain ⟨⟨⟩, counted, matched⟩ := PyResult.bind_eq_ok.mp matched
  obtain ⟨positional, _, matched⟩ := PyResult.bind_eq_ok.mp matched
  obtain ⟨state, named, _⟩ := PyResult.bind_eq_ok.mp matched
  constructor
  · intro noVararg
    have bound := of_decide_eq_true (pyAssert_eq_ok.mp counted) noVararg
    rw [maxNumArgs, lastIsKwVaargs_eq_false unmarked, if_neg Bool.false_ne_true,
      Nat.add_comm] at bound
    exact bound
  · intro name member
    obtain ⟨kwarg, isKwarg, rfl⟩ := List.mem_map.mp member
    exact known_of_matchKeywords distinct named kwarg isKwarg

end Match

end PFLExprFuncInfo

end TensorPC.Pfl
