import TensorPC.Lib.Transition
import TensorPC.Service.ReloadTables

namespace TensorPC.Service

/-!
# Service units through reloads

The tables of a unit are exact after a reload as long as no version that was
read before declared an event handler: the handlers are the one table that a
reload does not clear.  The table of `ServiceUnits` is made once from the keys
that the units have then.
-/

open Computation

variable {φ ω : Type}

/-- The calls of a list of handlers, up to one that raises. -/
def callsOf (fails : Callable φ ω → Option PyError) :
    List (Callable φ ω) → List (Callable φ ω)
  | [] => []
  | callable :: rest =>
      if (fails callable).isSome then
        [callable]
      else
        callable :: callsOf fails rest

theorem length_callsOf_le
    (fails : Callable φ ω → Option PyError)
    (callables : List (Callable φ ω)) :
    (callsOf fails callables).length ≤ callables.length := by
  induction callables with
  | nil => exact Nat.le_refl _
  | cons callable rest inductionHypothesis =>
      unfold callsOf
      split
      · simp
      · simpa using inductionHypothesis

theorem length_callsOf_eq_iff
    (fails : Callable φ ω → Option PyError)
    (callables : List (Callable φ ω)) :
    (callsOf fails callables).length = callables.length ↔
      ∀ callable ∈ callables.dropLast, fails callable = none := by
  induction callables with
  | nil => simp [callsOf]
  | cons callable rest inductionHypothesis =>
      cases rest with
      | nil =>
          unfold callsOf
          split <;> simp [callsOf]
      | cons second others =>
          unfold callsOf
          rw [List.dropLast_cons_of_ne_nil (by simp)]
          cases failed : fails callable with
          | none => simpa [failed] using inductionHypothesis
          | some raised => simp [failed]

theorem callsOf_isPrefix
    (fails : Callable φ ω → Option PyError)
    (callables : List (Callable φ ω)) :
    callsOf fails callables <+: callables := by
  induction callables with
  | nil => exact List.prefix_rfl
  | cons callable rest inductionHypothesis =>
      unfold callsOf
      split
      · exact ⟨rest, rfl⟩
      · exact List.cons_prefix_cons.mpr ⟨rfl, inductionHypothesis⟩

theorem callsOf_perm_iff
    (fails : Callable φ ω → Option PyError)
    (callables : List (Callable φ ω)) :
    (callsOf fails callables).Perm callables ↔
      ∀ callable ∈ callables.dropLast, fails callable = none := by
  rw [← length_callsOf_eq_iff]
  constructor
  · exact List.Perm.length_eq
  · intro sameLength
    rw [(callsOf_isPrefix fails callables).eq_of_length sameLength]

namespace ServiceUnit

variable [DecidableEq ω] {self : ServiceUnit φ ω}

omit [DecidableEq ω] in
/-- The handlers of an event call their functions in order. -/
theorem callHandlers_fst
    (fails : Callable φ ω → Option PyError)
    {refs : List FunctionRef}
    {callables : List (Callable φ ω)}
    (callees : refs.map self.calleeAt = callables.map fun callable => some (.ok callable)) :
    (self.callHandlers fails refs).1 = callsOf fails callables := by
  induction refs generalizing callables with
  | nil =>
      cases callables with
      | nil => rfl
      | cons callable rest => cases callees
  | cons ref rest inductionHypothesis =>
      cases callables with
      | nil => cases callees
      | cons callable others =>
          rw [List.map_cons, List.map_cons, List.cons.injEq] at callees
          have found : (self.metas.get? ref).map ServFunctionMeta.getBindedFn =
              some (.ok callable) :=
            callees.1
          unfold callHandlers callsOf
          rw [found]
          cases failed : fails callable with
          | none =>
              simp only [failed, Option.isSome_none, Bool.false_eq_true, if_false]
              rw [inductionHypothesis callees.2]
          | some raised => simp only [failed, Option.isSome_some, if_true]

/-- The tables hold the functions of the class of the unit, bound if the service was made. -/
def Kept (self : ServiceUnit φ ω) : Prop :=
  Loaded self self.objType (fun _ => []) self.obj

/-- The object that the functions are bound to once the service is made. -/
def objectOr (self : ServiceUnit φ ω) (created : ω) : ω :=
  self.obj.getD created

/-- What an event should call: the handlers of the class, each once. -/
def expectedCalls
    (self : ServiceUnit φ ω)
    (created : ω)
    (event : ServiceEventType) :
    List (Callable φ ω) :=
  (self.objType.functions.filter fun member => member.handles event).map fun member =>
    member.callable (self.objectOr created)

theorem Kept.inited
    (kept : self.Kept)
    (created : ω) :
    (self.inited created).Kept ∧
      (self.inited created).obj = some (self.objectOr created) ∧
      (self.inited created).objType = self.objType ∧
      (self.inited created).services = self.services ∧
      (self.inited created).eventToHandlers = self.eventToHandlers := by
  unfold Kept at kept
  unfold ServiceUnit.inited objectOr
  cases isObj : self.obj with
  | some obj => exact ⟨kept, isObj, rfl, rfl, rfl⟩
  | none =>
      rw [isObj] at kept
      have retyped :
          Loaded { self with obj := some created } self.objType (fun _ => []) none :=
        ⟨kept.services, kept.events, kept.metas, kept.providers, kept.handlers⟩
      exact ⟨retyped.bindAll created, rfl, rfl, rfl, rfl⟩

theorem Kept.map_calleeAt
    (kept : self.Kept)
    (created : ω)
    (event : ServiceEventType) :
    (((self.inited created).handlers event).map (self.inited created).calleeAt) =
      (self.expectedCalls created event).map fun callable => some (.ok callable) := by
  obtain ⟨ready, isObj, sameType, -, -⟩ := kept.inited created
  unfold Kept at ready
  rw [isObj, sameType] at ready
  rw [ready.handlers event, List.nil_append, ready.map_calleeAt, expectedCalls, List.map_map]
  rfl

/-- Which of these handlers are synchronous. -/
theorem Kept.filter_isSync
    (kept : self.Kept)
    (created : ω)
    (event : ServiceEventType) :
    (((self.inited created).handlers event).filter (self.inited created).isSync).map
        (self.inited created).calleeAt =
      (((self.objType.functions.filter fun member => member.handles event).filter
          fun member => !member.isAsync).map fun member =>
            member.callable (self.objectOr created)).map fun callable => some (.ok callable) := by
  obtain ⟨ready, isObj, sameType, -, -⟩ := kept.inited created
  unfold Kept at ready
  rw [isObj, sameType] at ready
  rw [ready.handlers event, List.nil_append, List.filter_map, List.map_map, List.map_map]
  have isSync : ∀ member ∈ self.objType.functions,
      (self.inited created).isSync ((self.inited created).refOf member) = !member.isAsync := by
    intro member isMember
    rw [ServiceUnit.isSync, ready.metas member isMember]
    change (!(boundMeta _ member.servMeta).isAsync) = _
    unfold boundMeta ServFunctionMeta.bind
    cases isStatic : member.isStatic <;> simp [Member.servMeta, isStatic]
  have sameFilter :
      (self.objType.functions.filter fun member => member.handles event).filter
          ((self.inited created).isSync ∘ (self.inited created).refOf) =
        (self.objType.functions.filter fun member => member.handles event).filter
          fun member => !member.isAsync :=
    List.filter_congr fun member selected => isSync member (List.mem_of_mem_filter selected)
  rw [sameFilter]
  refine List.map_congr_left fun member selected => ?_
  have isMember := List.mem_of_mem_filter (List.mem_of_mem_filter selected)
  rw [Function.comp_apply, Function.comp_apply, calleeAt, ready.metas member isMember]
  exact congrArg some (getBindedFn_boundMeta _ member)

theorem Kept.expectedCalls_eq_nil
    (kept : self.Kept)
    (created : ω)
    {event : ServiceEventType}
    (noEntry : self.eventToHandlers.contains event = false) :
    self.expectedCalls created event = [] := by
  have noHandlers : self.handlers event = [] := by
    rw [Dict.contains, Option.isSome_eq_false_iff, Option.isNone_iff_eq_none] at noEntry
    rw [handlers, noEntry]
    rfl
  unfold Kept at kept
  have listed := kept.handlers event
  rw [noHandlers, List.nil_append] at listed
  rw [expectedCalls, List.map_eq_nil_iff.mp listed.symm]
  rfl

/-- When `run_event` calls every handler once. -/
theorem Kept.runEvent_iff
    (kept : self.Kept)
    (created : ω)
    (fails : Callable φ ω → Option PyError)
    (event : ServiceEventType) :
    (self.runEvent created fails event).2.1.Perm (self.expectedCalls created event) ↔
      (∀ member ∈ self.objType.functions, member.handles event = true → member.isAsync = false) ∧
        ∀ callable ∈ (self.expectedCalls created event).dropLast, fails callable = none := by
  unfold runEvent
  cases hasEntry : self.eventToHandlers.contains event with
  | false =>
      have none := kept.expectedCalls_eq_nil created hasEntry
      have noMember : self.objType.functions.filter (fun member => member.handles event) = [] :=
        List.map_eq_nil_iff.mp none
      rw [List.filter_eq_nil_iff] at noMember
      simp only [Bool.false_eq_true, if_false, none, List.Perm.refl, List.dropLast_nil,
        List.not_mem_nil, false_implies, implies_true, and_true, true_iff]
      intro member isMember handled
      exact absurd handled (noMember member isMember)
  | true =>
      simp only [if_true]
      rw [callHandlers_fst fails (kept.filter_isSync created event)]
      have allSync :
          (self.objType.functions.filter fun member => member.handles event).filter
              (fun member => !member.isAsync) =
            self.objType.functions.filter (fun member => member.handles event) ↔
          ∀ member ∈ self.objType.functions,
            member.handles event = true → member.isAsync = false := by
        rw [List.filter_eq_self]
        simp only [List.mem_filter, Bool.not_eq_true', and_imp]
      constructor
      · intro perm
        have atMost := length_callsOf_le fails
          (((self.objType.functions.filter fun member => member.handles event).filter
            fun member => !member.isAsync).map fun member =>
              member.callable (self.objectOr created))
        rw [perm.length_eq, expectedCalls, List.length_map, List.length_map] at atMost
        have whole := List.filter_sublist.eq_of_length_le atMost
        rw [whole] at perm
        exact ⟨allSync.mp whole, (callsOf_perm_iff fails _).mp perm⟩
      · rintro ⟨sync, quiet⟩
        rw [allSync.mpr sync]
        exact (callsOf_perm_iff fails _).mpr quiet

/-- When `run_event_async` calls every handler once. -/
theorem Kept.runEventAsync_iff
    (kept : self.Kept)
    (created : ω)
    (fails : Callable φ ω → Option PyError)
    (event : ServiceEventType) :
    (self.runEventAsync created fails event).2.1.Perm (self.expectedCalls created event) ↔
      (self.obj = none → event = .exit → self.expectedCalls created event = []) ∧
        ∀ callable ∈ (self.expectedCalls created event).dropLast, fails callable = none := by
  unfold runEventAsync
  cases hasEntry : self.eventToHandlers.contains event with
  | false =>
      have none := kept.expectedCalls_eq_nil created hasEntry
      simp [none]
  | true =>
      simp only [if_true]
      by_cases skipped : self.obj.isNone = true ∧ event = .exit
      · obtain ⟨noObj, rfl⟩ := skipped
        rw [if_pos (by simp [noObj])]
        rw [Option.isNone_iff_eq_none] at noObj
        constructor
        · intro perm
          rw [List.nil_perm] at perm
          simp [perm]
        · rintro ⟨unneeded, -⟩
          rw [unneeded noObj rfl]
      · have called : ¬ ((self.obj.isNone && decide (event = .exit)) = true) := by
          simpa using skipped
        rw [if_neg called, callHandlers_fst fails (kept.map_calleeAt created event),
          callsOf_perm_iff]
        refine (and_iff_right fun noObj isExit => ?_).symm
        exact absurd ⟨by rw [noObj]; rfl, isExit⟩ skipped

theorem stateAfter_initService
    (self : ServiceUnit φ ω)
    (created : ω) :
    stateAfter (initService created false) self = self.inited created := by
  obtain ⟨moduleKey, aliasName, objType, obj, services, handlers, events, generation, metas,
    providers⟩ := self
  cases obj with
  | none => rfl
  | some obj => rfl

theorem kept_of_construct
    {moduleName moduleKey : String}
    {aliasName : Option String}
    {cls : ServiceClass φ}
    (built : construct moduleName moduleKey aliasName cls = .ok self) :
    self.Kept := by
  unfold construct at built
  split at built
  · rename_i ran
    obtain ⟨_, -, same⟩ := PyResult.bind_eq_ok.mp built
    cases same
    obtain ⟨registered, -, -⟩ := initAllMetas_eq_ok ran
    have sameType : self.objType = cls := registered.objType
    have noObj : self.obj = none := registered.obj
    unfold Kept
    rw [sameType, noObj]
    exact registered.loaded
  · cases built

theorem kept_of_reloadMetas
    {cls : ServiceClass φ}
    {after : ServiceUnit φ ω}
    (noOlder : ∀ event, self.handlers event = [])
    (ran : reloadMetas cls self = .ok () after) :
    after.Kept := by
  obtain ⟨obj, -, isObj, -, -, sameType, loaded, -⟩ := reloadMetas_eq_ok ran
  unfold Kept
  rw [sameType, isObj]
  refine ⟨loaded.services, loaded.events, loaded.metas, loaded.providers, fun event => ?_⟩
  rw [loaded.handlers event, noOlder event]

theorem mem_keys_reloadMetas
    {cls : ServiceClass φ}
    {after : ServiceUnit φ ω}
    (accepts : self.Accepts cls.functions)
    (ran : reloadMetas cls self = .ok () after)
    (key : String) :
    key ∈ after.services.keys ↔ ∃ member ∈ cls.functions, self.Declares member key := by
  obtain ⟨obj, -, -, moduleKey, aliasName, -, loaded, -⟩ := reloadMetas_eq_ok ran
  rw [Dict.mem_keys_iff, Option.isSome_iff_exists]
  have hasKey : ∀ member ∈ cls.functions,
      (member.HasKey after key ↔ self.Declares member key) := by
    intro member isMember
    rw [Member.HasKey, Declares, moduleKey, aliasName, accepts.servKey member isMember]
  constructor
  · rintro ⟨ref, found⟩
    obtain ⟨member, isMember, hasKeyMember, -⟩ := (loaded.services key ref).mp found
    exact ⟨member, isMember, (hasKey member isMember).mp hasKeyMember⟩
  · rintro ⟨member, isMember, declares⟩
    exact ⟨_, (loaded.services key _).mpr
      ⟨member, isMember, (hasKey member isMember).mpr declares, rfl⟩⟩

end ServiceUnit

/-- A call that reaches the units. -/
inductive ServiceCall (φ ω : Type) where
  | initService (su : Nat) (created : ω)
  | reloadMetas (su : Nat) (cls : ServiceClass φ)
  | runEvent
      (su : Nat)
      (created : ω)
      (fails : Callable φ ω → Option PyError)
      (event : ServiceEventType)
  | runEventAsync
      (su : Nat)
      (created : ω)
      (fails : Callable φ ω → Option PyError)
      (event : ServiceEventType)

namespace ServiceUnits

variable [DecidableEq ω] {self : ServiceUnits φ ω}

/-- Every service key of a unit leads to the unit. -/
def Resolves (self : ServiceUnits φ ω) : Prop :=
  ∀ su ∈ self.sus, ∀ unit,
    self.units[su]? = some unit →
    ∀ key ∈ unit.services.keys, self.suOf key = .ok su

/-- No two units have a service key in common. -/
def KeysApart (self : ServiceUnits φ ω) : Prop :=
  ∀ su ∈ self.sus, ∀ other ∈ self.sus, ∀ unit otherUnit,
    self.units[su]? = some unit →
    self.units[other]? = some otherUnit →
    su ≠ other →
    ∀ key ∈ unit.services.keys, key ∉ otherUnit.services.keys

/-- The units after one of them changed. -/
def change
    (self : ServiceUnits φ ω)
    (su : Nat)
    (f : ServiceUnit φ ω → ServiceUnit φ ω) :
    ServiceUnits φ ω :=
  { self with units := self.units.modify su f }

/-- The units after a call. -/
def step (self : ServiceUnits φ ω) : ServiceCall φ ω → Option (ServiceUnits φ ω)
  | .initService su created =>
      some (self.change su (stateAfter (ServiceUnit.initService created false)))
  | .reloadMetas su cls =>
      some (self.change su (stateAfter (ServiceUnit.reloadMetas cls)))
  | .runEvent su created fails event =>
      some (self.change su fun unit => (unit.runEvent created fails event).1)
  | .runEventAsync su created fails event =>
      some (self.change su fun unit => (unit.runEventAsync created fails event).1)

/--
A reload returns with exact tables and every key still leads to its unit; an
event calls every handler of the newest version once and nothing else.
-/
def Right (self : ServiceUnits φ ω) : ServiceCall φ ω → Prop
  | .initService su created =>
      (self.change su (stateAfter (ServiceUnit.initService created false))).Resolves
  | .reloadMetas su cls =>
      ∀ unit,
        self.units[su]? = some unit →
        (∃ after obj,
            ServiceUnit.reloadMetas cls unit = .ok () after ∧
              after.obj = some obj ∧ after.ExactTables cls obj) ∧
          (self.change su (stateAfter (ServiceUnit.reloadMetas cls))).Resolves
  | .runEvent su created fails event =>
      ∀ unit,
        self.units[su]? = some unit →
        (unit.runEvent created fails event).2.1.Perm (unit.expectedCalls created event)
  | .runEventAsync su created fails event =>
      ∀ unit,
        self.units[su]? = some unit →
        (unit.runEventAsync created fails event).2.1.Perm (unit.expectedCalls created event)

/-- When a call does what it should. -/
def Fits (self : ServiceUnits φ ω) : ServiceCall φ ω → Prop
  | .initService _ _ => True
  | .reloadMetas su cls =>
      ∀ unit,
        self.units[su]? = some unit →
        (unit.obj.isSome = true ∧ (∀ event, unit.handlers event = []) ∧
            unit.Accepts cls.functions) ∧
          (su ∈ self.sus →
            ∀ member ∈ cls.functions, ∀ key,
              unit.Declares member key → self.suOf key = .ok su)
  | .runEvent su created fails event =>
      ∀ unit,
        self.units[su]? = some unit →
        (∀ member ∈ unit.objType.functions,
            member.handles event = true → member.isAsync = false) ∧
          ∀ callable ∈ (unit.expectedCalls created event).dropLast, fails callable = none
  | .runEventAsync su created fails event =>
      ∀ unit,
        self.units[su]? = some unit →
        (unit.obj = none → event = .exit → unit.expectedCalls created event = []) ∧
          ∀ callable ∈ (unit.expectedCalls created event).dropLast, fails callable = none

/-- What fitting calls keep. -/
structure Holds (services : ServiceUnits φ ω) : Prop where
  kept : ∀ (su : Nat) (unit : ServiceUnit φ ω), services.units[su]? = some unit → unit.Kept
  resolves : services.Resolves

omit [DecidableEq ω] in
theorem getElem?_change
    (self : ServiceUnits φ ω)
    (su other : Nat)
    (f : ServiceUnit φ ω → ServiceUnit φ ω) :
    (self.change su f).units[other]? =
      if su = other then self.units[other]?.map f else self.units[other]? := by
  rw [change, List.getElem?_modify]
  split <;> simp

omit [DecidableEq ω] in
theorem resolves_change
    {su : Nat}
    {f : ServiceUnit φ ω → ServiceUnit φ ω}
    (resolves : self.Resolves)
    (keys :
      ∀ unit,
        self.units[su]? = some unit →
        su ∈ self.sus →
        ∀ key ∈ (f unit).services.keys, self.suOf key = .ok su) :
    (self.change su f).Resolves := by
  intro other isUnit unit found key isKey
  rw [getElem?_change] at found
  split at found
  · rename_i same
    subst same
    obtain ⟨before, foundBefore, rfl⟩ := Option.map_eq_some_iff.mp found
    exact keys before foundBefore isUnit key isKey
  · exact resolves other isUnit unit found key isKey

theorem Holds.change
    (holds : self.Holds)
    {su : Nat}
    {f : ServiceUnit φ ω → ServiceUnit φ ω}
    (keeps :
      ∀ unit, self.units[su]? = some unit → unit.Kept →
        (f unit).Kept ∧ (f unit).services = unit.services) :
    (self.change su f).Holds where
  kept other unit found := by
    rw [getElem?_change] at found
    split at found
    · rename_i same
      subst same
      obtain ⟨before, foundBefore, rfl⟩ := Option.map_eq_some_iff.mp found
      exact (keeps before foundBefore (holds.kept su before foundBefore)).1
    · exact holds.kept other unit found
  resolves := resolves_change holds.resolves fun unit found isUnit key isKey => by
    rw [(keeps unit found (holds.kept su unit found)).2] at isKey
    exact holds.resolves su isUnit unit found key isKey

theorem keeps_inited
    (created : ω)
    {f : ServiceUnit φ ω → ServiceUnit φ ω}
    (makes : ∀ unit, f unit = unit.inited created ∨ f unit = unit)
    (unit : ServiceUnit φ ω)
    (kept : unit.Kept) :
    (f unit).Kept ∧ (f unit).services = unit.services := by
  rcases makes unit with made | same
  · obtain ⟨ready, -, -, services, -⟩ := kept.inited created
    rw [made]
    exact ⟨ready, services⟩
  · rw [same]
    exact ⟨kept, rfl⟩

theorem runEvent_fst
    (created : ω)
    (fails : Callable φ ω → Option PyError)
    (event : ServiceEventType)
    (unit : ServiceUnit φ ω) :
    (unit.runEvent created fails event).1 = unit.inited created ∨
      (unit.runEvent created fails event).1 = unit := by
  unfold ServiceUnit.runEvent
  split
  · exact .inl rfl
  · exact .inr rfl

theorem runEventAsync_fst
    (created : ω)
    (fails : Callable φ ω → Option PyError)
    (event : ServiceEventType)
    (unit : ServiceUnit φ ω) :
    (unit.runEventAsync created fails event).1 = unit.inited created ∨
      (unit.runEventAsync created fails event).1 = unit := by
  unfold ServiceUnit.runEventAsync
  split
  · split
    · exact .inr rfl
    · exact .inl rfl
  · exact .inr rfl

theorem stateAfter_reloadMetas
    {unit after : ServiceUnit φ ω}
    {cls : ServiceClass φ}
    (ran : ServiceUnit.reloadMetas cls unit = .ok () after) :
    stateAfter (ServiceUnit.reloadMetas cls) unit = after := by
  rw [stateAfter, ran]

/-- A reload is right exactly when it fits. -/
theorem right_reloadMetas_iff
    (holds : self.Holds)
    (su : Nat)
    (cls : ServiceClass φ) :
    self.Right (.reloadMetas su cls) ↔ self.Fits (.reloadMetas su cls) := by
  refine forall_congr' fun unit => forall_congr' fun found => ?_
  rw [ServiceUnit.reloadMetas_exact_iff]
  refine and_congr_right fun parts => ?_
  obtain ⟨after, -, ran, -⟩ := ServiceUnit.reloadMetas_exact_iff.mpr parts
  have keys := ServiceUnit.mem_keys_reloadMetas parts.2.2 ran
  constructor
  · intro resolves isUnit member isMember key declares
    refine resolves su isUnit after ?_ key ((keys key).mpr ⟨member, isMember, declares⟩)
    rw [getElem?_change, if_pos rfl, found, Option.map_some, stateAfter_reloadMetas ran]
  · intro declared
    refine resolves_change holds.resolves fun other foundOther isUnit key isKey => ?_
    rw [found] at foundOther
    cases foundOther
    rw [stateAfter_reloadMetas ran] at isKey
    obtain ⟨member, isMember, declares⟩ := (keys key).mp isKey
    exact declared isUnit member isMember key declares

theorem right_iff_fits
    (holds : self.Holds)
    (call : ServiceCall φ ω) :
    self.Right call ↔ self.Fits call := by
  cases call with
  | initService su created =>
      refine iff_of_true ?_ trivial
      refine (holds.change fun unit _ kept => keeps_inited created ?_ unit kept).resolves
      exact fun other => .inl (other.stateAfter_initService created)
  | reloadMetas su cls => exact right_reloadMetas_iff holds su cls
  | runEvent su created fails event =>
      exact forall_congr' fun unit => forall_congr' fun found =>
        (holds.kept su unit found).runEvent_iff created fails event
  | runEventAsync su created fails event =>
      exact forall_congr' fun unit => forall_congr' fun found =>
        (holds.kept su unit found).runEventAsync_iff created fails event

/-- Fitting calls keep what holds. -/
theorem Holds.step
    (before : ServiceUnits φ ω)
    (call : ServiceCall φ ω)
    (after : ServiceUnits φ ω)
    (holds : before.Holds)
    (fits : before.Fits call)
    (stepped : before.step call = some after) :
    after.Holds := by
  have right := (right_iff_fits holds call).mpr fits
  cases call with
  | initService su created =>
      cases stepped
      refine holds.change fun unit _ kept => keeps_inited created ?_ unit kept
      exact fun other => .inl (other.stateAfter_initService created)
  | runEvent su created fails event =>
      cases stepped
      exact holds.change fun unit _ kept =>
        keeps_inited created (runEvent_fst created fails event) unit kept
  | runEventAsync su created fails event =>
      cases stepped
      exact holds.change fun unit _ kept =>
        keeps_inited created (runEventAsync_fst created fails event) unit kept
  | reloadMetas su cls =>
      cases stepped
      cases present : before.units[su]? with
      | none =>
          have same :
              before.change su (stateAfter (ServiceUnit.reloadMetas cls)) = before := by
            unfold ServiceUnits.change
            rw [List.getElem?_eq_none_iff] at present
            rw [List.modify_eq_self present]
          rw [same]
          exact holds
      | some unit =>
          obtain ⟨⟨reloaded, -, ran, -⟩, resolves⟩ := right unit present
          refine ⟨fun other otherUnit found => ?_, resolves⟩
          rw [getElem?_change] at found
          split at found
          · rename_i same
            subst same
            rw [present, Option.map_some, stateAfter_reloadMetas ran] at found
            cases found
            exact ServiceUnit.kept_of_reloadMetas (fits unit present).1.2.1 ran
          · exact holds.kept other otherUnit found

omit [DecidableEq ω] in
/-- The unit has the service key. -/
def HasServiceKey (self : ServiceUnits φ ω) (su : Nat) (key : String) : Prop :=
  ∃ unit, self.units[su]? = some unit ∧ key ∈ unit.services.keys

omit [DecidableEq ω] in
theorem get?_foldl_set
    (su : Nat)
    (sids : List String)
    (keyToSu : Dict String Nat)
    (key : String) :
    (sids.foldl (fun keyToSu sid => keyToSu.set sid su) keyToSu).get? key =
      if key ∈ sids then some su else keyToSu.get? key := by
  induction sids generalizing keyToSu with
  | nil => simp
  | cons first rest inductionHypothesis =>
      rw [List.foldl_cons, inductionHypothesis, Dict.get?_set]
      by_cases later : key ∈ rest
      · simp [later]
      · by_cases same : key = first <;> simp [later, same]

omit [DecidableEq ω] in
/-- What adding a unit does to the table. -/
theorem addUnit_eq_ok
    {after : ServiceUnits φ ω}
    {su : Nat}
    (added : self.addUnit su = .ok after) :
    after.units = self.units ∧ after.sus = self.sus ∧
      ∀ key,
        (self.HasServiceKey su key ∧ after.keyToSu.get? key = some su) ∨
          (¬ self.HasServiceKey su key ∧ after.keyToSu.get? key = self.keyToSu.get? key) := by
  unfold addUnit at added
  split at added
  · rename_i missing
    cases added
    refine ⟨rfl, rfl, fun key => .inr ⟨?_, rfl⟩⟩
    rintro ⟨unit, found, -⟩
    rw [missing] at found
    cases found
  · rename_i unit found
    obtain ⟨_, -, made⟩ := PyResult.bind_eq_ok.mp added
    cases made
    refine ⟨rfl, rfl, fun key => ?_⟩
    have table := get?_foldl_set su unit.services.keys self.keyToSu key
    split at table
    · rename_i isKey
      exact .inl ⟨⟨unit, found, isKey⟩, table⟩
    · rename_i noKey
      refine .inr ⟨?_, table⟩
      rintro ⟨other, foundOther, isKey⟩
      rw [found] at foundOther
      cases foundOther
      exact noKey isKey

omit [DecidableEq ω] in
/-- Every key leads to one of the units that have it. -/
theorem foldlM_addUnit
    {after : ServiceUnits φ ω}
    {more : List Nat}
    (added : more.foldlM addUnit self = .ok after) :
    after.units = self.units ∧ after.sus = self.sus ∧
      ∀ key,
        (∃ su ∈ more, self.HasServiceKey su key ∧ after.keyToSu.get? key = some su) ∨
          ((∀ su ∈ more, ¬ self.HasServiceKey su key) ∧
            after.keyToSu.get? key = self.keyToSu.get? key) := by
  induction more generalizing self with
  | nil =>
      cases added
      exact ⟨rfl, rfl, fun key => .inr ⟨nofun, rfl⟩⟩
  | cons first rest inductionHypothesis =>
      rw [List.foldlM_cons] at added
      obtain ⟨middle, addedFirst, addedRest⟩ := PyResult.bind_eq_ok.mp added
      obtain ⟨units, sus, tableFirst⟩ := addUnit_eq_ok addedFirst
      obtain ⟨unitsRest, susRest, tableRest⟩ := inductionHypothesis addedRest
      have sameKeys : ∀ su key, middle.HasServiceKey su key ↔ self.HasServiceKey su key := by
        intro su key
        rw [HasServiceKey, HasServiceKey, units]
      refine ⟨unitsRest.trans units, susRest.trans sus, fun key => ?_⟩
      rcases tableRest key with ⟨su, isLater, hasKey, found⟩ | ⟨noLater, sameRest⟩
      · exact .inl ⟨su, List.mem_cons_of_mem _ isLater, (sameKeys su key).mp hasKey, found⟩
      · rcases tableFirst key with ⟨hasKey, found⟩ | ⟨noKey, sameFirst⟩
        · exact .inl ⟨first, List.mem_cons_self, hasKey, sameRest.trans found⟩
        · refine .inr ⟨fun su isUnit => ?_, sameRest.trans sameFirst⟩
          rcases List.mem_cons.mp isUnit with rfl | isLater
          · exact noKey
          · exact fun hasKey => noLater su isLater ((sameKeys su key).mpr hasKey)

omit [DecidableEq ω] in
/-- Every key of accepted units leads to its unit when no two units share a key. -/
theorem resolves_construct_iff
    {units : List (ServiceUnit φ ω)}
    {sus : List Nat}
    (accepted : construct units sus = .ok self) :
    self.Resolves ↔ self.KeysApart := by
  obtain ⟨sameUnits, sameSus, table⟩ := foldlM_addUnit accepted
  change self.units = units at sameUnits
  change self.sus = sus at sameSus
  constructor
  · intro resolves su isUnit other isOther unit otherUnit found foundOther different key isKey
      isOtherKey
    have toUnit := resolves su isUnit unit found key isKey
    rw [resolves other isOther otherUnit foundOther key isOtherKey] at toUnit
    exact different (Except.ok.inj toUnit).symm
  · intro apart su isUnit unit found key isKey
    have known :
        HasServiceKey
          { units := units, sus := sus, keyToSu := .empty, serviceIdToKey := [] } su key :=
      ⟨unit, sameUnits ▸ found, isKey⟩
    rcases table key with ⟨other, isOther, ⟨otherUnit, foundOther, isOtherKey⟩, leads⟩ |
      ⟨unknown, -⟩
    · have same : su = other := by
        by_contra different
        refine apart su isUnit other (sameSus ▸ isOther) unit otherUnit found ?_ different key
          isKey isOtherKey
        rw [sameUnits]
        exact foundOther
      rw [suOf, leads, same]
    · exact absurd known (unknown su (sameSus ▸ isUnit))

/--
Accepted units resolve every service key when no two of them share one.  Then,
after any sequence of fitting calls, a call is right if and only if it fits.
-/
theorem reloads_right_iff_fits
    {units : List (ServiceUnit φ ω)}
    {sus : List Nat}
    {start : ServiceUnits φ ω}
    (built :
      ∀ unit ∈ units,
        ∃ moduleName moduleKey aliasName cls,
          ServiceUnit.construct moduleName moduleKey aliasName cls = .ok unit)
    (accepted : construct units sus = .ok start) :
    (start.Resolves ↔ start.KeysApart) ∧
      (start.KeysApart →
        ∀ calls self,
          Transition.Run step Fits start calls self →
          ∀ call, self.Right call ↔ self.Fits call) := by
  have resolves := resolves_construct_iff accepted
  refine ⟨resolves, fun apart calls self run call => ?_⟩
  have kept : ∀ (su : Nat) (unit : ServiceUnit φ ω), start.units[su]? = some unit → unit.Kept := by
    intro su unit found
    obtain ⟨sameUnits, -, -⟩ := foldlM_addUnit accepted
    rw [sameUnits] at found
    obtain ⟨moduleName, moduleKey, aliasName, cls, made⟩ := built unit (List.mem_of_getElem? found)
    exact ServiceUnit.kept_of_construct made
  have holds : self.Holds :=
    run.invariant ⟨kept, resolves.mpr apart⟩ Holds.step
  exact right_iff_fits holds call

/-- A function with one parameter. -/
def sampleMember (name fn : String) (userMeta : Option FunctionUserMeta) : Member String where
  name := name
  fn := fn
  isGeneratorFunction := false
  isAsyncGenFunction := false
  isCoroutineFunction := false
  isStatic := false
  parameters := 1
  userMeta := userMeta

/-- What marks a function as a handler of the event that starts a service. -/
def initHandler : FunctionUserMeta where
  type := .event
  eventName := ""
  isDynamic := false
  eventType := .init
  servKeyOverride := none

/-- A class with one function. -/
def plainClass (fn : String) : ServiceClass String where
  members := [sampleMember "add" fn none]
  nodup := by simp

/-- A class with one event handler. -/
def handlerClass (fn : String) : ServiceClass String where
  members := [sampleMember "start" fn (some initHandler)]
  nodup := by simp

/-- A reload of a service without event handlers is judged after the service was made. -/
theorem reloads_right_iff_fits_sample :
    ∃ (unit : ServiceUnit String Nat) (start self : ServiceUnits String Nat),
      ServiceUnit.construct "calc::Calc::C" "calc::Calc" (some "C") (plainClass "add v1") =
          .ok unit ∧
        construct [unit] [0] = .ok start ∧ start.KeysApart ∧
        Transition.Run step Fits start [.initService 0 7] self ∧
        (self.Right (.reloadMetas 0 (plainClass "add v2")) ↔
          self.Fits (.reloadMetas 0 (plainClass "add v2"))) := by
  obtain ⟨unit, built⟩ :
      ∃ unit : ServiceUnit String Nat,
        ServiceUnit.construct "calc::Calc::C" "calc::Calc" (some "C") (plainClass "add v1") =
          .ok unit :=
    ⟨_, rfl⟩
  obtain ⟨start, accepted⟩ :
      ∃ start : ServiceUnits String Nat, construct [unit] [0] = .ok start := by
    cases built
    exact ⟨_, rfl⟩
  have apart : start.KeysApart := by
    obtain ⟨-, sameSus, -⟩ := foldlM_addUnit accepted
    change start.sus = [0] at sameSus
    intro su isUnit other isOther
    rw [sameSus, List.mem_singleton] at isUnit isOther
    intro _ _ _ _ different
    exact absurd (isUnit.trans isOther.symm) different
  obtain ⟨self, made⟩ : ∃ self, start.step (.initService 0 7) = some self := ⟨_, rfl⟩
  have run : Transition.Run step Fits start [.initService 0 7] self :=
    @Transition.Run.next _ _ _ _ _ [] _ _ _ .start trivial made
  refine ⟨unit, start, self, built, accepted, apart, run, ?_⟩
  refine (reloads_right_iff_fits (fun other isUnit => ?_) accepted).2 apart _ self run _
  obtain rfl := List.mem_singleton.mp isUnit
  exact ⟨_, _, _, _, built⟩

/-- After a reload the event handler of the first version is still there. -/
theorem not_right_reloadMetas :
    ∃ (unit : ServiceUnit String Nat) (start self : ServiceUnits String Nat),
      ServiceUnit.construct "calc::Calc" "calc::Calc" none (handlerClass "start v1") =
          .ok unit ∧
        construct [unit] [0] = .ok start ∧
        Transition.Run step Fits start [.initService 0 7] self ∧
        ¬ self.Right (.reloadMetas 0 (handlerClass "start v2")) := by
  obtain ⟨unit, built⟩ :
      ∃ unit : ServiceUnit String Nat,
        ServiceUnit.construct "calc::Calc" "calc::Calc" none (handlerClass "start v1") =
          .ok unit :=
    ⟨_, rfl⟩
  obtain ⟨start, accepted⟩ :
      ∃ start : ServiceUnits String Nat, construct [unit] [0] = .ok start := by
    cases built
    exact ⟨_, rfl⟩
  obtain ⟨self, made⟩ : ∃ self, start.step (.initService 0 7) = some self := ⟨_, rfl⟩
  have run : Transition.Run step Fits start [.initService 0 7] self :=
    @Transition.Run.next _ _ _ _ _ [] _ _ _ .start trivial made
  refine ⟨unit, start, self, built, accepted, run, fun right => ?_⟩
  obtain ⟨sameUnits, -, -⟩ := foldlM_addUnit accepted
  have found : self.units[0]? = some (unit.inited 7) := by
    cases made
    rw [getElem?_change, if_pos rfl, sameUnits]
    exact congrArg some (unit.stateAfter_initService 7)
  obtain ⟨exact, -⟩ := right _ found
  have noHandlers := (ServiceUnit.reloadMetas_exact_iff.mp exact).2.1 .init
  cases built
  revert noHandlers
  decide

end ServiceUnits

end TensorPC.Service
