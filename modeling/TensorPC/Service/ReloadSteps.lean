import TensorPC.Service.ServiceUnit

namespace TensorPC.Service

/-!
# What one reading of a class puts into the tables

The loop over the functions starts with empty tables of services and event
providers, and succeeds when the declared keys are all different.  It appends
to the event handlers, which it does not clear.
-/

open Computation

variable {φ ω : Type}

theorem attempt_eq_ok
    {change : ServiceUnit φ ω → PyResult (ServiceUnit φ ω)}
    {self after : ServiceUnit φ ω} :
    attempt change self = .ok () after ↔ change self = .ok after := by
  unfold attempt
  cases change self <;> simp

namespace Member

variable {member : Member φ}

/-- What `_init_all_metas` asserts about a function that is declared as an event provider. -/
def IsWellDeclared (member : Member φ) : Prop :=
  ∀ userMeta,
    member.userMeta = some userMeta →
    userMeta.type = .webSocketEventProvider →
    member.numParameters = 0 ∧
      (member.isAsync && !member.isAsyncGenFunction) = true ∧
      userMeta.eventName ≠ ""

/-- The function belongs under the key. -/
def HasKey (member : Member φ) (self : ServiceUnit φ ω) (key : String) : Prop :=
  key = member.servKey self.moduleKey ∨
    ∃ aliasName, self.aliasName = some aliasName ∧ key = member.keyUnder aliasName

/-- What can be called for the function of a service object. -/
def callable (member : Member φ) (obj : ω) : Callable φ ω :=
  if member.isStatic then .function member.fn else .method member.fn obj

/-- The event provider of a function is made when the function is well declared. -/
theorem evProvider_eq_ok
    {moduleKey : String}
    {made : Option (EventProvider φ ω)}
    (declared : member.evProvider moduleKey = .ok made) :
    member.IsWellDeclared ∧
      (made.isSome = true ↔ member.isProvider = true) ∧
      ∀ provider,
        made = some provider →
        provider.fn = .function member.fn ∧
          provider.isStatic = member.isStatic ∧ provider.isBinded = false := by
  unfold evProvider at declared
  split at declared
  · rename_i plain
    cases declared
    refine ⟨fun userMeta isMeta => ?_, by simp [isProvider, type, plain], nofun⟩
    rw [plain] at isMeta
    cases isMeta
  · rename_i userMeta isMeta
    split at declared
    · rename_i isEvent
      obtain ⟨_, noParameters, declared⟩ := PyResult.bind_eq_ok.mp declared
      obtain ⟨_, isAsync, declared⟩ := PyResult.bind_eq_ok.mp declared
      obtain ⟨_, named, declared⟩ := PyResult.bind_eq_ok.mp declared
      rw [pyAssert_eq_ok] at noParameters isAsync named
      cases declared
      refine ⟨fun other isOther _ => ?_, by simp [isProvider, type, isMeta, isEvent], ?_⟩
      · rw [isMeta] at isOther
        cases isOther
        exact ⟨by simpa using noParameters, isAsync, by simpa using named⟩
      · intro provider made
        cases made
        exact ⟨rfl, rfl, rfl⟩
    · rename_i notEvent
      cases declared
      refine ⟨fun other isOther isEvent => ?_, by simp [isProvider, type, isMeta, notEvent], nofun⟩
      rw [isMeta] at isOther
      cases isOther
      exact absurd isEvent notEvent

theorem exists_evProvider
    (moduleKey : String)
    (declared : member.IsWellDeclared) :
    ∃ made : Option (EventProvider φ ω), member.evProvider moduleKey = .ok made := by
  unfold evProvider
  split
  · exact ⟨none, rfl⟩
  · rename_i userMeta isMeta
    split
    · rename_i isEvent
      obtain ⟨noParameters, isAsync, named⟩ := declared userMeta isMeta isEvent
      simp only [noParameters, isAsync, named, pyAssert, decide_true, if_true, ne_eq,
        not_false_eq_true]
      exact ⟨_, rfl⟩
    · exact ⟨none, rfl⟩

end Member

/-- A table after a new entry. -/
theorem get?_set_iff
    {κ β : Type}
    [DecidableEq κ]
    {table : Dict κ β}
    {holds : κ → β → Prop}
    (describes : ∀ key value, table.get? key = some value ↔ holds key value)
    {newKey : κ}
    (newValue : β)
    (isNew : table.get? newKey = none)
    (key : κ)
    (value : β) :
    (table.set newKey newValue).get? key = some value ↔
      holds key value ∨ key = newKey ∧ value = newValue := by
  rw [Dict.get?_set]
  by_cases same : key = newKey
  · subst same
    have absent : ¬ holds key value := by
      rw [← describes, isNew]
      simp
    simp [absent, eq_comm]
  · rw [if_neg same, describes]
    simp [same]

namespace ServiceUnit

/-- The unit after the first functions of a class were read into empty tables. -/
structure Registered (base unit : ServiceUnit φ ω) (done : List (Member φ)) : Prop where
  moduleKey : unit.moduleKey = base.moduleKey
  aliasName : unit.aliasName = base.aliasName
  objType : unit.objType = base.objType
  obj : unit.obj = base.obj
  generation : unit.generation = base.generation
  services :
    ∀ key ref,
      unit.services.get? key = some ref ↔
        ∃ member ∈ done, member.HasKey base key ∧ ref = base.refOf member
  events :
    ∀ key ref,
      unit.nameToEvents.get? key = some ref ↔
        ∃ member ∈ done,
          member.isProvider = true ∧ member.HasKey base key ∧ ref = base.refOf member
  metas : ∀ member ∈ done, unit.metas.get? (base.refOf member) = some member.servMeta
  providers :
    ∀ member ∈ done,
      member.isProvider = true →
      ∃ provider,
        unit.providers.get? (base.refOf member) = some provider ∧
          provider.fn = .function member.fn ∧
          provider.isStatic = member.isStatic ∧ provider.isBinded = false
  handlers :
    ∀ event,
      unit.handlers event =
        base.handlers event ++
          (done.filter fun member => member.handles event).map base.refOf

/-- What the assertions of one round demand. -/
structure Registrable (unit : ServiceUnit φ ω) (member : Member φ) : Prop where
  wellDeclared : member.IsWellDeclared
  servKey : unit.services.get? (member.servKey unit.moduleKey) = none
  aliasKey :
    ∀ aliasName,
      unit.aliasName = some aliasName →
      member.keyUnder aliasName ≠ member.servKey unit.moduleKey ∧
        unit.services.get? (member.keyUnder aliasName) = none

variable {base self after : ServiceUnit φ ω} {done : List (Member φ)} {member : Member φ}

/-- A successful round met the assertions. -/
theorem registrable_of_registerMember
    (ran : registerMember member self = .ok () after) :
    self.Registrable member := by
  obtain ⟨⟨⟩, created, madeMeta, ran⟩ := bind_eq_ok.mp ran
  obtain ⟨⟨⟩, listed, madeService, madeAlias⟩ := bind_eq_ok.mp ran
  rw [attempt_eq_ok] at madeMeta madeService madeAlias
  obtain ⟨provider, declared, made⟩ := PyResult.bind_eq_ok.mp madeMeta
  cases made
  obtain ⟨_, isNew, made⟩ := PyResult.bind_eq_ok.mp madeService
  cases made
  rw [pyAssert_eq_ok, Bool.not_eq_true'] at isNew
  have noService : self.services.get? (member.servKey self.moduleKey) = none := by
    simpa [Dict.contains] using isNew
  refine ⟨(Member.evProvider_eq_ok declared).1, noService, fun aliasName isAlias => ?_⟩
  simp only [addAlias, isAlias] at madeAlias
  obtain ⟨_, isNewAlias, -⟩ := PyResult.bind_eq_ok.mp madeAlias
  rw [pyAssert_eq_ok, Bool.not_eq_true'] at isNewAlias
  have noAlias :
      (self.services.set (member.servKey self.moduleKey) (self.refOf member)).get?
        (member.keyUnder aliasName) = none := by
    change (self.services.set (member.servKey self.moduleKey) (self.refOf member)).contains
      (member.keyUnder aliasName) = false at isNewAlias
    simpa [Dict.contains] using isNewAlias
  rw [Dict.get?_set] at noAlias
  split at noAlias
  · cases noAlias
  · rename_i different
    exact ⟨different, noAlias⟩

/-- A round that meets the assertions succeeds. -/
theorem exists_registerMember
    (registrable : self.Registrable member) :
    ∃ after, registerMember member self = .ok () after := by
  obtain ⟨provider, declared⟩ :=
    Member.exists_evProvider (ω := ω) self.moduleKey registrable.wellDeclared
  obtain ⟨created, madeMeta⟩ : ∃ created, createMeta member self = .ok created := by
    rw [createMeta, declared]
    exact ⟨_, rfl⟩
  have frame : created.services = self.services ∧ created.aliasName = self.aliasName ∧
      created.moduleKey = self.moduleKey := by
    rw [createMeta, declared] at madeMeta
    cases madeMeta
    exact ⟨rfl, rfl, rfl⟩
  have noService : created.services.contains (member.servKey created.moduleKey) = false := by
    rw [frame.1, frame.2.2, Dict.contains, registrable.servKey]
    rfl
  obtain ⟨listed, madeService⟩ : ∃ listed, addService member created = .ok listed := by
    simp only [addService, noService, Bool.not_false]
    exact ⟨_, rfl⟩
  have services :
      listed.services =
        created.services.set (member.servKey created.moduleKey) (created.refOf member) ∧
        listed.aliasName = created.aliasName := by
    simp only [addService, noService, Bool.not_false] at madeService
    cases madeService
    exact ⟨rfl, rfl⟩
  obtain ⟨after, madeAlias⟩ : ∃ after, addAlias member listed = .ok after := by
    unfold addAlias
    split
    · exact ⟨_, rfl⟩
    · rename_i aliasName isAlias
      rw [services.2, frame.2.1] at isAlias
      obtain ⟨different, unused⟩ := registrable.aliasKey aliasName isAlias
      have noAlias : listed.services.contains (member.keyUnder aliasName) = false := by
        rw [services.1, Dict.contains, Dict.get?_set, frame.1, frame.2.2, if_neg different,
          unused]
        rfl
      simp only [noAlias, Bool.not_false]
      exact ⟨_, rfl⟩
  refine ⟨after, ?_⟩
  rw [registerMember, bind_of_ok (attempt_eq_ok.mpr madeMeta),
    bind_of_ok (attempt_eq_ok.mpr madeService)]
  exact attempt_eq_ok.mpr madeAlias

theorem Registered.get?_services_eq_none
    (registered : Registered base self done)
    {key : String} :
    self.services.get? key = none ↔ ∀ member ∈ done, ¬ member.HasKey base key := by
  rw [Option.eq_none_iff_forall_ne_some]
  constructor
  · intro free member isDone hasKey
    exact free _ ((registered.services key _).mpr ⟨member, isDone, hasKey, rfl⟩)
  · intro free ref found
    obtain ⟨member, isDone, hasKey, -⟩ := (registered.services key ref).mp found
    exact free member isDone hasKey

theorem Registered.get?_events_eq_none
    (registered : Registered base self done)
    {key : String}
    (free : self.services.get? key = none) :
    self.nameToEvents.get? key = none := by
  rw [Option.eq_none_iff_forall_ne_some]
  intro ref found
  obtain ⟨member, isDone, -, hasKey, -⟩ := (registered.events key ref).mp found
  exact registered.get?_services_eq_none.mp free member isDone hasKey

/-- A table after a function was entered under its keys. -/
theorem table_after
    {table final : Dict String FunctionRef}
    {holds : String → FunctionRef → Prop}
    {ref : FunctionRef}
    (describes : ∀ key value, table.get? key = some value ↔ holds key value)
    (freeServKey : table.get? (member.servKey base.moduleKey) = none)
    (freeAliasKey :
      ∀ aliasName,
        base.aliasName = some aliasName →
        member.keyUnder aliasName ≠ member.servKey base.moduleKey ∧
          table.get? (member.keyUnder aliasName) = none)
    (made :
      final =
        match base.aliasName with
        | none => table.set (member.servKey base.moduleKey) ref
        | some aliasName =>
            (table.set (member.servKey base.moduleKey) ref).set (member.keyUnder aliasName) ref)
    (key : String)
    (value : FunctionRef) :
    final.get? key = some value ↔
      holds key value ∨ member.HasKey base key ∧ value = ref := by
  have first := get?_set_iff describes ref freeServKey
  cases isAlias : base.aliasName with
  | none =>
      rw [made, isAlias, first, Member.HasKey]
      simp [isAlias]
  | some aliasName =>
      obtain ⟨different, unused⟩ := freeAliasKey aliasName isAlias
      have stillFree :
          (table.set (member.servKey base.moduleKey) ref).get? (member.keyUnder aliasName) =
            none := by
        rw [Dict.get?_set, if_neg different, unused]
      rw [made, isAlias, get?_set_iff first ref stillFree, Member.HasKey]
      simp only [isAlias, Option.some.injEq, exists_eq_left']
      tauto

/-- What a successful round does to the unit. -/
structure Registers (unit after : ServiceUnit φ ω) (member : Member φ) : Prop where
  moduleKey : after.moduleKey = unit.moduleKey
  aliasName : after.aliasName = unit.aliasName
  objType : after.objType = unit.objType
  obj : after.obj = unit.obj
  generation : after.generation = unit.generation
  services :
    after.services =
      match unit.aliasName with
      | none => unit.services.set (member.servKey unit.moduleKey) (unit.refOf member)
      | some aliasName =>
          (unit.services.set (member.servKey unit.moduleKey) (unit.refOf member)).set
            (member.keyUnder aliasName) (unit.refOf member)
  events :
    after.nameToEvents =
      if member.isProvider then
        match unit.aliasName with
        | none => unit.nameToEvents.set (member.servKey unit.moduleKey) (unit.refOf member)
        | some aliasName =>
            (unit.nameToEvents.set (member.servKey unit.moduleKey) (unit.refOf member)).set
              (member.keyUnder aliasName) (unit.refOf member)
      else
        unit.nameToEvents
  metas : after.metas = unit.metas.set (unit.refOf member) member.servMeta
  provider :
    member.isProvider = true →
    ∃ provider,
      after.providers.get? (unit.refOf member) = some provider ∧
        provider.fn = .function member.fn ∧
        provider.isStatic = member.isStatic ∧ provider.isBinded = false
  otherProviders :
    ∀ ref, ref ≠ unit.refOf member → after.providers.get? ref = unit.providers.get? ref
  handlers :
    ∀ event,
      after.handlers event =
        unit.handlers event ++ if member.handles event then [unit.refOf member] else []

theorem get?_renameProvider
    (providers : Dict FunctionRef (EventProvider φ ω))
    (ref other : FunctionRef)
    (serviceKey : String) :
    (renameProvider providers ref serviceKey).get? other =
      if other = ref then
        (providers.get? ref).map fun provider => { provider with serviceKey := serviceKey }
      else
        providers.get? other := by
  unfold renameProvider
  cases found : providers.get? ref with
  | none =>
      by_cases same : other = ref
      · simp [same, found]
      · simp [same]
  | some provider =>
      rw [Dict.get?_set]
      rfl

/-- What a successful round does. -/
theorem registers_of_registerMember
    (ran : registerMember member self = .ok () after) :
    self.Registers after member := by
  obtain ⟨⟨⟩, created, madeMeta, ran⟩ := bind_eq_ok.mp ran
  obtain ⟨⟨⟩, listed, madeService, madeAlias⟩ := bind_eq_ok.mp ran
  rw [attempt_eq_ok] at madeMeta madeService madeAlias
  obtain ⟨made, declared, isCreated⟩ := PyResult.bind_eq_ok.mp madeMeta
  obtain ⟨-, isSome, providerFacts⟩ := Member.evProvider_eq_ok declared
  cases isCreated
  obtain ⟨_, -, isListed⟩ := PyResult.bind_eq_ok.mp madeService
  cases isListed
  have handlers : ∀ event,
      ((if member.type = .event then
          self.eventToHandlers.set member.eventType
            (self.handlers member.eventType ++ [self.refOf member])
        else
          self.eventToHandlers).get? event).getD [] =
        self.handlers event ++ if member.handles event then [self.refOf member] else [] := by
    intro event
    unfold Member.handles
    by_cases isEvent : member.type = .event
    · rw [if_pos isEvent, Dict.get?_set]
      by_cases same : event = member.eventType
      · subst same
        simp [isEvent]
      · simp [isEvent, same, Ne.symm same, handlers]
    · simp [isEvent, handlers]
  unfold addAlias at madeAlias
  split at madeAlias
  · rename_i noAlias
    change self.aliasName = none at noAlias
    cases madeAlias
    refine ⟨rfl, rfl, rfl, rfl, rfl, ?_, ?_, rfl, fun isProvider => ?_, fun ref other => ?_, handlers⟩
    · rw [noAlias]
      rfl
    · rw [noAlias]
      rfl
    · obtain ⟨provider, rfl⟩ := Option.isSome_iff_exists.mp (isSome.mpr isProvider)
      exact ⟨provider, Dict.get?_set_self _ _ _, providerFacts provider rfl⟩
    · cases made with
      | none => rfl
      | some provider => exact Dict.get?_set_ne _ _ other
  · rename_i aliasName isAlias
    change self.aliasName = some aliasName at isAlias
    obtain ⟨_, -, isAfter⟩ := PyResult.bind_eq_ok.mp madeAlias
    cases isAfter
    refine ⟨rfl, rfl, rfl, rfl, rfl, ?_, ?_, rfl, fun isProvider => ?_, fun ref other => ?_, handlers⟩
    · rw [isAlias]
      rfl
    · rw [isAlias]
      by_cases isProvider : member.isProvider = true <;> simp only [isProvider] <;> rfl
    · obtain ⟨provider, rfl⟩ := Option.isSome_iff_exists.mp (isSome.mpr isProvider)
      refine ⟨{ provider with serviceKey := member.keyUnder aliasName }, ?_,
        providerFacts provider rfl⟩
      simp only [isProvider, if_true]
      change (renameProvider (self.providers.set (self.refOf member) provider)
        (self.refOf member) (member.keyUnder aliasName)).get? (self.refOf member) = _
      rw [get?_renameProvider, if_pos rfl, Dict.get?_set_self]
      rfl
    · cases isProvider : member.isProvider with
      | false =>
          cases made with
          | none => rfl
          | some provider => exact absurd (isSome.mp rfl) (by simp [isProvider])
      | true =>
          obtain ⟨provider, rfl⟩ := Option.isSome_iff_exists.mp (isSome.mpr isProvider)
          change (renameProvider (self.providers.set (self.refOf member) provider)
            (self.refOf member) (member.keyUnder aliasName)).get? ref = _
          rw [get?_renameProvider, if_neg other, Dict.get?_set_ne _ _ other]

/-- A round for a function of a new name extends what was read. -/
theorem Registered.register
    (registered : Registered base self done)
    (isNew : ∀ other ∈ done, other.name ≠ member.name)
    (ran : registerMember member self = .ok () after) :
    Registered base after (done ++ [member]) := by
  have registrable := registrable_of_registerMember ran
  have registers := registers_of_registerMember ran
  have refOf : ∀ other : Member φ, self.refOf other = base.refOf other := by
    intro other
    rw [ServiceUnit.refOf, ServiceUnit.refOf, registered.generation]
  have refNe : ∀ other ∈ done, base.refOf other ≠ base.refOf member := by
    intro other isDone same
    exact isNew other isDone (congrArg FunctionRef.name same)
  have freeServKey : self.services.get? (member.servKey base.moduleKey) = none := by
    rw [← registered.moduleKey]
    exact registrable.servKey
  have freeAliasKey : ∀ aliasName,
      base.aliasName = some aliasName →
      member.keyUnder aliasName ≠ member.servKey base.moduleKey ∧
        self.services.get? (member.keyUnder aliasName) = none := by
    rw [← registered.moduleKey, ← registered.aliasName]
    exact registrable.aliasKey
  have madeServices := registers.services
  have madeEvents := registers.events
  rw [registered.aliasName, registered.moduleKey, refOf] at madeServices madeEvents
  refine ⟨registers.moduleKey.trans registered.moduleKey,
    registers.aliasName.trans registered.aliasName,
    registers.objType.trans registered.objType, registers.obj.trans registered.obj,
    registers.generation.trans registered.generation, fun key ref => ?_, fun key ref => ?_,
    fun other isDone => ?_, fun other isDone isProvider => ?_, fun event => ?_⟩
  · rw [table_after registered.services freeServKey freeAliasKey madeServices key ref]
    simp only [List.mem_append, List.mem_singleton, or_and_right, exists_or, exists_eq_left]
  · cases isProvider : member.isProvider with
    | true =>
        rw [isProvider, if_pos rfl] at madeEvents
        rw [table_after registered.events (registered.get?_events_eq_none freeServKey)
          (fun aliasName isAlias => ⟨(freeAliasKey aliasName isAlias).1,
            registered.get?_events_eq_none (freeAliasKey aliasName isAlias).2⟩)
          madeEvents key ref]
        simp only [List.mem_append, List.mem_singleton, or_and_right, exists_or, exists_eq_left,
          isProvider, true_and]
    | false =>
        rw [isProvider, if_neg Bool.false_ne_true] at madeEvents
        rw [madeEvents, registered.events]
        simp only [List.mem_append, List.mem_singleton, or_and_right, exists_or, exists_eq_left,
          isProvider, Bool.false_eq_true, false_and, or_false]
  · rw [registers.metas, refOf, Dict.get?_set]
    rcases List.mem_append.mp isDone with isDone | isLast
    · rw [if_neg (refNe other isDone)]
      exact registered.metas other isDone
    · obtain rfl := List.mem_singleton.mp isLast
      rw [if_pos rfl]
  · rcases List.mem_append.mp isDone with isDone | isLast
    · have other' := registers.otherProviders (base.refOf other)
      rw [refOf] at other'
      rw [other' (refNe other isDone)]
      exact registered.providers other isDone isProvider
    · obtain rfl := List.mem_singleton.mp isLast
      rw [← refOf]
      exact registers.provider isProvider
  · rw [registers.handlers, registered.handlers, refOf, List.filter_append, List.map_append,
      List.append_assoc]
    by_cases handled : member.handles event = true <;> simp [handled]

end ServiceUnit

end TensorPC.Service
