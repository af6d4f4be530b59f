import TensorPC.Service.ReloadSteps

namespace TensorPC.Service

/-!
# The tables after a reload

A reload that returns has read every function of the new version into the
tables of services and event providers and bound it to the object of the
service.  What it leaves besides is the event handlers of the older versions.
-/

open Computation

variable {φ ω : Type}

theorem Member.keyUnder_inj
    {unitId : String}
    {member other : Member φ}
    (same : member.keyUnder unitId = other.keyUnder unitId) :
    member.name = other.name := by
  have letters := congrArg String.toList same
  simp only [keyUnder, String.toList_append, List.append_assoc] at letters
  exact String.toList_inj.mp (List.append_cancel_left (List.append_cancel_left letters))

theorem ServiceClass.eq_of_name
    (cls : ServiceClass φ)
    {member other : Member φ}
    (isMember : member ∈ cls.functions)
    (isOther : other ∈ cls.functions)
    (same : member.name = other.name) :
    member = other :=
  List.inj_on_of_nodup_map cls.nodup (List.mem_of_mem_filter isMember)
    (List.mem_of_mem_filter isOther) same

theorem ServiceClass.nodup_functions (cls : ServiceClass φ) :
    (cls.functions.map Member.name).Nodup :=
  cls.nodup.sublist (List.filter_sublist.map _)

namespace ServiceUnit

variable {base self after : ServiceUnit φ ω} {done more : List (Member φ)}

/-- The loop over further functions. -/
theorem Registered.registerAll
    (registered : Registered base self done)
    (nodup : ((done ++ more).map Member.name).Nodup)
    (ran : more.forM registerMember self = .ok () after) :
    Registered base after (done ++ more) ∧
      ∀ member ∈ more,
        member.IsWellDeclared ∧
          ∀ aliasName,
            base.aliasName = some aliasName →
            member.keyUnder aliasName ≠ member.servKey base.moduleKey := by
  induction more generalizing self done with
  | nil =>
      cases ran
      simpa using registered
  | cons first rest inductionHypothesis =>
      obtain ⟨⟨⟩, middle, ranFirst, ranRest⟩ := bind_eq_ok.mp ran
      have registrable := registrable_of_registerMember ranFirst
      have isNew : ∀ other ∈ done, other.name ≠ first.name := by
        intro other isDone
        rw [List.map_append, List.nodup_append] at nodup
        exact nodup.2.2 other.name (List.mem_map_of_mem isDone) first.name (by simp)
      rw [List.append_cons] at nodup ⊢
      obtain ⟨whole, others⟩ :=
        inductionHypothesis (registered.register isNew ranFirst) nodup ranRest
      refine ⟨whole, fun member isMember => ?_⟩
      rcases List.mem_cons.mp isMember with rfl | isMember
      · refine ⟨registrable.wellDeclared, fun aliasName isAlias => ?_⟩
        rw [← registered.moduleKey]
        exact (registrable.aliasKey aliasName (registered.aliasName.trans isAlias)).1
      · exact others member isMember

/-- The declarations of a class do not clash. -/
structure Accepts (unit : ServiceUnit φ ω) (functions : List (Member φ)) : Prop where
  wellDeclared : ∀ member ∈ functions, member.IsWellDeclared
  servKey :
    ∀ member ∈ functions,
      member.servKey unit.moduleKey = member.keyUnder unit.moduleKey
  aliasKey :
    ∀ member ∈ functions, ∀ other ∈ functions, ∀ aliasName,
      unit.aliasName = some aliasName →
      other.keyUnder aliasName ≠ member.keyUnder unit.moduleKey

/-- The next function of an accepted class can be read. -/
theorem Registered.registrable
    (registered : Registered base self done)
    {member : Member φ}
    {functions : List (Member φ)}
    (accepts : base.Accepts functions)
    (subset : done ⊆ functions)
    (isMember : member ∈ functions)
    (isNew : ∀ other ∈ done, other.name ≠ member.name) :
    self.Registrable member := by
  have servKey := accepts.servKey member isMember
  refine ⟨accepts.wellDeclared member isMember, ?_, fun aliasName isAlias => ⟨?_, ?_⟩⟩
  · rw [registered.moduleKey, registered.get?_services_eq_none]
    rintro other isDone (same | ⟨aliasName, isAlias, same⟩)
    · rw [servKey, accepts.servKey other (subset isDone)] at same
      exact isNew other isDone (Member.keyUnder_inj same.symm)
    · rw [servKey] at same
      exact accepts.aliasKey member isMember other (subset isDone) aliasName isAlias same.symm
  · rw [registered.aliasName] at isAlias
    rw [registered.moduleKey, servKey]
    exact accepts.aliasKey member isMember member isMember aliasName isAlias
  · rw [registered.aliasName] at isAlias
    rw [registered.get?_services_eq_none]
    rintro other isDone (same | ⟨otherAlias, isOther, same⟩)
    · rw [accepts.servKey other (subset isDone)] at same
      exact accepts.aliasKey other (subset isDone) member isMember aliasName isAlias same
    · rw [isAlias] at isOther
      cases isOther
      exact isNew other isDone (Member.keyUnder_inj same.symm)

/-- The loop over the functions of an accepted class succeeds. -/
theorem Registered.exists_registerAll
    (registered : Registered base self done)
    (accepts : base.Accepts (done ++ more))
    (nodup : ((done ++ more).map Member.name).Nodup) :
    ∃ after, more.forM registerMember self = .ok () after := by
  induction more generalizing self done with
  | nil => exact ⟨self, rfl⟩
  | cons first rest inductionHypothesis =>
      have isNew : ∀ other ∈ done, other.name ≠ first.name := by
        intro other isDone
        rw [List.map_append, List.nodup_append] at nodup
        exact nodup.2.2 other.name (List.mem_map_of_mem isDone) first.name (by simp)
      obtain ⟨middle, ranFirst⟩ := exists_registerMember
        (registered.registrable accepts (List.subset_append_left _ _) (by simp) isNew)
      rw [List.append_cons] at nodup accepts
      obtain ⟨after, ranRest⟩ :=
        inductionHypothesis (registered.register isNew ranFirst) accepts nodup
      refine ⟨after, ?_⟩
      change (registerMember first >>= fun _ => List.forM rest registerMember) self = _
      rw [bind_of_ok ranFirst]
      exact ranRest

section Binding

variable [DecidableEq ω]

/-- A meta after `init_service`. -/
def boundMeta (obj : ω) (servMeta : ServFunctionMeta φ ω) : ServFunctionMeta φ ω :=
  if !servMeta.isStatic && !servMeta.isBinded then servMeta.bind obj else servMeta

/-- An event provider after `init_service`. -/
def boundProvider (obj : ω) (provider : EventProvider φ ω) : EventProvider φ ω :=
  if !provider.isStatic && !provider.isBinded then provider.bind obj else provider

theorem boundMeta_boundMeta (obj : ω) (servMeta : ServFunctionMeta φ ω) :
    boundMeta obj (boundMeta obj servMeta) = boundMeta obj servMeta := by
  unfold boundMeta
  by_cases free : (!servMeta.isStatic && !servMeta.isBinded) = true
  · rw [if_pos free]
    have isBound : (servMeta.bind obj).isBinded = true := by
      simp only [Bool.and_eq_true, Bool.not_eq_true'] at free
      simp [ServFunctionMeta.bind, free]
    simp [isBound]
  · rw [if_neg free, if_neg free]

omit [DecidableEq ω] in
theorem boundProvider_boundProvider (obj : ω) (provider : EventProvider φ ω) :
    boundProvider obj (boundProvider obj provider) = boundProvider obj provider := by
  unfold boundProvider
  by_cases free : (!provider.isStatic && !provider.isBinded) = true
  · rw [if_pos free]
    have isBound : (provider.bind obj).isBinded = true := by
      unfold EventProvider.bind
      split <;> rfl
    simp [isBound]
  · rw [if_neg free, if_neg free]

theorem get?_foldl_bindMeta
    (obj : ω)
    (refs : List FunctionRef)
    (metas : Dict FunctionRef (ServFunctionMeta φ ω))
    (ref : FunctionRef) :
    (refs.foldl (bindMeta obj) metas).get? ref =
      if ref ∈ refs then (metas.get? ref).map (boundMeta obj) else metas.get? ref :=
  Dict.get?_foldl_change (boundMeta_boundMeta obj)
    (fun dict key other =>
      Dict.get?_changeIf (fun value found => by rw [bindMeta, found])
        (fun missing => by rw [bindMeta, missing]) other)
    refs metas ref

omit [DecidableEq ω] in
theorem get?_foldl_bindProvider
    (obj : ω)
    (refs : List FunctionRef)
    (providers : Dict FunctionRef (EventProvider φ ω))
    (ref : FunctionRef) :
    (refs.foldl (bindProvider obj) providers).get? ref =
      if ref ∈ refs then (providers.get? ref).map (boundProvider obj)
      else providers.get? ref :=
  Dict.get?_foldl_change (boundProvider_boundProvider obj)
    (fun dict key other =>
      Dict.get?_changeIf (fun value found => by rw [bindProvider, found])
        (fun missing => by rw [bindProvider, missing]) other)
    refs providers ref

end Binding

/-- The function that a service key stands for, with its name. -/
def serviceAt (self : ServiceUnit φ ω) (key : String) :
    Option (String × PyResult (Callable φ ω)) :=
  ((self.services.get? key).bind self.metas.get?).map fun servMeta =>
    (servMeta.name, servMeta.getBindedFn)

/-- The function that provides the event of a key. -/
def eventAt (self : ServiceUnit φ ω) (key : String) : Option (Callable φ ω) :=
  ((self.nameToEvents.get? key).bind self.providers.get?).map EventProvider.fn

/-- The function of an event handler. -/
def calleeAt (self : ServiceUnit φ ω) (ref : FunctionRef) : Option (PyResult (Callable φ ω)) :=
  (self.metas.get? ref).map ServFunctionMeta.getBindedFn

/-- The key is the function under the module key or under the alias. -/
def Declares (self : ServiceUnit φ ω) (member : Member φ) (key : String) : Prop :=
  key = member.keyUnder self.moduleKey ∨
    ∃ aliasName, self.aliasName = some aliasName ∧ key = member.keyUnder aliasName

/-- The tables hold exactly the functions of the class, bound to the object. -/
structure ExactTables (unit : ServiceUnit φ ω) (cls : ServiceClass φ) (obj : ω) : Prop where
  services :
    ∀ key entry,
      unit.serviceAt key = some entry ↔
        ∃ member ∈ cls.functions,
          unit.Declares member key ∧ entry = (member.name, .ok (member.callable obj))
  events :
    ∀ key fn,
      unit.eventAt key = some fn ↔
        ∃ member ∈ cls.functions,
          member.isProvider = true ∧ unit.Declares member key ∧ fn = member.callable obj
  handlers :
    ∀ event,
      ((unit.handlers event).map unit.calleeAt).Perm
        ((cls.functions.filter fun member => member.handles event).map fun member =>
          some (.ok (member.callable obj)))

/-- The unit with the tables of services and event providers cleared. -/
def cleared (self : ServiceUnit φ ω) : ServiceUnit φ ω :=
  { self with
    generation := self.generation + 1
    services := .empty
    nameToEvents := .empty }

theorem registered_cleared (self : ServiceUnit φ ω) :
    Registered self.cleared self.cleared [] := by
  refine ⟨rfl, rfl, rfl, rfl, rfl, fun key ref => ?_, fun key ref => ?_, by simp, by simp,
    by simp⟩
  · change (Dict.empty : Dict String FunctionRef).get? key = some ref ↔ _
    simp
  · change (Dict.empty : Dict String FunctionRef).get? key = some ref ↔ _
    simp

theorem initAllMetas_eq_ok
    {cls : ServiceClass φ}
    (ran : initAllMetas cls self = .ok () after) :
    Registered self.cleared after cls.functions ∧
      (∀ member ∈ cls.functions, member.IsWellDeclared) ∧
      ∀ member ∈ cls.functions, ∀ aliasName,
        self.aliasName = some aliasName →
        member.keyUnder aliasName ≠ member.servKey self.moduleKey := by
  obtain ⟨⟨⟩, start, isCleared, ran⟩ := bind_eq_ok.mp ran
  rw [modify_eq_ok] at isCleared
  change self.cleared = start at isCleared
  subst isCleared
  obtain ⟨registered, others⟩ :=
    self.registered_cleared.registerAll cls.nodup_functions ran
  exact ⟨registered, fun member isMember => (others member isMember).1,
    fun member isMember => (others member isMember).2⟩

theorem exists_initAllMetas
    {cls : ServiceClass φ}
    (accepts : self.Accepts cls.functions) :
    ∃ after, initAllMetas cls self = .ok () after := by
  obtain ⟨after, ran⟩ :=
    @Registered.exists_registerAll φ ω self.cleared self.cleared [] cls.functions
      self.registered_cleared ⟨accepts.wellDeclared, accepts.servKey, accepts.aliasKey⟩
      cls.nodup_functions
  exact ⟨after, ran⟩

/-- A class that was read without overridden keys is accepted. -/
theorem accepts_of_registered
    {cls : ServiceClass φ}
    (registered : Registered self.cleared after cls.functions)
    (wellDeclared : ∀ member ∈ cls.functions, member.IsWellDeclared)
    (apart :
      ∀ member ∈ cls.functions, ∀ aliasName,
        self.aliasName = some aliasName →
        member.keyUnder aliasName ≠ member.servKey self.moduleKey)
    (default :
      ∀ member ∈ cls.functions,
        member.servKey self.moduleKey = member.keyUnder self.moduleKey) :
    self.Accepts cls.functions := by
  refine ⟨wellDeclared, default, fun member isMember other isOther aliasName isAlias same => ?_⟩
  have atMember := (registered.services (member.keyUnder self.moduleKey) _).mpr
    ⟨member, isMember, .inl (default member isMember).symm, rfl⟩
  have atOther := (registered.services (member.keyUnder self.moduleKey) _).mpr
    ⟨other, isOther, .inr ⟨aliasName, isAlias, same.symm⟩, rfl⟩
  rw [atMember] at atOther
  obtain rfl := cls.eq_of_name isMember isOther
    (congrArg FunctionRef.name (Option.some.inj atOther))
  exact apart member isMember aliasName isAlias (same.trans (default member isMember).symm)

section Loading

variable [DecidableEq ω]

/-- A meta of a class that was read, bound to the object if there is one. -/
def loadedMeta (binding : Option ω) (servMeta : ServFunctionMeta φ ω) : ServFunctionMeta φ ω :=
  binding.elim servMeta fun obj => boundMeta obj servMeta

/-- An event provider of a class that was read. -/
def loadedProvider (binding : Option ω) (provider : EventProvider φ ω) : EventProvider φ ω :=
  binding.elim provider fun obj => boundProvider obj provider

/-- The tables hold the functions of the class, after the handlers that were there before. -/
structure Loaded
    (unit : ServiceUnit φ ω)
    (cls : ServiceClass φ)
    (older : ServiceEventType → List FunctionRef)
    (binding : Option ω) : Prop where
  services :
    ∀ key ref,
      unit.services.get? key = some ref ↔
        ∃ member ∈ cls.functions, member.HasKey unit key ∧ ref = unit.refOf member
  events :
    ∀ key ref,
      unit.nameToEvents.get? key = some ref ↔
        ∃ member ∈ cls.functions,
          member.isProvider = true ∧ member.HasKey unit key ∧ ref = unit.refOf member
  metas :
    ∀ member ∈ cls.functions,
      unit.metas.get? (unit.refOf member) = some (loadedMeta binding member.servMeta)
  providers :
    ∀ member ∈ cls.functions,
      member.isProvider = true →
      ∃ provider,
        unit.providers.get? (unit.refOf member) = some (loadedProvider binding provider) ∧
          provider.fn = .function member.fn ∧
          provider.isStatic = member.isStatic ∧ provider.isBinded = false
  handlers :
    ∀ event,
      unit.handlers event =
        older event ++
          (cls.functions.filter fun member => member.handles event).map unit.refOf

theorem Registered.loaded
    {cls : ServiceClass φ}
    (registered : Registered base self cls.functions) :
    Loaded self cls base.handlers none := by
  have refOf : ∀ member : Member φ, base.refOf member = self.refOf member := by
    intro member
    rw [ServiceUnit.refOf, ServiceUnit.refOf, registered.generation]
  have hasKey : ∀ (member : Member φ) key, member.HasKey base key ↔ member.HasKey self key := by
    intro member key
    rw [Member.HasKey, Member.HasKey, registered.moduleKey, registered.aliasName]
  have services := registered.services
  have events := registered.events
  have metas := registered.metas
  have providers := registered.providers
  simp only [refOf, hasKey] at services events metas providers
  refine ⟨services, events, metas, providers, fun event => ?_⟩
  rw [registered.handlers event]
  exact congrArg _ (List.map_congr_left fun member _ => refOf member)

/-- Binding binds everything that is loaded. -/
theorem Loaded.bindAll
    {cls : ServiceClass φ}
    {older : ServiceEventType → List FunctionRef}
    (loaded : Loaded self cls older none)
    (obj : ω) :
    Loaded (self.bindAll obj) cls older (some obj) := by
  refine ⟨loaded.services, loaded.events, fun member isMember => ?_,
    fun member isMember isProvider => ?_, loaded.handlers⟩
  · have listed : self.refOf member ∈ self.services.values :=
      Dict.mem_values_iff.mpr
        ⟨_, (loaded.services _ _).mpr ⟨member, isMember, .inl rfl, rfl⟩⟩
    change (self.services.values.foldl (bindMeta obj) self.metas).get? (self.refOf member) = _
    rw [get?_foldl_bindMeta, if_pos listed, loaded.metas member isMember]
    rfl
  · obtain ⟨provider, found, facts⟩ := loaded.providers member isMember isProvider
    have listed : self.refOf member ∈ self.nameToEvents.values :=
      Dict.mem_values_iff.mpr
        ⟨_, (loaded.events _ _).mpr ⟨member, isMember, isProvider, .inl rfl, rfl⟩⟩
    refine ⟨provider, ?_, facts⟩
    change (self.nameToEvents.values.foldl (bindProvider obj) self.providers).get?
      (self.refOf member) = _
    rw [get?_foldl_bindProvider, if_pos listed, found]
    rfl

theorem getBindedFn_boundMeta (obj : ω) (member : Member φ) :
    (boundMeta obj member.servMeta).getBindedFn = .ok (member.callable obj) := by
  unfold boundMeta ServFunctionMeta.getBindedFn ServFunctionMeta.bind Member.callable
  cases isStatic : member.isStatic <;> simp [Member.servMeta, isStatic]

theorem name_boundMeta (obj : ω) (member : Member φ) :
    (boundMeta obj member.servMeta).name = member.name := by
  unfold boundMeta ServFunctionMeta.bind
  cases isStatic : member.isStatic <;> simp [Member.servMeta, isStatic]

omit [DecidableEq ω] in
theorem fn_boundProvider
    (obj : ω)
    {member : Member φ}
    {provider : EventProvider φ ω}
    (fn : provider.fn = .function member.fn)
    (isStatic : provider.isStatic = member.isStatic)
    (isBinded : provider.isBinded = false) :
    (boundProvider obj provider).fn = member.callable obj := by
  unfold boundProvider EventProvider.bind Member.callable
  rw [isStatic, isBinded, fn]
  cases member.isStatic <;> simp [fn]

section Exactness

variable {cls : ServiceClass φ} {older : ServiceEventType → List FunctionRef} {obj : ω}

/-- A loaded service key. -/
theorem Loaded.serviceAt_iff
    (loaded : Loaded self cls older (some obj))
    (key : String)
    (entry : String × PyResult (Callable φ ω)) :
    self.serviceAt key = some entry ↔
      ∃ member ∈ cls.functions,
        member.HasKey self key ∧ entry = (member.name, .ok (member.callable obj)) := by
  have found : ∀ member ∈ cls.functions,
      (self.metas.get? (self.refOf member)).map
          (fun servMeta => (servMeta.name, servMeta.getBindedFn)) =
        some (member.name, .ok (member.callable obj)) := by
    intro member isMember
    rw [loaded.metas member isMember]
    change some ((boundMeta obj member.servMeta).name,
      (boundMeta obj member.servMeta).getBindedFn) = _
    rw [getBindedFn_boundMeta, name_boundMeta]
  constructor
  · intro isEntry
    obtain ⟨servMeta, isMeta, rfl⟩ := Option.map_eq_some_iff.mp isEntry
    obtain ⟨ref, isRef, isMeta⟩ := Option.bind_eq_some_iff.mp isMeta
    obtain ⟨member, isMember, hasKey, rfl⟩ := (loaded.services key ref).mp isRef
    have same := found member isMember
    rw [isMeta] at same
    exact ⟨member, isMember, hasKey, Option.some.inj same⟩
  · rintro ⟨member, isMember, hasKey, rfl⟩
    rw [serviceAt, (loaded.services key _).mpr ⟨member, isMember, hasKey, rfl⟩]
    exact found member isMember

/-- A loaded event provider. -/
theorem Loaded.eventAt_iff
    (loaded : Loaded self cls older (some obj))
    (key : String)
    (fn : Callable φ ω) :
    self.eventAt key = some fn ↔
      ∃ member ∈ cls.functions,
        member.isProvider = true ∧ member.HasKey self key ∧ fn = member.callable obj := by
  have found : ∀ member ∈ cls.functions,
      member.isProvider = true →
      (self.providers.get? (self.refOf member)).map EventProvider.fn =
        some (member.callable obj) := by
    intro member isMember isProvider
    obtain ⟨provider, isFound, isFn, isStatic, isBinded⟩ :=
      loaded.providers member isMember isProvider
    rw [isFound]
    exact congrArg some (fn_boundProvider obj isFn isStatic isBinded)
  constructor
  · intro isFn
    obtain ⟨provider, isFound, rfl⟩ := Option.map_eq_some_iff.mp isFn
    obtain ⟨ref, isRef, isFound⟩ := Option.bind_eq_some_iff.mp isFound
    obtain ⟨member, isMember, isProvider, hasKey, rfl⟩ := (loaded.events key ref).mp isRef
    have same := found member isMember isProvider
    rw [isFound] at same
    exact ⟨member, isMember, isProvider, hasKey, Option.some.inj same⟩
  · rintro ⟨member, isMember, isProvider, hasKey, rfl⟩
    rw [eventAt, (loaded.events key _).mpr ⟨member, isMember, isProvider, hasKey, rfl⟩]
    exact found member isMember isProvider

theorem Loaded.map_calleeAt
    (loaded : Loaded self cls older (some obj))
    (event : ServiceEventType) :
    ((cls.functions.filter fun member => member.handles event).map self.refOf).map
        self.calleeAt =
      (cls.functions.filter fun member => member.handles event).map fun member =>
        some (.ok (member.callable obj)) := by
  rw [List.map_map]
  refine List.map_congr_left fun member selected => ?_
  have isMember := List.mem_of_mem_filter selected
  rw [Function.comp_apply, calleeAt, loaded.metas member isMember]
  exact congrArg some (getBindedFn_boundMeta obj member)

/-- The loaded tables are exact when nothing older is left and no key is overridden. -/
theorem Loaded.exactTables_iff
    (loaded : Loaded self cls older (some obj))
    (apart :
      ∀ member ∈ cls.functions, ∀ aliasName,
        self.aliasName = some aliasName →
        member.keyUnder aliasName ≠ member.servKey self.moduleKey) :
    ExactTables self cls obj ↔
      (∀ event, older event = []) ∧
        ∀ member ∈ cls.functions,
          member.servKey self.moduleKey = member.keyUnder self.moduleKey := by
  constructor
  · intro exact
    refine ⟨fun event => ?_, fun member isMember => ?_⟩
    · have sameLength := (exact.handlers event).length_eq
      rw [loaded.handlers event] at sameLength
      simp only [List.length_map, List.length_append] at sameLength
      exact List.eq_nil_of_length_eq_zero (by omega)
    · have isEntry := (loaded.serviceAt_iff (member.servKey self.moduleKey) _).mpr
        ⟨member, isMember, .inl rfl, rfl⟩
      obtain ⟨other, isOther, declares, same⟩ := (exact.services _ _).mp isEntry
      obtain rfl := cls.eq_of_name isMember isOther (congrArg Prod.fst same)
      rcases declares with isDefault | ⟨aliasName, isAlias, isDefault⟩
      · exact isDefault
      · exact absurd isDefault.symm (apart member isMember aliasName isAlias)
  · rintro ⟨noOlder, default⟩
    have declares : ∀ member ∈ cls.functions, ∀ key,
        member.HasKey self key ↔ self.Declares member key := by
      intro member isMember key
      rw [Member.HasKey, Declares, default member isMember]
    refine ⟨fun key entry => ?_, fun key fn => ?_, fun event => ?_⟩
    · rw [loaded.serviceAt_iff]
      refine exists_congr fun member => and_congr_right fun isMember => ?_
      rw [declares member isMember]
    · rw [loaded.eventAt_iff]
      refine exists_congr fun member => and_congr_right fun isMember => ?_
      rw [declares member isMember]
    · rw [loaded.handlers event, noOlder event, List.nil_append, loaded.map_calleeAt]

end Exactness

/-- What a reload that returns leaves. -/
theorem reloadMetas_eq_ok
    {cls : ServiceClass φ}
    (ran : reloadMetas cls self = .ok () after) :
    ∃ obj,
      self.obj = some obj ∧ after.obj = some obj ∧
        after.moduleKey = self.moduleKey ∧ after.aliasName = self.aliasName ∧
        after.objType = cls ∧
        Loaded after cls self.handlers (some obj) ∧
        (∀ member ∈ cls.functions, member.IsWellDeclared) ∧
        (∀ member ∈ cls.functions, ∀ aliasName,
          self.aliasName = some aliasName →
          member.keyUnder aliasName ≠ member.servKey self.moduleKey) ∧
        ∃ middle, Registered self.cleared middle cls.functions := by
  obtain ⟨⟨⟩, read, ranRead, ran⟩ := bind_eq_ok.mp ran
  obtain ⟨⟨⟩, typed, isTyped, ran⟩ := bind_eq_ok.mp ran
  rw [modify_eq_ok] at isTyped
  subst isTyped
  rw [attempt_eq_ok] at ran
  obtain ⟨registered, wellDeclared, apart⟩ := initAllMetas_eq_ok ranRead
  have sameObj : read.obj = self.obj := registered.obj
  split at ran
  · cases ran
  · rename_i obj isObj
    cases ran
    have loaded := registered.loaded
    have retyped : Loaded { read with objType := cls } cls self.handlers none :=
      ⟨loaded.services, loaded.events, loaded.metas, loaded.providers, loaded.handlers⟩
    exact ⟨obj, sameObj.symm.trans isObj, isObj, registered.moduleKey, registered.aliasName, rfl,
      retyped.bindAll obj, wellDeclared, apart, read, registered⟩

/-- A reload returns exact tables when the service was made, no event handler was left by an
older version, and the declarations of the new version do not clash. -/
theorem reloadMetas_exact_iff
    {cls : ServiceClass φ} :
    (∃ after obj,
        reloadMetas cls self = .ok () after ∧
          after.obj = some obj ∧ ExactTables after cls obj) ↔
      self.obj.isSome = true ∧ (∀ event, self.handlers event = []) ∧
        self.Accepts cls.functions := by
  constructor
  · rintro ⟨after, obj, ran, isObj, exact⟩
    obtain ⟨made, isMade, isAfter, moduleKey, aliasName, -, loaded, wellDeclared, apart,
      middle, registered⟩ := reloadMetas_eq_ok ran
    rw [isObj] at isAfter
    cases isAfter
    have parts := (loaded.exactTables_iff (by rwa [moduleKey, aliasName])).mp exact
    rw [moduleKey] at parts
    exact ⟨by rw [isMade]; rfl, parts.1,
      accepts_of_registered registered wellDeclared apart parts.2⟩
  · rintro ⟨isMade, noOlder, accepts⟩
    obtain ⟨obj, isObj⟩ := Option.isSome_iff_exists.mp isMade
    obtain ⟨read, ranRead⟩ := exists_initAllMetas accepts
    obtain ⟨registered, -, -⟩ := initAllMetas_eq_ok ranRead
    have readObj : read.obj = some obj := registered.obj.trans isObj
    obtain ⟨after, ran⟩ : ∃ after, reloadMetas cls self = .ok () after := by
      refine ⟨({ read with objType := cls } : ServiceUnit φ ω).bindAll obj, ?_⟩
      have typed :
          (modify fun self => { self with objType := cls } : ServiceM φ ω PUnit) read =
            .ok ⟨⟩ { read with objType := cls } :=
        rfl
      rw [reloadMetas, bind_of_ok ranRead, bind_of_ok typed, attempt_eq_ok, readObj]
    obtain ⟨made, isMade, isAfter, moduleKey, aliasName, -, loaded, wellDeclared, apart, -⟩ :=
      reloadMetas_eq_ok ran
    rw [isObj] at isMade
    cases isMade
    refine ⟨after, obj, ran, isAfter,
      (loaded.exactTables_iff (by rwa [moduleKey, aliasName])).mpr ⟨noOlder, ?_⟩⟩
    rw [moduleKey]
    exact accepts.servKey

end Loading

end ServiceUnit

end TensorPC.Service
