import TensorPC.Lib.Computation
import TensorPC.Py.Dict

namespace TensorPC.Service

/-!
# Service units

A service unit keeps the functions of its class in three tables: the services
and the event providers by key, and the event handlers by event.  A reload
reads a new version of the class into the tables and binds what it finds there
to the object of the service.
-/

inductive ServiceType where
  | normal
  | exit
  | asyncInit
  | biStream
  | clientStream
  | asyncWebSocket
  | webSocketEventProvider
  | webSocketOnConnect
  | webSocketOnDisConnect
  | event
  deriving DecidableEq

inductive ServiceEventType where
  | normal
  | exit
  | init
  | beforeServerStart
  | afterServerStart
  | webSocketOnConnect
  | webSocketOnDisConnect
  deriving DecidableEq

/-- `FunctionUserMeta`, what a decorator leaves on a function. -/
structure FunctionUserMeta where
  type : ServiceType
  eventName : String
  isDynamic : Bool
  eventType : ServiceEventType
  servKeyOverride : Option String
  deriving DecidableEq

/-- A function of a class as reflection shows it. -/
structure Member (φ : Type) where
  name : String
  fn : φ
  isGeneratorFunction : Bool
  isAsyncGenFunction : Bool
  isCoroutineFunction : Bool
  isStatic : Bool
  parameters : Nat
  userMeta : Option FunctionUserMeta
  deriving DecidableEq

/-- A version of a class with its functions, in the order of `inspect.getmembers`. -/
structure ServiceClass (φ : Type) where
  members : List (Member φ)
  nodup : (members.map Member.name).Nodup

/-- What can be called: a function, or a function bound to an object. -/
inductive Callable (φ ω : Type) where
  | function (fn : φ)
  | method (fn : φ) (object : ω)
  deriving DecidableEq

/-- `ServFunctionMeta` as far as the tables use it. -/
structure ServFunctionMeta (φ ω : Type) where
  fn : φ
  name : String
  type : ServiceType
  eventType : ServiceEventType
  isGen : Bool
  isAsync : Bool
  isStatic : Bool
  isBinded : Bool
  bindedFn : Option (Callable φ ω)
  deriving DecidableEq

/-- `EventProvider`. -/
structure EventProvider (φ ω : Type) where
  serviceKey : String
  eventName : String
  fn : Callable φ ω
  isStatic : Bool
  isBinded : Bool
  isDynamic : Bool
  deriving DecidableEq

/-- The objects that one reading of a class creates for one of its functions. -/
structure FunctionRef where
  generation : Nat
  name : String
  deriving DecidableEq

/--
A `ServiceUnit`.  The tables refer to shared function metas and event
providers, which are kept by the reading of the class that made them.
-/
structure ServiceUnit (φ ω : Type) where
  moduleKey : String
  aliasName : Option String
  objType : ServiceClass φ
  obj : Option ω
  services : Dict String FunctionRef
  eventToHandlers : Dict ServiceEventType (List FunctionRef)
  nameToEvents : Dict String FunctionRef
  generation : Nat
  metas : Dict FunctionRef (ServFunctionMeta φ ω)
  providers : Dict FunctionRef (EventProvider φ ω)

variable {φ ω : Type}

namespace ServFunctionMeta

/-- `bind`. -/
def bind
    [DecidableEq ω]
    (self : ServFunctionMeta φ ω)
    (obj : ω) :
    ServFunctionMeta φ ω :=
  let isBinded :=
    match self.isStatic, self.isBinded, self.bindedFn with
    | false, true, some (.method _ object) => decide (object = obj)
    | _, isBinded, _ => isBinded
  if isBinded then
    { self with isBinded := isBinded }
  else
    { self with
      bindedFn := some (if self.isStatic then .function self.fn else .method self.fn obj)
      isBinded := true }

/-- `get_binded_fn`. -/
def getBindedFn (self : ServFunctionMeta φ ω) : PyResult (Callable φ ω) :=
  if self.isStatic then
    .ok (.function self.fn)
  else
    match self.bindedFn with
    | some callable => .ok callable
    | none => .error (.assertionError "")

end ServFunctionMeta

/-- Binding an event provider. -/
def EventProvider.bind (self : EventProvider φ ω) (obj : ω) : EventProvider φ ω :=
  match self.fn with
  | .function fn => { self with fn := .method fn obj, isBinded := true }
  | .method fn _ => { self with fn := .method fn obj, isBinded := true }

namespace Member

variable (member : Member φ)

/-- The name does not start with two underscores. -/
def isPublic : Bool :=
  !"__".toList.isPrefixOf member.name.toList

/-- `serv_type`. -/
def type : ServiceType :=
  match member.userMeta with
  | some userMeta => userMeta.type
  | none => .normal

/-- `serv_event_type`. -/
def eventType : ServiceEventType :=
  match member.userMeta with
  | some userMeta => userMeta.eventType
  | none => .normal

/-- `is_async`. -/
def isAsync : Bool :=
  member.isCoroutineFunction || member.isAsyncGenFunction

/-- `is_gen`. -/
def isGen : Bool :=
  if member.isAsync then member.isAsyncGenFunction else member.isGeneratorFunction

/-- `f"{self.module_key}.{k}"` and `f"{self.alias}.{k}"`. -/
def keyUnder (unitId : String) : String :=
  unitId ++ "." ++ member.name

/-- `serv_key`. -/
def servKey (moduleKey : String) : String :=
  match member.userMeta.bind FunctionUserMeta.servKeyOverride with
  | some servKey => servKey
  | none => member.keyUnder moduleKey

/-- The function provides an event. -/
def isProvider : Bool :=
  decide (member.type = .webSocketEventProvider)

/-- The function handles the event. -/
def handles (event : ServiceEventType) : Bool :=
  decide (member.type = .event) && decide (member.eventType = event)

/-- The meta that is made for the function. -/
def servMeta : ServFunctionMeta φ ω where
  fn := member.fn
  name := member.name
  type := member.type
  eventType := member.eventType
  isGen := member.isGen
  isAsync := member.isAsync
  isStatic := member.isStatic
  isBinded := false
  bindedFn := none

/-- The parameters apart from the object. -/
def numParameters : Int :=
  member.parameters - (if member.isStatic then 0 else 1)

/-- The event provider that is made for the function, if it is declared as one. -/
def evProvider (moduleKey : String) : PyResult (Option (EventProvider φ ω)) :=
  match member.userMeta with
  | none => .ok none
  | some userMeta =>
      if userMeta.type = .webSocketEventProvider then do
        let _ ← pyAssert (decide (member.numParameters = 0))
          ("event can't have any parameter, but " ++ member.servKey moduleKey ++ " have " ++
            toString member.numParameters ++ " param")
        let _ ← pyAssert (member.isAsync && !member.isAsyncGenFunction)
          "event provider must be async function"
        let _ ← pyAssert (decide (userMeta.eventName ≠ "")) ""
        return some {
          serviceKey := member.servKey moduleKey
          eventName := userMeta.eventName
          fn := .function member.fn
          isStatic := member.isStatic
          isBinded := false
          isDynamic := userMeta.isDynamic }
      else
        .ok none

end Member

/-- A computation on a service unit. -/
abbrev ServiceM (φ ω : Type) :=
  EStateM PyError (ServiceUnit φ ω)

/-- A statement that changes the unit or raises. -/
def attempt (change : ServiceUnit φ ω → PyResult (ServiceUnit φ ω)) : ServiceM φ ω Unit :=
  fun self =>
    match change self with
    | .ok after => .ok () after
    | .error raised => .error raised self

/-- The functions of the class that are read. -/
def ServiceClass.functions (cls : ServiceClass φ) : List (Member φ) :=
  cls.members.filter Member.isPublic

namespace ServiceUnit

/-- `self._event_to_handlers`, where an event without an entry has no handlers. -/
def handlers (self : ServiceUnit φ ω) (event : ServiceEventType) : List FunctionRef :=
  (self.eventToHandlers.get? event).getD []

/-- The objects that this reading of the class makes for a function. -/
def refOf (self : ServiceUnit φ ω) (member : Member φ) : FunctionRef where
  generation := self.generation
  name := member.name

/-- The first statements for a function: its meta, its event provider and its place among the
event handlers. -/
def createMeta (member : Member φ) (self : ServiceUnit φ ω) : PyResult (ServiceUnit φ ω) := do
  let provider ← member.evProvider self.moduleKey
  return { self with
    metas := self.metas.set (self.refOf member) member.servMeta
    providers :=
      match provider with
      | some provider => self.providers.set (self.refOf member) provider
      | none => self.providers
    eventToHandlers :=
      if member.type = .event then
        self.eventToHandlers.set member.eventType
          (self.handlers member.eventType ++ [self.refOf member])
      else
        self.eventToHandlers }

/-- The function under its service key. -/
def addService (member : Member φ) (self : ServiceUnit φ ω) : PyResult (ServiceUnit φ ω) := do
  let servKey := member.servKey self.moduleKey
  let _ ← pyAssert (!self.services.contains servKey) ""
  return { self with
    services := self.services.set servKey (self.refOf member)
    nameToEvents :=
      if member.isProvider then
        self.nameToEvents.set servKey (self.refOf member)
      else
        self.nameToEvents }

/-- `ev_provider.service_key = alias_key`. -/
def renameProvider
    (providers : Dict FunctionRef (EventProvider φ ω))
    (ref : FunctionRef)
    (serviceKey : String) :
    Dict FunctionRef (EventProvider φ ω) :=
  match providers.get? ref with
  | some provider => providers.set ref { provider with serviceKey := serviceKey }
  | none => providers

/-- The function under its key with the alias. -/
def addAlias (member : Member φ) (self : ServiceUnit φ ω) : PyResult (ServiceUnit φ ω) :=
  match self.aliasName with
  | none => .ok self
  | some aliasName => do
      let aliasKey := member.keyUnder aliasName
      let _ ← pyAssert (!self.services.contains aliasKey) ""
      return { self with
        services := self.services.set aliasKey (self.refOf member)
        nameToEvents :=
          if member.isProvider then
            self.nameToEvents.set aliasKey (self.refOf member)
          else
            self.nameToEvents
        providers :=
          if member.isProvider then
            renameProvider self.providers (self.refOf member) aliasKey
          else
            self.providers }

/-- One round of the loop in `_init_all_metas`. -/
def registerMember (member : Member φ) : ServiceM φ ω Unit := do
  attempt (createMeta member)
  attempt (addService member)
  attempt (addAlias member)

/-- `_init_all_metas`. -/
def initAllMetas (cls : ServiceClass φ) : ServiceM φ ω Unit := do
  modify fun self => { self with
    generation := self.generation + 1
    services := .empty
    nameToEvents := .empty }
  cls.functions.forM registerMember

section Binding

variable [DecidableEq ω]

/-- Bind the meta if it is neither static nor bound. -/
def bindMeta
    (obj : ω)
    (metas : Dict FunctionRef (ServFunctionMeta φ ω))
    (ref : FunctionRef) :
    Dict FunctionRef (ServFunctionMeta φ ω) :=
  match metas.get? ref with
  | some servMeta =>
      if !servMeta.isStatic && !servMeta.isBinded then
        metas.set ref (servMeta.bind obj)
      else
        metas
  | none => metas

/-- Bind the event provider if it is neither static nor bound. -/
def bindProvider
    (obj : ω)
    (providers : Dict FunctionRef (EventProvider φ ω))
    (ref : FunctionRef) :
    Dict FunctionRef (EventProvider φ ω) :=
  match providers.get? ref with
  | some provider =>
      if !provider.isStatic && !provider.isBinded then
        providers.set ref (provider.bind obj)
      else
        providers
  | none => providers

/-- The two loops of `init_service`. -/
def bindAll (self : ServiceUnit φ ω) (obj : ω) : ServiceUnit φ ω :=
  { self with
    metas := self.services.values.foldl (bindMeta obj) self.metas
    providers := self.nameToEvents.values.foldl (bindProvider obj) self.providers }

/-- `init_service`, where `created` is the external object or the one that the class makes. -/
def initService (created : ω) (rebind : Bool) : ServiceM φ ω Unit :=
  attempt fun self =>
    match self.obj with
    | none => do
        let _ ← pyAssert (!rebind) ""
        return { self with obj := some created }.bindAll created
    | some obj => if rebind then .ok (self.bindAll obj) else .ok self

/-- `reload_metas` with the new version of the class that the module holds. -/
def reloadMetas (cls : ServiceClass φ) : ServiceM φ ω Unit := do
  initAllMetas cls
  modify fun self => { self with objType := cls }
  attempt fun self =>
    match self.obj with
    | none => .error (.assertionError "")
    | some obj => .ok (self.bindAll obj)

/-- `ServiceUnit.__init__`. -/
def construct
    (moduleName moduleKey : String)
    (aliasName : Option String)
    (cls : ServiceClass φ) :
    PyResult (ServiceUnit φ ω) :=
  match initAllMetas cls {
      moduleKey := moduleKey
      aliasName := aliasName
      objType := cls
      obj := none
      services := .empty
      eventToHandlers := .empty
      nameToEvents := .empty
      generation := 0
      metas := .empty
      providers := .empty } with
  | .ok () self => do
      let _ ← pyAssert (decide (self.services.keys ≠ []))
        ("your service " ++ moduleName ++ " must have at least one valid method")
      return self
  | .error raised _ => .error raised

/-- What the handlers of an event do: the calls in order, up to one that raises. -/
def callHandlers
    (self : ServiceUnit φ ω)
    (fails : Callable φ ω → Option PyError) :
    List FunctionRef → List (Callable φ ω) × Option PyError
  | [] => ([], none)
  | ref :: rest =>
      match (self.metas.get? ref).map ServFunctionMeta.getBindedFn with
      | some (.ok callable) =>
          match fails callable with
          | some raised => ([callable], some raised)
          | none =>
              (callable :: (callHandlers self fails rest).1, (callHandlers self fails rest).2)
      | some (.error raised) => ([], some raised)
      | none => ([], none)

/-- The service is made before its first event. -/
def inited (self : ServiceUnit φ ω) (created : ω) : ServiceUnit φ ω :=
  match self.obj with
  | none => { self with obj := some created }.bindAll created
  | some _ => self

/-- The handler is synchronous. -/
def isSync (self : ServiceUnit φ ω) (ref : FunctionRef) : Bool :=
  match self.metas.get? ref with
  | some servMeta => !servMeta.isAsync
  | none => false

/-- `run_event`: the unit afterwards, the calls, and what was raised. -/
def runEvent
    (self : ServiceUnit φ ω)
    (created : ω)
    (fails : Callable φ ω → Option PyError)
    (event : ServiceEventType) :
    ServiceUnit φ ω × List (Callable φ ω) × Option PyError :=
  if self.eventToHandlers.contains event then
    let ready := self.inited created
    (ready, ready.callHandlers fails ((ready.handlers event).filter ready.isSync))
  else
    (self, [], none)

/-- `run_event_async`. -/
def runEventAsync
    (self : ServiceUnit φ ω)
    (created : ω)
    (fails : Callable φ ω → Option PyError)
    (event : ServiceEventType) :
    ServiceUnit φ ω × List (Callable φ ω) × Option PyError :=
  if self.eventToHandlers.contains event then
    if self.obj.isNone && decide (event = .exit) then
      (self, [], none)
    else
      let ready := self.inited created
      (ready, ready.callHandlers fails (ready.handlers event))
  else
    (self, [], none)

end Binding

/-- `get_service_unit_ids`. -/
def unitIds (self : ServiceUnit φ ω) : List String :=
  match self.aliasName with
  | some aliasName => [self.moduleKey, aliasName]
  | none => [self.moduleKey]

end ServiceUnit

/-- `ServiceUnits`: the units that exist, those it is made of, and its tables. -/
structure ServiceUnits (φ ω : Type) where
  units : List (ServiceUnit φ ω)
  sus : List Nat
  keyToSu : Dict String Nat
  serviceIdToKey : List String

namespace ServiceUnits

/-- One round of the loop in `__init__`. -/
def addUnit (self : ServiceUnits φ ω) (su : Nat) : PyResult (ServiceUnits φ ω) :=
  match self.units[su]? with
  | none => .ok self
  | some unit => do
      unit.unitIds.forM fun suid => pyAssert (!self.keyToSu.contains suid) ""
      return { self with
        keyToSu := unit.services.keys.foldl (fun keyToSu sid => keyToSu.set sid su) self.keyToSu
        serviceIdToKey := self.serviceIdToKey ++ unit.services.keys }

/-- `ServiceUnits.__init__`. -/
def construct
    (units : List (ServiceUnit φ ω))
    (sus : List Nat) :
    PyResult (ServiceUnits φ ω) :=
  sus.foldlM addUnit {
    units := units
    sus := sus
    keyToSu := .empty
    serviceIdToKey := [] }

/-- `self.key_to_su[serv_key]`. -/
def suOf (self : ServiceUnits φ ω) (servKey : String) : PyResult Nat :=
  match self.keyToSu.get? servKey with
  | some su => .ok su
  | none => .error (.keyError servKey)

end ServiceUnits

end TensorPC.Service
