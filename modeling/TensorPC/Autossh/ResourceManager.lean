import TensorPC.Py.PySet

namespace TensorPC.Autossh

/-!
# The resource manager of the task scheduler

CPU and GPU slots are kept in two families of sets, the idle and the occupied
ones.  A request moves slots from one to the other in the order in which Python
iterates over the idle set, which is not specified: it is a parameter.
-/

/-- The kinds of resources. -/
inductive ResourceType
  | gpu
  | cpu
  deriving DecidableEq, Repr

/-- A resource: its kind and its number. -/
abbrev Resource := ResourceType × Nat

/-- An order in which a set may be iterated. -/
structure SetOrder (α : Type) where
  iterate : PySet α → List α
  perm : ∀ set, (iterate set).Perm set.toList

/-- The iteration order that is the order of the stored list. -/
def SetOrder.asStored : SetOrder α where
  iterate := PySet.toList
  perm _ := .refl _

/-- `ResourceManager`. -/
structure ResourceManager where
  idleResources : ResourceType → PySet Resource
  occupiedResources : ResourceType → PySet Resource

/-- The slots that a manager for `count` slots of one kind starts with. -/
def initialSlots (type : ResourceType) (count : Nat) : PySet Resource where
  toList := (List.range count).map fun index => (type, index)
  nodup := by
    apply List.nodup_range.map
    intro first second same
    exact (Prod.mk.inj same).2

/-- The resources that a manager is set up with. -/
def initialResources (numCpu numGpu : Nat) : ResourceType → PySet Resource
  | .gpu => initialSlots .gpu numGpu
  | .cpu => initialSlots .cpu numCpu

theorem fst_of_mem_initialResources
    {numCpu numGpu : Nat}
    {type : ResourceType}
    {resource : Resource}
    (member : resource ∈ initialResources numCpu numGpu type) :
    resource.1 = type := by
  cases type with
  | gpu =>
      obtain ⟨_, _, same⟩ := List.mem_map.mp member
      exact same ▸ rfl
  | cpu =>
      obtain ⟨_, _, same⟩ := List.mem_map.mp member
      exact same ▸ rfl

namespace ResourceManager

/-- `ResourceManager(num_cpu, num_gpu)`. -/
def init (numCpu numGpu : Nat) : ResourceManager where
  idleResources := initialResources numCpu numGpu
  occupiedResources _ := PySet.empty

/-- Take one resource out of the idle set of its kind. -/
def occupy
    (type : ResourceType)
    (manager : ResourceManager)
    (resource : Resource) :
    ResourceManager where
  idleResources :=
    Function.update manager.idleResources type
      ((manager.idleResources type).discard resource)
  occupiedResources :=
    Function.update manager.occupiedResources type
      ((manager.occupiedResources type).add resource)

/-- `_request_idle_resources(resource_type, num)`. -/
def requestIdleResources
    (order : SetOrder Resource)
    (type : ResourceType)
    (num : Nat)
    (manager : ResourceManager) :
    List Resource × ResourceManager :=
  if (manager.idleResources type).toList.length < num then
    ([], manager)
  else
    let resources := (order.iterate (manager.idleResources type)).take num
    (resources, resources.foldl (occupy type) manager)

/-- Give one resource back, if it is occupied under this kind. -/
def releaseFrom
    (resource : Resource)
    (manager : ResourceManager)
    (item : ResourceType) :
    ResourceManager :=
  if resource ∈ manager.occupiedResources item then
    { idleResources :=
        Function.update manager.idleResources item
          ((manager.idleResources item).add resource)
      occupiedResources :=
        Function.update manager.occupiedResources item
          ((manager.occupiedResources item).discard resource) }
  else
    manager

/-- `release_resources(resources)`. -/
def releaseResources
    (resources : List Resource)
    (manager : ResourceManager) :
    ResourceManager :=
  resources.foldl
    (fun state resource => [ResourceType.gpu, .cpu].foldl (releaseFrom resource) state)
    manager

/-! ## What the operations move -/

/-- `after` is `before` with these resources moved from idle to occupied. -/
structure Occupies
    (type : ResourceType)
    (resources : List Resource)
    (before after : ResourceManager) : Prop where
  idle :
    ∀ kind resource,
      resource ∈ after.idleResources kind ↔
        resource ∈ before.idleResources kind ∧
          ¬(kind = type ∧ resource ∈ resources)
  occupied :
    ∀ kind resource,
      resource ∈ after.occupiedResources kind ↔
        resource ∈ before.occupiedResources kind ∨
          (kind = type ∧ resource ∈ resources)

/-- `after` is `before` with these resources moved from occupied to idle. -/
structure Releases
    (resources : List Resource)
    (before after : ResourceManager) : Prop where
  idle :
    ∀ kind resource,
      resource ∈ after.idleResources kind ↔
        resource ∈ before.idleResources kind ∨
          (resource ∈ before.occupiedResources kind ∧ resource ∈ resources)
  occupied :
    ∀ kind resource,
      resource ∈ after.occupiedResources kind ↔
        resource ∈ before.occupiedResources kind ∧ resource ∉ resources

theorem occupies_occupy
    (type : ResourceType)
    (manager : ResourceManager)
    (resource : Resource) :
    Occupies type [resource] manager (manager.occupy type resource) := by
  constructor
  · intro kind query
    by_cases same : kind = type
    · subst same
      simp [occupy, and_comm]
    · simp [occupy, same]
  · intro kind query
    by_cases same : kind = type
    · subst same
      simp [occupy, or_comm]
    · simp [occupy, same]

theorem occupies_foldl
    (type : ResourceType)
    (resources : List Resource)
    (manager : ResourceManager) :
    Occupies type resources manager (resources.foldl (occupy type) manager) := by
  induction resources generalizing manager with
  | nil =>
      constructor <;> simp
  | cons resource rest inductionHypothesis =>
      have first := occupies_occupy type manager resource
      have later := inductionHypothesis (manager.occupy type resource)
      constructor
      · intro kind query
        rw [List.foldl_cons, later.idle, first.idle]
        simp only [List.mem_cons, List.not_mem_nil, or_false]
        tauto
      · intro kind query
        rw [List.foldl_cons, later.occupied, first.occupied]
        simp only [List.mem_cons, List.not_mem_nil, or_false]
        tauto

theorem requestIdleResources_spec
    (order : SetOrder Resource)
    (type : ResourceType)
    (num : Nat)
    (manager : ResourceManager) :
    (∀ resource ∈ (manager.requestIdleResources order type num).1,
      resource ∈ manager.idleResources type) ∧
    Occupies type (manager.requestIdleResources order type num).1 manager
      (manager.requestIdleResources order type num).2 := by
  unfold requestIdleResources
  split
  · refine ⟨by simp, ?_⟩
    exact occupies_foldl type [] manager
  · refine ⟨?_, occupies_foldl type _ manager⟩
    intro resource member
    exact (order.perm _).mem_iff.mp (List.mem_of_mem_take member)

/-- One resource is given back under whatever kind it is occupied. -/
theorem releases_releaseFrom
    (resource : Resource)
    (manager : ResourceManager) :
    Releases [resource] manager
      ([ResourceType.gpu, .cpu].foldl (releaseFrom resource) manager) := by
  have moved
      (state : ResourceManager)
      (item kind : ResourceType)
      (query : Resource) :
      (query ∈ (releaseFrom resource state item).idleResources kind ↔
        query ∈ state.idleResources kind ∨
          (kind = item ∧ query = resource ∧
            resource ∈ state.occupiedResources item)) ∧
      (query ∈ (releaseFrom resource state item).occupiedResources kind ↔
        query ∈ state.occupiedResources kind ∧
          ¬(kind = item ∧ query = resource)) := by
    unfold releaseFrom
    split
    · rename_i occupied
      by_cases same : kind = item
      · subst same
        simp [occupied, or_comm, and_comm]
      · simp [same]
    · rename_i absent
      refine ⟨by simp [absent], ?_⟩
      constructor
      · intro member
        refine ⟨member, ?_⟩
        rintro ⟨rfl, rfl⟩
        exact absent member
      · exact And.left
  constructor
  · intro kind query
    simp only [List.foldl_cons, List.foldl_nil, (moved _ _ _ _).1, (moved _ _ _ _).2,
      List.mem_singleton]
    cases kind with
    | gpu =>
        simp only [true_and, reduceCtorEq, false_and, or_false]
        constructor
        · rintro (idle | ⟨rfl, occupied⟩)
          · exact .inl idle
          · exact .inr ⟨occupied, rfl⟩
        · rintro (idle | ⟨occupied, rfl⟩)
          · exact .inl idle
          · exact .inr ⟨rfl, occupied⟩
    | cpu =>
        simp only [true_and, reduceCtorEq, false_and, or_false, not_false_eq_true,
          and_true]
        constructor
        · rintro (idle | ⟨rfl, occupied⟩)
          · exact .inl idle
          · exact .inr ⟨occupied, rfl⟩
        · rintro (idle | ⟨occupied, rfl⟩)
          · exact .inl idle
          · exact .inr ⟨rfl, occupied⟩
  · intro kind query
    simp only [List.foldl_cons, List.foldl_nil, (moved _ _ _ _).2, List.mem_singleton]
    cases kind <;> simp

/-- All resources of a list that are occupied are given back. -/
theorem releases_releaseResources
    (resources : List Resource)
    (manager : ResourceManager) :
    Releases resources manager (manager.releaseResources resources) := by
  induction resources generalizing manager with
  | nil =>
      constructor <;> simp [releaseResources]
  | cons resource rest inductionHypothesis =>
      have first := releases_releaseFrom resource manager
      have later :=
        inductionHypothesis
          ([ResourceType.gpu, .cpu].foldl (releaseFrom resource) manager)
      constructor
      · intro kind query
        rw [show manager.releaseResources (resource :: rest) =
              releaseResources rest
                ([ResourceType.gpu, .cpu].foldl (releaseFrom resource) manager) from rfl,
          later.idle, first.idle, first.occupied]
        simp only [List.mem_cons, List.not_mem_nil, or_false]
        tauto
      · intro kind query
        rw [show manager.releaseResources (resource :: rest) =
              releaseResources rest
                ([ResourceType.gpu, .cpu].foldl (releaseFrom resource) manager) from rfl,
          later.occupied, first.occupied]
        simp only [List.mem_cons, List.not_mem_nil, or_false]
        tauto

/-! ## Slots filed under their own kind -/

/-- Every slot is filed under its own kind, once. -/
structure WellFiled (manager : ResourceManager) : Prop where
  idleKind :
    ∀ kind resource, resource ∈ manager.idleResources kind → resource.1 = kind
  occupiedKind :
    ∀ kind resource, resource ∈ manager.occupiedResources kind → resource.1 = kind
  disjoint :
    ∀ kind resource,
      resource ∈ manager.idleResources kind →
      resource ∉ manager.occupiedResources kind

/-- Two managers whose sets have the same elements. -/
structure SameSlots (before after : ResourceManager) : Prop where
  idle :
    ∀ kind resource,
      resource ∈ after.idleResources kind ↔ resource ∈ before.idleResources kind
  occupied :
    ∀ kind resource,
      resource ∈ after.occupiedResources kind ↔
        resource ∈ before.occupiedResources kind

/-- `after` is `before` with these idle resources, of any kinds, occupied. -/
structure Takes
    (resources : List Resource)
    (before after : ResourceManager) : Prop where
  wasIdle : ∀ resource ∈ resources, resource ∈ before.idleResources resource.1
  idle :
    ∀ kind resource,
      resource ∈ after.idleResources kind ↔
        resource ∈ before.idleResources kind ∧ resource ∉ resources
  occupied :
    ∀ kind resource,
      resource ∈ after.occupiedResources kind ↔
        resource ∈ before.occupiedResources kind ∨
          (kind = resource.1 ∧ resource ∈ resources)

/-- On well filed slots a request takes what it returns. -/
theorem takes_requestIdleResources
    {manager : ResourceManager}
    (filed : manager.WellFiled)
    (order : SetOrder Resource)
    (type : ResourceType)
    (num : Nat) :
    Takes (manager.requestIdleResources order type num).1 manager
      (manager.requestIdleResources order type num).2 := by
  obtain ⟨fromIdle, moved⟩ := requestIdleResources_spec order type num manager
  have kindOf
      (resource : Resource)
      (member : resource ∈ (manager.requestIdleResources order type num).1) :
      resource.1 = type :=
    filed.idleKind _ _ (fromIdle resource member)
  constructor
  · intro resource member
    rw [kindOf resource member]
    exact fromIdle resource member
  · intro kind resource
    rw [moved.idle]
    constructor
    · rintro ⟨idle, kept⟩
      refine ⟨idle, fun member => kept ⟨?_, member⟩⟩
      rw [← filed.idleKind _ _ idle]
      exact kindOf resource member
    · rintro ⟨idle, absent⟩
      exact ⟨idle, fun taken => absent taken.2⟩
  · intro kind resource
    rw [moved.occupied]
    apply or_congr_right
    constructor
    · rintro ⟨rfl, member⟩
      exact ⟨(kindOf resource member).symm, member⟩
    · rintro ⟨rfl, member⟩
      exact ⟨kindOf resource member, member⟩

namespace Takes

variable {first second : List Resource} {before middle after : ResourceManager}

theorem wellFiled
    (takes : Takes first before after)
    (filed : before.WellFiled) :
    after.WellFiled := by
  constructor
  · intro kind resource member
    exact filed.idleKind _ _ ((takes.idle _ _).mp member).1
  · intro kind resource member
    rcases (takes.occupied _ _).mp member with wasOccupied | ⟨same, _⟩
    · exact filed.occupiedKind _ _ wasOccupied
    · exact same.symm
  · intro kind resource member occupied
    obtain ⟨idle, absent⟩ := (takes.idle _ _).mp member
    rcases (takes.occupied _ _).mp occupied with wasOccupied | ⟨_, taken⟩
    · exact filed.disjoint _ _ idle wasOccupied
    · exact absent taken

theorem append
    (takesFirst : Takes first before middle)
    (takesSecond : Takes second middle after) :
    Takes (first ++ second) before after := by
  constructor
  · intro resource member
    rcases List.mem_append.mp member with inFirst | inSecond
    · exact takesFirst.wasIdle resource inFirst
    · exact ((takesFirst.idle _ _).mp (takesSecond.wasIdle resource inSecond)).1
  · intro kind resource
    rw [takesSecond.idle, takesFirst.idle, List.mem_append]
    tauto
  · intro kind resource
    rw [takesSecond.occupied, takesFirst.occupied, List.mem_append]
    tauto

theorem sameSlots
    (takes : Takes [] before after) :
    SameSlots before after := by
  constructor
  · intro kind resource
    simp [takes.idle]
  · intro kind resource
    simp [takes.occupied]

/-- Giving back what was just taken leaves the same slots idle. -/
theorem release
    (takes : Takes first before middle)
    (filed : before.WellFiled) :
    SameSlots before (middle.releaseResources first) := by
  have released := releases_releaseResources first middle
  have notOccupied
      (kind : ResourceType)
      (resource : Resource)
      (taken : resource ∈ first) :
      resource ∉ before.occupiedResources kind := by
    intro occupied
    have same := filed.occupiedKind _ _ occupied
    subst same
    exact filed.disjoint _ _ (takes.wasIdle resource taken) occupied
  constructor
  · intro kind resource
    rw [released.idle, takes.idle, takes.occupied]
    constructor
    · rintro (⟨idle, _⟩ | ⟨occupied | ⟨rfl, _⟩, taken⟩)
      · exact idle
      · exact absurd occupied (notOccupied kind resource taken)
      · exact takes.wasIdle resource taken
    · intro idle
      by_cases taken : resource ∈ first
      · exact .inr ⟨.inr ⟨(filed.idleKind _ _ idle).symm, taken⟩, taken⟩
      · exact .inl ⟨idle, taken⟩
  · intro kind resource
    rw [released.occupied, takes.occupied]
    constructor
    · rintro ⟨occupied | ⟨_, taken⟩, absent⟩
      · exact occupied
      · exact absurd taken absent
    · intro occupied
      exact ⟨.inl occupied, fun taken => notOccupied kind resource taken occupied⟩

end Takes

theorem Releases.wellFiled
    {resources : List Resource}
    {before after : ResourceManager}
    (releases : Releases resources before after)
    (filed : before.WellFiled) :
    after.WellFiled := by
  constructor
  · intro kind resource member
    rcases (releases.idle _ _).mp member with idle | ⟨occupied, _⟩
    · exact filed.idleKind _ _ idle
    · exact filed.occupiedKind _ _ occupied
  · intro kind resource member
    exact filed.occupiedKind _ _ ((releases.occupied _ _).mp member).1
  · intro kind resource member occupied
    obtain ⟨wasOccupied, absent⟩ := (releases.occupied _ _).mp occupied
    rcases (releases.idle _ _).mp member with idle | ⟨_, released⟩
    · exact filed.disjoint _ _ idle wasOccupied
    · exact absent released

theorem SameSlots.wellFiled
    {before after : ResourceManager}
    (same : SameSlots before after)
    (filed : before.WellFiled) :
    after.WellFiled := by
  constructor
  · intro kind resource member
    exact filed.idleKind _ _ ((same.idle _ _).mp member)
  · intro kind resource member
    exact filed.occupiedKind _ _ ((same.occupied _ _).mp member)
  · intro kind resource member occupied
    exact filed.disjoint _ _ ((same.idle _ _).mp member) ((same.occupied _ _).mp occupied)

theorem wellFiled_init (numCpu numGpu : Nat) : (init numCpu numGpu).WellFiled where
  idleKind _ _ := fst_of_mem_initialResources
  occupiedKind _ resource member := absurd member (PySet.not_mem_empty resource)
  disjoint _ resource _ := PySet.not_mem_empty resource

end ResourceManager

end TensorPC.Autossh
