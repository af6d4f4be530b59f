import TensorPC.Py.Dict
import Mathlib.Data.List.Dedup

namespace TensorPC.Flowui.Merging

/-!
# Merged UI events

Two UI events of one kind are merged before they are sent, and app events are added
up.  The frontend has a table of components with their props, and for each component
the last message and the last saved state.
-/

variable {Uid Name Value Message Event Remote : Type}

/-- `UIUpdateEvent`: the props to set and the props to unset. -/
structure UIUpdateEvent (Uid Name Value : Type) where
  uidToDataUndefined : Dict Uid (Dict Name Value × List Name)
  jsonOnly : Bool

structure UpdateComponentsEvent (Uid Name Value : Type) where
  data : Dict Uid (Dict Name Value)
  deleted : List Uid
  remoteComponentAllChilds : Option (List Uid)

structure ComponentEvent (Uid Message : Type) where
  uidToData : Dict Uid Message

structure UISaveStateEvent (Uid Message : Type) where
  uidToData : Dict Uid Message

section Merge

variable [DecidableEq Uid] [DecidableEq Name]

/-- `merge_new`. -/
def ComponentEvent.mergeNew
    (old new : ComponentEvent Uid Message) :
    ComponentEvent Uid Message :=
  ⟨new.uidToData.update old.uidToData.entries⟩

def UISaveStateEvent.mergeNew
    (old new : UISaveStateEvent Uid Message) :
    UISaveStateEvent Uid Message :=
  ⟨new.uidToData.update old.uidToData.entries⟩

/-- What `merge_new` stores for a component of the new event. -/
def UIUpdateEvent.mergedEntry
    (old : UIUpdateEvent Uid Name Value)
    (uid : Uid)
    (entry : Dict Name Value × List Name) :
    Dict Name Value × List Name :=
  match old.uidToDataUndefined.get? uid with
  | some own => (entry.1.update own.1.entries, entry.2 ++ own.2)
  | none => entry

def UIUpdateEvent.mergeNew
    (old new : UIUpdateEvent Uid Name Value) :
    UIUpdateEvent Uid Name Value where
  uidToDataUndefined :=
    old.uidToDataUndefined.update
      (new.uidToDataUndefined.mapWithKey old.mergedEntry).entries
  jsonOnly := false

/-- `list(set(..))` is a list without repetitions in some order. -/
def UpdateComponentsEvent.mergeNew
    (old new : UpdateComponentsEvent Uid Name Value) :
    UpdateComponentsEvent Uid Name Value where
  data := new.data.update old.data.entries
  deleted := (old.deleted ++ new.deleted).dedup
  remoteComponentAllChilds := old.remoteComponentAllChilds

end Merge

/-- Two events of the same kind, the older one first. -/
inductive EventPair (Uid Name Value Message : Type)
  | update (old new : UIUpdateEvent Uid Name Value)
  | components (old new : UpdateComponentsEvent Uid Name Value)
  | message (old new : ComponentEvent Uid Message)
  | saveState (old new : UISaveStateEvent Uid Message)

/-! ## App events -/

/-- `AppEvent`; the typed events have the numbers of their types, and an
`asyncio.Event` or a callback is an identity. -/
structure AppEvent (Event Remote : Type) where
  uid : String
  typeEventTuple : List (Nat × Event)
  sentEvent : Option Nat
  eventId : String
  isLoopback : Bool
  remotePrefixes : Option (List String)
  additionalEvents : List Remote
  afterSendCallback : Option Nat

namespace AppEvent

/-- `merge_new` and `__add__`. -/
def mergeNew
    (event new : AppEvent Event Remote) :
    PyResult (AppEvent Event Remote) := do
  pyAssert (event.sentEvent.isNone || new.sentEvent.isNone) "sent event of new must be None"
  return {
    uid := event.uid
    typeEventTuple := event.typeEventTuple ++ new.typeEventTuple
    sentEvent := event.sentEvent.or new.sentEvent
    eventId := ""
    isLoopback := false
    remotePrefixes := none
    additionalEvents := event.additionalEvents ++ new.additionalEvents
    afterSendCallback := none
  }

/-- `__iadd__`. -/
def iadd
    (event other : AppEvent Event Remote) :
    PyResult (AppEvent Event Remote) := do
  let ret ← event.mergeNew other
  return { event with
    typeEventTuple := ret.typeEventTuple
    sentEvent := ret.sentEvent
  }

/-- `typeToEvents` of `to_dict`, sorted by the numbers of the types. -/
def typeToEvents (event : AppEvent Event Remote) : List (Nat × Event) :=
  event.typeEventTuple.mergeSort fun first second => first.1 ≤ second.1

/-- `first + second + ..`. -/
def foldAdd
    (first : AppEvent Event Remote)
    (rest : List (AppEvent Event Remote)) :
    PyResult (AppEvent Event Remote) :=
  rest.foldlM mergeNew first

/-- `first += second` and so on. -/
def foldIadd
    (first : AppEvent Event Remote)
    (rest : List (AppEvent Event Remote)) :
    PyResult (AppEvent Event Remote) :=
  rest.foldlM iadd first

end AppEvent

/-! ## The frontend -/

section Applied

variable [DecidableEq Uid] [DecidableEq Name]

structure Frontend (Uid Name Value Message : Type) where
  table : Uid → Option (Name → Option Value)
  messages : Uid → Option Message
  saved : Uid → Option Message

/-- The given props are set and then the listed ones unset. -/
def setProps
    (given : Dict Name Value)
    (unset : List Name)
    (props : Name → Option Value) :
    Name → Option Value :=
  fun name => if name ∈ unset then none else (given.get? name).or (props name)

def UIUpdateEvent.apply
    (event : UIUpdateEvent Uid Name Value)
    (frontend : Frontend Uid Name Value Message) :
    Frontend Uid Name Value Message :=
  { frontend with
    table := fun uid =>
      match event.uidToDataUndefined.get? uid with
      | some (given, unset) => (frontend.table uid).map (setProps given unset)
      | none => frontend.table uid }

/-- The listed components are deleted and then the new ones added. -/
def UpdateComponentsEvent.apply
    (event : UpdateComponentsEvent Uid Name Value)
    (frontend : Frontend Uid Name Value Message) :
    Frontend Uid Name Value Message :=
  { frontend with
    table := fun uid =>
      match event.data.get? uid with
      | some component => some component.get?
      | none => if uid ∈ event.deleted then none else frontend.table uid }

def ComponentEvent.apply
    (event : ComponentEvent Uid Message)
    (frontend : Frontend Uid Name Value Message) :
    Frontend Uid Name Value Message :=
  { frontend with messages := fun uid => (event.uidToData.get? uid).or (frontend.messages uid) }

def UISaveStateEvent.apply
    (event : UISaveStateEvent Uid Message)
    (frontend : Frontend Uid Name Value Message) :
    Frontend Uid Name Value Message :=
  { frontend with saved := fun uid => (event.uidToData.get? uid).or (frontend.saved uid) }

/-- Applying the merged event is applying one after the other; a JSON-only mark and a
list of remote children survive. -/
def EventPair.MergesRight : EventPair Uid Name Value Message → Prop
  | .update old new =>
      (∀ frontend : Frontend Uid Name Value Message,
        (old.mergeNew new).apply frontend = new.apply (old.apply frontend)) ∧
      ((old.jsonOnly || new.jsonOnly) = true → (old.mergeNew new).jsonOnly = true)
  | .components old new =>
      (∀ frontend : Frontend Uid Name Value Message,
        (old.mergeNew new).apply frontend = new.apply (old.apply frontend)) ∧
      (old.mergeNew new).remoteComponentAllChilds =
        new.remoteComponentAllChilds.or old.remoteComponentAllChilds
  | .message old new =>
      ∀ frontend : Frontend Uid Name Value Message,
        (old.mergeNew new).apply frontend = new.apply (old.apply frontend)
  | .saveState old new =>
      ∀ frontend : Frontend Uid Name Value Message,
        (old.mergeNew new).apply frontend = new.apply (old.apply frontend)

end Applied

/-- The typed events of a type. -/
def eventsOf
    (type : Nat)
    (tuples : List (Nat × Event)) :
    List (Nat × Event) :=
  tuples.filter fun tuple => tuple.1 = type

/-- Both folds give one event, with all that the events carry. -/
def FoldsRight
    (first : AppEvent Event Remote)
    (rest : List (AppEvent Event Remote)) :
    Prop :=
  ∃ event, first.foldAdd rest = .ok event ∧ first.foldIadd rest = .ok event ∧
    (∀ type, eventsOf type event.typeToEvents =
      (first :: rest).flatMap fun part => eventsOf type part.typeEventTuple) ∧
    event.additionalEvents = (first :: rest).flatMap AppEvent.additionalEvents ∧
    ∀ part ∈ first :: rest, ∀ sent ∈ part.sentEvent, event.sentEvent = some sent

/-! ## When it holds -/

section Conditions

variable [DecidableEq Uid] [DecidableEq Name]

/-- Neither event is JSON-only, and a prop that the new event sets and does not unset is
neither unset nor set to another value by the old one. -/
structure UIUpdateEvent.Fits
    (old new : UIUpdateEvent Uid Name Value) :
    Prop where
  notJsonOnly : old.jsonOnly = false ∧ new.jsonOnly = false
  props :
    ∀ uid own entry,
      old.uidToDataUndefined.get? uid = some own →
      new.uidToDataUndefined.get? uid = some entry →
      ∀ name value, entry.1.get? name = some value → name ∉ entry.2 →
        name ∉ own.2 ∧ ∀ other, own.1.get? name = some other → other = value

/-- The new event neither deletes nor changes a component that the old one adds, and
brings no other list of remote children. -/
structure UpdateComponentsEvent.Fits
    (old new : UpdateComponentsEvent Uid Name Value) :
    Prop where
  components :
    ∀ uid component, old.data.get? uid = some component →
      (∀ other, new.data.get? uid = some other → other.get? = component.get?) ∧
      (new.data.get? uid = none → uid ∉ new.deleted)
  children :
    new.remoteComponentAllChilds = none ∨
      new.remoteComponentAllChilds = old.remoteComponentAllChilds

/-- Both tables have the same data for their common components. -/
def Agree
    (old new : Dict Uid Message) :
    Prop :=
  ∀ uid data data', old.get? uid = some data → new.get? uid = some data' → data = data'

def EventPair.Fits : EventPair Uid Name Value Message → Prop
  | .update old new => old.Fits new
  | .components old new => old.Fits new
  | .message old new => Agree old.uidToData new.uidToData
  | .saveState old new => Agree old.uidToData new.uidToData

end Conditions

/-- At most one event has a sent event; if there are several events, the first has none of
the fields that only `+=` keeps, and the others have no additional events. -/
structure FoldFits
    (first : AppEvent Event Remote)
    (rest : List (AppEvent Event Remote)) :
    Prop where
  oneSent :
    (first :: rest).Pairwise fun earlier later =>
      earlier.sentEvent = none ∨ later.sentEvent = none
  plain :
    rest ≠ [] →
      first.eventId = "" ∧ first.isLoopback = false ∧ first.remotePrefixes = none ∧
        first.afterSendCallback = none
  additional : ∀ part ∈ rest, part.additionalEvents = []

/-! ## Merging two events -/

section Pairs

variable [DecidableEq Uid] [DecidableEq Name]

theorem UIUpdateEvent.get?_mergeNew
    (old new : UIUpdateEvent Uid Name Value)
    (uid : Uid) :
    (old.mergeNew new).uidToDataUndefined.get? uid =
      ((new.uidToDataUndefined.get? uid).map (old.mergedEntry uid)).or
        (old.uidToDataUndefined.get? uid) := by
  rw [mergeNew, Dict.get?_update, Dict.get?_mapWithKey]

/-- One entry instead of two. -/
theorem setProps_merged_iff
    (own entry : Dict Name Value × List Name) :
    (∀ props,
      setProps (entry.1.update own.1.entries) (entry.2 ++ own.2) props =
        setProps entry.1 entry.2 (setProps own.1 own.2 props)) ↔
      ∀ name value, entry.1.get? name = some value → name ∉ entry.2 →
        name ∉ own.2 ∧ ∀ other, own.1.get? name = some other → other = value := by
  constructor
  · intro same name value found notUnset
    have here := congrFun (same fun _ => none) name
    simp only [setProps, List.mem_append, notUnset, false_or, if_false, Dict.get?_update, found,
      Option.some_or, Option.or_some] at here
    by_cases unset : name ∈ own.2
    · rw [if_pos unset] at here
      cases here
    · rw [if_neg unset] at here
      refine ⟨unset, ?_⟩
      intro other set
      rw [set] at here
      exact Option.some.inj here
  · intro fits props
    funext name
    simp only [setProps, List.mem_append, Dict.get?_update]
    by_cases unset : name ∈ entry.2
    · simp only [unset, true_or, if_true]
    · simp only [unset, false_or, if_false]
      cases found : entry.1.get? name with
      | none =>
          by_cases unsetOwn : name ∈ own.2
          · simp only [unsetOwn, if_true, Option.none_or]
          · simp only [unsetOwn, if_false, Option.or_none, Option.none_or]
      | some value =>
          obtain ⟨notOwn, same⟩ := fits name value found unset
          rw [if_neg notOwn]
          cases set : own.1.get? name with
          | none => rfl
          | some other =>
              rw [same other set]
              rfl

/-- What one event does to the table where both events name a component. -/
theorem UIUpdateEvent.apply_mergeNew
    {old new : UIUpdateEvent Uid Name Value}
    {uid : Uid}
    {own entry : Dict Name Value × List Name}
    (inOld : old.uidToDataUndefined.get? uid = some own)
    (inNew : new.uidToDataUndefined.get? uid = some entry)
    (frontend : Frontend Uid Name Value Message) :
    ((old.mergeNew new).apply frontend).table uid =
        (frontend.table uid).map
          (setProps (entry.1.update own.1.entries) (entry.2 ++ own.2)) ∧
      (new.apply (old.apply frontend)).table uid =
        (frontend.table uid).map fun props =>
          setProps entry.1 entry.2 (setProps own.1 own.2 props) := by
  constructor
  · simp only [apply, get?_mergeNew, inNew, Option.map_some, Option.some_or, mergedEntry, inOld]
  · simp only [apply, inNew, inOld, Option.map_map]
    rfl

theorem update_mergesRight_iff
    (old new : UIUpdateEvent Uid Name Value) :
    (EventPair.update old new : EventPair Uid Name Value Message).MergesRight ↔
      old.Fits new := by
  constructor
  · rintro ⟨same, mark⟩
    refine ⟨?_, ?_⟩
    · have unmarked : ¬(old.jsonOnly || new.jsonOnly) = true := fun marked => by
        cases mark marked
      simpa using unmarked
    · intro uid own entry inOld inNew
      rw [← setProps_merged_iff own entry]
      intro props
      have tables := congrArg (fun frontend => frontend.table uid)
        (same ⟨fun _ => some props, fun _ => none, fun _ => none⟩)
      obtain ⟨merged, sequential⟩ := UIUpdateEvent.apply_mergeNew inOld inNew
        (⟨fun _ => some props, fun _ => none, fun _ => none⟩ :
          Frontend Uid Name Value Message)
      exact Option.some.inj (merged.symm.trans (tables.trans sequential))
  · intro fits
    refine ⟨?_, ?_⟩
    · intro frontend
      refine congrArg (fun table => { frontend with table := table }) ?_
      funext uid
      change ((old.mergeNew new).apply frontend).table uid =
        (new.apply (old.apply frontend)).table uid
      cases inNew : new.uidToDataUndefined.get? uid with
      | none =>
          simp only [UIUpdateEvent.apply, UIUpdateEvent.get?_mergeNew, inNew, Option.map_none,
            Option.none_or]
      | some entry =>
          cases inOld : old.uidToDataUndefined.get? uid with
          | none =>
              simp only [UIUpdateEvent.apply, UIUpdateEvent.get?_mergeNew, inNew, inOld,
                UIUpdateEvent.mergedEntry, Option.map_some, Option.some_or]
          | some own =>
              obtain ⟨merged, sequential⟩ :=
                UIUpdateEvent.apply_mergeNew inOld inNew frontend
              have props := (setProps_merged_iff own entry).mpr
                (fits.props uid own entry inOld inNew)
              rw [merged, sequential]
              exact congrArg (fun change => (frontend.table uid).map change) (funext props)
    · intro marked
      rw [fits.notJsonOnly.1, fits.notJsonOnly.2] at marked
      cases marked

theorem components_mergesRight_iff
    (old new : UpdateComponentsEvent Uid Name Value) :
    (EventPair.components old new : EventPair Uid Name Value Message).MergesRight ↔
      old.Fits new := by
  have children :
      (old.mergeNew new).remoteComponentAllChilds =
          new.remoteComponentAllChilds.or old.remoteComponentAllChilds ↔
        new.remoteComponentAllChilds = none ∨
          new.remoteComponentAllChilds = old.remoteComponentAllChilds := by
    rw [UpdateComponentsEvent.mergeNew]
    cases new.remoteComponentAllChilds with
    | none => simp
    | some childs => simp [eq_comm]
  have tables :
      ∀ (frontend : Frontend Uid Name Value Message) uid,
        ((old.mergeNew new).apply frontend).table uid =
            (new.apply (old.apply frontend)).table uid ↔
          ∀ component, old.data.get? uid = some component →
            (∀ other, new.data.get? uid = some other → other.get? = component.get?) ∧
              (new.data.get? uid = none → uid ∉ new.deleted) := by
    intro frontend uid
    simp only [UpdateComponentsEvent.apply, UpdateComponentsEvent.mergeNew, Dict.get?_update,
      List.mem_dedup, List.mem_append]
    cases inOld : old.data.get? uid with
    | none =>
        cases inNew : new.data.get? uid with
        | none =>
            by_cases deleted : uid ∈ new.deleted
            · simp [deleted]
            · simp [deleted]
        | some other => simp
    | some component =>
        cases inNew : new.data.get? uid with
        | none =>
            by_cases deleted : uid ∈ new.deleted
            · simp [deleted]
            · simp [deleted]
        | some other => simp [eq_comm]
  constructor
  · rintro ⟨same, kept⟩
    refine ⟨?_, children.mp kept⟩
    intro uid
    have empty := same ⟨fun _ => none, fun _ => none, fun _ => none⟩
    exact (tables _ uid).mp (congrArg (fun frontend => frontend.table uid) empty)
  · intro fits
    refine ⟨?_, children.mpr fits.children⟩
    intro frontend
    refine congrArg (fun table => { frontend with table := table }) ?_
    funext uid
    exact (tables frontend uid).mpr (fits.components uid)

/-- The older data win when two tables are merged. -/
theorem or_mergedTables_iff
    (old new : Dict Uid Message) :
    (∀ (stored : Uid → Option Message) uid,
      ((new.update old.entries).get? uid).or (stored uid) =
        (new.get? uid).or ((old.get? uid).or (stored uid))) ↔
      Agree old new := by
  constructor
  · intro same uid data data' inOld inNew
    have here := same (fun _ => none) uid
    rw [Dict.get?_update, inOld, inNew] at here
    exact Option.some.inj here
  · intro agree stored uid
    rw [Dict.get?_update]
    cases inOld : old.get? uid with
    | none =>
        cases new.get? uid <;> rfl
    | some data =>
        cases inNew : new.get? uid with
        | none => rfl
        | some data' =>
            rw [agree uid data data' inOld inNew]
            rfl

theorem mergesRight_iff_fits
    (pair : EventPair Uid Name Value Message) :
    pair.MergesRight ↔ pair.Fits := by
  cases pair with
  | update old new => exact update_mergesRight_iff old new
  | components old new => exact components_mergesRight_iff old new
  | message old new =>
      refine Iff.trans ?_ (or_mergedTables_iff old.uidToData new.uidToData)
      constructor
      · intro same stored uid
        exact congrArg (fun frontend => frontend.messages uid)
          (same (⟨fun _ => none, stored, fun _ => none⟩ : Frontend Uid Name Value Message))
      · intro same frontend
        exact congrArg (fun messages => { frontend with messages := messages })
          (funext (same frontend.messages))
  | saveState old new =>
      refine Iff.trans ?_ (or_mergedTables_iff old.uidToData new.uidToData)
      constructor
      · intro same stored uid
        exact congrArg (fun frontend => frontend.saved uid)
          (same (⟨fun _ => none, fun _ => none, stored⟩ : Frontend Uid Name Value Message))
      · intro same frontend
        exact congrArg (fun saved => { frontend with saved := saved })
          (funext (same frontend.saved))

end Pairs

/-! ## Folding app events -/

namespace AppEvent

variable {first event : AppEvent Event Remote} {rest : List (AppEvent Event Remote)}

theorem mergeNew_eq_ok_iff
    {new result : AppEvent Event Remote} :
    event.mergeNew new = .ok result ↔
      (event.sentEvent = none ∨ new.sentEvent = none) ∧
        result = ⟨event.uid, event.typeEventTuple ++ new.typeEventTuple,
          event.sentEvent.or new.sentEvent, "", false, none,
          event.additionalEvents ++ new.additionalEvents, none⟩ := by
  rw [mergeNew]
  cases event.sentEvent with
  | none =>
      simp [pyAssert, bind, Except.bind, pure, Except.pure, eq_comm]
  | some sent =>
      cases new.sentEvent with
      | none => simp [pyAssert, bind, Except.bind, pure, Except.pure, eq_comm]
      | some sent' => simp [pyAssert, bind, Except.bind]

theorem iadd_eq_ok_iff
    {other result : AppEvent Event Remote} :
    event.iadd other = .ok result ↔
      (event.sentEvent = none ∨ other.sentEvent = none) ∧
        result = { event with
          typeEventTuple := event.typeEventTuple ++ other.typeEventTuple
          sentEvent := event.sentEvent.or other.sentEvent } := by
  rw [iadd, PyResult.bind_eq_ok]
  constructor
  · rintro ⟨merged, isMerged, same⟩
    obtain ⟨one, rfl⟩ := mergeNew_eq_ok_iff.mp isMerged
    exact ⟨one, (Except.ok.inj same).symm⟩
  · rintro ⟨one, rfl⟩
    exact ⟨_, mergeNew_eq_ok_iff.mpr ⟨one, rfl⟩, rfl⟩

def OneSent (events : List (AppEvent Event Remote)) : Prop :=
  events.Pairwise fun earlier later => earlier.sentEvent = none ∨ later.sentEvent = none

/-- An event that stands for its first two has at most one sent event with the others
if they have. -/
theorem oneSent_cons_cons_iff
    {second merged : AppEvent Event Remote}
    (sent : merged.sentEvent = first.sentEvent.or second.sentEvent) :
    OneSent (first :: second :: rest) ↔
      (first.sentEvent = none ∨ second.sentEvent = none) ∧ OneSent (merged :: rest) := by
  have merges :
      merged.sentEvent = none ↔ first.sentEvent = none ∧ second.sentEvent = none := by
    rw [sent, Option.or_eq_none_iff]
  simp only [OneSent, List.pairwise_cons, List.forall_mem_cons, merges]
  constructor
  · rintro ⟨⟨one, firstRest⟩, secondRest, others⟩
    refine ⟨one, ?_, others⟩
    intro later listed
    rcases firstRest later listed with absent | absent
    · rcases secondRest later listed with absent' | absent'
      · exact .inl ⟨absent, absent'⟩
      · exact .inr absent'
    · exact .inr absent
  · rintro ⟨one, mergedRest, others⟩
    refine ⟨⟨one, ?_⟩, ?_, others⟩
    · exact fun later listed => (mergedRest later listed).imp_left And.left
    · exact fun later listed => (mergedRest later listed).imp_left And.right

/-- The event that `+` makes of several events. -/
def sum
    (first : AppEvent Event Remote) :
    List (AppEvent Event Remote) → AppEvent Event Remote
  | [] => first
  | second :: rest =>
      ⟨first.uid, (first :: second :: rest).flatMap typeEventTuple,
        (first :: second :: rest).findSome? sentEvent, "", false, none,
        (first :: second :: rest).flatMap additionalEvents, none⟩

theorem foldAdd_eq_ok_iff
    {result : AppEvent Event Remote} :
    first.foldAdd rest = .ok result ↔ OneSent (first :: rest) ∧ result = first.sum rest := by
  induction rest generalizing first with
  | nil =>
      rw [foldAdd, List.foldlM_nil]
      constructor
      · intro same
        exact ⟨List.pairwise_singleton _ _, (Except.ok.inj same).symm⟩
      · rintro ⟨-, rfl⟩
        rfl
  | cons second rest inductionHypothesis =>
      rw [foldAdd, List.foldlM_cons, PyResult.bind_eq_ok]
      have sums :
          ∀ merged : AppEvent Event Remote,
            merged = ⟨first.uid, first.typeEventTuple ++ second.typeEventTuple,
              first.sentEvent.or second.sentEvent, "", false, none,
              first.additionalEvents ++ second.additionalEvents, none⟩ →
            merged.sum rest = first.sum (second :: rest) := by
        rintro merged rfl
        cases rest with
        | nil =>
            simp only [sum, List.flatMap_cons, List.flatMap_nil, List.append_nil,
              List.findSome?_cons, List.findSome?_nil]
            cases first.sentEvent <;> cases second.sentEvent <;> rfl
        | cons third rest =>
            simp only [sum, List.flatMap_cons, List.append_assoc, List.findSome?_cons]
            cases first.sentEvent <;> cases second.sentEvent <;> rfl
      constructor
      · rintro ⟨merged, isMerged, folded⟩
        obtain ⟨one, shape⟩ := mergeNew_eq_ok_iff.mp isMerged
        obtain ⟨oneRest, rfl⟩ := inductionHypothesis.mp folded
        exact ⟨(oneSent_cons_cons_iff (by rw [shape])).mpr ⟨one, oneRest⟩, sums merged shape⟩
      · rintro ⟨one, rfl⟩
        obtain ⟨merged, shape⟩ :
            ∃ merged : AppEvent Event Remote,
              merged = ⟨first.uid, first.typeEventTuple ++ second.typeEventTuple,
                first.sentEvent.or second.sentEvent, "", false, none,
                first.additionalEvents ++ second.additionalEvents, none⟩ :=
          ⟨_, rfl⟩
        have sent : merged.sentEvent = first.sentEvent.or second.sentEvent := by
          rw [shape]
        obtain ⟨oneHere, oneRest⟩ := (oneSent_cons_cons_iff sent).mp one
        exact ⟨merged, mergeNew_eq_ok_iff.mpr ⟨oneHere, shape⟩,
          inductionHypothesis.mpr ⟨oneRest, (sums merged shape).symm⟩⟩

/-- The first event after `+=` with the others. -/
def extended
    (first : AppEvent Event Remote)
    (rest : List (AppEvent Event Remote)) :
    AppEvent Event Remote :=
  { first with
    typeEventTuple := (first :: rest).flatMap typeEventTuple
    sentEvent := (first :: rest).findSome? sentEvent }

theorem extended_nil (first : AppEvent Event Remote) :
    first.extended [] = first := by
  simp only [extended, List.flatMap_cons, List.flatMap_nil, List.append_nil,
    List.findSome?_cons, List.findSome?_nil]
  obtain ⟨_, _, sent, _, _, _, _, _⟩ := first
  cases sent <;> rfl

theorem foldIadd_eq_ok_iff
    {result : AppEvent Event Remote} :
    first.foldIadd rest = .ok result ↔
      OneSent (first :: rest) ∧ result = first.extended rest := by
  induction rest generalizing first with
  | nil =>
      rw [foldIadd, List.foldlM_nil, extended_nil]
      constructor
      · intro same
        exact ⟨List.pairwise_singleton _ _, (Except.ok.inj same).symm⟩
      · rintro ⟨-, rfl⟩
        rfl
  | cons second rest inductionHypothesis =>
      rw [foldIadd, List.foldlM_cons, PyResult.bind_eq_ok]
      have extension :
          ∀ merged : AppEvent Event Remote,
            merged = { first with
              typeEventTuple := first.typeEventTuple ++ second.typeEventTuple
              sentEvent := first.sentEvent.or second.sentEvent } →
            merged.extended rest = first.extended (second :: rest) := by
        rintro merged rfl
        simp only [extended, List.flatMap_cons, List.append_assoc, List.findSome?_cons]
        cases first.sentEvent <;> cases second.sentEvent <;> rfl
      constructor
      · rintro ⟨merged, isMerged, folded⟩
        obtain ⟨one, shape⟩ := iadd_eq_ok_iff.mp isMerged
        obtain ⟨oneRest, rfl⟩ := inductionHypothesis.mp folded
        exact ⟨(oneSent_cons_cons_iff (by rw [shape])).mpr ⟨one, oneRest⟩,
          extension merged shape⟩
      · rintro ⟨one, rfl⟩
        obtain ⟨merged, shape⟩ :
            ∃ merged : AppEvent Event Remote,
              merged = { first with
                typeEventTuple := first.typeEventTuple ++ second.typeEventTuple
                sentEvent := first.sentEvent.or second.sentEvent } :=
          ⟨_, rfl⟩
        have sent : merged.sentEvent = first.sentEvent.or second.sentEvent := by
          rw [shape]
        obtain ⟨oneHere, oneRest⟩ := (oneSent_cons_cons_iff sent).mp one
        exact ⟨merged, iadd_eq_ok_iff.mpr ⟨oneHere, shape⟩,
          inductionHypothesis.mpr ⟨oneRest, (extension merged shape).symm⟩⟩

/-- The one sent event is found. -/
theorem findSome?_sentEvent
    {events : List (AppEvent Event Remote)}
    (one : OneSent events)
    {sent : Nat}
    (listed : event ∈ events)
    (isSent : event.sentEvent = some sent) :
    events.findSome? sentEvent = some sent := by
  induction events with
  | nil =>
      cases listed
  | cons head events inductionHypothesis =>
      obtain ⟨headRest, others⟩ := List.pairwise_cons.mp one
      rw [List.findSome?_cons]
      rcases List.mem_cons.mp listed with rfl | later
      · rw [isSent]
      · rcases headRest event later with absent | absent
        · rw [absent]
          exact inductionHypothesis others later
        · rw [absent] at isSent
          cases isSent

end AppEvent

/-- Sorting by type keeps the events of one type in order. -/
theorem eventsOf_mergeSort
    (type : Nat)
    (tuples : List (Nat × Event)) :
    eventsOf type (tuples.mergeSort fun first second => first.1 ≤ second.1) =
      eventsOf type tuples := by
  have ordered :
      (eventsOf type tuples).Pairwise fun first second => decide (first.1 ≤ second.1) = true := by
    apply List.Pairwise.imp_of_mem _ (List.pairwise_of_forall fun _ _ => trivial)
    intro first second inFirst inSecond _
    have here := (List.mem_filter.mp inFirst).2
    have there := (List.mem_filter.mp inSecond).2
    simp only [decide_eq_true_eq] at here there ⊢
    omega
  have kept :
      List.Sublist (eventsOf type tuples)
        (tuples.mergeSort fun first second => first.1 ≤ second.1) := by
    apply List.sublist_mergeSort _ _ ordered List.filter_sublist
    · intro a b c ab bc
      simp only [decide_eq_true_eq] at ab bc ⊢
      omega
    · intro a b
      simp only [Bool.or_eq_true, decide_eq_true_eq]
      omega
  have same :
      eventsOf type (eventsOf type tuples) = eventsOf type tuples := by
    simp [eventsOf, List.filter_filter]
  have filtered : List.Sublist (eventsOf type tuples)
      (eventsOf type (tuples.mergeSort fun first second => first.1 ≤ second.1)) := by
    rw [← same]
    exact kept.filter _
  refine (filtered.eq_of_length ?_).symm
  exact ((List.mergeSort_perm tuples _).filter _).length_eq.symm

/-- The folds are right exactly if the events fit. -/
theorem foldsRight_iff_fits
    (first : AppEvent Event Remote)
    (rest : List (AppEvent Event Remote)) :
    FoldsRight first rest ↔ FoldFits first rest := by
  have typed :
      ∀ type, eventsOf type (first.extended rest).typeToEvents =
        (first :: rest).flatMap fun part => eventsOf type part.typeEventTuple := by
    intro type
    rw [AppEvent.typeToEvents, eventsOf_mergeSort, AppEvent.extended, eventsOf,
      List.filter_flatMap]
    rfl
  have added :
      (first.extended rest).additionalEvents =
          (first :: rest).flatMap AppEvent.additionalEvents ↔
        ∀ part ∈ rest, part.additionalEvents = [] := by
    rw [List.flatMap_cons]
    change first.additionalEvents = first.additionalEvents ++ _ ↔ _
    rw [List.self_eq_append_right, List.flatMap_eq_nil_iff]
  have sums :
      first.sum rest = first.extended rest ↔
        (rest ≠ [] →
          first.eventId = "" ∧ first.isLoopback = false ∧ first.remotePrefixes = none ∧
            first.afterSendCallback = none) ∧
          ∀ part ∈ rest, part.additionalEvents = [] := by
    cases rest with
    | nil =>
        refine iff_of_true ?_ ⟨nofun, nofun⟩
        exact first.extended_nil.symm
    | cons second rest =>
        obtain ⟨uid, tuples, sent, eventId, isLoopback, prefixes, additional, callback⟩ := first
        rw [← added]
        simp only [AppEvent.sum, AppEvent.extended, AppEvent.mk.injEq, true_and, ne_eq,
          reduceCtorEq, not_false_eq_true, true_implies]
        constructor
        · rintro ⟨isEmpty, notLoopback, noPrefixes, same, noCallback⟩
          exact ⟨⟨isEmpty.symm, notLoopback.symm, noPrefixes.symm, noCallback.symm⟩, same.symm⟩
        · rintro ⟨⟨isEmpty, notLoopback, noPrefixes, noCallback⟩, same⟩
          exact ⟨isEmpty.symm, notLoopback.symm, noPrefixes.symm, same.symm, noCallback.symm⟩
  constructor
  · rintro ⟨event, plus, extend, -, additional, -⟩
    obtain ⟨one, rfl⟩ := AppEvent.foldAdd_eq_ok_iff.mp plus
    obtain ⟨-, same⟩ := AppEvent.foldIadd_eq_ok_iff.mp extend
    obtain ⟨plain, none⟩ := sums.mp same
    exact ⟨one, plain, none⟩
  · intro fits
    have same := sums.mpr ⟨fits.plain, fits.additional⟩
    refine ⟨first.extended rest, AppEvent.foldAdd_eq_ok_iff.mpr ⟨fits.oneSent, same.symm⟩,
      AppEvent.foldIadd_eq_ok_iff.mpr ⟨fits.oneSent, rfl⟩, typed,
      added.mpr fits.additional, ?_⟩
    intro part listed sent isSent
    exact AppEvent.findSome?_sentEvent fits.oneSent listed isSent

/-- Two values of one prop of a button. -/
def twoLabels : EventPair String String String String :=
  .update ⟨⟨[("button", ⟨[("label", "old")], by decide⟩, [])], by decide⟩, false⟩
    ⟨⟨[("button", ⟨[("label", "new")], by decide⟩, [])], by decide⟩, false⟩

end TensorPC.Flowui.Merging
