import TensorPC.Flowui.RemoteIds
import TensorPC.Py.Dict

namespace TensorPC.Flowui

/-!
# Events and layouts of remote apps

The mounting component puts its prefix in front of every id in what the remote
app sends, and takes it off again from the events of the frontend.
-/

open UniqueTreeId

/-- A value inside an event or a layout, over its component ids.  `special` is
`JsonSpecialData`, which marks data as JSON-only or frozen. -/
inductive Data (Ref : Type) where
  | scalar (text : Text)
  | uid (id : Ref)
  | list (items : List (Data Ref))
  | tuple (items : List (Data Ref))
  | mapping (items : List (Text × Data Ref))
  | special (flag : Nat) (data : Data Ref)

mutual

/-- The same data with other ids. -/
def Data.mapIds
    (change : Ref → Ref') :
    Data Ref → Data Ref'
  | .scalar text => .scalar text
  | .uid id => .uid (change id)
  | .list items => .list (Data.mapIdsAll change items)
  | .tuple items => .tuple (Data.mapIdsAll change items)
  | .mapping items => .mapping (Data.mapIdsItems change items)
  | .special flag data => .special flag (data.mapIds change)

def Data.mapIdsAll
    (change : Ref → Ref') :
    List (Data Ref) → List (Data Ref')
  | [] => []
  | data :: rest => data.mapIds change :: Data.mapIdsAll change rest

def Data.mapIdsItems
    (change : Ref → Ref') :
    List (Text × Data Ref) → List (Text × Data Ref')
  | [] => []
  | (key, data) :: rest => (key, data.mapIds change) :: Data.mapIdsItems change rest

end

mutual

/-- The ids in data. -/
def Data.ids : Data Ref → List Ref
  | .scalar _ => []
  | .uid id => [id]
  | .list items => Data.idsAll items
  | .tuple items => Data.idsAll items
  | .mapping items => Data.idsItems items
  | .special _ data => data.ids

def Data.idsAll : List (Data Ref) → List Ref
  | [] => []
  | data :: rest => data.ids ++ Data.idsAll rest

def Data.idsItems : List (Text × Data Ref) → List Ref
  | [] => []
  | (_, data) :: rest => data.ids ++ Data.idsItems rest

end

/-- One id of `patch_unique_id`; `parts` are those of the id. -/
def patchId
    (prefixes parts : List Text) :
    PyResult UniqueTreeId := do
  let data ← (idOfParts parts).copy
  return data.setPartsInplace (prefixes ++ data.parts) defaultSplitter

mutual

/-- `patch_unique_id`. -/
def patchUniqueId
    (prefixes : List Text) :
    Data (List Text) → PyResult (Data UniqueTreeId)
  | .uid parts => do
      let id ← patchId prefixes parts
      return .uid id
  | .list items => do
      let newData ← patchUniqueIdAll prefixes items
      return .list newData
  | .tuple items => do
      let newData ← patchUniqueIdAll prefixes items
      return .tuple newData
  | .mapping items => do
      let newData ← patchUniqueIdItems prefixes items
      return .mapping newData
  | .scalar text => .ok (.scalar text)
  | .special flag data => .ok (.special flag (data.mapIds idOfParts))

def patchUniqueIdAll
    (prefixes : List Text) :
    List (Data (List Text)) → PyResult (List (Data UniqueTreeId))
  | [] => .ok []
  | data :: rest => do
      let patched ← patchUniqueId prefixes data
      let others ← patchUniqueIdAll prefixes rest
      return patched :: others

def patchUniqueIdItems
    (prefixes : List Text) :
    List (Text × Data (List Text)) → PyResult (List (Text × Data UniqueTreeId))
  | [] => .ok []
  | (key, data) :: rest => do
      let patched ← patchUniqueId prefixes data
      let others ← patchUniqueIdItems prefixes rest
      return (key, patched) :: others

end

/-! ## Events -/

/-- The data of an app event, over the keys and the ids in it.  The remote app
sets the list of all children.  The types that `AppEvent.patch_keys_prefix_inplace`
leaves out are one constructor, with the number of the type. -/
inductive AppEventData (Key Ref : Type) where
  | updateComponents (data : List (Key × Data Ref)) (deleted : List Key)
      (remoteComponentAllChilds : List Key)
  | uiUpdate (baseProps : Bool) (uidToDataUndefined : List (Key × Data Ref)) (jsonOnly : Bool)
  | updateUsedEvents (uidToData : List (Key × Data Ref))
  | componentEvent (uidToData : List (Key × Data Ref))
  | other (type : Nat) (data : Data Ref)

namespace AppEventData

/-- The value of its `AppEventType`. -/
def type : AppEventData Key Ref → Nat
  | updateComponents _ _ _ => 1
  | uiUpdate baseProps _ _ => if baseProps then 14 else 11
  | updateUsedEvents _ => 17
  | componentEvent _ => 300
  | other type _ => type

/-- The table of a keyed event. -/
def table : AppEventData Key Ref → List (Key × Data Ref)
  | updateComponents data _ _ => data
  | uiUpdate _ data _ => data
  | updateUsedEvents data => data
  | componentEvent data => data
  | other _ _ => []

/-- The same event with other keys and data. -/
def map
    (changeKey : Key → Key')
    (change : Data Ref → Data Ref') :
    AppEventData Key Ref → AppEventData Key' Ref'
  | updateComponents data deleted all =>
      updateComponents (data.map fun entry => (changeKey entry.1, change entry.2))
        (deleted.map changeKey) (all.map changeKey)
  | uiUpdate baseProps data jsonOnly =>
      uiUpdate baseProps (data.map fun entry => (changeKey entry.1, change entry.2)) jsonOnly
  | updateUsedEvents data =>
      updateUsedEvents (data.map fun entry => (changeKey entry.1, change entry.2))
  | componentEvent data =>
      componentEvent (data.map fun entry => (changeKey entry.1, change entry.2))
  | other type data => other type (change data)

end AppEventData

/-- `patch_uid_keys_with_prefix`, on the entries of a dictionary keyed by ids. -/
def patchUidKeysWithPrefix
    (prefixes : List Text)
    (data : List (List Text × V)) :
    PyResult (List (Text × V)) :=
  data.foldlM (fun newData entry => do
    let newUid ← patchUid prefixes (uidText entry.1)
    return Dict.setEntries newUid entry.2 newData) []

/-- `patch_uid_list_with_prefix`. -/
def patchUidListWithPrefix
    (prefixes : List Text)
    (data : List (List Text)) :
    PyResult (List Text) :=
  data.mapM fun parts => patchUid prefixes (uidText parts)

/-- `patch_keys_prefix_inplace` of the event types that have it, and the list of
all children, which the loop patches itself. -/
def patchKeysPrefixInplace
    (prefixes : List Text) :
    AppEventData (List Text) (List Text) → PyResult (AppEventData Text (List Text))
  | .updateComponents data deleted all => do
      let data ← patchUidKeysWithPrefix prefixes data
      let deleted ← patchUidListWithPrefix prefixes deleted
      let all ← patchUidListWithPrefix prefixes all
      return .updateComponents data deleted all
  | .uiUpdate baseProps data jsonOnly => do
      let data ← patchUidKeysWithPrefix prefixes data
      return .uiUpdate baseProps data jsonOnly
  | .updateUsedEvents data => do
      let data ← patchUidKeysWithPrefix prefixes data
      return .updateUsedEvents data
  | .componentEvent data => do
      let data ← patchUidKeysWithPrefix prefixes data
      return .componentEvent data
  | .other type data => .ok (.other type data)

/-- `to_dict`, `patch_unique_id` and `from_dict` of one event: a JSON-only update
is wrapped in `JsonSpecialData` in between. -/
def patchUniqueIdOfEvent
    (prefixes : List Text) :
    AppEventData Text (List Text) → PyResult (AppEventData Text UniqueTreeId)
  | .updateComponents data deleted all => do
      let data ← patchUniqueIdItems prefixes data
      return .updateComponents data deleted all
  | .uiUpdate baseProps data true =>
      .ok (.uiUpdate baseProps (Data.mapIdsItems idOfParts data) true)
  | .uiUpdate baseProps data false => do
      let data ← patchUniqueIdItems prefixes data
      return .uiUpdate baseProps data false
  | .updateUsedEvents data => do
      let data ← patchUniqueIdItems prefixes data
      return .updateUsedEvents data
  | .componentEvent data => do
      let data ← patchUniqueIdItems prefixes data
      return .componentEvent data
  | .other type data => do
      let data ← patchUniqueId prefixes data
      return .other type data

/-- The events of an app event as the remote's `to_dict` sends them: sorted by
type, each table with distinct keys. -/
structure RemoteAppEvent where
  events : List (AppEventData (List Text) (List Text))
  sorted : events.Pairwise fun first second => first.type ≤ second.type
  distinct : ∀ event ∈ events, (event.table.map Prod.fst).Nodup

/-- What `_remote_msg_handle_loop` puts in the queue of the app for an event. -/
def handleRemoteMsg
    (prefixes : List Text)
    (appEvent : RemoteAppEvent) :
    PyResult (List (AppEventData Text UniqueTreeId)) := do
  let patched ← appEvent.events.mapM (patchKeysPrefixInplace prefixes)
  let typeToEvents := patched.mergeSort fun first second => decide (first.type ≤ second.type)
  typeToEvents.mapM (patchUniqueIdOfEvent prefixes)

/-- The layout that a remote app sends, and the id of its root. -/
structure RemoteLayout where
  layout : List (List Text × Data (List Text))
  distinct : (layout.map Prod.fst).Nodup
  remoteRootUid : List Text

/-- `_patch_layout_dict`. -/
def patchLayoutDict
    (prefixes : List Text)
    (remote : RemoteLayout) :
    PyResult (List (Text × Data UniqueTreeId) × Text) := do
  let layoutDict ← patchUidKeysWithPrefix prefixes remote.layout
  let layoutDict ← patchUniqueIdItems prefixes layoutDict
  let rootCompUid ← patchUid prefixes (uidText remote.remoteRootUid)
  return (layoutDict, rootCompUid)

/-! ## UI events -/

/-- A UI event: the id it is addressed to and, for a drop, the `uid` in its data
if there is one. -/
structure UiEvent where
  uid : Text
  drop : Option (Option Text)

/-- `UIEvent.unpatch_keys_prefix_inplace`, on the event for one id. -/
def unpatchKeysPrefixInplace
    (prefixes : List Text)
    (event : UiEvent) :
    PyResult UiEvent := do
  let uid ← unpatchUid prefixes event.uid
  match event.drop with
  | none => return ⟨uid, none⟩
  | some none => .error (.keyError "uid")
  | some (some source) => do
      let originalUid ← ofUid source defaultSplitter.length
      let newUid ← fromParts (originalUid.parts.drop prefixes.length) defaultSplitter
      return ⟨uid, some (some newUid.uidEncoded)⟩

/-! ## What is expected -/

/-- A key or listed id with the prefix. -/
def keyUnder
    (prefixes parts : List Text) :
    Text :=
  uidText (prefixes ++ parts)

/-- An id with the prefix. -/
def idUnder
    (prefixes parts : List Text) :
    UniqueTreeId :=
  idOfParts (prefixes ++ parts)

/-- A UI event of the frontend, for an id that it received and perhaps with a
template suffix; a drop's source is an id that it received, too. -/
structure ReceivedEvent where
  target : List Text
  suffix : Text
  drop : Option (Option (List Text))
  unmarked : ¬∃ part ∈ target, Marked part
  isSuffix : IsSuffix suffix

/-- The UI event with ids under some prefix. -/
def ReceivedEvent.under
    (prefixes : List Text)
    (event : ReceivedEvent) :
    UiEvent where
  uid := keyUnder prefixes event.target ++ event.suffix
  drop := event.drop.map fun source => source.map (keyUnder prefixes)

/-- What a remote app and the frontend send each other through a mounting
component with the ids `prefixes`, which may itself be in remote apps. -/
structure Exchange where
  levels : List (List Text)
  prefixes : List Text
  appEvent : RemoteAppEvent
  layout : RemoteLayout
  uiEvent : ReceivedEvent

/-- Ids come back, everything sent has the prefix once and is else unchanged, and
the events of the frontend reach the original ids. -/
structure Exchange.Right
    (exchange : Exchange) :
    Prop where
  ids : TranslatesBack exchange.levels
  appEvent :
    handleRemoteMsg exchange.prefixes exchange.appEvent =
      .ok (exchange.appEvent.events.map
        (AppEventData.map (keyUnder exchange.prefixes)
          (Data.mapIds (idUnder exchange.prefixes))))
  layout :
    patchLayoutDict exchange.prefixes exchange.layout =
      .ok (exchange.layout.layout.map fun entry =>
          (keyUnder exchange.prefixes entry.1, entry.2.mapIds (idUnder exchange.prefixes)),
        keyUnder exchange.prefixes exchange.layout.remoteRootUid)
  uiEvent :
    unpatchKeysPrefixInplace exchange.prefixes
      (exchange.uiEvent.under exchange.prefixes) = .ok (exchange.uiEvent.under [])

/-! ## The condition -/

/-- Data marked as special holds no id, or nothing is put in front of it. -/
def HiddenFits
    (prefixes : List Text)
    (ids : List (List Text)) :
    Prop :=
  ids = [] ∨ prefixes = []

mutual

/-- No id becomes one without parts, and none is in specially marked data. -/
def Data.Fits
    (prefixes : List Text) :
    Data (List Text) → Prop
  | .scalar _ => True
  | .uid parts => prefixes ++ parts ≠ []
  | .list items => Data.FitsAll prefixes items
  | .tuple items => Data.FitsAll prefixes items
  | .mapping items => Data.FitsItems prefixes items
  | .special _ data => HiddenFits prefixes data.ids

def Data.FitsAll
    (prefixes : List Text) :
    List (Data (List Text)) → Prop
  | [] => True
  | data :: rest => data.Fits prefixes ∧ Data.FitsAll prefixes rest

def Data.FitsItems
    (prefixes : List Text) :
    List (Text × Data (List Text)) → Prop
  | [] => True
  | (_, data) :: rest => data.Fits prefixes ∧ Data.FitsItems prefixes rest

end

/-- The values of a table fit. -/
def TableFits
    (prefixes : List Text)
    (table : List (List Text × Data (List Text))) :
    Prop :=
  ∀ entry ∈ table, entry.2.Fits prefixes

def AppEventData.Fits
    (prefixes : List Text) :
    AppEventData (List Text) (List Text) → Prop
  | .updateComponents data _ _ => TableFits prefixes data
  | .uiUpdate _ data true => ∀ entry ∈ data, HiddenFits prefixes entry.2.ids
  | .uiUpdate _ data false => TableFits prefixes data
  | .updateUsedEvents data => TableFits prefixes data
  | .componentEvent data => TableFits prefixes data
  | .other _ data => data.Fits prefixes

/-- No prefix holds the split marker, no id is in data marked JSON-only or frozen
or becomes empty, and a drop has a source. -/
structure Exchange.Fits
    (exchange : Exchange) :
    Prop where
  levels : ¬∃ prefixes ∈ exchange.levels, ∃ part ∈ prefixes, Marked part
  prefixes : ¬∃ part ∈ exchange.prefixes, Marked part
  events : ∀ event ∈ exchange.appEvent.events, event.Fits exchange.prefixes
  layout : TableFits exchange.prefixes exchange.layout.layout
  drop : exchange.uiEvent.drop ≠ some none

/-! ## Ids in data -/

theorem copy_idOfParts
    (parts : List Text) :
    (idOfParts parts).copy = .ok (idOfParts parts) :=
  ofUid_uidText parts

theorem patchId_iff
    (prefixes parts : List Text) :
    patchId prefixes parts = .ok (idUnder prefixes parts) ↔ prefixes ++ parts ≠ [] := by
  have patched :
      patchId prefixes parts =
        .ok ((idOfParts parts).setPartsInplace (prefixes ++ parts) defaultSplitter) := by
    rw [patchId, copy_idOfParts]
    rfl
  rw [patched, Except.ok.injEq, idUnder]
  by_cases empty : prefixes ++ parts = []
  · rw [empty]
    have differs : encode [] defaultSplitter ≠ uidText [] := by decide
    exact ⟨fun same => absurd (congrArg UniqueTreeId.uidEncoded same) differs,
      fun some => absurd rfl some⟩
  · simp [setPartsInplace, idOfParts, uidText, empty]

theorem idOfParts_eq_idUnder_iff
    (prefixes parts : List Text) :
    idOfParts parts = idUnder prefixes parts ↔ prefixes = [] := by
  constructor
  · intro same
    have sameParts : parts = prefixes ++ parts := congrArg UniqueTreeId.parts same
    exact List.self_eq_append_left.mp sameParts
  · rintro rfl
    rfl

mutual

/-- Data is the same under two changes of ids exactly if each id is. -/
theorem Data.mapIds_eq_iff
    {first second : Ref → Ref'} :
    (data : Data Ref) →
    (data.mapIds first = data.mapIds second ↔ ∀ id ∈ data.ids, first id = second id)
  | .scalar _ => by
      simp [Data.mapIds, Data.ids]
  | .uid id => by
      simp [Data.mapIds, Data.ids]
  | .list items => by
      simp [Data.mapIds, Data.ids, Data.mapIdsAll_eq_iff items]
  | .tuple items => by
      simp [Data.mapIds, Data.ids, Data.mapIdsAll_eq_iff items]
  | .mapping items => by
      simp [Data.mapIds, Data.ids, Data.mapIdsItems_eq_iff items]
  | .special _ data => by
      simp [Data.mapIds, Data.ids, Data.mapIds_eq_iff data]

theorem Data.mapIdsAll_eq_iff
    {first second : Ref → Ref'} :
    (items : List (Data Ref)) →
    (Data.mapIdsAll first items = Data.mapIdsAll second items ↔
      ∀ id ∈ Data.idsAll items, first id = second id)
  | [] => by
      simp [Data.mapIdsAll, Data.idsAll]
  | data :: rest => by
      simp [Data.mapIdsAll, Data.idsAll, Data.mapIds_eq_iff data,
        Data.mapIdsAll_eq_iff rest, or_imp, forall_and]

theorem Data.mapIdsItems_eq_iff
    {first second : Ref → Ref'} :
    (items : List (Text × Data Ref)) →
    (Data.mapIdsItems first items = Data.mapIdsItems second items ↔
      ∀ id ∈ Data.idsItems items, first id = second id)
  | [] => by
      simp [Data.mapIdsItems, Data.idsItems]
  | (key, data) :: rest => by
      simp [Data.mapIdsItems, Data.idsItems, Data.mapIds_eq_iff data,
        Data.mapIdsItems_eq_iff rest, or_imp, forall_and]

end

theorem mapIds_hidden_iff
    (prefixes : List Text)
    (data : Data (List Text)) :
    data.mapIds idOfParts = data.mapIds (idUnder prefixes) ↔ HiddenFits prefixes data.ids := by
  rw [Data.mapIds_eq_iff, HiddenFits]
  simp only [idOfParts_eq_idUnder_iff]
  cases data.ids with
  | nil => simp
  | cons first rest => simpa using fun empty _ _ => empty

mutual

/-- Patched data is as expected exactly if it fits. -/
theorem patchUniqueId_iff
    {prefixes : List Text} :
    (data : Data (List Text)) →
    (patchUniqueId prefixes data = .ok (data.mapIds (idUnder prefixes)) ↔ data.Fits prefixes)
  | .scalar _ => by
      simp [patchUniqueId, Data.mapIds, Data.Fits]
  | .uid parts => by
      rw [Data.Fits, ← patchId_iff, patchUniqueId, PyResult.bind_eq_ok]
      simp [Data.mapIds, pure, Except.pure]
  | .list items => by
      rw [Data.Fits, ← patchUniqueIdAll_iff items, patchUniqueId, PyResult.bind_eq_ok]
      simp [Data.mapIds, pure, Except.pure]
  | .tuple items => by
      rw [Data.Fits, ← patchUniqueIdAll_iff items, patchUniqueId, PyResult.bind_eq_ok]
      simp [Data.mapIds, pure, Except.pure]
  | .mapping items => by
      rw [Data.Fits, ← patchUniqueIdItems_iff items, patchUniqueId, PyResult.bind_eq_ok]
      simp [Data.mapIds, pure, Except.pure]
  | .special flag data => by
      rw [Data.Fits, ← mapIds_hidden_iff]
      simp [patchUniqueId, Data.mapIds]

theorem patchUniqueIdAll_iff
    {prefixes : List Text} :
    (items : List (Data (List Text))) →
    (patchUniqueIdAll prefixes items = .ok (Data.mapIdsAll (idUnder prefixes) items) ↔
      Data.FitsAll prefixes items)
  | [] => by
      simp [patchUniqueIdAll, Data.mapIdsAll, Data.FitsAll]
  | data :: rest => by
      rw [Data.FitsAll, ← patchUniqueId_iff data, ← patchUniqueIdAll_iff rest,
        patchUniqueIdAll]
      simp [PyResult.bind_eq_ok, Data.mapIdsAll, pure, Except.pure]

theorem patchUniqueIdItems_iff
    {prefixes : List Text} :
    (items : List (Text × Data (List Text))) →
    (patchUniqueIdItems prefixes items = .ok (Data.mapIdsItems (idUnder prefixes) items) ↔
      Data.FitsItems prefixes items)
  | [] => by
      simp [patchUniqueIdItems, Data.mapIdsItems, Data.FitsItems]
  | (key, data) :: rest => by
      rw [Data.FitsItems, ← patchUniqueId_iff data, ← patchUniqueIdItems_iff rest,
        patchUniqueIdItems]
      simp [PyResult.bind_eq_ok, Data.mapIdsItems, pure, Except.pure]

end

/-! ## Keys and lists of ids -/

theorem setEntries_of_notMem
    [DecidableEq K]
    {entries : List (K × V)}
    {key : K}
    (absent : key ∉ entries.map Prod.fst)
    (value : V) :
    Dict.setEntries key value entries = entries ++ [(key, value)] := by
  induction entries with
  | nil => rfl
  | cons entry rest inductionHypothesis =>
      rw [List.map_cons, List.mem_cons, not_or] at absent
      rw [Dict.setEntries, if_neg (Ne.symm absent.1), inductionHypothesis absent.2]
      rfl

theorem keyUnder_injective
    (prefixes : List Text) :
    Function.Injective (keyUnder prefixes) := by
  intro parts others same
  exact List.append_cancel_left (uidText_injective same)

/-- Distinct keys stay distinct, and every entry keeps its value and place. -/
theorem patchUidKeysWithPrefix_eq
    (prefixes : List Text)
    {data : List (List Text × V)}
    (distinct : (data.map Prod.fst).Nodup) :
    patchUidKeysWithPrefix prefixes data =
      .ok (data.map fun entry => (keyUnder prefixes entry.1, entry.2)) := by
  unfold patchUidKeysWithPrefix
  induction data using List.reverseRecOn with
  | nil => rfl
  | append_singleton rest entry inductionHypothesis =>
      rw [List.map_append, List.nodup_append] at distinct
      rw [List.foldlM_append, inductionHypothesis distinct.1]
      have fresh :
          keyUnder prefixes entry.1 ∉
            (rest.map fun entry => (keyUnder prefixes entry.1, entry.2)).map Prod.fst := by
        rw [List.map_map]
        intro listed
        obtain ⟨other, inRest, same⟩ := List.mem_map.mp listed
        exact distinct.2.2 _ (List.mem_map_of_mem inRest) _ (by simp)
          (keyUnder_injective prefixes same)
      have placed := setEntries_of_notMem fresh entry.2
      simp only [List.foldlM_cons, List.foldlM_nil, patchUid_uidText, bind, Except.bind, pure,
        Except.pure]
      rw [keyUnder] at placed
      rw [placed]
      simp [keyUnder]

theorem patchUidListWithPrefix_eq
    (prefixes : List Text)
    (data : List (List Text)) :
    patchUidListWithPrefix prefixes data = .ok (data.map (keyUnder prefixes)) :=
  PyResult.mapM_of_forall fun parts _ => patchUid_uidText prefixes parts

/-! ## Events, layouts and UI events -/

theorem patchKeysPrefixInplace_eq
    (prefixes : List Text)
    {event : AppEventData (List Text) (List Text)}
    (distinct : (event.table.map Prod.fst).Nodup) :
    patchKeysPrefixInplace prefixes event =
      .ok (event.map (keyUnder prefixes) fun data => data) := by
  have keys := patchUidKeysWithPrefix_eq prefixes distinct
  cases event with
  | updateComponents data deleted all =>
      rw [AppEventData.table] at keys
      rw [patchKeysPrefixInplace, keys, patchUidListWithPrefix_eq, patchUidListWithPrefix_eq]
      rfl
  | other type data => rfl
  | _ =>
      rw [AppEventData.table] at keys
      rw [patchKeysPrefixInplace, keys]
      rfl

theorem type_map
    (changeKey : Key → Key')
    (change : Data Ref → Data Ref')
    (event : AppEventData Key Ref) :
    (event.map changeKey change).type = event.type := by
  cases event <;> rfl

theorem mapIdsItems_eq_map
    (change : Ref → Ref')
    (items : List (Text × Data Ref)) :
    Data.mapIdsItems change items = items.map fun entry => (entry.1, entry.2.mapIds change) := by
  induction items with
  | nil => rfl
  | cons entry rest inductionHypothesis =>
      rw [Data.mapIdsItems, inductionHypothesis]
      rfl

theorem fitsItems_iff
    (prefixes : List Text)
    (table : List (List Text × Data (List Text))) :
    Data.FitsItems prefixes (table.map fun entry => (keyUnder prefixes entry.1, entry.2)) ↔
      TableFits prefixes table := by
  induction table with
  | nil => simp [Data.FitsItems, TableFits]
  | cons entry rest inductionHypothesis =>
      rw [List.map_cons, Data.FitsItems, inductionHypothesis]
      simp [TableFits]

/-- The values of a table after its keys have been patched. -/
theorem patchTable_iff
    (prefixes : List Text)
    (table : List (List Text × Data (List Text))) :
    patchUniqueIdItems prefixes
        (table.map fun entry => (keyUnder prefixes entry.1, entry.2)) =
      .ok (table.map fun entry =>
        (keyUnder prefixes entry.1, entry.2.mapIds (idUnder prefixes))) ↔
      TableFits prefixes table := by
  rw [← fitsItems_iff, ← patchUniqueIdItems_iff, mapIdsItems_eq_map, List.map_map]
  rfl

theorem patchUniqueIdOfEvent_iff
    (prefixes : List Text)
    (event : AppEventData (List Text) (List Text)) :
    patchUniqueIdOfEvent prefixes (event.map (keyUnder prefixes) fun data => data) =
        .ok (event.map (keyUnder prefixes) (Data.mapIds (idUnder prefixes))) ↔
      event.Fits prefixes := by
  cases event with
  | updateComponents data deleted all =>
      rw [AppEventData.Fits, ← patchTable_iff, AppEventData.map, patchUniqueIdOfEvent,
        PyResult.bind_eq_ok]
      simp [AppEventData.map, pure, Except.pure]
  | updateUsedEvents data =>
      rw [AppEventData.Fits, ← patchTable_iff, AppEventData.map, patchUniqueIdOfEvent,
        PyResult.bind_eq_ok]
      simp [AppEventData.map, pure, Except.pure]
  | componentEvent data =>
      rw [AppEventData.Fits, ← patchTable_iff, AppEventData.map, patchUniqueIdOfEvent,
        PyResult.bind_eq_ok]
      simp [AppEventData.map, pure, Except.pure]
  | other type data =>
      rw [AppEventData.Fits, ← patchUniqueId_iff, AppEventData.map, patchUniqueIdOfEvent,
        PyResult.bind_eq_ok]
      simp [AppEventData.map, pure, Except.pure]
  | uiUpdate baseProps data jsonOnly =>
      cases jsonOnly with
      | false =>
          rw [AppEventData.Fits, ← patchTable_iff, AppEventData.map, patchUniqueIdOfEvent,
            PyResult.bind_eq_ok]
          simp [AppEventData.map, pure, Except.pure]
      | true =>
          rw [AppEventData.Fits, AppEventData.map, patchUniqueIdOfEvent, mapIdsItems_eq_map,
            AppEventData.map, Except.ok.injEq, AppEventData.uiUpdate.injEq]
          simp only [List.map_map, List.map_inj_left, Function.comp_apply, Prod.mk.injEq,
            mapIds_hidden_iff, true_and, and_true]

theorem mapM_map_eq_ok_iff
    {f : α → PyResult β}
    {g : α → β}
    (items : List α) :
    items.mapM f = .ok (items.map g) ↔ ∀ item ∈ items, f item = .ok (g item) := by
  rw [PyResult.mapM_eq_ok, List.forall₂_map_right_iff, List.forall₂_same]

theorem handleRemoteMsg_iff
    (prefixes : List Text)
    (appEvent : RemoteAppEvent) :
    handleRemoteMsg prefixes appEvent =
        .ok (appEvent.events.map
          (AppEventData.map (keyUnder prefixes) (Data.mapIds (idUnder prefixes)))) ↔
      ∀ event ∈ appEvent.events, event.Fits prefixes := by
  have keys :=
    PyResult.mapM_of_forall fun event listed =>
      patchKeysPrefixInplace_eq prefixes (appEvent.distinct event listed)
  have sorted :
      (appEvent.events.map (AppEventData.map (keyUnder prefixes) fun data => data)).mergeSort
          (fun first second => decide (first.type ≤ second.type)) =
        appEvent.events.map (AppEventData.map (keyUnder prefixes) fun data => data) := by
    apply List.mergeSort_of_pairwise
    rw [List.pairwise_map]
    simpa only [type_map, decide_eq_true_eq] using appEvent.sorted
  rw [handleRemoteMsg, keys]
  change List.mapM _ (List.mergeSort _ _) = _ ↔ _
  rw [sorted, List.mapM_map, mapM_map_eq_ok_iff]
  simp only [Function.comp_apply, patchUniqueIdOfEvent_iff]

theorem patchLayoutDict_iff
    (prefixes : List Text)
    (remote : RemoteLayout) :
    patchLayoutDict prefixes remote =
        .ok (remote.layout.map fun entry =>
            (keyUnder prefixes entry.1, entry.2.mapIds (idUnder prefixes)),
          keyUnder prefixes remote.remoteRootUid) ↔
      TableFits prefixes remote.layout := by
  rw [patchLayoutDict, patchUidKeysWithPrefix_eq prefixes remote.distinct, patchUid_uidText,
    ← patchTable_iff]
  change (patchUniqueIdItems prefixes _ >>= fun layoutDict => _) = _ ↔ _
  rw [PyResult.bind_eq_ok]
  simp [bind, Except.bind, pure, Except.pure, keyUnder]

theorem unpatchKeysPrefixInplace_iff
    (prefixes : List Text)
    (event : ReceivedEvent) :
    unpatchKeysPrefixInplace prefixes (event.under prefixes) = .ok (event.under []) ↔
      (¬∃ part ∈ prefixes, Marked part) ∧ event.drop ≠ some none := by
  by_cases marked : ∃ part ∈ prefixes, Marked part
  · have failed : unpatchKeysPrefixInplace prefixes (event.under prefixes) ≠
        .ok (event.under []) := by
      intro unpatched
      obtain ⟨uid, read, -⟩ := PyResult.bind_eq_ok.mp unpatched
      obtain ⟨part, listed, inPart⟩ := marked
      exact unpatchUid_marked ⟨part, List.mem_append_left _ listed, inPart⟩ _ _ read
    exact ⟨fun unpatched => absurd unpatched failed, fun fits => absurd marked fits.1⟩
  · have unmarked : ¬∃ part ∈ prefixes ++ event.target, Marked part := by
      rintro ⟨part, listed, inPart⟩
      rcases List.mem_append.mp listed with inPrefix | inTarget
      · exact marked ⟨part, inPrefix, inPart⟩
      · exact event.unmarked ⟨part, inTarget, inPart⟩
    have target := unpatchUid_uidText unmarked event.isSuffix
    rw [unpatchKeysPrefixInplace, ReceivedEvent.under, ReceivedEvent.under, keyUnder, target]
    rcases event.drop with _ | _ | source
    · simpa [bind, Except.bind, pure, Except.pure, keyUnder] using marked
    · simp [bind, Except.bind]
    · have dropped : (idOfParts (prefixes ++ source)).parts.drop prefixes.length = source :=
        List.drop_left
      simp only [Option.map_some, keyUnder, ofUid_uidText, bind, Except.bind, dropped,
        fromParts_eq]
      simpa [pure, Except.pure, idOfParts] using marked

/-! ## Exchanges -/

/-- A remote app sends a JSON-only update of its root, whose data names a child. -/
def jsonOnlyExchange : Exchange where
  levels := []
  prefixes := ["R".toList]
  appEvent :=
    { events := [.uiUpdate false [(["R".toList], .list [.uid ["b".toList]])] true]
      sorted := List.pairwise_singleton _ _
      distinct := by simp [AppEventData.table] }
  layout := ⟨[], List.nodup_nil, []⟩
  uiEvent := ⟨[], [], none, by simp, Or.inl rfl⟩

end TensorPC.Flowui
