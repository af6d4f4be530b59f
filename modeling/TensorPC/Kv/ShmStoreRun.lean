import TensorPC.Lib.Transition
import TensorPC.Kv.ShmStore

namespace TensorPC.Kv

/-!
# What the shared-memory store serves

Segments are reused when their sizes fit, and keep the shapes and element types
they were made with.  As long as every store that reuses segments has the
layout of these segments, a read returns the tree that was stored last.
-/

open ShmKVStore

/-- The calls of a client that change the store. -/
inductive ShmCall where
  | storeArrayTree
      (key : String)
      (arrTree : ArrayTree)
      (removedKeys : Option (List String))
  | removeItems (keys : List String)
  | clear

/-- What a call that completes leaves of the store. -/
def shmStep
    (numpy : NumpyCast)
    (state : ShmKVStore) :
    ShmCall → Option ShmKVStore
  | .storeArrayTree key arrTree removedKeys =>
      match state.storeArrayTree key numpy arrTree removedKeys with
      | some (.ok after) => some after
      | _ => none
  | .removeItems keys => (state.removeItems keys).toOption
  | .clear => state.clear.toOption

/-- The tree that a call stores under a key. -/
def storedTree (key : String) : ShmCall → Option ArrayTree
  | .storeArrayTree stored tree _ =>
      if stored = key then some tree else none
  | .removeItems _ => none
  | .clear => none

/-- The last tree that a history of calls stored under a key. -/
def lastStored (key : String) (calls : List ShmCall) : Option ArrayTree :=
  calls.reverse.findSome? (storedTree key)

theorem toOption_eq_some
    {α : Type}
    {outcome : PyResult α}
    {value : α}
    (completed : outcome.toOption = some value) :
    outcome = .ok value := by
  cases outcome with
  | error raised =>
      cases completed
  | ok result =>
      cases completed
      rfl

/-- The segments that a store call would reuse. -/
def reusedSegments
    (state : ShmKVStore)
    (key : String)
    (arrDescs : List TensorInfo)
    (removedKeys : Option (List String)) :
    Option SharedArraySegments :=
  match (removedKeys.getD []).find? (state.canReuse arrDescs) with
  | some reuseKey => state.storeSharedSegments.get? reuseKey
  | none => state.storeSharedSegments.get? key

/--
A stored tree has no reserved key below its root, and segments that are reused
for it have the shapes and the element types of its arrays.
-/
def KeepsLayout
    (state : ShmKVStore) :
    ShmCall → Prop
  | .storeArrayTree key arrTree removedKeys =>
      let arrDescs :=
        (extractArraysFromData arrTree).1.map NDArray.tensorInfo
      arrTree.isPlain = true ∧
        ∀ segments ∈ reusedSegments state key arrDescs removedKeys,
          segments.descs.map (·.toTensorInfo) = arrDescs
  | .removeItems _ => True
  | .clear => True

instance (state : ShmKVStore) (call : ShmCall) :
    Decidable (KeepsLayout state call) :=
  match call with
  | .storeArrayTree _ _ _ => inferInstanceAs (Decidable (_ ∧ ∀ _ ∈ _, _))
  | .removeItems _ => instDecidableTrue
  | .clear => instDecidableTrue

/-- Every item that the store has reads as the last tree stored under its key. -/
def ServesLastStored
    (calls : List ShmCall)
    (state : ShmKVStore) :
    Prop :=
  ∀ key, state.hasItem key = true →
    ∃ tree, lastStored key calls = some tree ∧
      state.getArrayTree key = .ok (toDataTree tree)

/--
A store call changes no key but its own and those to be removed, and of these
leaves none but its own.
-/
def KeepsOthers
    (before after : ShmKVStore) :
    ShmCall → Prop
  | .storeArrayTree key _ removedKeys =>
      (∀ other, other ≠ key → other ∉ removedKeys.getD [] →
        after.hasItem other = before.hasItem other ∧
        after.getArrayTree other = before.getArrayTree other) ∧
      ∀ removed ∈ removedKeys.getD [], removed ≠ key →
        after.hasItem removed = false
  | .removeItems _ => True
  | .clear => True

/-! ## One store call -/

section StoreCall

variable {state after : ShmKVStore} {key : String} {arrDescs : List TensorInfo}
variable {segments : SharedArraySegments}

/-- Two states have the same item under a key. -/
def SameItem
    (first second : ShmKVStore)
    (key : String) :
    Prop :=
  first.store.get? key = second.store.get? key ∧
    first.storeSharedSegments.get? key = second.storeSharedSegments.get? key

theorem SameItem.hasItem
    {first second : ShmKVStore}
    {key : String}
    (same : SameItem first second key) :
    first.hasItem key = second.hasItem key := by
  simp [ShmKVStore.hasItem, Dict.contains, same.1]

theorem SameItem.getArrayTree
    {first second : ShmKVStore}
    {key : String}
    (same : SameItem first second key) :
    first.getArrayTree key = second.getArrayTree key := by
  simp [ShmKVStore.getArrayTree, same.1, same.2]

/-- Neither map of the store has a key. -/
def Absent
    (state : ShmKVStore)
    (key : String) :
    Prop :=
  state.store.get? key = none ∧ state.storeSharedSegments.get? key = none

theorem moveEntry_get?_new
    {β : Type}
    {dict : Dict String β}
    {oldKey newKey : String}
    {value : β}
    (found : dict.get? oldKey = some value)
    (different : oldKey ≠ newKey) :
    (moveEntry dict oldKey newKey).get? newKey = some value := by
  simp [moveEntry, found, Dict.get?_erase, Ne.symm different]

theorem moveEntry_get?_old
    {β : Type}
    (dict : Dict String β)
    (oldKey newKey : String) :
    (moveEntry dict oldKey newKey).get? oldKey = none := by
  unfold moveEntry
  split
  · assumption
  · simp

theorem moveEntry_get?_other
    {β : Type}
    (dict : Dict String β)
    {oldKey newKey other : String}
    (notOld : other ≠ oldKey)
    (notNew : other ≠ newKey) :
    (moveEntry dict oldKey newKey).get? other = dict.get? other := by
  unfold moveEntry
  split
  · rfl
  · simp [Dict.get?_erase, Dict.get?_set, notOld, notNew]

theorem renameKey_absent
    (state : ShmKVStore)
    {oldKey newKey : String}
    (different : oldKey ≠ newKey) :
    Absent (state.renameKey oldKey newKey) oldKey := by
  simp [Absent, renameKey, different, moveEntry_get?_old]

theorem renameKey_sameItem
    (state : ShmKVStore)
    {oldKey newKey other : String}
    (notOld : other ≠ oldKey)
    (notNew : other ≠ newKey) :
    SameItem (state.renameKey oldKey newKey) state other := by
  unfold renameKey
  split
  · exact ⟨rfl, rfl⟩
  · exact ⟨moveEntry_get?_other _ notOld notNew,
      moveEntry_get?_other _ notOld notNew⟩

theorem renameKey_get?_new
    {oldKey newKey : String}
    (found : state.storeSharedSegments.get? oldKey = some segments) :
    (state.renameKey oldKey newKey).storeSharedSegments.get? newKey =
      some segments := by
  unfold renameKey
  split
  · rename_i same
    rw [← same]
    exact found
  · rename_i different
    exact moveEntry_get?_new found different

/-- Existing segments are returned as they are, and new ones fit their arrays. -/
theorem existingOrNewSegments_eq_ok
    (created :
      state.existingOrNewSegments key arrDescs = .ok (after, segments)) :
    (∀ other, other ≠ key → SameItem after state other) ∧
      (state.storeSharedSegments.get? key = some segments ∨
        state.storeSharedSegments.get? key = none ∧
          segments.descs = allocateDescs 0 arrDescs ∧
          segments.shm.length = totalAlignedByteSize segments.descs) := by
  unfold existingOrNewSegments at created
  split at created
  · rename_i existing found
    obtain ⟨_, _, created⟩ := PyResult.bind_eq_ok.mp created
    cases created
    exact ⟨fun _ _ => ⟨rfl, rfl⟩, .inl found⟩
  · rename_i missing
    dsimp only at created
    split at created
    · cases created
    · cases created
      refine ⟨?_, .inr ⟨missing, rfl, List.length_replicate ..⟩⟩
      intro other different
      exact ⟨rfl, Dict.get?_set_ne _ _ different⟩

/-- What `get_or_create_shared_array_segments` does when it returns. -/
theorem getOrCreate_eq_ok
    {removedKeys : Option (List String)}
    (created :
      state.getOrCreateSharedArraySegments key arrDescs removedKeys =
        some (.ok (after, segments))) :
    (∀ other, other ≠ key → other ∉ removedKeys.getD [] →
        SameItem after state other) ∧
      (∀ removed ∈ removedKeys.getD [], removed ≠ key →
        Absent after removed) ∧
      (reusedSegments state key arrDescs removedKeys = some segments ∨
        segments.descs = allocateDescs 0 arrDescs ∧
          segments.shm.length = totalAlignedByteSize segments.descs) := by
  have direct :
      ∀ {removed : List String},
        removed = [] →
        removed.find? (state.canReuse arrDescs) = none →
        state.existingOrNewSegments key arrDescs = .ok (after, segments) →
        (∀ other, other ≠ key → other ∉ removed → SameItem after state other) ∧
          (∀ other ∈ removed, other ≠ key → Absent after other) ∧
          (state.storeSharedSegments.get? key = some segments ∨
            segments.descs = allocateDescs 0 arrDescs ∧
              segments.shm.length = totalAlignedByteSize segments.descs) := by
    rintro removed rfl _ created
    obtain ⟨others, origin⟩ := existingOrNewSegments_eq_ok created
    refine ⟨fun other different _ => others other different, by simp, ?_⟩
    rcases origin with existing | ⟨_, fresh⟩
    · exact .inl existing
    · exact .inr fresh
  cases removedKeys with
  | none =>
      have created := Option.some.inj created
      exact direct rfl rfl created
  | some removed =>
      simp only [getOrCreateSharedArraySegments] at created
      split at created
      · rename_i reuseKey found
        split at created
        · rename_i alone
          have created := Option.some.inj created
          have reusable := List.find?_some found
          have member := List.mem_of_find?_eq_some found
          have only : ∀ other ∈ removed, other = reuseKey := by
            intro other inRemoved
            by_contra different
            have left : other ∈ removed.erase reuseKey :=
              (List.mem_erase_of_ne different).mpr inRemoved
            simp [alone] at left
          have holder : ∃ reused,
              state.storeSharedSegments.get? reuseKey = some reused := by
            simp only [canReuse, Dict.contains, Bool.and_eq_true] at reusable
            exact Option.isSome_iff_exists.mp reusable.1
          obtain ⟨reused, held⟩ := holder
          have renamed :=
            @renameKey_get?_new state reused reuseKey key held
          obtain ⟨others, origin⟩ := existingOrNewSegments_eq_ok created
          have same : reused = segments := by
            rcases origin with existing | ⟨missing, _⟩
            · rw [renamed] at existing
              exact Option.some.inj existing
            · rw [renamed] at missing
              cases missing
          have reuses :
              reusedSegments state key arrDescs (some removed) =
                state.storeSharedSegments.get? reuseKey := by
            simp only [reusedSegments, Option.getD_some, found]
          refine ⟨?_, ?_, .inl (reuses.trans (same ▸ held))⟩
          · intro other different notRemoved
            have notReused : other ≠ reuseKey := by
              rintro rfl
              exact notRemoved member
            have kept := renameKey_sameItem state notReused different
            exact ⟨(others other different).1.trans kept.1,
              (others other different).2.trans kept.2⟩
          · intro other inRemoved different
            have isReused := only other inRemoved
            subst isReused
            have gone := renameKey_absent state different
            exact ⟨(others other different).1.trans gone.1,
              (others other different).2.trans gone.2⟩
        · cases created
      · rename_i nothing
        split at created
        · rename_i empty
          have result := direct empty nothing (Option.some.inj created)
          simpa [reusedSegments, nothing] using result
        · cases created

end StoreCall

/-! ## Items and their segments -/

/-- Segments that were made for arrays with these infos. -/
def LaidOut
    (segments : SharedArraySegments)
    (infos : List TensorInfo) :
    Prop :=
  segments.descs = allocateDescs 0 infos ∧
    totalAlignedByteSize segments.descs ≤ segments.shm.length

/-- Under a key lie the spec of a tree and segments that hold its arrays. -/
structure ItemHolds
    (state : ShmKVStore)
    (key : String)
    (tree : ArrayTree) :
    Prop where
  plain : tree.isPlain = true
  treespec : state.store.get? key = some (extractArraysFromData tree).2
  segments :
    ∃ segments,
      state.storeSharedSegments.get? key = some segments ∧
      LaidOut segments
        ((extractArraysFromData tree).1.map NDArray.tensorInfo) ∧
      ViewsAre segments.shm segments.descs (extractArraysFromData tree).1

/-- Every key is absent or holds the last tree stored under it. -/
def ItemsHold
    (calls : List ShmCall)
    (state : ShmKVStore) :
    Prop :=
  ∀ key, Absent state key ∨
    ∃ tree, lastStored key calls = some tree ∧ ItemHolds state key tree

theorem isPartial_allocateDescs
    {offset : Nat}
    {infos : List TensorInfo}
    {desc : SharedArraySegmentDesc}
    (member : desc ∈ allocateDescs offset infos) :
    desc.isPartial = false := by
  induction infos generalizing offset with
  | nil =>
      simp [allocateDescs] at member
  | cons info rest inductionHypothesis =>
      simp only [allocateDescs, List.mem_cons] at member
      rcases member with first | later
      · rw [first]
        rfl
      · exact inductionHypothesis later

/-- Reading all views gives the arrays. -/
theorem mapM_getArrayView
    {segments : SharedArraySegments}
    {infos : List TensorInfo}
    {arrays : List NDArray}
    (layout : segments.descs = allocateDescs 0 infos)
    (views : ViewsAre segments.shm segments.descs arrays) :
    (List.range segments.descs.length).mapM segments.getArrayView =
      .ok arrays := by
  rw [PyResult.mapM_eq_ok]
  obtain ⟨sameLength, each⟩ := List.forall₂_iff_get.mp views
  refine List.forall₂_iff_get.mpr ⟨by simpa using sameLength, ?_⟩
  intro index inRange inArrays
  have inDescs : index < segments.descs.length := by
    simpa using inRange
  have view := each index inDescs inArrays
  have found : segments.descs[index]? = some segments.descs[index] := by
    simp [inDescs]
  have whole : segments.descs[index].isPartial = false := by
    refine @isPartial_allocateDescs 0 infos _ ?_
    rw [← layout]
    exact List.getElem_mem inDescs
  simp only [List.get_eq_getElem, List.getElem_range] at view ⊢
  simp [SharedArraySegments.getArrayView, found, whole, pyAssert, view, bind,
    Except.bind]

theorem ItemHolds.getArrayTree
    {state : ShmKVStore}
    {key : String}
    {tree : ArrayTree}
    (holds : ItemHolds state key tree) :
    state.getArrayTree key = .ok (toDataTree tree) := by
  obtain ⟨segments, found, layout, views⟩ := holds.segments
  have read := mapM_getArrayView layout.1 views
  simp only [ShmKVStore.getArrayTree, holds.treespec, found, read, bind,
    Except.bind]
  exact putArraysToData_extract holds.plain

theorem ItemHolds.of_sameItem
    {state after : ShmKVStore}
    {key : String}
    {tree : ArrayTree}
    (holds : ItemHolds state key tree)
    (same : SameItem after state key) :
    ItemHolds after key tree where
  plain := holds.plain
  treespec := same.1.trans holds.treespec
  segments := by
    obtain ⟨segments, found, rest⟩ := holds.segments
    exact ⟨segments, same.2.trans found, rest⟩

theorem ItemsHold.servesLastStored
    {calls : List ShmCall}
    {state : ShmKVStore}
    (holds : ItemsHold calls state) :
    ServesLastStored calls state := by
  intro key has
  rcases holds key with absent | ⟨tree, last, item⟩
  · simp [hasItem, Dict.contains, absent.1] at has
  · exact ⟨tree, last, item.getArrayTree⟩

theorem ItemsHold.laidOut
    {calls : List ShmCall}
    {state : ShmKVStore}
    {key : String}
    {segments : SharedArraySegments}
    (holds : ItemsHold calls state)
    (found : state.storeSharedSegments.get? key = some segments) :
    ∃ infos, LaidOut segments infos := by
  rcases holds key with absent | ⟨tree, _, item⟩
  · rw [absent.2] at found
    cases found
  · obtain ⟨held, sameKey, layout, _⟩ := item.segments
    rw [sameKey] at found
    cases found
    exact ⟨_, layout⟩

/-! ## The last stored tree -/

theorem lastStored_append
    (key : String)
    (calls : List ShmCall)
    (call : ShmCall) :
    lastStored key (calls ++ [call]) =
      (storedTree key call).or (lastStored key calls) := by
  simp only [lastStored, List.reverse_append, List.reverse_singleton,
    List.singleton_append, List.findSome?_cons]
  cases storedTree key call with
  | none =>
      rfl
  | some tree =>
      rfl

theorem lastStored_append_other
    {key : String}
    {calls : List ShmCall}
    {call : ShmCall}
    (other : storedTree key call = none) :
    lastStored key (calls ++ [call]) = lastStored key calls := by
  rw [lastStored_append, other, Option.none_or]

/-! ## Preservation -/

theorem ItemsHold.of_kept
    {calls : List ShmCall}
    {call : ShmCall}
    {state after : ShmKVStore}
    (holds : ItemsHold calls state)
    (nothingStored : ∀ key, storedTree key call = none)
    (kept : ∀ key, SameItem after state key ∨ Absent after key) :
    ItemsHold (calls ++ [call]) after := by
  intro key
  rw [lastStored_append_other (nothingStored key)]
  rcases kept key with same | absent
  · rcases holds key with before | ⟨tree, last, item⟩
    · exact .inl ⟨same.1.trans before.1, same.2.trans before.2⟩
    · exact .inr ⟨tree, last, item.of_sameItem same⟩
  · exact .inl absent

theorem removeItem_eq_ok
    {state after : ShmKVStore}
    {key : String}
    (removed : state.removeItem key = .ok after)
    (other : String) :
    SameItem after state other ∨ Absent after other := by
  unfold removeItem at removed
  split at removed
  · split at removed
    · cases removed
      by_cases same : other = key
      · subst same
        exact .inr ⟨Dict.get?_erase_self .., Dict.get?_erase_self ..⟩
      · refine .inl ⟨?_, ?_⟩
        · simp [Dict.get?_erase, same]
        · simp [Dict.get?_erase, same]
    · cases removed
  · cases removed
    exact .inl ⟨rfl, rfl⟩

theorem removeItems_eq_ok
    {state after : ShmKVStore}
    {keys : List String}
    (removed : state.removeItems keys = .ok after)
    (other : String) :
    SameItem after state other ∨ Absent after other := by
  unfold removeItems at removed
  induction keys generalizing state with
  | nil =>
      cases removed
      exact .inl ⟨rfl, rfl⟩
  | cons key rest inductionHypothesis =>
      rw [List.foldlM_cons] at removed
      obtain ⟨middle, first, others⟩ := PyResult.bind_eq_ok.mp removed
      rcases inductionHypothesis others with same | absent
      · rcases removeItem_eq_ok first other with before | gone
        · exact .inl ⟨same.1.trans before.1, same.2.trans before.2⟩
        · exact .inr ⟨same.1.trans gone.1, same.2.trans gone.2⟩
      · exact .inr absent

/-- What a completed store call has done. -/
theorem storeArrayTree_eq_ok
    {numpy : NumpyCast}
    {state after : ShmKVStore}
    {key : String}
    {tree : ArrayTree}
    {removedKeys : Option (List String)}
    (stored :
      state.storeArrayTree key numpy tree removedKeys = some (.ok after)) :
    ∃ created segments copied,
      state.getOrCreateSharedArraySegments key
          ((extractArraysFromData tree).1.map NDArray.tensorInfo) removedKeys =
        some (.ok (created, segments)) ∧
      copyArrays numpy 0 (extractArraysFromData tree).1 segments =
        .ok copied ∧
      after.store = created.store.set key (extractArraysFromData tree).2 ∧
      after.storeSharedSegments =
        created.storeSharedSegments.set key copied := by
  obtain ⟨outcome, created, completed⟩ := Option.map_eq_some_iff.mp stored
  obtain ⟨⟨middle, segments⟩, rfl, copying⟩ := PyResult.bind_eq_ok.mp completed
  dsimp only at copying
  obtain ⟨copied, written, finished⟩ := PyResult.bind_eq_ok.mp copying
  refine ⟨middle, segments, copied, created, written, ?_⟩
  simp only [setItemTreespec] at finished
  split at finished
  · obtain ⟨_, _, finished⟩ := PyResult.bind_eq_ok.mp finished
    cases finished
    exact ⟨rfl, rfl⟩
  · cases finished

/-- A completed store call leaves the other keys, but for those to be removed. -/
theorem storeArrayTree_others
    {numpy : NumpyCast}
    {state after : ShmKVStore}
    {key : String}
    {tree : ArrayTree}
    {removedKeys : Option (List String)}
    (stored :
      state.storeArrayTree key numpy tree removedKeys = some (.ok after))
    {other : String}
    (different : other ≠ key) :
    (other ∉ removedKeys.getD [] → SameItem after state other) ∧
      (other ∈ removedKeys.getD [] → Absent after other) := by
  obtain ⟨created, segments, copied, made, _, storeEq, segmentsEq⟩ :=
    storeArrayTree_eq_ok stored
  obtain ⟨others, removed, _⟩ := getOrCreate_eq_ok made
  have same : SameItem after created other := by
    refine ⟨?_, ?_⟩
    · rw [storeEq, Dict.get?_set_ne _ _ different]
    · rw [segmentsEq, Dict.get?_set_ne _ _ different]
  constructor
  · intro notRemoved
    have before := others other different notRemoved
    exact ⟨same.1.trans before.1, same.2.trans before.2⟩
  · intro inRemoved
    have gone := removed other inRemoved different
    exact ⟨same.1.trans gone.1, same.2.trans gone.2⟩

/-- A store call that keeps the layout puts its tree under its key. -/
theorem storeArrayTree_itemHolds
    {numpy : NumpyCast}
    {calls : List ShmCall}
    {state after : ShmKVStore}
    {key : String}
    {tree : ArrayTree}
    {removedKeys : Option (List String)}
    (holds : ItemsHold calls state)
    (keeps : KeepsLayout state (.storeArrayTree key tree removedKeys))
    (stored :
      state.storeArrayTree key numpy tree removedKeys = some (.ok after)) :
    ItemHolds after key tree := by
  obtain ⟨plain, sameLayout⟩ := keeps
  obtain ⟨created, segments, copied, made, written, storeEq, segmentsEq⟩ :=
    storeArrayTree_eq_ok stored
  obtain ⟨_, _, origin⟩ := getOrCreate_eq_ok made
  have layout :
      LaidOut segments
        ((extractArraysFromData tree).1.map NDArray.tensorInfo) := by
    rcases origin with reused | ⟨descs, size⟩
    · have fits := sameLayout segments reused
      have known : ∃ owner,
          state.storeSharedSegments.get? owner = some segments := by
        unfold reusedSegments at reused
        split at reused
        · exact ⟨_, reused⟩
        · exact ⟨_, reused⟩
      obtain ⟨owner, found⟩ := known
      obtain ⟨infos, descs, room⟩ := holds.laidOut found
      have same :
          infos =
            (extractArraysFromData tree).1.map NDArray.tensorInfo := by
        rw [← fits, descs, allocateDescs_map_toTensorInfo]
      exact ⟨by rw [descs, same], room⟩
    · exact ⟨descs, Nat.le_of_eq size.symm⟩
  have copy :=
    @copyArrays_same numpy segments copied 0 0 _ layout.1
      (by simpa using layout.2) written
  obtain ⟨sameDescs, sameLength, views, _⟩ := copy
  constructor
  · exact plain
  · rw [storeEq, Dict.get?_set_self]
  · refine ⟨copied, ?_, ⟨?_, ?_⟩, ?_⟩
    · rw [segmentsEq, Dict.get?_set_self]
    · rw [sameDescs]
      exact layout.1
    · rw [sameDescs, sameLength]
      exact layout.2
    · rw [sameDescs]
      exact views

/-- Every call that keeps the layout keeps the items right. -/
theorem shmStep_itemsHold
    {numpy : NumpyCast}
    {calls : List ShmCall}
    {state after : ShmKVStore}
    {call : ShmCall}
    (holds : ItemsHold calls state)
    (keeps : KeepsLayout state call)
    (stepped : shmStep numpy state call = some after) :
    ItemsHold (calls ++ [call]) after := by
  cases call with
  | storeArrayTree key tree removedKeys =>
      have stored :
          state.storeArrayTree key numpy tree removedKeys =
            some (.ok after) := by
        simp only [shmStep] at stepped
        split at stepped
        · rename_i result completed
          cases stepped
          exact completed
        · cases stepped
      intro other
      by_cases same : other = key
      · subst same
        refine .inr ⟨tree, ?_, storeArrayTree_itemHolds holds keeps stored⟩
        simp [lastStored_append, storedTree]
      · have untouched :
            storedTree other
              (.storeArrayTree key tree removedKeys) = none := by
          simp [storedTree, Ne.symm same]
        rw [lastStored_append_other untouched]
        obtain ⟨kept, removed⟩ := storeArrayTree_others stored same
        by_cases inRemoved : other ∈ removedKeys.getD []
        · exact .inl (removed inRemoved)
        · have unchanged := kept inRemoved
          rcases holds other with absent | ⟨last, isLast, item⟩
          · exact .inl
              ⟨unchanged.1.trans absent.1, unchanged.2.trans absent.2⟩
          · exact .inr ⟨last, isLast, item.of_sameItem unchanged⟩
  | removeItems keys =>
      have removed : state.removeItems keys = .ok after :=
        toOption_eq_some stepped
      exact holds.of_kept (fun _ => rfl) (removeItems_eq_ok removed)
  | clear =>
      have removed : state.removeItems state.store.keys = .ok after :=
        toOption_eq_some stepped
      exact holds.of_kept (fun _ => rfl) (removeItems_eq_ok removed)

/-- A completed store call keeps the other keys, whatever it reuses. -/
theorem shmStep_keepsOthers
    {numpy : NumpyCast}
    {state after : ShmKVStore}
    {call : ShmCall}
    (stepped : shmStep numpy state call = some after) :
    KeepsOthers state after call := by
  cases call with
  | storeArrayTree key tree removedKeys =>
      have stored :
          state.storeArrayTree key numpy tree removedKeys =
            some (.ok after) := by
        simp only [shmStep] at stepped
        split at stepped
        · rename_i result completed
          cases stepped
          exact completed
        · cases stepped
      constructor
      · intro other different notRemoved
        have same := (storeArrayTree_others stored different).1 notRemoved
        exact ⟨same.hasItem, same.getArrayTree⟩
      · intro removed inRemoved different
        have gone := (storeArrayTree_others stored different).2 inRemoved
        simp [hasItem, Dict.contains, gone.1]
  | removeItems keys =>
      trivial
  | clear =>
      trivial

theorem shmRun_itemsHold
    {numpy : NumpyCast}
    {calls : List ShmCall}
    {state : ShmKVStore}
    (run :
      Transition.Run (shmStep numpy) KeepsLayout ShmKVStore.init calls state) :
    ItemsHold calls state := by
  induction run with
  | start =>
      intro key
      exact .inl ⟨rfl, rfl⟩
  | next _ keeps stepped inductionHypothesis =>
      exact shmStep_itemsHold inductionHypothesis keeps stepped

/--
When every store that reuses segments has their shapes and element types, every
read returns what was stored last; and no store call changes a key outside the
removed ones, or leaves a removed one.
-/
theorem shmRun_servesLastStored
    {numpy : NumpyCast}
    {calls : List ShmCall}
    {state : ShmKVStore}
    (run :
      Transition.Run (shmStep numpy) KeepsLayout ShmKVStore.init calls state) :
    ServesLastStored calls state ∧
      ∀ call after,
        shmStep numpy state call = some after →
        KeepsOthers state after call :=
  ⟨(shmRun_itemsHold run).servesLastStored,
    fun _ _ stepped => shmStep_keepsOthers stepped⟩

/-- The casts between integer types of one width, which keep the bytes. -/
def sameWidthCast : NumpyCast where
  cast _ _ element := .ok element
  cast_self _ _ := rfl

/-- An array with one element of four bytes. -/
def oneElement (dtype : DType) (sized : dtype.itemsize = 4) (value : UInt8) : NDArray where
  shape := [1]
  dtype := dtype
  data := [value, 0, 0, 0]
  size_eq := by
    simp [sized]

/-- `{"w": np.array([value], dtype=np.int32), "step": value}`. -/
def checkpointTree (value : UInt8) : ArrayTree :=
  .dict [
    (.str "w", .leaf (.array (oneElement ⟨"int32", 4⟩ rfl value))),
    (.str "step", .leaf (.scalar (.int value.toNat)))]

/-- The second checkpoint takes over the segments of the first. -/
def checkpointCalls : List ShmCall :=
  [.storeArrayTree "first" (checkpointTree 1) none,
    .storeArrayTree "second" (checkpointTree 2) (some ["first"])]

/-- The second checkpoint is served and the first is gone. -/
theorem shmRun_servesLastStored_checkpoints :
    ∃ state,
      Transition.Run (shmStep sameWidthCast) KeepsLayout ShmKVStore.init
        checkpointCalls state ∧
      state.getArrayTree "second" = .ok (toDataTree (checkpointTree 2)) ∧
      state.hasItem "first" = false := by
  have executes :
      (Transition.execute (shmStep sameWidthCast) KeepsLayout ShmKVStore.init
          checkpointCalls).any
        (fun state => state.hasItem "second" && !state.hasItem "first") =
        true := by
    decide +kernel
  obtain ⟨state, executed, has⟩ := (Option.any_eq_true _ _).mp executes
  simp only [Bool.and_eq_true, Bool.not_eq_true'] at has
  have run := Transition.Run.of_execute executed
  obtain ⟨tree, last, read⟩ :=
    (shmRun_servesLastStored run).1 "second" has.1
  have isSecond : tree = checkpointTree 2 := by
    simpa [checkpointCalls, lastStored, storedTree, eq_comm] using last
  exact ⟨state, run, isSecond ▸ read, has.2⟩

/-- Two stores under one key, the second with another element type. -/
def retypedCalls : List ShmCall :=
  [.storeArrayTree "w"
      (.leaf (.array (oneElement ⟨"int32", 4⟩ rfl 1))) none,
    .storeArrayTree "w"
      (.leaf (.array (oneElement ⟨"uint32", 4⟩ rfl 2))) none]

/-- A read gives an array of this element type. -/
def givesArrayOf (dtype : String) : PyResult DataTree → Bool
  | .ok (.leaf (.array array)) => array.dtype.name == dtype
  | _ => false

/-- Segments that are reused for another element type keep the old one. -/
theorem shmRun_not_servesLastStored :
    ∃ state,
      Transition.Run (shmStep sameWidthCast) (fun _ _ => True) ShmKVStore.init
        retypedCalls state ∧
      ¬ ServesLastStored retypedCalls state := by
  have stale :
      (Transition.execute (shmStep sameWidthCast) (fun _ _ => True)
          ShmKVStore.init retypedCalls).any
        (fun state =>
          state.hasItem "w" && givesArrayOf "int32" (state.getArrayTree "w")) = true := by
    decide +kernel
  obtain ⟨state, executed, has⟩ := (Option.any_eq_true _ _).mp stale
  simp only [Bool.and_eq_true] at has
  refine ⟨state, .of_execute executed, fun serves => ?_⟩
  obtain ⟨tree, last, read⟩ := serves "w" has.1
  have isSecond :
      .leaf (.array (oneElement ⟨"uint32", 4⟩ rfl 2)) = tree := by
    simpa [retypedCalls, lastStored, storedTree] using last
  subst isSecond
  rw [read] at has
  simp [givesArrayOf, toDataTree, ArrayLeaf.toTreeLeaf, oneElement] at has

end TensorPC.Kv
