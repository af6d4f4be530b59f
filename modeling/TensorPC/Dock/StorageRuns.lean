import TensorPC.Dock.StorageAgreement

namespace TensorPC.Dock

/-!
# Sequences of calls of a data storage node

Updates, removals and listings, what one permitted call does, and from it what a
sequence of permitted calls answers.
-/

open TensorPC.Draft TensorPC.Computation

variable {F M : Type} {state : NodeState M} {map : PlainMap M} {key : String}

/-! ## Reading what is newer -/

/-- `read_data_if_need_update` gives the entry, or the entry without its data. -/
theorem Represents.readDataIfNeedUpdate_of_some
    {entry : StoredEntry M}
    (node : DataStorageNode F M)
    (represents : Represents state map)
    (inMap : map.get? key = some entry)
    (timestamp : Int) :
    ∃ after item,
      node.readDataIfNeedUpdate key timestamp state = .ok item after ∧
        Represents after map ∧
          (item = entry.item ∨
            timestamp = entry.timestamp ∧ item = { entry.item with data := [] }) := by
  obtain ⟨after, read, represented, -⟩ := represents.readData_of_some node inMap
  cases inMemory : state.storedData.get? key with
  | none =>
      refine ⟨after, entry.item, ?_, represented, .inl rfl⟩
      rw [DataStorageNode.readDataIfNeedUpdate, bind_of_ok (get_eq_ok.mpr ⟨rfl, rfl⟩)]
      simp only [inMemory]
      exact read
  | some item =>
      obtain ⟨other, otherInMap, sameMeta, -⟩ := represents.copies key item inMemory
      rw [inMap, Option.some.injEq] at otherInMap
      subst otherInMap
      by_cases newer : item.stored.userdata.timestamp = timestamp
      · refine ⟨state, { item with data := [] }, ?_, represents, .inr ⟨?_, ?_⟩⟩
        · rw [DataStorageNode.readDataIfNeedUpdate,
            bind_of_ok (get_eq_ok.mpr ⟨rfl, rfl⟩)]
          simp only [inMemory, ne_eq, newer, not_true_eq_false, if_false]
          rfl
        · rw [← newer, sameMeta]
          rfl
        · rw [sameMeta]
          rfl
      · refine ⟨after, entry.item, ?_, represented, .inl rfl⟩
        rw [DataStorageNode.readDataIfNeedUpdate,
          bind_of_ok (get_eq_ok.mpr ⟨rfl, rfl⟩)]
        simp only [inMemory, ne_eq, newer, not_false_eq_true, if_true]
        exact read

/-! ## Removing -/

theorem Represents.eraseStored
    (represents : Represents state map)
    (key : String) :
    Represents { state with storedData := state.storedData.erase key } map := by
  refine represents.withStoredData fun other item found => ?_
  rw [Dict.get?_erase] at found
  split at found
  · cases found
  · exact represents.copies other item found

/-- The node represents the map without the key when its files are gone. -/
theorem Represents.erased
    {entry : StoredEntry M}
    (represents : Represents state map)
    (inMap : map.get? key = some entry)
    (notInMemory : state.storedData.get? key = none)
    (closed :
      FileTree.Closed
        ((state.files.erase (metaFileOf key)).erase (fileOf key entry.type.suffix))) :
    Represents
      { state with
        files :=
          (state.files.erase (metaFileOf key)).erase (fileOf key entry.type.suffix) }
      (map.erase key) := by
  have canonical := represents.canonical key entry inMap
  have stays :
      ∀ other suffix, isCanonicalPath other = true → suffix ∈ fileSuffixes →
        other ≠ key →
        ((state.files.erase (metaFileOf key)).erase
            (fileOf key entry.type.suffix)).get? (fileOf other suffix) =
          state.files.get? (fileOf other suffix) := by
    intro other suffix otherCanonical known different
    have unequal :
        ∀ removed ∈ fileSuffixes, fileOf other suffix ≠ fileOf key removed := by
      intro removed isKnown same
      exact different (fileOf_inj otherCanonical canonical known isKnown same).1
    rw [Dict.get?_erase, if_neg (unequal _ (suffix_mem_fileSuffixes _)),
      Dict.get?_erase, if_neg (unequal _ metaSuffix_mem_fileSuffixes)]
  have wasThere :
      ∀ path found,
        ((state.files.erase (metaFileOf key)).erase
            (fileOf key entry.type.suffix)).get? path = some found →
          path ≠ metaFileOf key ∧ state.files.get? path = some found := by
    intro path found there
    rw [Dict.get?_erase] at there
    split at there
    · cases there
    · rw [Dict.get?_erase] at there
      split at there
      · cases there
      · exact ⟨‹_›, there⟩
  have inErased :
      ∀ other found, (map.erase key).get? other = some found →
        other ≠ key ∧ map.get? other = some found := by
    intro other found there
    rw [Dict.get?_erase] at there
    split at there
    · cases there
    · exact ⟨‹_›, there⟩
  refine ⟨closed, ?_, ?_, ?_, ?_, ?_, ?_⟩
  · intro other found there
    exact represents.canonical other found (inErased other found there).2
  · intro other found there
    obtain ⟨different, inMap⟩ := inErased other found there
    rw [stays other _ (represents.canonical other found inMap)
      metaSuffix_mem_fileSuffixes different]
    exact represents.metaFile other found inMap
  · intro other found there
    obtain ⟨different, inMap⟩ := inErased other found there
    rw [stays other _ (represents.canonical other found inMap)
      (suffix_mem_fileSuffixes _) different]
    exact represents.dataFile other found inMap
  · intro path dict found
    obtain ⟨notRemoved, before⟩ := wasThere path _ found
    obtain ⟨other, inside, isOther⟩ := represents.onlyMetaFiles path dict before
    have different : other ≠ key := by
      rintro rfl
      exact notRemoved isOther
    refine ⟨other, ?_, isOther⟩
    rw [Dict.contains, Dict.get?_erase, if_neg different]
    exact inside
  · intro path data found
    exact represents.onlyDataFiles path data (wasThere path _ found).2
  · intro other item found
    obtain ⟨old, inMap, isCopy⟩ := represents.copies other item found
    have different : other ≠ key := by
      rintro rfl
      rw [notInMemory] at found
      cases found
    refine ⟨old, ?_, isCopy⟩
    rw [Dict.get?_erase, if_neg different, inMap]

theorem forget_eq_ok (state : NodeState M) (key : String) :
    (modify fun state : NodeState M =>
        { state with storedData := state.storedData.erase key } : StorageM M PUnit)
        state =
      .ok ⟨⟩ { state with storedData := state.storedData.erase key } :=
  rfl

/-- `remove_data` of a key in the map removes it. -/
theorem Represents.removeKey_of_some
    {entry : StoredEntry M}
    (node : DataStorageNode F M)
    (represents : Represents state map)
    (inMap : map.get? key = some entry) :
    ∃ after,
      node.removeKey key state = .ok () after ∧ Represents after (map.erase key) := by
  have fits := represents.keyFits inMap
  have forgotten := represents.eraseStored key
  obtain ⟨middle, asked, represented, -, sameItems, isFolder⟩ :=
    forgotten.getMetaPath fits
  obtain ⟨afterRead, read, -, -, -, unchanged⟩ :=
    represented.readMetaDict_of_some node inMap
  have same := unchanged isFolder
  subst same
  have canonical := fits.canonical
  have metaNotFolder : afterRead.files.get? (metaFileOf key) ≠ some .directory := by
    rw [represented.metaFile key entry inMap]
    simp
  have metaGone := FileTree.unlinkIfExists_of_notDirectory metaNotFolder
  have folderStays :
      (afterRead.files.erase (metaFileOf key)).get? (folderOf key) =
        some .directory := by
    rw [Dict.get?_erase, if_neg, isFolder]
    intro same
    exact not_fileOf_prefix_folderOf key metaSuffix (same ▸ List.prefix_rfl)
  have dataNotFolder :
      (afterRead.files.erase (metaFileOf key)).get? (fileOf key entry.type.suffix) ≠
        some .directory := by
    rw [Dict.get?_erase]
    split
    · exact nofun
    · rw [represented.dataFile key entry inMap]
      simp
  have dataGone := FileTree.unlinkIfExists_of_notDirectory dataNotFolder
  have closed :=
    (represented.closed.erase_file metaNotFolder).erase_file dataNotFolder
  have notInMemory : afterRead.storedData.get? key = none := by
    rw [sameItems]
    exact Dict.get?_erase_self _ _
  refine ⟨_, ?_, represented.erased inMap notInMemory closed⟩
  have first :
      onFiles (FileTree.unlinkIfExists (metaFileOf key)) afterRead =
        .ok () { afterRead with files := afterRead.files.erase (metaFileOf key) } := by
    simp only [onFiles, metaGone]
  have path :
      DataStorageNode.removePath key entry.stored.userdata
          { afterRead with files := afterRead.files.erase (metaFileOf key) } =
        .ok (fileOf key entry.type.suffix)
          { afterRead with files := afterRead.files.erase (metaFileOf key) } :=
    getSavePath_of_folder canonical folderStays entry.type
  rw [DataStorageNode.removeKey, bind_of_ok (forget_eq_ok state key), bind_of_ok asked,
    bind_of_ok read, bind_of_ok first, bind_of_ok path]
  simp only [onFiles, dataGone]

theorem Represents.removeKey_of_none
    (node : DataStorageNode F M)
    (represents : Represents state map)
    (fits : KeyFits state.files key)
    (absent : map.get? key = none) :
    ∃ after text,
      node.removeKey key state = .error (.keyError text) after ∧
        Represents after map := by
  have forgotten := represents.eraseStored key
  let forgottenState := { state with storedData := state.storedData.erase key }
  have fitsForgotten : KeyFits forgottenState.files key := fits
  obtain ⟨middle, asked, represented, settles, -, -⟩ :=
    forgotten.getMetaPath fitsForgotten
  obtain ⟨after, text, raised, represents⟩ :=
    represented.readMetaDict_of_none node (fitsForgotten.settles settles) absent
  refine ⟨after, text, ?_, represents⟩
  rw [DataStorageNode.removeKey, bind_of_ok (forget_eq_ok state key), bind_of_ok asked]
  simp only [bind, EStateM.bind, raised]

/-- Keys of the map are removed one after the other. -/
theorem Represents.removeKeys
    (node : DataStorageNode F M)
    {keys : List String}
    (represents : Represents state map)
    (nodup : keys.Nodup)
    (inMap : ∀ key ∈ keys, map.contains key = true) :
    ∃ after,
      keys.forM node.removeKey state = .ok () after ∧
        Represents after (map.eraseAll keys) := by
  induction keys generalizing state map with
  | nil =>
      exact ⟨state, rfl, represents⟩
  | cons first rest inductionHypothesis =>
      rw [List.nodup_cons] at nodup
      obtain ⟨entry, found⟩ := Option.isSome_iff_exists.mp (inMap first (by simp))
      obtain ⟨middle, removed, represented⟩ := represents.removeKey_of_some node found
      have others :
          ∀ key ∈ rest, (map.erase first).contains key = true := by
        intro key member
        have different : key ≠ first := by
          rintro rfl
          exact nodup.1 member
        rw [Dict.contains, Dict.get?_erase, if_neg different]
        exact inMap key (by simp [member])
      obtain ⟨after, computed, final⟩ :=
        inductionHypothesis represented nodup.2 others
      refine ⟨after, ?_, final⟩
      rw [List.forM]
      exact (bind_of_ok removed).trans computed

/-! ## Listing -/

/-- A node that is listed lies at the meta file of a key. -/
theorem Represents.mem_itemPaths
    (node : DataStorageNode F M)
    {path : List PathPart}
    (represents : Represents state map)
    (fit : ItemsFit node state.files)
    (listed : path ∈ node.itemPaths state.files) :
    ∃ key, map.contains key = true ∧ path = metaFileOf key := by
  have notFolder := isDirectory_eq_false.mp (fit path listed)
  simp only [DataStorageNode.itemPaths, List.mem_filter, Bool.and_eq_true,
    (node.walk_perm _).mem_iff, FileTree.descendants] at listed
  obtain ⟨⟨member, -⟩, named, -⟩ := listed
  obtain ⟨found, there⟩ :=
    Option.isSome_iff_exists.mp (Dict.mem_keys_iff.mp member)
  cases found with
  | directory =>
      exact absurd there notFolder
  | file content =>
      cases content with
      | metaText dict =>
          exact represents.onlyMetaFiles path dict there
      | bytes data =>
          exfalso
          obtain ⟨key, type, -, isData⟩ := represents.onlyDataFiles path data there
          subst isData
          simp only [fileOf, List.getLast?_concat, Option.any_some,
            List.isSuffixOf_iff_suffix] at named
          obtain ⟨stem, same⟩ := named
          have inj :=
            name_append_suffix_inj metaSuffix_mem_fileSuffixes
              (suffix_mem_fileSuffixes type) same
          exact metaSuffix_ne_suffix type inj.2

theorem Represents.metaFileOf_mem_itemPaths
    (node : DataStorageNode F M)
    {entry : StoredEntry M}
    (represents : Represents state map)
    (inMap : map.get? key = some entry) :
    metaFileOf key ∈ node.itemPaths state.files := by
  have found := represents.metaFile key entry inMap
  have canonical := represents.canonical key entry inMap
  simp only [DataStorageNode.itemPaths, List.mem_filter, Bool.and_eq_true,
    (node.walk_perm _).mem_iff, FileTree.descendants, List.any_eq_true]
  have isCandidate : metaFileOf key ∈ DataStorageNode.candidates (metaFileOf key) := by
    have notEmpty := nameOf_ne_nil canonical
    have stem := withoutSuffix_append_metaSuffix notEmpty
    simp [DataStorageNode.candidates, PurePath.withoutSuffix, fileOf, stem]
  refine ⟨⟨Dict.mem_keys_iff.mpr (by simp [found]), by simp [fileOf]⟩, ?_,
    metaFileOf key, isCandidate, by simp [Dict.contains, found]⟩
  simp only [fileOf, List.getLast?_concat, Option.any_some,
    List.isSuffixOf_iff_suffix]
  exact List.suffix_append _ _

/-- `get_items` lists the keys of the map. -/
theorem Represents.getItems
    (node : DataStorageNode F M)
    (represents : Represents state map)
    (fit : ItemsFit node state.files) :
    ∃ keys, node.getItems state = .ok keys state ∧ keys.Perm map.keys := by
  by_cases isRoot : state.files.contains [] = true
  · refine ⟨(node.itemPaths state.files).map DataStorageNode.itemKey, ?_, ?_⟩
    · rw [DataStorageNode.getItems, bind_of_ok (get_eq_ok.mpr ⟨rfl, rfl⟩), if_pos isRoot]
      rfl
    · have listedKey :
          ∀ path ∈ node.itemPaths state.files,
            metaFileOf (DataStorageNode.itemKey path) = path ∧
              map.contains (DataStorageNode.itemKey path) = true := by
        intro path listed
        obtain ⟨key, inside, rfl⟩ := represents.mem_itemPaths node fit listed
        obtain ⟨entry, inMap⟩ := Option.isSome_iff_exists.mp inside
        rw [itemKey_fileOf (represents.canonical key entry inMap)]
        exact ⟨rfl, inside⟩
      have nodupPaths : (node.itemPaths state.files).Nodup := by
        apply List.Nodup.filter
        apply (node.walk_perm _).nodup_iff.mpr
        exact (Dict.nodup_keys state.files).filter _
      have nodup : ((node.itemPaths state.files).map DataStorageNode.itemKey).Nodup := by
        apply nodupPaths.map_on
        intro first firstListed second secondListed same
        rw [← (listedKey first firstListed).1, ← (listedKey second secondListed).1, same]
      refine (List.perm_ext_iff_of_nodup nodup (Dict.nodup_keys map)).mpr fun key => ?_
      rw [List.mem_map, Dict.mem_keys_iff]
      constructor
      · rintro ⟨path, listed, rfl⟩
        exact (listedKey path listed).2
      · intro inside
        obtain ⟨entry, inMap⟩ := Option.isSome_iff_exists.mp inside
        exact ⟨metaFileOf key, represents.metaFileOf_mem_itemPaths node inMap,
          itemKey_fileOf (represents.canonical key entry inMap)⟩
  · refine ⟨[], ?_, ?_⟩
    · rw [DataStorageNode.getItems, bind_of_ok (get_eq_ok.mpr ⟨rfl, rfl⟩), if_neg isRoot]
      rfl
    · have noKey : map.keys = [] := by
        refine List.eq_nil_iff_forall_not_mem.mpr fun key member => isRoot ?_
        obtain ⟨entry, inMap⟩ :=
          Option.isSome_iff_exists.mp (Dict.mem_keys_iff.mp member)
        have root :=
          represents.closed _ _ (represents.metaFile key entry inMap) []
            List.nil_prefix (by simp [fileOf])
        simp [Dict.contains, root]
      rw [noKey]

/-! ## Updating and renaming -/

section Calls

variable [PyBuiltins F]

/-- `update_storage_data` stores the entry that the map stores, or raises as it does. -/
theorem Represents.updateStorageData
    (node : DataStorageNode F M)
    {createType : StorageType}
    (represents : Represents state map)
    (fits : WriteFits state.files key createType)
    (timestamp : Int)
    (ops : List (DraftUpdateOp F)) :
    match map.updatedEntry node key timestamp ops createType with
    | .ok entry =>
        ∃ after,
          node.updateStorageData key timestamp ops createType state = .ok true after ∧
            Represents after (map.set key entry)
    | .error raised =>
        ∃ after,
          node.updateStorageData key timestamp ops createType state =
              .error raised after ∧
            Represents after map := by
  obtain ⟨asked, isThere, represented, settles⟩ := represents.hasDataItem fits.1
  have fitsAsked := fits.settles settles
  have mayWrite : ¬(map.contains key && false) = true := by
    simp
  unfold PlainMap.updatedEntry
  cases inMap : map.get? key with
  | some old =>
      obtain ⟨read, found, represented, settled⟩ :=
        represented.readData_of_some node inMap
      rw [Dict.contains, inMap] at isThere
      cases computed : node.updatedData old.item ops with
      | error raised =>
          simp only [Except.map, computed]
          refine ⟨read, ?_, represented⟩
          rw [DataStorageNode.updateStorageData, bind_of_ok isThere]
          simp only [Option.isSome_some, if_true]
          rw [bind_of_ok found]
          exact bind_of_error (by simp [ofResult, computed])
      | ok data =>
          have fitsRead : WriteFits read.files key old.type :=
            ⟨fitsAsked.1.settles settled, fitsAsked.2.1.settles settled,
              represented.dataFits inMap⟩
          obtain ⟨after, saved, final⟩ :=
            represented.saveData_of_writes node
              ⟨data, old.fields, timestamp, old.type⟩ fitsRead mayWrite
          simp only [Except.map, computed]
          refine ⟨after, ?_, final⟩
          rw [DataStorageNode.updateStorageData, bind_of_ok isThere]
          simp only [Option.isSome_some, if_true]
          rw [bind_of_ok found, bind_of_ok (ofResult_of_ok computed)]
          exact (bind_of_ok saved).trans rfl
  | none =>
      rw [Dict.contains, inMap] at isThere
      cases computed : node.createdData key ops createType with
      | error raised =>
          simp only [Except.map]
          refine ⟨asked, ?_, represented⟩
          rw [DataStorageNode.updateStorageData, bind_of_ok isThere]
          simp only [Option.isSome_none, Bool.false_eq_true, if_false]
          exact bind_of_error (by simp [ofResult, computed])
      | ok data =>
          obtain ⟨after, saved, final⟩ :=
            represented.saveData_of_writes node
              ⟨data, ⟨[key], key, objectType, node.defaultOthers⟩, timestamp,
                createType⟩
              fitsAsked mayWrite
          simp only [Except.map]
          refine ⟨after, ?_, final⟩
          rw [DataStorageNode.updateStorageData, bind_of_ok isThere]
          simp only [Option.isSome_none, Bool.false_eq_true, if_false]
          rw [bind_of_ok (ofResult_of_ok computed)]
          exact (bind_of_ok saved).trans rfl

omit [PyBuiltins F] in
/-- A rename that is rightly refused changes nothing, and the map refuses it too. -/
theorem Represents.renameData
    (node : DataStorageNode F M)
    {newName : String}
    (represents : Represents state map)
    (refused : RightlyRefused state key newName) :
    node.renameData key newName state = .ok (some false) state ∧
      map.renames key newName = false := by
  by_cases same : key = newName
  · subst same
    refine ⟨?_, by simp [PlainMap.renames]⟩
    rw [DataStorageNode.renameData, bind_of_ok (get_eq_ok.mpr ⟨rfl, rfl⟩), if_pos rfl]
    rfl
  · rcases refused with isSame | notHeld | newInMemory | ⟨fits, newHeld, notInMemory⟩
    · exact absurd isSame same
    · have absent : map.contains key = false := by
        refine Bool.eq_false_iff.mpr fun inside => ?_
        have held := represents.holds_of_contains inside
        simp [held] at notHeld
      have notInMemory : state.storedData.get? key = none :=
        represents.storedData_eq_none (Option.not_isSome_iff_eq_none.mp (by
          simpa [Dict.contains] using absent))
      refine ⟨?_, by simp [PlainMap.renames, absent]⟩
      rw [DataStorageNode.renameData, bind_of_ok (get_eq_ok.mpr ⟨rfl, rfl⟩), if_neg same]
      simp only [notInMemory]
      rfl
    · have newInside := represents.contains_of_storedData newInMemory
      refine ⟨?_, by simp [PlainMap.renames, newInside]⟩
      rw [DataStorageNode.renameData, bind_of_ok (get_eq_ok.mpr ⟨rfl, rfl⟩), if_neg same]
      cases state.storedData.get? key with
      | none =>
          rfl
      | some item =>
          simp only [newInMemory, if_true]
          rfl
    · have newInside := represents.contains_of_holds fits newHeld
      have absent : state.storedData.get? key = none := by
        simpa [Dict.contains] using notInMemory
      refine ⟨?_, by simp [PlainMap.renames, newInside]⟩
      rw [DataStorageNode.renameData, bind_of_ok (get_eq_ok.mpr ⟨rfl, rfl⟩), if_neg same]
      simp only [absent]
      rfl

/-! ## Calls -/

theorem step_of_ok
    {node : DataStorageNode F M}
    {call : StorageCall F M}
    {after : NodeState M}
    {answer : StorageAnswer M}
    (computed : node.run call state = .ok answer after) :
    node.step state call = (.ok answer, after) := by
  simp [DataStorageNode.step, computed]

theorem step_of_error
    {node : DataStorageNode F M}
    {call : StorageCall F M}
    {after : NodeState M}
    {raised : PyError}
    (computed : node.run call state = .error raised after) :
    node.step state call = (.error raised, after) := by
  simp [DataStorageNode.step, computed]

/-- A permitted call answers as the map does, and leaves the map after it. -/
theorem Represents.step
    (node : DataStorageNode F M)
    {call : StorageCall F M}
    (represents : Represents state map)
    (permitted : Permitted node state call) :
    map.Answers node call (node.step state call).1 ∧
      Represents (node.step state call).2 (map.after node call) := by
  cases call with
  | saveData key data fields timestamp raiseIfExist type =>
      simp only [PlainMap.Answers, PlainMap.after]
      by_cases raises : (map.contains key && raiseIfExist) = true
      · obtain ⟨after, text, raised, represented⟩ :=
          represents.saveData_of_raises node ⟨data, fields, timestamp, type⟩
            permitted.1 raises
        rw [step_of_error (bind_of_error raised), if_pos raises, if_pos raises]
        exact ⟨⟨text, rfl⟩, represented⟩
      · obtain ⟨after, saved, represented⟩ :=
          represents.saveData_of_writes node ⟨data, fields, timestamp, type⟩
            permitted raises
        rw [step_of_ok ((bind_of_ok saved).trans rfl), if_neg raises, if_neg raises]
        exact ⟨rfl, represented⟩
  | updateStorageData key timestamp ops createType =>
      have updated := represents.updateStorageData node permitted timestamp ops
      simp only [PlainMap.Answers, PlainMap.after]
      cases computed : map.updatedEntry node key timestamp ops createType with
      | error raised =>
          simp only [computed] at updated
          obtain ⟨after, raises, represented⟩ := updated
          rw [step_of_error (map_of_error raises)]
          exact ⟨rfl, represented⟩
      | ok entry =>
          simp only [computed] at updated
          obtain ⟨after, saved, represented⟩ := updated
          rw [step_of_ok (map_of_ok saved)]
          exact ⟨rfl, represented⟩
  | readData key =>
      simp only [PlainMap.Answers, PlainMap.after]
      cases inMap : map.get? key with
      | some entry =>
          obtain ⟨after, found, represented, -⟩ := represents.readData_of_some node inMap
          rw [step_of_ok (map_of_ok found)]
          exact ⟨rfl, represented⟩
      | none =>
          obtain ⟨-, after, text, raised, represented⟩ :=
            represents.readData_of_none node permitted inMap
          rw [step_of_error (map_of_error raised)]
          exact ⟨⟨text, rfl⟩, represented⟩
  | readDataIfNeedUpdate key timestamp =>
      simp only [PlainMap.Answers, PlainMap.after]
      cases inMap : map.get? key with
      | some entry =>
          obtain ⟨after, item, found, represented, whole | ⟨same, withheld⟩⟩ :=
            represents.readDataIfNeedUpdate_of_some node inMap timestamp
          · rw [step_of_ok (map_of_ok found), whole]
            exact ⟨.inl rfl, represented⟩
          · rw [step_of_ok (map_of_ok found), withheld]
            exact ⟨.inr ⟨same, rfl⟩, represented⟩
      | none =>
          obtain ⟨notInMemory, after, text, raised, represented⟩ :=
            represents.readData_of_none node permitted inMap
          have raises :
              node.readDataIfNeedUpdate key timestamp state =
                .error (.keyError text) after := by
            rw [DataStorageNode.readDataIfNeedUpdate,
              bind_of_ok (get_eq_ok.mpr ⟨rfl, rfl⟩)]
            simp only [notInMemory]
            exact raised
          rw [step_of_error (map_of_error raises)]
          exact ⟨⟨text, rfl⟩, represented⟩
  | hasDataItem key =>
      obtain ⟨after, found, represented, -⟩ := represents.hasDataItem permitted
      rw [step_of_ok (map_of_ok found)]
      exact ⟨rfl, represented⟩
  | getItems =>
      obtain ⟨keys, listed, isPerm⟩ := represents.getItems node permitted
      rw [step_of_ok (map_of_ok listed)]
      exact ⟨⟨keys, rfl, isPerm⟩, represents⟩
  | readMetaDict key =>
      simp only [PlainMap.Answers, PlainMap.after]
      cases inMap : map.get? key with
      | some entry =>
          obtain ⟨after, found, represented, -⟩ :=
            represents.readMetaDict_of_some node inMap
          rw [step_of_ok (map_of_ok found)]
          exact ⟨rfl, represented⟩
      | none =>
          obtain ⟨after, text, raised, represented⟩ :=
            represents.readMetaDict_of_none node permitted inMap
          rw [step_of_error (map_of_error raised)]
          exact ⟨⟨text, rfl⟩, represented⟩
  | renameData key newName =>
      obtain ⟨refused, mapRefuses⟩ := represents.renameData node permitted
      rw [step_of_ok ((bind_of_ok refused).trans rfl)]
      refine ⟨by simp [PlainMap.Answers, mapRefuses], ?_⟩
      simp only [PlainMap.after, mapRefuses]
      cases map.get? key <;> exact represents
  | removeData key =>
      cases key with
      | none =>
          obtain ⟨keys, listed, isPerm⟩ := represents.getItems node permitted
          obtain ⟨after, removed, represented⟩ :=
            represents.removeKeys node (isPerm.nodup_iff.mpr map.nodup_keys)
              fun key member => Dict.mem_keys_iff.mp (isPerm.mem_iff.mp member)
          have allRemoved : node.removeData none state = .ok () after :=
            (bind_of_ok listed).trans removed
          rw [step_of_ok ((bind_of_ok allRemoved).trans rfl)]
          refine ⟨rfl, ?_⟩
          rw [Dict.eraseAll_eq_empty fun key member => isPerm.mem_iff.mpr member]
            at represented
          exact represented
      | some key =>
          simp only [PlainMap.Answers, PlainMap.after]
          cases inMap : map.get? key with
          | some entry =>
              obtain ⟨after, removed, represented⟩ :=
                represents.removeKey_of_some node inMap
              rw [step_of_ok ((bind_of_ok removed).trans rfl)]
              exact ⟨by simp [Dict.contains, inMap], represented⟩
          | none =>
              obtain ⟨after, text, raised, represented⟩ :=
                represents.removeKey_of_none node permitted inMap
              rw [step_of_error (bind_of_error raised)]
              refine ⟨by simp [Dict.contains, inMap, PlainMap.IsKeyError], ?_⟩
              rw [Dict.erase_of_get?_eq_none inMap]
              exact represented
  | restart =>
      refine ⟨rfl, ?_⟩
      refine represents.withStoredData ?_
      intro key item found
      cases found

theorem Represents.trace_agrees
    (node : DataStorageNode F M)
    {calls : List (StorageCall F M)}
    (represents : Represents state map)
    (permitted : AllPermitted node state calls) :
    map.Agrees node (node.trace state calls) := by
  induction calls generalizing state map with
  | nil =>
      trivial
  | cons call rest inductionHypothesis =>
      obtain ⟨answers, represented⟩ := represents.step node permitted.1
      exact ⟨answers, inductionHypothesis represented permitted.2⟩

omit [PyBuiltins F] in
theorem represents_init : Represents (NodeState.init : NodeState M) .empty where
  closed _ _ found := nomatch found
  canonical _ _ inMap := nomatch inMap
  metaFile _ _ inMap := nomatch inMap
  dataFile _ _ inMap := nomatch inMap
  onlyMetaFiles _ _ found := nomatch found
  onlyDataFiles _ _ found := nomatch found
  copies _ _ found := nomatch found

/-- From a new node on, permitted calls answer as a plain map does. -/
theorem storageTrace_agrees
    (node : DataStorageNode F M)
    (calls : List (StorageCall F M))
    (permitted : AllPermitted node .init calls) :
    PlainMap.Agrees node .empty (node.trace .init calls) :=
  represents_init.trace_agrees node permitted

end Calls

/-! ## A small node -/

/-- A node that keeps one byte in memory and decodes every object to `None`. -/
def smallNode : DataStorageNode WholeFloat Unit where
  inMemoryLimit := 1
  walk := id
  walk_perm _ := .rfl
  folder := "/storage/graph"
  defaultOthers := ()
  jsonLoads _ := .ok .none
  jsonDumps _ := .ok [110]
  arrayLoads _ := .ok .none
  arrayDumps _ := .ok [192]
  pickleLoad data := .ok data
  opText _ := ""

/-- The fields of a meta. -/
def smallFields : JsonLikeNode Unit :=
  ⟨["m"], "m", objectType, ()⟩

/-- Saved, listed, kept over a restart, read, refused and removed. -/
def permittedCalls : List (StorageCall WholeFloat Unit) :=
  [.saveData "a.b" [1, 2] smallFields 5 false .raw,
    .saveData "x/c" [] smallFields 6 true .json,
    .getItems,
    .restart,
    .readDataIfNeedUpdate "a.b" 5,
    .updateStorageData "x/c" 7 [] .json,
    .saveData "a.b" [3] smallFields 8 false .jsonArray,
    .renameData "a.b" "x/c",
    .removeData none,
    .hasDataItem "a.b"]

theorem storageTrace_agrees_sample :
    PlainMap.Agrees smallNode .empty (smallNode.trace .init permittedCalls) :=
  storageTrace_agrees smallNode permittedCalls (by decide +kernel)

/-- The keys that a call names. -/
def StorageCall.keys {F M : Type} : StorageCall F M → List String
  | .saveData key _ _ _ _ _ => [key]
  | .updateStorageData key _ _ _ => [key]
  | .readData key => [key]
  | .readDataIfNeedUpdate key _ => [key]
  | .hasDataItem key => [key]
  | .readMetaDict key => [key]
  | .renameData key newName => [key, newName]
  | .removeData key => key.toList
  | .getItems => []
  | .restart => []

/-- A renamed key is still there. -/
theorem storageTrace_not_agrees :
    ¬∀ calls : List (StorageCall WholeFloat Unit),
        (∀ call ∈ calls, ∀ key ∈ call.keys, isCanonicalPath key = true) →
          PlainMap.Agrees smallNode .empty (smallNode.trace .init calls) := by
  intro agrees
  obtain ⟨-, -, answered, -⟩ :=
    agrees
      [.saveData "a" [1] smallFields 5 false .raw, .renameData "a" "b",
        .hasDataItem "a"]
      (by decide +kernel)
  simp only [PlainMap.Answers] at answered
  revert answered
  decide +kernel

end TensorPC.Dock
