import TensorPC.Dock.StorageMap

namespace TensorPC.Dock

/-!
# A node answers like its map

Each operation, on a node that represents a map, gives the map's answer and
leaves a node that represents the map after the call.
-/

open TensorPC.Draft TensorPC.Computation

variable {F M : Type} {state : NodeState M} {map : PlainMap M} {key : String}

/-! ## Reaching the files of a key -/

/-- The files stay as they are, but for folders on the way to a key. -/
structure Settles (key : String) (before after : NodeState M) : Prop where
  elsewhere :
    ∀ path, ¬path <+: folderOf key →
      after.files.get? path = before.files.get? path
  onTheWay :
    ∀ path, path <+: folderOf key →
      after.files.get? path = some .directory ∨
        after.files.get? path = before.files.get? path

namespace Settles

variable {before middle after : NodeState M}

theorem refl : Settles key before before where
  elsewhere _ _ := rfl
  onTheWay _ _ := .inr rfl

theorem fileOf
    (settles : Settles key before after)
    (suffix : List Char) :
    after.files.get? (fileOf key suffix) =
      before.files.get? (Dock.fileOf key suffix) :=
  settles.elsewhere _ (not_fileOf_prefix_folderOf key suffix)

end Settles

theorem KeyFits.settles
    {before after : NodeState M}
    (fits : KeyFits before.files key)
    (settles : Settles key before after) :
    KeyFits after.files key where
  canonical := fits.canonical
  openPath above isAbove := by
    have notFile := fits.openPath above isAbove
    simp only [FileTree.isFile] at notFile ⊢
    rcases settles.onTheWay above ((List.mem_inits _ _).mp isAbove) with made | same
    · rw [made]
    · rw [same]
      exact notFile
  notFolder := by
    rw [isDirectory_eq_false, settles.fileOf]
    exact isDirectory_eq_false.mp fits.notFolder

theorem DataFits.settles
    {before after : NodeState M}
    {type : StorageType}
    (fits : DataFits before.files key type)
    (settles : Settles key before after) :
    DataFits after.files key type := by
  rw [DataFits, isDirectory_eq_false, settles.fileOf]
  exact isDirectory_eq_false.mp fits

theorem WriteFits.settles
    {before after : NodeState M}
    {type : StorageType}
    (fits : WriteFits before.files key type)
    (settles : Settles key before after) :
    WriteFits after.files key type :=
  ⟨fits.1.settles settles, fits.2.1.settles settles, fits.2.2.settles settles⟩

theorem Represents.keyFits
    {entry : StoredEntry M}
    (represents : Represents state map)
    (inMap : map.get? key = some entry) :
    KeyFits state.files key where
  canonical := represents.canonical key entry inMap
  openPath above isAbove := by
    have isAbove := (List.mem_inits _ _).mp isAbove
    have directory :=
      represents.closed _ _ (represents.metaFile key entry inMap) above
        (isAbove.trans (List.prefix_append _ _))
        fun same => not_fileOf_prefix_folderOf key _ (same ▸ isAbove)
    simp [FileTree.isFile, directory]
  notFolder := by
    rw [isDirectory_eq_false, represents.metaFile key entry inMap]
    simp

theorem Represents.dataFits
    {entry : StoredEntry M}
    (represents : Represents state map)
    (inMap : map.get? key = some entry) :
    DataFits state.files key entry.type := by
  rw [DataFits, isDirectory_eq_false, represents.dataFile key entry inMap]
  simp

/-- A node with the same files and items represents the same map. -/
theorem Represents.of_sameFiles
    {after : NodeState M}
    (represents : Represents state map)
    (closed : after.files.Closed)
    (sameFiles :
      ∀ path content,
        after.files.get? path = some (.file content) ↔
          state.files.get? path = some (.file content))
    (sameItems : after.storedData = state.storedData) :
    Represents after map where
  closed := closed
  canonical := represents.canonical
  metaFile key entry inMap :=
    (sameFiles _ _).mpr (represents.metaFile key entry inMap)
  dataFile key entry inMap :=
    (sameFiles _ _).mpr (represents.dataFile key entry inMap)
  onlyMetaFiles path dict found :=
    represents.onlyMetaFiles path dict ((sameFiles _ _).mp found)
  onlyDataFiles path data found :=
    represents.onlyDataFiles path data ((sameFiles _ _).mp found)
  copies key item found :=
    represents.copies key item (sameItems ▸ found)

theorem checkAndSplitKey_of_isCanonicalPath
    (canonical : isCanonicalPath key = true) :
    checkAndSplitKey key = .ok (folderOf key ++ [nameOf key]) := by
  have parts := parts_of_isCanonicalPath canonical
  have allParts := List.all_eq_true.mp canonical
  have asserted :
      ∀ parts : List PathPart,
        (∀ part ∈ parts, part ≠ []) →
        (parts.forM fun part =>
          pyAssert (!part.isEmpty) (key ++ " contains empty part.")) = .ok () := by
    intro parts notEmpty
    induction parts with
    | nil =>
        rfl
    | cons part rest inductionHypothesis =>
        have head :
            pyAssert (!part.isEmpty) (key ++ " contains empty part.") = .ok () := by
          simpa [pyAssert] using notEmpty part (by simp)
        have others :=
          inductionHypothesis fun part member => notEmpty part (by simp [member])
        simp only [List.forM, head]
        exact others
  have notEmpty : ∀ part ∈ (PurePath.ofString key).parts, part ≠ [] := by
    rw [ofString_of_isCanonicalPath canonical]
    intro part member
    have each := allParts part member
    simp only [Bool.and_eq_true, bne_iff_ne] at each
    exact each.1.1
  have passed := asserted _ notEmpty
  rw [parts] at passed
  simp only [checkAndSplitKey, parts, passed]
  rfl

theorem getAndCreateStorageRootPath_of_folder
    (canonical : isCanonicalPath key = true)
    (isFolder : state.files.get? (folderOf key) = some .directory) :
    getAndCreateStorageRootPath key state =
      .ok (folderOf key, nameOf key) state := by
  simp [getAndCreateStorageRootPath, bind, EStateM.bind, ofResult, onFiles,
    checkAndSplitKey_of_isCanonicalPath canonical, FileTree.ensureDirs,
    Dict.contains, isFolder, pure, EStateM.pure]

theorem getSavePath_of_folder
    (canonical : isCanonicalPath key = true)
    (isFolder : state.files.get? (folderOf key) = some .directory)
    (type : StorageType) :
    getSavePath key type state = .ok (fileOf key type.suffix) state := by
  rw [getSavePath,
    bind_of_ok (getAndCreateStorageRootPath_of_folder canonical isFolder)]
  rfl

theorem getMetaPath_of_folder
    (canonical : isCanonicalPath key = true)
    (isFolder : state.files.get? (folderOf key) = some .directory) :
    getMetaPath key state = .ok (metaFileOf key) state := by
  rw [getMetaPath,
    bind_of_ok (getAndCreateStorageRootPath_of_folder canonical isFolder)]
  rfl

/-- The folder of a key that fits is there after it is asked for. -/
theorem Represents.getAndCreateStorageRootPath
    (represents : Represents state map)
    (fits : KeyFits state.files key) :
    ∃ after,
      Dock.getAndCreateStorageRootPath key state =
          .ok (folderOf key, nameOf key) after ∧
        Represents after map ∧ Settles key state after ∧
          after.storedData = state.storedData ∧
            after.files.get? (folderOf key) = some .directory := by
  obtain ⟨files, made, closed, lookup⟩ :=
    FileTree.ensureDirs_of_openPath represents.closed fits.openPath
  have computed :
      Dock.getAndCreateStorageRootPath key state =
        .ok (folderOf key, nameOf key) { state with files := files } := by
    simp [Dock.getAndCreateStorageRootPath, bind, EStateM.bind, ofResult, onFiles,
      checkAndSplitKey_of_isCanonicalPath fits.canonical, made, pure, EStateM.pure]
  have sameFiles :
      ∀ path content,
        files.get? path = some (.file content) ↔
          state.files.get? path = some (.file content) := by
    intro path content
    rw [lookup]
    split
    · rename_i isAbove
      constructor
      · intro found
        cases found
      · intro found
        cases fits.openPath.directory isAbove found
    · rfl
  refine ⟨_, computed, represents.of_sameFiles closed sameFiles rfl, ⟨?_, ?_⟩, rfl, ?_⟩
  · intro path notAbove
    rw [lookup, if_neg notAbove]
  · intro path isAbove
    exact .inl (by rw [lookup, if_pos isAbove])
  · rw [lookup, if_pos List.prefix_rfl]

theorem Represents.getMetaPath
    (represents : Represents state map)
    (fits : KeyFits state.files key) :
    ∃ after,
      Dock.getMetaPath key state = .ok (metaFileOf key) after ∧
        Represents after map ∧ Settles key state after ∧
          after.storedData = state.storedData ∧
            after.files.get? (folderOf key) = some .directory := by
  obtain ⟨after, computed, rest⟩ := represents.getAndCreateStorageRootPath fits
  refine ⟨after, ?_, rest⟩
  rw [Dock.getMetaPath, bind_of_ok computed]
  rfl

theorem Represents.getSavePath
    (represents : Represents state map)
    (fits : KeyFits state.files key)
    (type : StorageType) :
    ∃ after,
      Dock.getSavePath key type state = .ok (fileOf key type.suffix) after ∧
        Represents after map ∧ Settles key state after ∧
          after.storedData = state.storedData ∧
            after.files.get? (folderOf key) = some .directory := by
  obtain ⟨after, computed, rest⟩ := represents.getAndCreateStorageRootPath fits
  refine ⟨after, ?_, rest⟩
  rw [Dock.getSavePath, bind_of_ok computed]
  rfl

/-! ## Reading -/

theorem pathExists_of_get?
    {path : List PathPart}
    {found : Option (FileNode (StorageFile M))}
    (there : state.files.get? path = found) :
    pathExists path state = .ok found.isSome state := by
  simp [pathExists, Dict.contains, there]

theorem loadMeta_of_get?
    {path : List PathPart}
    {dict : StorageMeta M}
    (found : state.files.get? path = some (.file (.metaText dict))) :
    loadMeta path state = .ok dict state := by
  simp [loadMeta, FileTree.readFile, found]

theorem readBytes_of_get?
    {path : List PathPart}
    {data : List UInt8}
    (found : state.files.get? path = some (.file (.bytes data))) :
    readBytes path state = .ok data state := by
  simp [readBytes, FileTree.readFile, found]

/-- `has_data_item` answers whether the map has the key. -/
theorem Represents.hasDataItem
    (represents : Represents state map)
    (fits : KeyFits state.files key) :
    ∃ after,
      DataStorageNode.hasDataItem key state = .ok (map.contains key) after ∧
        Represents after map ∧ Settles key state after := by
  by_cases inMemory : state.storedData.contains key = true
  · refine ⟨state, ?_, represents, .refl⟩
    rw [represents.contains_of_storedData inMemory]
    simp [DataStorageNode.hasDataItem, bind, EStateM.bind, Computation.get_apply,
      inMemory, pure, EStateM.pure]
  · obtain ⟨after, computed, represented, settles, -, -⟩ :=
      represents.getMetaPath fits
    refine ⟨after, ?_, represented, settles⟩
    have fitsAfter := fits.settles settles
    have there :=
      represented.get?_metaFileOf fitsAfter.canonical fitsAfter.notFolder
    have exists' := pathExists_of_get? there
    rw [Option.isSome_map] at exists'
    rw [DataStorageNode.hasDataItem, bind_of_ok (get_eq_ok.mpr ⟨rfl, rfl⟩),
      if_neg inMemory, bind_of_ok computed]
    exact exists'

/-- The meta of an entry is read. -/
theorem Represents.readMetaDict_of_some
    {entry : StoredEntry M}
    (node : DataStorageNode F M)
    (represents : Represents state map)
    (inMap : map.get? key = some entry) :
    ∃ after,
      node.readMetaDict key state = .ok entry.stored after ∧
        Represents after map ∧ Settles key state after ∧
          after.storedData = state.storedData ∧
            (state.files.get? (folderOf key) = some .directory →
              after = state) := by
  cases inMemory : state.storedData.get? key with
  | some item =>
      obtain ⟨other, otherInMap, sameMeta, -⟩ := represents.copies key item inMemory
      rw [inMap, Option.some.injEq] at otherInMap
      subst otherInMap
      refine ⟨state, ?_, represents, .refl, rfl, fun _ => rfl⟩
      rw [DataStorageNode.readMetaDict, bind_of_ok (get_eq_ok.mpr ⟨rfl, rfl⟩)]
      simp only [inMemory, sameMeta]
      rfl
  | none =>
      have fits := represents.keyFits inMap
      obtain ⟨after, computed, represented, settles, sameItems, isFolder⟩ :=
        represents.getMetaPath fits
      have found := represented.metaFile key entry inMap
      refine ⟨after, ?_, represented, settles, sameItems, fun wasFolder => ?_⟩
      · rw [DataStorageNode.readMetaDict, bind_of_ok (get_eq_ok.mpr ⟨rfl, rfl⟩)]
        simp only [inMemory]
        rw [bind_of_ok computed, bind_of_ok (pathExists_of_get? found)]
        exact loadMeta_of_get? found
      · have unchanged := getMetaPath_of_folder fits.canonical wasFolder
        rw [unchanged] at computed
        cases computed
        rfl

theorem Represents.storedData_eq_none
    (represents : Represents state map)
    (absent : map.get? key = none) :
    state.storedData.get? key = none := by
  cases inMemory : state.storedData.get? key with
  | none =>
      rfl
  | some item =>
      obtain ⟨entry, inMap, -⟩ := represents.copies key item inMemory
      simp [absent] at inMap

theorem Represents.readMetaDict_of_none
    (node : DataStorageNode F M)
    (represents : Represents state map)
    (fits : KeyFits state.files key)
    (absent : map.get? key = none) :
    ∃ after text,
      node.readMetaDict key state = .error (.keyError text) after ∧
        Represents after map := by
  have notInMemory := represents.storedData_eq_none absent
  obtain ⟨after, computed, represented, settles, -, -⟩ := represents.getMetaPath fits
  have fitsAfter := fits.settles settles
  have there := represented.get?_metaFileOf fitsAfter.canonical fitsAfter.notFolder
  rw [absent] at there
  refine ⟨after, notExistsText node key (metaFileOf key), ?_, represented⟩
  rw [DataStorageNode.readMetaDict, bind_of_ok (get_eq_ok.mpr ⟨rfl, rfl⟩)]
  simp only [notInMemory]
  rw [bind_of_ok computed, bind_of_ok (pathExists_of_get? there)]
  rfl

theorem kept_copies
    (node : DataStorageNode F M)
    (entry : StoredEntry M) :
    (node.kept entry.item).stored = entry.stored ∧
      ((node.kept entry.item).data = [] ∨ (node.kept entry.item).data = entry.data) := by
  unfold DataStorageNode.kept
  split
  · exact ⟨rfl, .inr rfl⟩
  · exact ⟨rfl, .inl rfl⟩

theorem Represents.setStored
    {entry : StoredEntry M}
    (node : DataStorageNode F M)
    (represents : Represents state map)
    (inMap : map.get? key = some entry) :
    Represents
      { state with storedData := state.storedData.set key (node.kept entry.item) }
      map := by
  refine represents.withStoredData fun other item found => ?_
  rw [Dict.get?_set] at found
  split at found
  · rename_i same
    subst same
    cases found
    exact ⟨entry, inMap, kept_copies node entry⟩
  · exact represents.copies other item found

/-- An entry is read from the files. -/
theorem Represents.readDataFromFiles_of_some
    {entry : StoredEntry M}
    (node : DataStorageNode F M)
    (represents : Represents state map)
    (inMap : map.get? key = some entry) :
    ∃ after,
      node.readDataFromFiles key state = .ok entry.item after ∧
        Represents after map ∧ Settles key state after := by
  have fits := represents.keyFits inMap
  obtain ⟨after, computed, represented, settles, -, isFolder⟩ :=
    represents.getMetaPath fits
  have metaFound := represented.metaFile key entry inMap
  have dataFound := represented.dataFile key entry inMap
  have readPath :
      DataStorageNode.readPath key entry.stored.userdata after =
        .ok (fileOf key entry.type.suffix) after :=
    getSavePath_of_folder fits.canonical isFolder entry.type
  refine ⟨_, ?_, represented.setStored node inMap,
    ⟨settles.elsewhere, settles.onTheWay⟩⟩
  rw [DataStorageNode.readDataFromFiles, bind_of_ok computed,
    bind_of_ok (pathExists_of_get? metaFound)]
  simp only [Option.isSome_some, if_true]
  rw [bind_of_ok (loadMeta_of_get? metaFound), bind_of_ok readPath,
    bind_of_ok (pathExists_of_get? dataFound)]
  simp only [Option.isSome_some, if_true]
  rw [bind_of_ok (readBytes_of_get? dataFound)]
  rfl

/-- `read_data` gives the entry. -/
theorem Represents.readData_of_some
    {entry : StoredEntry M}
    (node : DataStorageNode F M)
    (represents : Represents state map)
    (inMap : map.get? key = some entry) :
    ∃ after,
      node.readData key state = .ok entry.item after ∧
        Represents after map ∧ Settles key state after := by
  have fromFiles := represents.readDataFromFiles_of_some node inMap
  cases inMemory : state.storedData.get? key with
  | none =>
      obtain ⟨after, computed, rest⟩ := fromFiles
      refine ⟨after, ?_, rest⟩
      rw [DataStorageNode.readData, bind_of_ok (get_eq_ok.mpr ⟨rfl, rfl⟩)]
      simp only [inMemory]
      exact computed
  | some item =>
      obtain ⟨other, otherInMap, sameMeta, sameData⟩ :=
        represents.copies key item inMemory
      rw [inMap, Option.some.injEq] at otherInMap
      subst otherInMap
      by_cases hasData : item.data.length > 0
      · have whole : item = entry.item := by
          rcases sameData with empty | same
          · simp [empty] at hasData
          · cases item
            simp_all [StoredEntry.item]
        subst whole
        refine ⟨state, ?_, represents, .refl⟩
        rw [DataStorageNode.readData, bind_of_ok (get_eq_ok.mpr ⟨rfl, rfl⟩)]
        simp only [inMemory, if_pos hasData]
        rfl
      · obtain ⟨after, computed, rest⟩ := fromFiles
        refine ⟨after, ?_, rest⟩
        rw [DataStorageNode.readData, bind_of_ok (get_eq_ok.mpr ⟨rfl, rfl⟩)]
        simp only [inMemory, if_neg hasData]
        exact computed

theorem Represents.readData_of_none
    (node : DataStorageNode F M)
    (represents : Represents state map)
    (fits : KeyFits state.files key)
    (absent : map.get? key = none) :
    state.storedData.get? key = none ∧
      ∃ after text,
        node.readData key state = .error (.keyError text) after ∧
          Represents after map := by
  have notInMemory := represents.storedData_eq_none absent
  obtain ⟨after, computed, represented, settles, -, -⟩ := represents.getMetaPath fits
  have fitsAfter := fits.settles settles
  have there := represented.get?_metaFileOf fitsAfter.canonical fitsAfter.notFolder
  rw [absent] at there
  refine ⟨notInMemory, after, notExistsText node key (metaFileOf key), ?_, represented⟩
  rw [DataStorageNode.readData, bind_of_ok (get_eq_ok.mpr ⟨rfl, rfl⟩)]
  simp only [notInMemory]
  rw [DataStorageNode.readDataFromFiles, bind_of_ok computed,
    bind_of_ok (pathExists_of_get? there)]
  rfl

/-! ## Writing -/

/-- The files after an item was written. -/
def writtenFiles
    (files : FileTree (StorageFile M))
    (key : String)
    (item : StorageDataItem M) :
    FileTree (StorageFile M) :=
  ((files.erase (fileOf key StorageType.pickleDeprecated.suffix)).set
    (fileOf key item.stored.userdata.type.suffix) (.file (.bytes item.data))).set
      (metaFileOf key) (.file (.metaText item.stored))

/-- `write_item` on a key whose folder exists. -/
theorem writeItem_of_folder
    (node : DataStorageNode F M)
    {item : StorageDataItem M}
    (closed : state.files.Closed)
    (fits : WriteFits state.files key item.stored.userdata.type)
    (isFolder : state.files.get? (folderOf key) = some .directory) :
    node.writeItem key item state =
        .ok () ⟨state.storedData.set key (node.kept item),
          writtenFiles state.files key item⟩ ∧
      (writtenFiles state.files key item).Closed := by
  obtain ⟨keyFits, pickleFits, dataFits⟩ := fits
  have notPickle := isDirectory_eq_false.mp pickleFits
  have notData := isDirectory_eq_false.mp dataFits
  have notMeta := isDirectory_eq_false.mp keyFits.notFolder
  have folderNotFile : ∀ suffix, folderOf key ≠ fileOf key suffix := by
    intro suffix same
    exact not_fileOf_prefix_folderOf key suffix (same ▸ List.prefix_rfl)
  -- The deprecated file goes first.
  let erased := state.files.erase (fileOf key StorageType.pickleDeprecated.suffix)
  have erasedClosed : FileTree.Closed erased := closed.erase_file notPickle
  have erasedFolder : erased.get? (folderOf key) = some .directory := by
    rw [Dict.get?_erase, if_neg (folderNotFile _), isFolder]
  have stillNot :
      ∀ path, state.files.get? path ≠ some .directory →
        erased.get? path ≠ some .directory := by
    intro path notFolder
    rw [Dict.get?_erase]
    split
    · exact nofun
    · exact notFolder
  -- Then the data file is written, and then the meta file.
  let written :=
    erased.set (fileOf key item.stored.userdata.type.suffix) (.file (.bytes item.data))
  have writtenClosed : FileTree.Closed written :=
    erasedClosed.set_file erasedFolder (stillNot _ notData) _
  have writtenFolder : written.get? (folderOf key) = some .directory := by
    rw [Dict.get?_set_ne _ _ (folderNotFile _), erasedFolder]
  have notMetaWritten : written.get? (metaFileOf key) ≠ some .directory := by
    rw [Dict.get?_set]
    split
    · exact nofun
    · exact stillNot _ notMeta
  have pickleRemoved :=
    FileTree.unlinkIfExists_of_notDirectory notPickle
  have dataWritten :=
    FileTree.writeFile_of_directory (.bytes item.data) erasedFolder
      (stillNot _ notData)
  have metaWritten :=
    FileTree.writeFile_of_directory (.metaText item.stored) writtenFolder
      notMetaWritten
  refine ⟨?_, writtenClosed.set_file writtenFolder notMetaWritten _⟩
  have first :
      onFiles
          (FileTree.unlinkIfExists (fileOf key StorageType.pickleDeprecated.suffix))
          state =
        .ok () { state with files := erased } := by
    simp only [onFiles, pickleRemoved]
    rfl
  have second :
      onFiles
          (FileTree.writeFile (fileOf key item.stored.userdata.type.suffix)
            (.bytes item.data))
          { state with files := erased } =
        .ok () { state with files := written } := by
    simp only [onFiles, fileOf, dataWritten]
    rfl
  have third :
      onFiles
          (FileTree.writeFile (metaFileOf key) (.metaText item.stored))
          { state with files := written } =
        .ok () { state with files := writtenFiles state.files key item } := by
    simp only [onFiles, fileOf, metaWritten]
    rfl
  rw [DataStorageNode.writeItem,
    bind_of_ok (getSavePath_of_folder keyFits.canonical isFolder _),
    bind_of_ok first,
    bind_of_ok (getSavePath_of_folder keyFits.canonical erasedFolder _),
    bind_of_ok second,
    bind_of_ok (getMetaPath_of_folder keyFits.canonical writtenFolder),
    bind_of_ok third]
  rfl

theorem get?_writtenFiles
    (files : FileTree (StorageFile M))
    (key : String)
    (item : StorageDataItem M)
    (path : List PathPart) :
    (writtenFiles files key item).get? path =
      if path = metaFileOf key then
        some (.file (.metaText item.stored))
      else if path = fileOf key item.stored.userdata.type.suffix then
        some (.file (.bytes item.data))
      else if path = fileOf key StorageType.pickleDeprecated.suffix then
        none
      else
        files.get? path := by
  simp only [writtenFiles, Dict.get?_set, Dict.get?_erase]

theorem get?_writtenFiles_of_ne
    {files : FileTree (StorageFile M)}
    {key other : String}
    {item : StorageDataItem M}
    {suffix : List Char}
    (canonical : isCanonicalPath key = true)
    (otherCanonical : isCanonicalPath other = true)
    (known : suffix ∈ fileSuffixes)
    (different : other ≠ key) :
    (writtenFiles files key item).get? (fileOf other suffix) =
      files.get? (fileOf other suffix) := by
  have unequal :
      ∀ written ∈ fileSuffixes, fileOf other suffix ≠ fileOf key written := by
    intro written isKnown same
    exact different (fileOf_inj otherCanonical canonical known isKnown same).1
  rw [get?_writtenFiles, if_neg (unequal _ metaSuffix_mem_fileSuffixes),
    if_neg (unequal _ (suffix_mem_fileSuffixes _)),
    if_neg (unequal _ (suffix_mem_fileSuffixes _))]

/-- A node that wrote an entry represents the map with the entry. -/
theorem Represents.written
    (node : DataStorageNode F M)
    (represents : Represents state map)
    (canonical : isCanonicalPath key = true)
    (entry : StoredEntry M)
    (closed : (writtenFiles state.files key entry.item).Closed) :
    Represents
      ⟨state.storedData.set key (node.kept entry.item),
        writtenFiles state.files key entry.item⟩
      (map.set key entry) where
  closed := closed
  canonical other found inMap := by
    rw [Dict.get?_set] at inMap
    split at inMap
    · rename_i same
      rw [same, canonical]
    · exact represents.canonical other found inMap
  metaFile other found inMap := by
    rw [Dict.get?_set] at inMap
    split at inMap
    · rename_i same
      cases inMap
      rw [same, get?_writtenFiles, if_pos rfl]
      rfl
    · rename_i different
      rw [get?_writtenFiles_of_ne canonical (represents.canonical other found inMap)
        metaSuffix_mem_fileSuffixes different]
      exact represents.metaFile other found inMap
  dataFile other found inMap := by
    rw [Dict.get?_set] at inMap
    split at inMap
    · rename_i same
      cases inMap
      have notMeta :
          fileOf key entry.type.suffix ≠ metaFileOf key := by
        intro isMeta
        have inj :=
          fileOf_inj canonical canonical (suffix_mem_fileSuffixes entry.type)
            metaSuffix_mem_fileSuffixes isMeta
        exact metaSuffix_ne_suffix entry.type inj.2.symm
      rw [same, get?_writtenFiles, if_neg notMeta]
      exact if_pos rfl
    · rename_i different
      rw [get?_writtenFiles_of_ne canonical (represents.canonical other found inMap)
        (suffix_mem_fileSuffixes _) different]
      exact represents.dataFile other found inMap
  onlyMetaFiles path dict found := by
    rw [get?_writtenFiles] at found
    split at found
    · rename_i isMeta
      exact ⟨key, by simp [Dict.contains], isMeta⟩
    · split at found
      · cases found
      · split at found
        · cases found
        · obtain ⟨other, inside, isOther⟩ := represents.onlyMetaFiles path dict found
          refine ⟨other, ?_, isOther⟩
          rw [Dict.contains, Dict.get?_set]
          split
          · rfl
          · exact inside
  onlyDataFiles path data found := by
    rw [get?_writtenFiles] at found
    split at found
    · cases found
    · split at found
      · rename_i isData
        exact ⟨key, entry.type, canonical, isData⟩
      · split at found
        · cases found
        · exact represents.onlyDataFiles path data found
  copies other item found := by
    rw [Dict.get?_set] at found
    split at found
    · rename_i same
      cases found
      exact ⟨entry, by simp [same], kept_copies node entry⟩
    · rename_i different
      obtain ⟨old, inMap, isCopy⟩ := represents.copies other item found
      exact ⟨old, by rw [Dict.get?_set_ne _ _ different, inMap], isCopy⟩

theorem Represents.writeItem
    (node : DataStorageNode F M)
    (represents : Represents state map)
    (entry : StoredEntry M)
    (fits : WriteFits state.files key entry.type) :
    ∃ after,
      node.writeItem key entry.item state = .ok () after ∧
        Represents after (map.set key entry) := by
  -- The first path that is asked for makes the folder.
  obtain ⟨middle, computed, represented, settles, -, isFolder⟩ :=
    represents.getSavePath fits.1 .pickleDeprecated
  have fitsMiddle : WriteFits middle.files key entry.type := fits.settles settles
  obtain ⟨written, closed⟩ :=
    @writeItem_of_folder _ _ middle key node entry.item represented.closed
      fitsMiddle isFolder
  refine ⟨_, ?_, represented.written node fits.1.canonical entry closed⟩
  have again := getSavePath_of_folder fits.1.canonical isFolder .pickleDeprecated
  rw [DataStorageNode.writeItem, bind_of_ok again] at written
  rw [DataStorageNode.writeItem, bind_of_ok computed]
  exact written

theorem Represents.saveData_of_raises
    (node : DataStorageNode F M)
    {raiseIfExist : Bool}
    (represents : Represents state map)
    (entry : StoredEntry M)
    (fits : KeyFits state.files key)
    (raises : (map.contains key && raiseIfExist) = true) :
    ∃ after text,
      node.saveData key entry.data entry.fields entry.timestamp raiseIfExist entry.type
          state =
        .error (.keyError text) after ∧
        Represents after map := by
  obtain ⟨after, computed, represented, -⟩ := represents.hasDataItem fits
  refine ⟨after, key ++ " already exists", ?_, represented⟩
  rw [DataStorageNode.saveData, bind_of_ok computed, if_pos raises]
  rfl

theorem Represents.saveData_of_writes
    (node : DataStorageNode F M)
    {raiseIfExist : Bool}
    (represents : Represents state map)
    (entry : StoredEntry M)
    (fits : WriteFits state.files key entry.type)
    (writes : ¬(map.contains key && raiseIfExist) = true) :
    ∃ after,
      node.saveData key entry.data entry.fields entry.timestamp raiseIfExist entry.type
          state =
        .ok () after ∧
        Represents after (map.set key entry) := by
  obtain ⟨middle, computed, represented, settles⟩ := represents.hasDataItem fits.1
  obtain ⟨after, written, represents⟩ :=
    represented.writeItem node entry (fits.settles settles)
  refine ⟨after, ?_, represents⟩
  rw [DataStorageNode.saveData, bind_of_ok computed, if_neg writes]
  exact written

end TensorPC.Dock
