import TensorPC.Dock.DataStorage

namespace TensorPC.Dock

/-!
# What a data storage node stands for

A plain map from keys to entries, what its calls answer, and how the files and
the items in memory of a node represent such a map.
-/

open TensorPC.Draft

variable {F M : Type}

/-- An entry of the plain map. -/
structure StoredEntry (M : Type) where
  data : List UInt8
  fields : JsonLikeNode M
  timestamp : Int
  type : StorageType
  deriving DecidableEq

/-- The meta of an entry. -/
def StoredEntry.stored (entry : StoredEntry M) : StorageMeta M where
  node := entry.fields
  userdata := ⟨entry.timestamp, entry.data.length, 2, entry.type⟩

/-- An entry as an item. -/
def StoredEntry.item (entry : StoredEntry M) : StorageDataItem M where
  data := entry.data
  stored := entry.stored

/-- An entry under a new name. -/
def StoredEntry.renamed (entry : StoredEntry M) (newName : String) : StoredEntry M :=
  { entry with fields := { entry.fields with id := [newName], name := newName } }

/-- Entries by key. -/
abbrev PlainMap (M : Type) := Dict String (StoredEntry M)

namespace PlainMap

section Calls

variable [PyBuiltins F] (node : DataStorageNode F M)

/-- The entry that an update stores. -/
def updatedEntry
    (map : PlainMap M)
    (key : String)
    (timestamp : Int)
    (ops : List (DraftUpdateOp F))
    (createType : StorageType) :
    PyResult (StoredEntry M) :=
  match map.get? key with
  | some entry =>
      (node.updatedData entry.item ops).map fun data =>
        ⟨data, entry.fields, timestamp, entry.type⟩
  | none =>
      (node.createdData key ops createType).map fun data =>
        ⟨data, ⟨[key], key, objectType, node.defaultOthers⟩, timestamp, createType⟩

/-- Whether the map moves an entry to a new key. -/
def renames (map : PlainMap M) (key newName : String) : Bool :=
  map.contains key && !map.contains newName

/-- The map after a call. -/
def after (map : PlainMap M) : StorageCall F M → PlainMap M
  | .saveData key data fields timestamp raiseIfExist type =>
      if map.contains key && raiseIfExist then
        map
      else
        map.set key ⟨data, fields, timestamp, type⟩
  | .updateStorageData key timestamp ops createType =>
      match map.updatedEntry node key timestamp ops createType with
      | .ok entry => map.set key entry
      | .error _ => map
  | .renameData key newName =>
      match map.get? key with
      | some entry =>
          if map.renames key newName then
            (map.erase key).set newName (entry.renamed newName)
          else
            map
      | none => map
  | .removeData none => .empty
  | .removeData (some key) => map.erase key
  | .readData _ => map
  | .readDataIfNeedUpdate _ _ => map
  | .hasDataItem _ => map
  | .getItems => map
  | .readMetaDict _ => map
  | .restart => map

/-- A call on a key that the map does not have raises an error about the key. -/
def IsKeyError (answer : PyResult (StorageAnswer M)) : Prop :=
  ∃ text, answer = .error (.keyError text)

/-- The answers that the map allows to a call. -/
def Answers
    (map : PlainMap M)
    (call : StorageCall F M)
    (answer : PyResult (StorageAnswer M)) :
    Prop :=
  match call with
  | .saveData key _ _ _ raiseIfExist _ =>
      if map.contains key && raiseIfExist then
        IsKeyError answer
      else
        answer = .ok .nothing
  | .updateStorageData key timestamp ops createType =>
      answer =
        (map.updatedEntry node key timestamp ops createType).map fun _ => .bool true
  | .readData key =>
      match map.get? key with
      | some entry => answer = .ok (.item entry.item)
      | none => IsKeyError answer
  | .readDataIfNeedUpdate key timestamp =>
      match map.get? key with
      | some entry =>
          answer = .ok (.item entry.item) ∨
            timestamp = entry.timestamp ∧
              answer = .ok (.item { entry.item with data := [] })
      | none => IsKeyError answer
  | .hasDataItem key => answer = .ok (.bool (map.contains key))
  | .getItems => ∃ keys, answer = .ok (.keys keys) ∧ keys.Perm map.keys
  | .readMetaDict key =>
      match map.get? key with
      | some entry => answer = .ok (.stored entry.stored)
      | none => IsKeyError answer
  | .renameData key newName => answer = .ok (.bool (map.renames key newName))
  | .removeData none => answer = .ok .nothing
  | .removeData (some key) =>
      if map.contains key then answer = .ok .nothing else IsKeyError answer
  | .restart => answer = .ok .nothing

/-- The answers to a list of calls are those that the map allows, one after the other. -/
def Agrees :
    PlainMap M →
    List (StorageCall F M × PyResult (StorageAnswer M)) →
    Prop
  | _, [] => True
  | map, (call, answer) :: rest =>
      map.Answers node call answer ∧ Agrees (map.after node call) rest

end Calls

end PlainMap

/-! ## The files of a key -/

/-- The folder of the files of a key. -/
def folderOf (key : String) : List PathPart :=
  (PurePath.ofString key).parts.dropLast

/-- The name of the files of a key, without their suffixes. -/
def nameOf (key : String) : PathPart :=
  (PurePath.ofString key).parts.getLastD []

/-- The file of a key with some suffix. -/
def fileOf (key : String) (suffix : List Char) : List PathPart :=
  folderOf key ++ [nameOf key ++ suffix]

theorem parts_of_isCanonicalPath
    {key : String}
    (canonical : isCanonicalPath key = true) :
    PurePath.ofString key = ⟨false, folderOf key ++ [nameOf key]⟩ := by
  have parts := ofString_of_isCanonicalPath canonical
  have notEmpty : key.toList.splitOn '/' ≠ [] := List.splitOn_ne_nil _ _
  rw [parts, PurePath.mk.injEq]
  refine ⟨rfl, ?_⟩
  simp only [folderOf, nameOf, parts]
  rw [List.getLastD_eq_getLast?, List.getLast?_eq_some_getLast notEmpty]
  exact (List.dropLast_append_getLast notEmpty).symm

theorem toText_folderOf_nameOf
    {key : String}
    (canonical : isCanonicalPath key = true) :
    (PurePath.mk false (folderOf key ++ [nameOf key])).toText = key := by
  rw [← parts_of_isCanonicalPath canonical, toText_of_isCanonicalPath canonical]

theorem nameOf_ne_nil
    {key : String}
    (canonical : isCanonicalPath key = true) :
    nameOf key ≠ [] := by
  have parts := ofString_of_isCanonicalPath canonical
  have split := parts_of_isCanonicalPath canonical
  rw [parts, PurePath.mk.injEq] at split
  have each := List.all_eq_true.mp canonical (nameOf key) (by simp [split.2])
  simp only [Bool.and_eq_true, bne_iff_ne] at each
  exact each.1.1

/-- The suffixes of the files of a node. -/
def fileSuffixes : List (List Char) :=
  metaSuffix ::
    [StorageType.json, .raw, .jsonArray, .pickleDeprecated].map StorageType.suffix

theorem metaSuffix_mem_fileSuffixes : metaSuffix ∈ fileSuffixes := by
  simp [fileSuffixes]

theorem suffix_mem_fileSuffixes (type : StorageType) :
    type.suffix ∈ fileSuffixes := by
  cases type <;> simp [fileSuffixes]

theorem metaSuffix_ne_suffix (type : StorageType) :
    metaSuffix ≠ type.suffix := by
  cases type <;> decide

theorem name_append_suffix_inj
    {name other suffix otherSuffix : List Char}
    (known : suffix ∈ fileSuffixes)
    (otherKnown : otherSuffix ∈ fileSuffixes)
    (same : name ++ suffix = other ++ otherSuffix) :
    name = other ∧ suffix = otherSuffix := by
  have notEmpty : ∀ suffix ∈ fileSuffixes, suffix ≠ [] := by
    decide
  -- The suffixes end in different letters.
  have byLast :
      ∀ suffix ∈ fileSuffixes, ∀ otherSuffix ∈ fileSuffixes,
        suffix.getLast? = otherSuffix.getLast? → suffix = otherSuffix := by
    decide
  have last := congrArg List.getLast? same
  rw [List.getLast?_append_of_ne_nil _ (notEmpty _ known),
    List.getLast?_append_of_ne_nil _ (notEmpty _ otherKnown)] at last
  have sameSuffix := byLast _ known _ otherKnown last
  subst sameSuffix
  exact ⟨List.append_cancel_right same, rfl⟩

theorem fileOf_inj
    {key other : String}
    {suffix otherSuffix : List Char}
    (canonical : isCanonicalPath key = true)
    (otherCanonical : isCanonicalPath other = true)
    (known : suffix ∈ fileSuffixes)
    (otherKnown : otherSuffix ∈ fileSuffixes)
    (same : fileOf key suffix = fileOf other otherSuffix) :
    key = other ∧ suffix = otherSuffix := by
  obtain ⟨sameFolder, sameNames⟩ := List.append_inj' same rfl
  obtain ⟨sameName, sameSuffix⟩ :=
    name_append_suffix_inj known otherKnown (List.singleton_inj.mp sameNames)
  refine ⟨?_, sameSuffix⟩
  rw [← toText_folderOf_nameOf canonical, ← toText_folderOf_nameOf otherCanonical,
    sameFolder, sameName]

theorem not_fileOf_prefix_folderOf (key : String) (suffix : List Char) :
    ¬fileOf key suffix <+: folderOf key := by
  intro isAbove
  have length := isAbove.length_le
  simp only [fileOf, List.length_append, List.length_singleton] at length
  exact Nat.not_succ_le_self _ length

theorem withoutSuffix_append_metaSuffix
    {name : PathPart}
    (notEmpty : name ≠ []) :
    withoutSuffix (name ++ metaSuffix) = name := by
  obtain ⟨last, rest, reversed⟩ :=
    List.exists_cons_of_ne_nil (List.reverse_ne_nil_iff.mpr notEmpty)
  have shape : (".json".toList).reverse = ['n', 'o', 's', 'j', '.'] := by
    decide
  have back : (last :: rest).reverse = name := by
    rw [← reversed, List.reverse_reverse]
  simp only [withoutSuffix, metaSuffix, List.reverse_append, reversed]
  rw [shape]
  simpa using back

theorem itemKey_fileOf
    {key : String}
    (canonical : isCanonicalPath key = true) :
    DataStorageNode.itemKey (fileOf key metaSuffix) = key := by
  rw [DataStorageNode.itemKey, fileOf, PurePath.withoutSuffix]
  simp only [List.getLast?_concat, List.dropLast_concat,
    withoutSuffix_append_metaSuffix (nameOf_ne_nil canonical)]
  exact toText_folderOf_nameOf canonical

/-!
# A node answers like its map

The files of a node hold every entry of the map it stands for, and the items in
memory are copies of some of them.  Every call keeps this, except a rename that
is carried out, which leaves the item under the old key, and a rename that is
refused because the old key is only in the files.
-/

open TensorPC.Computation

/-- The file of the meta of a key. -/
abbrev metaFileOf (key : String) : List PathPart :=
  fileOf key metaSuffix

/-- The files and items of a node represent a map. -/
structure Represents (state : NodeState M) (map : PlainMap M) : Prop where
  closed : state.files.Closed
  canonical : ∀ key entry, map.get? key = some entry → isCanonicalPath key = true
  metaFile :
    ∀ key entry, map.get? key = some entry →
      state.files.get? (metaFileOf key) = some (.file (.metaText entry.stored))
  dataFile :
    ∀ key entry, map.get? key = some entry →
      state.files.get? (fileOf key entry.type.suffix) =
        some (.file (.bytes entry.data))
  onlyMetaFiles :
    ∀ path dict, state.files.get? path = some (.file (.metaText dict)) →
      ∃ key, map.contains key = true ∧ path = metaFileOf key
  onlyDataFiles :
    ∀ path data, state.files.get? path = some (.file (.bytes data)) →
      ∃ key type, isCanonicalPath key = true ∧
        path = fileOf key (StorageType.suffix type)
  copies :
    ∀ key item, state.storedData.get? key = some item →
      ∃ entry, map.get? key = some entry ∧ item.stored = entry.stored ∧
        (item.data = [] ∨ item.data = entry.data)

/-! ## What the calls need -/

/-- The files of a key can be reached: nothing else has their names. -/
structure KeyFits (files : FileTree (StorageFile M)) (key : String) : Prop where
  canonical : isCanonicalPath key = true
  openPath : files.OpenPath (folderOf key)
  notFolder : files.isDirectory (metaFileOf key) = false

instance (files : FileTree (StorageFile M)) (key : String) :
    Decidable (KeyFits files key) :=
  decidable_of_iff
    (isCanonicalPath key = true ∧ files.OpenPath (folderOf key) ∧
      files.isDirectory (metaFileOf key) = false)
    ⟨fun ⟨canonical, openPath, notFolder⟩ => ⟨canonical, openPath, notFolder⟩,
      fun fits => ⟨fits.canonical, fits.openPath, fits.notFolder⟩⟩

/-- No folder has the name of the data file of a key. -/
def DataFits
    (files : FileTree (StorageFile M))
    (key : String)
    (type : StorageType) :
    Prop :=
  files.isDirectory (fileOf key type.suffix) = false

instance (files : FileTree (StorageFile M)) (key : String) (type : StorageType) :
    Decidable (DataFits files key type) :=
  inferInstanceAs (Decidable (_ = _))

/-- The files can be written. -/
def WriteFits
    (files : FileTree (StorageFile M))
    (key : String)
    (type : StorageType) :
    Prop :=
  KeyFits files key ∧ DataFits files key .pickleDeprecated ∧ DataFits files key type

instance (files : FileTree (StorageFile M)) (key : String) (type : StorageType) :
    Decidable (WriteFits files key type) :=
  inferInstanceAs (Decidable (_ ∧ _ ∧ _))

/-- No folder is taken for a meta file. -/
def ItemsFit
    (node : DataStorageNode F M)
    (files : FileTree (StorageFile M)) :
    Prop :=
  ∀ path ∈ node.itemPaths files, files.isDirectory path = false

instance (node : DataStorageNode F M) (files : FileTree (StorageFile M)) :
    Decidable (ItemsFit node files) :=
  inferInstanceAs (Decidable (∀ path ∈ _, _))

/-- A key is in memory or has a meta file. -/
def NodeState.holds (state : NodeState M) (key : String) : Bool :=
  state.storedData.contains key || state.files.contains (metaFileOf key)

/-- A rename is refused, and rightly so. -/
def RightlyRefused (state : NodeState M) (key newName : String) : Prop :=
  key = newName ∨ state.holds key = false ∨
    state.storedData.contains newName = true ∨
      KeyFits state.files newName ∧ state.holds newName = true ∧
        state.storedData.contains key = false

instance (state : NodeState M) (key newName : String) :
    Decidable (RightlyRefused state key newName) :=
  inferInstanceAs (Decidable (_ ∨ _ ∨ _ ∨ _ ∧ _ ∧ _))

/-- The calls that a node answers like its map. -/
def Permitted
    (node : DataStorageNode F M)
    (state : NodeState M) :
    StorageCall F M → Prop
  | .saveData key _ _ _ _ type => WriteFits state.files key type
  | .updateStorageData key _ _ createType => WriteFits state.files key createType
  | .readData key => KeyFits state.files key
  | .readDataIfNeedUpdate key _ => KeyFits state.files key
  | .hasDataItem key => KeyFits state.files key
  | .getItems => ItemsFit node state.files
  | .readMetaDict key => KeyFits state.files key
  | .renameData key newName => RightlyRefused state key newName
  | .removeData none => ItemsFit node state.files
  | .removeData (some key) => KeyFits state.files key
  | .restart => True

instance
    (node : DataStorageNode F M)
    (state : NodeState M)
    (call : StorageCall F M) :
    Decidable (Permitted node state call) :=
  match call with
  | .saveData key _ _ _ _ type =>
      inferInstanceAs (Decidable (WriteFits state.files key type))
  | .updateStorageData key _ _ createType =>
      inferInstanceAs (Decidable (WriteFits state.files key createType))
  | .readData key => inferInstanceAs (Decidable (KeyFits state.files key))
  | .readDataIfNeedUpdate key _ => inferInstanceAs (Decidable (KeyFits state.files key))
  | .hasDataItem key => inferInstanceAs (Decidable (KeyFits state.files key))
  | .getItems => inferInstanceAs (Decidable (ItemsFit node state.files))
  | .readMetaDict key => inferInstanceAs (Decidable (KeyFits state.files key))
  | .renameData key newName =>
      inferInstanceAs (Decidable (RightlyRefused state key newName))
  | .removeData none => inferInstanceAs (Decidable (ItemsFit node state.files))
  | .removeData (some key) => inferInstanceAs (Decidable (KeyFits state.files key))
  | .restart => inferInstanceAs (Decidable True)

/-- Every call of a list is permitted when it comes. -/
def AllPermitted
    [PyBuiltins F]
    (node : DataStorageNode F M) :
    NodeState M → List (StorageCall F M) → Prop
  | _, [] => True
  | state, call :: rest =>
      Permitted node state call ∧ AllPermitted node (node.step state call).2 rest

/-- Whether every call of a list is permitted can be computed. -/
def decideAllPermitted
    [PyBuiltins F]
    (node : DataStorageNode F M) :
    (state : NodeState M) → (calls : List (StorageCall F M)) →
    Decidable (AllPermitted node state calls)
  | _, [] => .isTrue trivial
  | state, call :: rest =>
      @instDecidableAnd _ _ _ (decideAllPermitted node (node.step state call).2 rest)

instance
    [PyBuiltins F]
    (node : DataStorageNode F M)
    (state : NodeState M)
    (calls : List (StorageCall F M)) :
    Decidable (AllPermitted node state calls) :=
  decideAllPermitted node state calls

/-! ## Finding files -/

theorem ofResult_of_ok
    {α : Type}
    {result : PyResult α}
    {state : NodeState M}
    {value : α}
    (computed : result = .ok value) :
    ofResult result state = .ok value state := by
  simp [ofResult, computed]

theorem isDirectory_eq_false
    {files : FileTree (StorageFile M)}
    {path : List PathPart} :
    files.isDirectory path = false ↔ files.get? path ≠ some .directory := by
  unfold FileTree.isDirectory
  cases files.get? path with
  | none =>
      simp
  | some found =>
      cases found <;> simp

namespace Represents

variable {state : NodeState M} {map : PlainMap M}

/-- The file at the place of a meta file is the meta of the map's entry. -/
theorem get?_metaFileOf
    {key : String}
    (represents : Represents state map)
    (canonical : isCanonicalPath key = true)
    (notFolder : state.files.isDirectory (metaFileOf key) = false) :
    state.files.get? (metaFileOf key) =
      (map.get? key).map fun entry => .file (.metaText entry.stored) := by
  cases inMap : map.get? key with
  | some entry =>
      exact represents.metaFile key entry inMap
  | none =>
      cases found : state.files.get? (metaFileOf key) with
      | none =>
          rfl
      | some there =>
          exfalso
          cases there with
          | directory =>
              exact isDirectory_eq_false.mp notFolder found
          | file content =>
              cases content with
              | metaText dict =>
                  obtain ⟨other, inside, same⟩ :=
                    represents.onlyMetaFiles _ dict found
                  obtain ⟨entry, otherInMap⟩ := Option.isSome_iff_exists.mp inside
                  obtain ⟨rfl, -⟩ :=
                    fileOf_inj canonical (represents.canonical _ entry otherInMap)
                      metaSuffix_mem_fileSuffixes metaSuffix_mem_fileSuffixes same
                  simp [inMap] at otherInMap
              | bytes data =>
                  obtain ⟨other, type, otherCanonical, same⟩ :=
                    represents.onlyDataFiles _ data found
                  obtain ⟨-, sameSuffix⟩ :=
                    fileOf_inj canonical otherCanonical metaSuffix_mem_fileSuffixes
                      (suffix_mem_fileSuffixes type) same
                  exact metaSuffix_ne_suffix type sameSuffix

theorem contains_of_storedData
    {key : String}
    (represents : Represents state map)
    (inMemory : state.storedData.contains key = true) :
    map.contains key = true := by
  obtain ⟨item, found⟩ := Option.isSome_iff_exists.mp inMemory
  obtain ⟨entry, inMap, -⟩ := represents.copies key item found
  simp [Dict.contains, inMap]

theorem holds_of_contains
    {key : String}
    (represents : Represents state map)
    (inside : map.contains key = true) :
    state.holds key = true := by
  obtain ⟨entry, inMap⟩ := Option.isSome_iff_exists.mp inside
  simp [NodeState.holds, Dict.contains, represents.metaFile key entry inMap]

theorem contains_of_holds
    {key : String}
    (represents : Represents state map)
    (fits : KeyFits state.files key)
    (held : state.holds key = true) :
    map.contains key = true := by
  rcases Bool.or_eq_true _ _ |>.mp held with inMemory | inFiles
  · exact represents.contains_of_storedData inMemory
  · rw [Dict.contains,
      represents.get?_metaFileOf fits.canonical fits.notFolder] at inFiles
    simpa [Dict.contains] using inFiles

theorem withStoredData
    {storedData : Dict String (StorageDataItem M)}
    (represents : Represents state map)
    (copies :
      ∀ key item, storedData.get? key = some item →
        ∃ entry, map.get? key = some entry ∧ item.stored = entry.stored ∧
          (item.data = [] ∨ item.data = entry.data)) :
    Represents { state with storedData := storedData } map :=
  { represents with copies := copies }

end Represents

end TensorPC.Dock
