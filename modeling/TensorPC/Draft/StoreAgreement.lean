import TensorPC.Draft.StoreBackends
import TensorPC.Lib.Transition

namespace TensorPC.Draft

/-!
# The two storage backends

Both backends are driven by the same calls.  In every run whose calls meet a
condition, the files under the root folder hold the texts of the values that are
stored in memory, so that both backends return the same.
-/

variable {F : Type}

/-! ## Paths of files -/

section Paths

variable (folder : StoreFolder)

theorem join_join
    (first second : PurePath)
    {path : PurePath}
    (relative : path.isAbsolute = false) :
    first.join (second.join path) =
      ⟨(first.join second).isAbsolute,
        (first.join second).parts ++ path.parts⟩ := by
  rcases second with ⟨absolute, parts⟩
  cases absolute <;> simp [PurePath.join, relative, List.append_assoc]

/-- The file of a canonical path. -/
theorem getAbsPath_eq
    (suffix : String)
    {path : String}
    (canonical : isCanonicalPath path = true)
    (noSlash : '/' ∉ suffix.toList)
    (long : 3 ≤ suffix.toList.length) :
    ∃ front last,
      path.toList.splitOn '/' = front ++ [last] ∧
        last ≠ [] ∧
        folder.getAbsPath path suffix =
          ⟨folder.base.isAbsolute,
            folder.base.parts ++ (front ++ [last ++ suffix.toList])⟩ := by
  obtain ⟨front, last, split, splitSuffix⟩ :=
    splitOn_append noSlash path.toList
  have each := List.all_eq_true.mp canonical
  rw [split] at each
  have lastNamed := each last (by simp)
  have canonicalFile : isCanonicalPath (path ++ suffix) = true := by
    refine List.all_eq_true.mpr fun part member => ?_
    rw [String.toList_append, splitSuffix] at member
    rcases List.mem_append.mp member with inFront | isLast
    · exact each part (List.mem_append_left _ inFront)
    · rw [List.mem_singleton] at isLast
      subst isLast
      have length : 3 ≤ (last ++ suffix.toList).length := by
        simp only [List.length_append]
        omega
      simp only [Bool.and_eq_true, bne_iff_ne, ne_eq]
      refine ⟨⟨?_, ?_⟩, ?_⟩ <;> intro same <;> rw [same] at length <;>
        simp at length
  refine ⟨front, last, split, ?_, ?_⟩
  · simp only [Bool.and_eq_true, bne_iff_ne, ne_eq] at lastNamed
    exact lastNamed.1.1
  · unfold StoreFolder.getAbsPath
    rw [ofString_of_isCanonicalPath canonicalFile, String.toList_append,
      splitSuffix, join_join folder.cwd folder.root rfl]
    rfl

theorem getAbsPath_injective
    {first second : String}
    (canonicalFirst : isCanonicalPath first = true)
    (canonicalSecond : isCanonicalPath second = true)
    (same :
      folder.getAbsPath first ".json" = folder.getAbsPath second ".json") :
    first = second := by
  obtain ⟨front, last, split, _, file⟩ :=
    getAbsPath_eq folder ".json" canonicalFirst (by decide) (by decide)
  obtain ⟨front', last', split', _, file'⟩ :=
    getAbsPath_eq folder ".json" canonicalSecond (by decide) (by decide)
  rw [file, file'] at same
  simp only [PurePath.mk.injEq, List.append_cancel_left_eq, true_and] at same
  obtain ⟨sameFront, sameLast⟩ := List.append_inj' same rfl
  have parts : first.toList.splitOn '/' = second.toList.splitOn '/' := by
    rw [split, split', sameFront]
    simpa using sameLast
  have chars := congrArg (['/'].intercalate ·) parts
  simp only [List.intercalate_splitOn] at chars
  exact String.toList_inj.mp chars

theorem getAbsPath_ne_backup
    {first second : String}
    (canonicalFirst : isCanonicalPath first = true)
    (canonicalSecond : isCanonicalPath second = true) :
    folder.getAbsPath first ".json.bak" ≠
      folder.getAbsPath second ".json" := by
  obtain ⟨front, last, _, _, file⟩ :=
    getAbsPath_eq folder ".json.bak" canonicalFirst (by decide) (by decide)
  obtain ⟨front', last', _, _, file'⟩ :=
    getAbsPath_eq folder ".json" canonicalSecond (by decide) (by decide)
  rw [file, file']
  intro same
  simp only [PurePath.mk.injEq, List.append_cancel_left_eq, true_and] at same
  obtain ⟨_, sameLast⟩ := List.append_inj' same rfl
  have ends := congrArg List.getLast? (List.singleton_inj.mp sameLast)
  simp [List.getLast?_append] at ends

end Paths

/-! ## Stored values and their files -/

section Invariant

variable [PyJson F] (folder : StoreFolder)

/-- The files under the root folder hold the texts of the stored values. -/
structure SameStore
    (data : Dict String (Value F))
    (files : Files F) : Prop where
  canonical : ∀ path ∈ data.keys, isCanonicalPath path = true
  stored :
    ∀ path value,
      data.get? path = some value →
      ∃ text,
        files.get? (folder.getAbsPath path ".json") = some (.json text) ∧
          loads text = value
  known :
    ∀ file ∈ files.keys,
      file.isRelativeTo folder.base = true →
      ∃ path ∈ data.keys, file = folder.getAbsPath path ".json"

variable {folder} {data : Dict String (Value F)} {files : Files F}

omit [PyJson F] in
theorem isRelativeTo_base
    {path suffix : String}
    (canonical : isCanonicalPath path = true)
    (noSlash : '/' ∉ suffix.toList)
    (long : 3 ≤ suffix.toList.length) :
    (folder.getAbsPath path suffix).isRelativeTo folder.base = true := by
  obtain ⟨front, last, _, _, file⟩ :=
    getAbsPath_eq folder suffix canonical noSlash long
  rw [file]
  simp [PurePath.isRelativeTo]

namespace SameStore

theorem get?_file_eq_none
    (same : SameStore folder data files)
    {path : String}
    (canonical : isCanonicalPath path = true)
    (absent : data.get? path = none) :
    files.get? (folder.getAbsPath path ".json") = none := by
  by_contra present
  have listed := Dict.mem_keys_iff.mpr (Option.isSome_iff_ne_none.mpr present)
  obtain ⟨other, isKey, sameFile⟩ :=
    same.known _ listed (isRelativeTo_base canonical (by decide) (by decide))
  have isOther :=
    getAbsPath_injective folder canonical (same.canonical other isKey) sameFile
  rw [← isOther, Dict.mem_keys_iff, absent] at isKey
  cases isKey

theorem get?_backup_eq_none
    (same : SameStore folder data files)
    {path : String}
    (canonical : isCanonicalPath path = true) :
    files.get? (folder.getAbsPath path ".json.bak") = none := by
  by_contra present
  have listed := Dict.mem_keys_iff.mpr (Option.isSome_iff_ne_none.mpr present)
  obtain ⟨other, isKey, sameFile⟩ :=
    same.known _ listed (isRelativeTo_base canonical (by decide) (by decide))
  exact getAbsPath_ne_backup folder canonical (same.canonical other isKey)
    sameFile

theorem isJson
    (same : SameStore folder data files)
    {path : String}
    {value : Value F}
    (found : data.get? path = some value) :
    TensorPC.isJson value = true := by
  obtain ⟨text, _, loaded⟩ := same.stored path value found
  rw [← loaded]
  exact isJson_loads text

theorem fileStore_read
    (same : SameStore folder data files)
    {path : String}
    (canonical : isCanonicalPath path = true) :
    FileStore.read folder files path = (data.get? path).getD .none := by
  simp only [FileStore.read, same.get?_backup_eq_none canonical,
    Option.or_none]
  cases found : data.get? path with
  | none =>
      rw [same.get?_file_eq_none canonical found]
      rfl
  | some value =>
      obtain ⟨text, file, loaded⟩ := same.stored path value found
      rw [file]
      exact loaded

theorem isJson_getD
    (same : SameStore folder data files)
    (path : String) :
    TensorPC.isJson ((data.get? path).getD .none) = true := by
  cases found : data.get? path with
  | none =>
      rfl
  | some value =>
      exact same.isJson found

theorem read
    (same : SameStore folder data files)
    {path : String}
    (canonical : isCanonicalPath path = true) :
    InMemory.read data path = .ok (FileStore.read folder files path) := by
  rw [same.fileStore_read canonical]
  exact jsonRoundTrip_of_isJson (same.isJson_getD path)

/-! ## Calls that change the stores -/

/-- Storing a value and writing a text that reads as this value. -/
theorem set
    (same : SameStore folder data files)
    {path : String}
    (canonical : isCanonicalPath path = true)
    (text : Json F) :
    SameStore folder (data.set path (loads text))
      (files.set (folder.getAbsPath path ".json") (.json text)) where
  canonical := by
    intro other isKey
    rcases Dict.mem_keys_set.mp isKey with isPath | wasKey
    · rw [isPath]
      exact canonical
    · exact same.canonical other wasKey
  stored := by
    intro other value found
    rw [Dict.get?_set] at found
    by_cases isPath : other = path
    · simp only [isPath, ↓reduceIte, Option.some.injEq] at found
      exact ⟨text, by simp [isPath], found⟩
    · simp only [isPath, ↓reduceIte] at found
      obtain ⟨old, file, loaded⟩ := same.stored other value found
      have isKey : other ∈ data.keys := by
        simp [Dict.mem_keys_iff, found]
      have otherFile :
          folder.getAbsPath other ".json" ≠ folder.getAbsPath path ".json" :=
        fun sameFile =>
          isPath (getAbsPath_injective folder (same.canonical other isKey)
            canonical sameFile)
      exact ⟨old, by rw [Dict.get?_set_ne _ _ otherFile, file], loaded⟩
  known := by
    intro file isFile within
    rcases Dict.mem_keys_set.mp isFile with isNew | wasFile
    · exact ⟨path, Dict.mem_keys_set.mpr (.inl rfl), isNew⟩
    · obtain ⟨other, isKey, sameFile⟩ := same.known file wasFile within
      exact ⟨other, Dict.mem_keys_set.mpr (.inr isKey), sameFile⟩

theorem write_isJson
    (same : SameStore folder data files)
    {path : String}
    {value : Value F}
    (canonical : isCanonicalPath path = true)
    (json : TensorPC.isJson value = true) :
    SameStore folder (data.set path value)
      (Computation.stateAfter (FileStore.write folder path value) files) := by
  obtain ⟨text, dumped, loaded⟩ := loads_dumps value json
  simp only [Computation.stateAfter, FileStore.write, dumped]
  rw [← loaded]
  exact same.set canonical text

theorem write
    (same : SameStore folder data files)
    {path : String}
    {value : Value F}
    {text : Json F}
    (canonical : isCanonicalPath path = true)
    (dumped : dumps value = .ok text) :
    SameStore folder
      (Computation.stateAfter (InMemory.write path value) data)
      (Computation.stateAfter (FileStore.write folder path value) files) := by
  have tripped : jsonRoundTrip value = .ok (loads text) := by
    simp [jsonRoundTrip, dumped, bind, Except.bind]
  simp only [Computation.stateAfter, FileStore.write, InMemory.write, dumped,
    tripped]
  exact same.set canonical text

/-- Removing paths and the files of these paths. -/
theorem eraseAll
    (same : SameStore folder data files)
    {paths : List String}
    {removed : List PurePath}
    (together :
      ∀ path ∈ data.keys,
        path ∈ paths ↔ folder.getAbsPath path ".json" ∈ removed) :
    SameStore folder (data.eraseAll paths) (files.eraseAll removed) where
  canonical := by
    intro path isKey
    rw [Dict.mem_keys_iff, Dict.get?_eraseAll] at isKey
    split at isKey
    · cases isKey
    · exact same.canonical path (Dict.mem_keys_iff.mpr isKey)
  stored := by
    intro path value found
    rw [Dict.get?_eraseAll] at found
    split at found
    · cases found
    · rename_i kept
      obtain ⟨text, file, loaded⟩ := same.stored path value found
      have isKey : path ∈ data.keys := by
        simp [Dict.mem_keys_iff, found]
      have keptFile := mt (together path isKey).mpr kept
      exact ⟨text, by rw [Dict.get?_eraseAll, if_neg keptFile, file], loaded⟩
  known := by
    intro file isFile within
    rw [Dict.mem_keys_iff, Dict.get?_eraseAll] at isFile
    split at isFile
    · cases isFile
    · rename_i kept
      obtain ⟨path, isKey, isPath⟩ :=
        same.known file (Dict.mem_keys_iff.mpr isFile) within
      have keptPath := mt (together path isKey).mp (isPath ▸ kept)
      refine ⟨path, ?_, isPath⟩
      rw [Dict.mem_keys_iff, Dict.get?_eraseAll, if_neg keptPath]
      exact Dict.mem_keys_iff.mp isKey

/-- `remove`. -/
theorem remove
    (same : SameStore folder data files)
    {path : String}
    (canonical : isCanonicalPath path = true) :
    SameStore folder
      (Computation.stateAfter (InMemory.remove path) data)
      (Computation.stateAfter (FileStore.remove folder path) files) := by
  have together :
      ∀ other ∈ data.keys,
        other ∈ [path] ↔
          folder.getAbsPath other ".json" ∈
            [folder.getAbsPath path ".json"] := by
    intro other isKey
    simp only [List.mem_singleton]
    exact ⟨fun isPath => by rw [isPath],
      getAbsPath_injective folder (same.canonical other isKey) canonical⟩
  have erased := same.eraseAll together
  simp only [Computation.stateAfter, InMemory.remove, FileStore.remove]
  cases present : files.contains (folder.getAbsPath path ".json") with
  | true =>
      exact erased
  | false =>
      have absent :
          files.get? (folder.getAbsPath path ".json") = none := by
        simpa [Dict.contains] using present
      simpa [Dict.eraseAll, Dict.erase_of_get?_eq_none absent] using erased

end SameStore

/-! ## Updates and folders -/

/-- An update that raises has not changed the stored object, nor assigns keys of JSON. -/
def updateCommits
    (stored : Value F)
    (ops : List (DraftUpdateOp F)) :
    Prop :=
  ∀ jsonOps,
    ops.mapM DraftUpdateOp.roundTrip = .ok jsonOps →
    opsKeysAreJson (.start stored) jsonOps = true ∧
      ∀ raised after,
        applyDraftUpdateOpsToJsonWithRoot jsonOps (.start stored) =
          .error raised after →
        after.stored = stored

omit [PyJson F] in
theorem changeInPlace_stored
    (data : Dict String (Value F))
    (path : String) :
    InMemory.changeInPlace data path ((data.get? path).getD .none) = data := by
  unfold InMemory.changeInPlace
  cases found : data.get? path with
  | none =>
      simp [Dict.contains, found]
  | some value =>
      simp [Dict.contains, found, Dict.set_of_get?_eq_some found]

namespace SameStore

/-- `update`. -/
theorem update
    (same : SameStore folder data files)
    {path : String}
    {ops : List (DraftUpdateOp F)}
    (canonical : isCanonicalPath path = true)
    (commits : updateCommits ((data.get? path).getD .none) ops) :
    SameStore folder
      (Computation.stateAfter (InMemory.update path ops) data)
      (Computation.stateAfter (FileStore.update folder path ops) files) := by
  simp only [Computation.stateAfter, InMemory.update, FileStore.update,
    same.fileStore_read canonical]
  cases tripped : ops.mapM DraftUpdateOp.roundTrip with
  | error raised =>
      exact same
  | ok jsonOps =>
      obtain ⟨keys, unchanged⟩ := commits jsonOps tripped
      simp only
      cases requireRootAssign ("path " ++ path ++ " not exist")
          ((data.get? path).getD .none) jsonOps with
      | error raised =>
          exact same
      | ok _ =>
          simp only
          have json : (RootState.start ((data.get? path).getD .none)).IsJson :=
            ⟨same.isJson_getD path, by simp [RootState.start]⟩
          cases applied :
              applyDraftUpdateOpsToJsonWithRoot jsonOps
                (.start ((data.get? path).getD .none)) with
          | error raised after =>
              simp only [unchanged raised after applied,
                changeInPlace_stored data path]
              exact same
          | ok _ after =>
              have jsonAfter :=
                json.applyOps (isJsonData_of_roundTrips tripped) keys applied
              cases changed : after.isRootChanged with
              | true =>
                  simpa [changed, Computation.stateAfter] using
                    same.write_isJson canonical jsonAfter.obj
              | false =>
                  have present : data.contains path = true := by
                    by_contra missing
                    have absent : data.get? path = none := by
                      simpa [Dict.contains] using missing
                    rw [absent] at applied
                    rw [isRootChanged_of_none applied] at changed
                    cases changed
                  simpa [changed, InMemory.changeInPlace, present,
                    Computation.stateAfter] using
                    same.write_isJson canonical jsonAfter.stored

end SameStore

/-- Whether `remove_folder` of the file store removes a file. -/
def removesFile
    (folder : StoreFolder)
    (files : Files F)
    (path : String)
    (file : PurePath) :
    Bool :=
  let target := folder.cwd.join (PurePath.ofString path)
  !files.contains target && file.isBelow target

/-- Both backends remove the same paths with a folder. -/
def removesSame
    (folder : StoreFolder)
    (data : Dict String (Value F))
    (files : Files F)
    (path : String) :
    Bool :=
  data.keys.all fun key =>
    (PurePath.ofString key).isRelativeTo (PurePath.ofString path) ==
      removesFile folder files path (folder.getAbsPath key ".json")

namespace SameStore

/-- `remove_folder`. -/
theorem removeFolder
    (same : SameStore folder data files)
    {path : String}
    (together : removesSame folder data files path = true) :
    SameStore folder
      (Computation.stateAfter (InMemory.removeFolder path) data)
      (Computation.stateAfter (FileStore.removeFolder folder path) files) := by
  have each :
      ∀ key ∈ data.keys,
        (PurePath.ofString key).isRelativeTo (PurePath.ofString path) =
          removesFile folder files path (folder.getAbsPath key ".json") := by
    intro key isKey
    simpa using List.all_eq_true.mp together key isKey
  have together :
      ∀ key ∈ data.keys,
        key ∈ InMemory.keysInFolder data path ↔
          folder.getAbsPath key ".json" ∈
            if files.contains (folder.cwd.join (PurePath.ofString path)) then
              []
            else
              FileStore.filesInFolder files
                (folder.cwd.join (PurePath.ofString path)) := by
    intro key isKey
    obtain ⟨value, found⟩ :=
      Option.isSome_iff_exists.mp (Dict.mem_keys_iff.mp isKey)
    obtain ⟨text, file, _⟩ := same.stored key value found
    have isFile : folder.getAbsPath key ".json" ∈ files.keys := by
      simp [Dict.mem_keys_iff, file]
    simp only [InMemory.keysInFolder, List.mem_filter, isKey, true_and,
      each key isKey, removesFile]
    cases files.contains (folder.cwd.join (PurePath.ofString path)) <;>
      simp [FileStore.filesInFolder, isFile]
  have erased := same.eraseAll together
  simp only [Computation.stateAfter, InMemory.removeFolder,
    FileStore.removeFolder]
  cases isFile :
      files.contains (folder.cwd.join (PurePath.ofString path)) with
  | true =>
      simpa [isFile, Dict.eraseAll] using erased
  | false =>
      simp only [isFile, Bool.false_eq_true, ↓reduceIte] at erased ⊢
      cases inFolder :
          FileStore.filesInFolder files
            (folder.cwd.join (PurePath.ofString path)) with
      | nil =>
          simpa [inFolder, Dict.eraseAll] using erased
      | cons first rest =>
          simpa [inFolder] using erased

end SameStore

/-! ## Folders -/

/-- A relative path to a folder without `..` and without characters of patterns. -/
def isPlainFolder (path : String) : Bool :=
  !(PurePath.ofString path).isAbsolute &&
    (PurePath.ofString path).parts.all fun part =>
      part != ['.', '.'] && isLiteralPart part

/-- The stored paths whose parent is a folder. -/
def isChildOf (folderPath path : String) : Bool :=
  (PurePath.ofString path).parent == PurePath.ofString folderPath

/-- The values that the memory backend returns for a folder. -/
theorem inMemory_readAllChilds
    (same : SameStore folder data files)
    (folderPath : String) :
    ∃ result,
      InMemory.readAllChilds data folderPath = .ok result ∧
        ∀ path value,
          result.get? path = some value ↔
            data.get? path = some value ∧ isChildOf folderPath path = true := by
  have nodup :
      ((data.entries.filter fun entry =>
        (PurePath.ofString entry.1).parent ==
          PurePath.ofString folderPath).map Prod.fst).Nodup :=
    data.nodup.sublist (List.filter_sublist.map Prod.fst)
  have roundTrip :
      ∀ path value,
        data.get? path = some value → jsonRoundTrip value = .ok value :=
    fun path value found => jsonRoundTrip_of_isJson (same.isJson found)
  obtain ⟨result, computed, looks⟩ :=
    @Dict.fillFrom_eq_ok String (Value F) (Value F) _
      (fun _ value => jsonRoundTrip value) _ .empty nodup (by
        intro entry member
        have found :=
          (Dict.mem_entries_iff data).mp (List.mem_of_mem_filter member)
        exact ⟨_, roundTrip _ _ found⟩)
  refine ⟨result, computed, ?_⟩
  intro path value
  rw [looks path value]
  simp only [Dict.lookup_eq_some_iff nodup, List.mem_filter,
    Dict.mem_entries_iff, Dict.get?_empty, reduceCtorEq, and_false, or_false,
    isChildOf]
  constructor
  · rintro ⟨old, ⟨found, child⟩, tripped⟩
    rw [roundTrip path old found] at tripped
    cases tripped
    exact ⟨found, child⟩
  · rintro ⟨found, child⟩
    exact ⟨value, ⟨found, child⟩, roundTrip path value found⟩

omit [PyJson F] in
/-- The file of a path, as a file of its parent folder. -/
theorem relative_file
    {folderPath path : String}
    (plain : isPlainFolder folderPath = true)
    (canonical : isCanonicalPath path = true) :
    globMatches
          ((PurePath.ofString folderPath).join (PurePath.ofString "*.json")).parts
          ((folder.getAbsPath path ".json").relativeTo folder.base).parts =
        isChildOf folderPath path ∧
      ((folder.getAbsPath path ".json").relativeTo
          folder.base).withoutSuffix.toText =
        path := by
  obtain ⟨front, last, split, named, file⟩ :=
    getAbsPath_eq folder ".json" canonical (by decide) (by decide)
  have relative :
      (folder.getAbsPath path ".json").relativeTo folder.base =
        ⟨false, front ++ [last ++ ".json".toList]⟩ := by
    rw [file]
    simp [PurePath.relativeTo]
  have pathParts : PurePath.ofString path = ⟨false, front ++ [last]⟩ := by
    rw [ofString_of_isCanonicalPath canonical, split]
  simp only [isPlainFolder, Bool.and_eq_true, Bool.not_eq_true',
    List.all_eq_true] at plain
  obtain ⟨isRelative, literal⟩ := plain
  have ending : fnmatch ('*' :: ".json".toList) (last ++ ".json".toList) = true :=
    (fnmatch_star (by decide)).mpr (List.suffix_append last _)
  constructor
  · have pattern :
        ((PurePath.ofString folderPath).join (PurePath.ofString "*.json")).parts =
          (PurePath.ofString folderPath).parts ++ ['*' :: ".json".toList] :=
      rfl
    rw [relative, pattern, Bool.eq_iff_iff,
      globMatches_literal (fun part member => (literal part member).2)
        (by decide)]
    simp only [isChildOf, pathParts, PurePath.parent, List.dropLast_concat,
      beq_iff_eq]
    constructor
    · rintro ⟨name, same, _⟩
      obtain ⟨sameFront, _⟩ := List.append_inj' same rfl
      rw [sameFront, ← isRelative]
    · intro same
      rw [← same]
      exact ⟨last ++ ".json".toList, rfl, ending⟩
  · have suffix : withoutSuffix (last ++ '.' :: "json".toList) = last :=
      withoutSuffix_append named (by decide) (by decide)
    have stripped :
        (PurePath.mk false (front ++ [last ++ ".json".toList])).withoutSuffix =
          ⟨false, front ++ [withoutSuffix (last ++ '.' :: "json".toList)]⟩ := by
      simp [PurePath.withoutSuffix]
    rw [relative, stripped, suffix, ← pathParts]
    exact toText_of_isCanonicalPath canonical

/-- The files that are read for a folder are those of the paths in it. -/
theorem mem_childFiles
    (same : SameStore folder data files)
    {folderPath : String}
    (plain : isPlainFolder folderPath = true)
    {name : String}
    {text : FileText F} :
    (name, text) ∈
        FileStore.childFiles folder files
          ((PurePath.ofString folderPath).join (PurePath.ofString "*.json")) ↔
      name ∈ data.keys ∧ isChildOf folderPath name = true ∧
        files.get? (folder.getAbsPath name ".json") = some text := by
  simp only [FileStore.childFiles, List.mem_map, List.mem_filter,
    Bool.and_eq_true, Prod.exists, Prod.mk.injEq]
  constructor
  · rintro ⟨file, content, ⟨isEntry, within, isMatch⟩, isName, rfl⟩
    have found := (Dict.mem_entries_iff files).mp isEntry
    obtain ⟨path, isKey, rfl⟩ :=
      same.known file (Dict.mem_keys_iff.mpr (by simp [found])) within
    obtain ⟨child, spelled⟩ :=
      @relative_file folder folderPath path plain (same.canonical path isKey)
    rw [spelled] at isName
    rw [child] at isMatch
    subst isName
    exact ⟨isKey, isMatch, found⟩
  · rintro ⟨isKey, isChild, found⟩
    have canonical := same.canonical name isKey
    obtain ⟨child, spelled⟩ :=
      @relative_file folder folderPath name plain canonical
    refine ⟨_, text, ⟨(Dict.mem_entries_iff files).mpr found, ?_, ?_⟩,
      spelled, rfl⟩
    · exact isRelativeTo_base canonical (by decide) (by decide)
    · rw [child]
      exact isChild

/-- No name is read twice. -/
theorem nodup_childFiles
    (same : SameStore folder data files)
    {folderPath : String}
    (plain : isPlainFolder folderPath = true) :
    ((FileStore.childFiles folder files
      ((PurePath.ofString folderPath).join
        (PurePath.ofString "*.json"))).map Prod.fst).Nodup := by
  unfold FileStore.childFiles
  rw [List.map_map]
  refine (files.nodup.of_map.filter _).map_on ?_
  rintro ⟨file, text⟩ member ⟨other, otherText⟩ otherMember sameName
  simp only [List.mem_filter, Bool.and_eq_true] at member otherMember
  have found := (Dict.mem_entries_iff files).mp member.1
  have otherFound := (Dict.mem_entries_iff files).mp otherMember.1
  obtain ⟨path, isKey, rfl⟩ :=
    same.known file (Dict.mem_keys_iff.mpr (by simp [found])) member.2.1
  obtain ⟨otherPath, otherKey, rfl⟩ :=
    same.known other (Dict.mem_keys_iff.mpr (by simp [otherFound]))
      otherMember.2.1
  have spelled :=
    (@relative_file folder folderPath path plain
      (same.canonical path isKey)).2
  have otherSpelled :=
    (@relative_file folder folderPath otherPath plain
      (same.canonical otherPath otherKey)).2
  simp only [Function.comp_apply, spelled, otherSpelled] at sameName
  subst sameName
  rw [found] at otherFound
  cases otherFound
  rfl

/-- The values that the file backend returns for a folder. -/
theorem fileStore_readAllChilds
    (same : SameStore folder data files)
    {folderPath : String}
    (plain : isPlainFolder folderPath = true) :
    ∃ result,
      FileStore.readAllChilds folder files folderPath = .ok result ∧
        ∀ path value,
          result.get? path = some value ↔
            data.get? path = some value ∧ isChildOf folderPath path = true := by
  have nodup := nodup_childFiles same plain
  have reads :
      ∀ path value text,
        data.get? path = some value →
        files.get? (folder.getAbsPath path ".json") = some text →
        text.load = .ok value := by
    intro path value text found file
    obtain ⟨json, isFile, loaded⟩ := same.stored path value found
    rw [isFile] at file
    cases file
    exact congrArg Except.ok loaded
  obtain ⟨result, computed, looks⟩ :=
    @Dict.fillFrom_eq_ok String (FileText F) (Value F) _
      (fun _ text => text.load) _ .empty nodup (by
        rintro ⟨name, text⟩ member
        obtain ⟨isKey, _, file⟩ := (mem_childFiles same plain).mp member
        obtain ⟨value, found⟩ :=
          Option.isSome_iff_exists.mp (Dict.mem_keys_iff.mp isKey)
        exact ⟨value, reads name value text found file⟩)
  have relative :
      ((PurePath.ofString folderPath).join
        (PurePath.ofString "*.json")).isAbsolute = false := by
    simp only [isPlainFolder, Bool.and_eq_true, Bool.not_eq_true'] at plain
    exact plain.1
  refine ⟨result, ?_, ?_⟩
  · simpa [FileStore.readAllChilds, relative] using computed
  intro path value
  rw [looks path value]
  simp only [Dict.lookup_eq_some_iff nodup, mem_childFiles same plain,
    Dict.get?_empty, reduceCtorEq, and_false, or_false]
  constructor
  · rintro ⟨text, ⟨isKey, isChild, file⟩, loaded⟩
    obtain ⟨old, found⟩ :=
      Option.isSome_iff_exists.mp (Dict.mem_keys_iff.mp isKey)
    rw [reads path old text found file] at loaded
    cases loaded
    exact ⟨found, isChild⟩
  · rintro ⟨found, isChild⟩
    obtain ⟨text, file, loaded⟩ := same.stored path value found
    exact ⟨.json text, ⟨Dict.mem_keys_iff.mpr (by simp [found]), isChild, file⟩,
      congrArg Except.ok loaded⟩

end Invariant

/-! ## Runs -/

/-- The calls of a storage backend. -/
inductive StoreCall (F : Type) where
  | read (path : String)
  | write (path : String) (value : Value F)
  | update (path : String) (ops : List (DraftUpdateOp F))
  | remove (path : String)
  | removeFolder (path : String)
  | readAllChilds (path : String)

/-- The states of both backends. -/
structure Stores (F : Type) where
  data : Dict String (Value F)
  files : Files F

section Runs

variable [PyJson F] (folder : StoreFolder)

/-- Both backends after a call. -/
def applyCall (stores : Stores F) : StoreCall F → Stores F
  | .read _ => stores
  | .readAllChilds _ => stores
  | .write path value => {
      data := Computation.stateAfter (InMemory.write path value) stores.data
      files :=
        Computation.stateAfter (FileStore.write folder path value)
          stores.files }
  | .update path ops => {
      data := Computation.stateAfter (InMemory.update path ops) stores.data
      files :=
        Computation.stateAfter (FileStore.update folder path ops) stores.files }
  | .remove path => {
      data := Computation.stateAfter (InMemory.remove path) stores.data
      files :=
        Computation.stateAfter (FileStore.remove folder path) stores.files }
  | .removeFolder path => {
      data := Computation.stateAfter (InMemory.removeFolder path) stores.data
      files :=
        Computation.stateAfter (FileStore.removeFolder folder path)
          stores.files }

/-- A call as a transition, which is always possible. -/
def storeStep (stores : Stores F) (call : StoreCall F) : Option (Stores F) :=
  some (applyCall folder stores call)

/--
Paths are canonical, written values have a text, a folder is removed where both
backends remove the same paths, and an update that raises has changed nothing.
-/
def callAgrees (stores : Stores F) : StoreCall F → Prop
  | .read path => isCanonicalPath path = true
  | .readAllChilds path => isPlainFolder path = true
  | .write path value =>
      isCanonicalPath path = true ∧ ∃ text, dumps value = .ok text
  | .update path ops =>
      isCanonicalPath path = true ∧
        updateCommits ((stores.data.get? path).getD .none) ops
  | .remove path => isCanonicalPath path = true
  | .removeFolder path =>
      removesSame folder stores.data stores.files path = true

/-- Both backends return the same for every canonical path and plain folder. -/
def ReadsSame (stores : Stores F) : Prop :=
  (∀ path, isCanonicalPath path = true →
    InMemory.read stores.data path =
      .ok (FileStore.read folder stores.files path)) ∧
  ∀ path, isPlainFolder path = true →
    ∃ first second,
      InMemory.readAllChilds stores.data path = .ok first ∧
      FileStore.readAllChilds folder stores.files path = .ok second ∧
      ∀ key, first.get? key = second.get? key

theorem sameStore_applyCall
    {stores : Stores F}
    {call : StoreCall F}
    (same : SameStore folder stores.data stores.files)
    (agrees : callAgrees folder stores call) :
    SameStore folder (applyCall folder stores call).data
      (applyCall folder stores call).files := by
  cases call with
  | read path | readAllChilds path =>
      exact same
  | write path value =>
      obtain ⟨canonical, text, dumped⟩ := agrees
      exact same.write canonical dumped
  | update path ops =>
      exact same.update agrees.1 agrees.2
  | remove path =>
      exact same.remove agrees
  | removeFolder path =>
      exact same.removeFolder agrees

theorem readsSame_of_sameStore
    {stores : Stores F}
    (same : SameStore folder stores.data stores.files) :
    ReadsSame folder stores := by
  refine ⟨fun path canonical => same.read canonical, fun path plain => ?_⟩
  obtain ⟨first, computedFirst, looksFirst⟩ := inMemory_readAllChilds same path
  obtain ⟨second, computedSecond, looksSecond⟩ :=
    fileStore_readAllChilds same plain
  refine ⟨first, second, computedFirst, computedSecond, fun key => ?_⟩
  exact Option.ext fun value =>
    (looksFirst key value).trans (looksSecond key value).symm

end Runs

/-- A root folder that is not the working directory. -/
def sampleFolder : StoreFolder where
  cwd := .ofString "/work"
  root := .ofString "/data"

/-- `write("a/x", {"n": 1})`. -/
def sampleWrite : StoreCall WholeFloat :=
  .write "a/x" (.dict [(.str "n", .int 1)])

/-- `update("a/x", [n += 1])`. -/
def sampleIncrement : StoreCall WholeFloat :=
  .update "a/x"
    [{ data := .scalarInplaceOp .add (.str "n") (.int 1), node := .name "" }]

end TensorPC.Draft
