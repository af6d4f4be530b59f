import TensorPC.Draft.RootOps
import TensorPC.Py.Dict
import TensorPC.Py.PurePath

namespace TensorPC.Draft

/-!
# Storage backends of draft models

`DraftFileStoreBackendInMemory` keeps a dictionary from path texts to JSON values,
and `DraftSimpleFileStoreBackend` a JSON file for every path, without backups.
The file system is a map from absolute paths to texts.
-/

variable {F : Type} [PyJson F]

/-! ## In memory -/

namespace InMemory

/-- `read`. -/
def read
    (data : Dict String (Value F))
    (path : String) :
    PyResult (Value F) :=
  jsonRoundTrip ((data.get? path).getD .none)

/-- `write`. -/
def write
    (path : String)
    (value : Value F) :
    EStateM PyError (Dict String (Value F)) Unit :=
  fun data =>
    match jsonRoundTrip value with
    | .ok value => .ok () (data.set path value)
    | .error raised => .error raised data

omit [PyJson F] in
/-- The stored object of a path has changed in place. -/
def changeInPlace
    (data : Dict String (Value F))
    (path : String)
    (value : Value F) :
    Dict String (Value F) :=
  if data.contains path then data.set path value else data

/-- `update`. -/
def update
    (path : String)
    (ops : List (DraftUpdateOp F)) :
    EStateM PyError (Dict String (Value F)) Unit :=
  fun data =>
    let stored := (data.get? path).getD .none
    match ops.mapM DraftUpdateOp.roundTrip with
    | .error raised => .error raised data
    | .ok ops =>
        match requireRootAssign ("path " ++ path ++ " not exist") stored ops with
        | .error raised => .error raised data
        | .ok _ =>
            match applyDraftUpdateOpsToJsonWithRoot ops (.start stored) with
            | .ok _ after =>
                if after.isRootChanged then
                  .ok () (data.set path after.obj)
                else
                  .ok () (changeInPlace data path after.stored)
            | .error raised after =>
                .error raised (changeInPlace data path after.stored)

omit [PyJson F] in
/-- `remove`. -/
def remove
    (path : String) :
    EStateM PyError (Dict String (Value F)) Unit :=
  fun data => .ok () (data.erase path)

omit [PyJson F] in
/-- The keys that `remove_folder` removes. -/
def keysInFolder
    (data : Dict String (Value F))
    (path : String) :
    List String :=
  data.keys.filter fun key =>
    (PurePath.ofString key).isRelativeTo (PurePath.ofString path)

omit [PyJson F] in
/-- `remove_folder`. -/
def removeFolder
    (path : String) :
    EStateM PyError (Dict String (Value F)) (List String) :=
  fun data =>
    let keys := keysInFolder data path
    .ok keys (data.eraseAll keys)

/-- `read_all_childs`. -/
def readAllChilds
    (data : Dict String (Value F))
    (path : String) :
    PyResult (Dict String (Value F)) :=
  Dict.fillFrom (fun _ value => jsonRoundTrip value)
    (data.entries.filter fun entry =>
      (PurePath.ofString entry.1).parent == PurePath.ofString path)
    .empty

end InMemory

/-! ## In files -/

/-- The content of a file: a text that was written, or the start of one. -/
inductive FileText (F : Type) where
  | json (text : Json F)
  | broken

/-- `json.load(file)`. -/
def FileText.load : FileText F → PyResult (Value F)
  | json text => .ok (loads text)
  | broken => .error (.valueError "Expecting value")

/-- The root folder of a file store, and the working directory of the process. -/
structure StoreFolder where
  cwd : PurePath
  root : PurePath

namespace StoreFolder

/-- The root folder in the file system. -/
def base (folder : StoreFolder) : PurePath :=
  folder.cwd.join folder.root

/-- `_get_abs_path`, in the file system. -/
def getAbsPath
    (folder : StoreFolder)
    (path suffix : String) :
    PurePath :=
  folder.cwd.join (folder.root.join (PurePath.ofString (path ++ suffix)))

end StoreFolder

/-- The files of a file system. -/
abbrev Files (F : Type) := Dict PurePath (FileText F)

namespace FileStore

variable (folder : StoreFolder)

/-- `read`: a file that cannot be read is replaced by its backup, or by `None`. -/
def read
    (files : Files F)
    (path : String) :
    Value F :=
  let backup := files.get? (folder.getAbsPath path ".json.bak")
  match (files.get? (folder.getAbsPath path ".json")).or backup with
  | none => .none
  | some text =>
      match text.load, backup with
      | .ok value, _ => value
      | .error _, none => .none
      | .error _, some text =>
          match text.load with
          | .ok value => value
          | .error _ => .none

/-- `write`: the file is emptied before the value is written. -/
def write
    (path : String)
    (value : Value F) :
    EStateM PyError (Files F) Unit :=
  fun files =>
    let file := folder.getAbsPath path ".json"
    match dumps value with
    | .ok text => .ok () (files.set file (.json text))
    | .error raised => .error raised (files.set file .broken)

/-- `update`. -/
def update
    (path : String)
    (ops : List (DraftUpdateOp F)) :
    EStateM PyError (Files F) Unit :=
  fun files =>
    let stored := read folder files path
    match ops.mapM DraftUpdateOp.roundTrip with
    | .error raised => .error raised files
    | .ok ops =>
        match requireRootAssign ("path " ++ path ++ " not exist") stored ops with
        | .error raised => .error raised files
        | .ok _ =>
            match applyDraftUpdateOpsToJsonWithRoot ops (.start stored) with
            | .ok _ after =>
                if after.isRootChanged then
                  write folder path after.obj files
                else
                  write folder path after.stored files
            | .error raised _ => .error raised files

omit [PyJson F] in
/-- `remove`. -/
def remove
    (path : String) :
    EStateM PyError (Files F) Unit :=
  fun files =>
    let file := folder.getAbsPath path ".json"
    if files.contains file then
      .ok () (files.erase file)
    else
      .error (.osError "FileNotFoundError") files

omit [PyJson F] in
/-- The files that `shutil.rmtree` removes. -/
def filesInFolder
    (files : Files F)
    (target : PurePath) :
    List PurePath :=
  files.keys.filter fun file => file.isBelow target

omit [PyJson F] in
/-- `remove_folder`, which takes the path from the working directory. -/
def removeFolder
    (path : String) :
    EStateM PyError (Files F) Bool :=
  fun files =>
    let target := folder.cwd.join (PurePath.ofString path)
    let inFolder := filesInFolder files target
    if files.contains target then
      .error (.osError "NotADirectoryError") files
    else if inFolder.isEmpty then
      .ok false files
    else
      .ok true (files.eraseAll inFolder)

omit [PyJson F] in
/-- The files that `read_all_childs` reads, under the names of their paths. -/
def childFiles
    (files : Files F)
    (pattern : PurePath) :
    List (String × FileText F) :=
  (files.entries.filter fun entry =>
    entry.1.isRelativeTo folder.base &&
      globMatches pattern.parts (entry.1.relativeTo folder.base).parts).map
    fun entry =>
      ((entry.1.relativeTo folder.base).withoutSuffix.toText, entry.2)

/-- `read_all_childs`. -/
def readAllChilds
    (files : Files F)
    (path : String) :
    PyResult (Dict String (Value F)) :=
  let pattern := (PurePath.ofString path).join (PurePath.ofString "*.json")
  if pattern.isAbsolute then
    .error .notImplementedError
  else
    Dict.fillFrom (fun _ text => text.load) (childFiles folder files pattern)
      .empty

end FileStore

end TensorPC.Draft
