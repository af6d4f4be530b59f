import TensorPC.Draft.RootOps
import TensorPC.Py.FileTree

namespace TensorPC.Dock

/-!
# Data storage nodes

`DataStorageNodeBase`: entries in the folder of a node, each as a meta file and a
data file named by its storage type, and the items that are kept in memory.  The
files are those below the folder of the node; a meta passed by a caller is an
object of its own, as it comes out of a request.
-/

open TensorPC.Draft

/-- `StorageType`. -/
inductive StorageType where
  | json
  | raw
  | jsonArray
  | pickleDeprecated
  deriving DecidableEq

/-- `_get_suffix_by_type`. -/
def StorageType.suffix : StorageType → List Char
  | raw => ".binary".toList
  | json => ".jsonc".toList
  | jsonArray => ".jarr".toList
  | pickleDeprecated => ".pkl".toList

/-- The number of a storage type. -/
def StorageType.value : StorageType → Int
  | json => 0
  | raw => 1
  | jsonArray => 2
  | pickleDeprecated => -1

/-- The suffix of meta files. -/
def metaSuffix : List Char :=
  ".json".toList

/-- `meta.userdata`; an absent version is 1, an absent type the deprecated one. -/
structure StorageUserdata where
  timestamp : Int
  fileSize : Nat
  version : Int
  type : StorageType
  deriving DecidableEq

/-- A `JsonLikeNode` without its `userdata`, as its dictionary has it. -/
structure JsonLikeNode (M : Type) where
  id : List String
  name : String
  type : Nat
  /-- The fields that no storage operation reads or writes. -/
  others : M
  deriving DecidableEq

/-- A meta that is stored, as `get_meta_dict` returns it. -/
structure StorageMeta (M : Type) where
  node : JsonLikeNode M
  userdata : StorageUserdata
  deriving DecidableEq

/-- `StorageDataItem`. -/
structure StorageDataItem (M : Type) where
  data : List UInt8
  stored : StorageMeta M
  deriving DecidableEq

/-- What a file of a node holds. -/
inductive StorageFile (M : Type) where
  | metaText (dict : StorageMeta M)
  | bytes (data : List UInt8)
  deriving DecidableEq

/-- What a data storage node is made with, and the encodings that it uses. -/
structure DataStorageNode (F M : Type) where
  /-- `get_in_memory_limit`. -/
  inMemoryLimit : Int
  /-- The order in which a walk through the folder meets the nodes below it. -/
  walk : List (List PathPart) → List (List PathPart)
  walk_perm : ∀ paths, (walk paths).Perm paths
  /-- The folder of the node, as error texts spell it. -/
  folder : String
  /-- The fields of a new `JsonLikeNode`. -/
  defaultOthers : M
  jsonLoads : List UInt8 → PyResult (Value F)
  jsonDumps : Value F → PyResult (List UInt8)
  /-- `core_io.loads`. -/
  arrayLoads : List UInt8 → PyResult (Value F)
  /-- `core_io.dumps`. -/
  arrayDumps : Value F → PyResult (List UInt8)
  pickleLoad : List UInt8 → PyResult (List UInt8)
  opText : DraftUpdateOp F → String

/-- `stored_data`, and the files of the node. -/
structure NodeState (M : Type) where
  storedData : Dict String (StorageDataItem M)
  files : FileTree (StorageFile M)

/-- A storage operation: it may raise, and then keeps what it did until there. -/
abbrev StorageM (M α : Type) := EStateM PyError (NodeState M) α

variable {F M : Type}

/-- A node without entries, before its folder is made. -/
def NodeState.init : NodeState M where
  storedData := .empty
  files := .empty

/-- `JsonLikeType.Object.value`. -/
def objectType : Nat := 10

/-! ## Keys and files -/

/-- An operation on the files. -/
def onFiles
    {α : Type}
    (operation : EStateM PyError (FileTree (StorageFile M)) α) :
    StorageM M α :=
  fun state =>
    match operation state.files with
    | .ok result files => .ok result { state with files := files }
    | .error raised files => .error raised { state with files := files }

/-- A part of a computation that touches no state. -/
def ofResult {α : Type} (result : PyResult α) : StorageM M α :=
  fun state =>
    match result with
    | .ok value => .ok value state
    | .error raised => .error raised state

/-- `_check_and_split_key`. -/
def checkAndSplitKey (key : String) : PyResult (List PathPart) := do
  let parts := (PurePath.ofString key).parts
  parts.forM fun part =>
    pyAssert (!part.isEmpty) (key ++ " contains empty part.")
  pure parts

/-- `_get_and_create_storage_root_path`. -/
def getAndCreateStorageRootPath
    (key : String) :
    StorageM M (List PathPart × PathPart) := do
  let parts ← ofResult (checkAndSplitKey key)
  onFiles (FileTree.ensureDirs parts.dropLast)
  match parts.getLast? with
  | some last => pure (parts.dropLast, last)
  | none => throw .indexError

/-- `get_save_path`. -/
def getSavePath
    (key : String)
    (type : StorageType) :
    StorageM M (List PathPart) := do
  let (root, last) ← getAndCreateStorageRootPath key
  pure (root ++ [last ++ type.suffix])

/-- `get_meta_path`. -/
def getMetaPath (key : String) : StorageM M (List PathPart) := do
  let (root, last) ← getAndCreateStorageRootPath key
  pure (root ++ [last ++ metaSuffix])

/-- `path.exists()`. -/
def pathExists (path : List PathPart) : StorageM M Bool :=
  fun state => .ok (state.files.contains path) state

/-- `json.load(file)`; no data file has the name of a meta file. -/
def loadMeta (path : List PathPart) : StorageM M (StorageMeta M) :=
  fun state =>
    match state.files.readFile path with
    | .error raised => .error raised state
    | .ok (.metaText dict) => .ok dict state
    | .ok (.bytes _) => .error (.valueError "Expecting value") state

/-- `file.read()`, for a data file; no meta file has the name of one. -/
def readBytes (path : List PathPart) : StorageM M (List UInt8) :=
  fun state =>
    match state.files.readFile path with
    | .error raised => .error raised state
    | .ok (.bytes data) => .ok data state
    | .ok (.metaText _) => .error (.valueError "not a data file") state

/-- `stored_data[key] = item`. -/
def setStored (key : String) (item : StorageDataItem M) : StorageM M Unit :=
  fun state => .ok () { state with storedData := state.storedData.set key item }

/-- `{key}({path}) not exists`. -/
def notExistsText
    (node : DataStorageNode F M)
    (key : String)
    (path : List PathPart) :
    String :=
  key ++ "(" ++
    node.folder ++ String.ofList ('/' :: ['/'].intercalate path) ++ ") not exists"

namespace DataStorageNode

variable (node : DataStorageNode F M)

/-- What `stored_data` keeps of an entry. -/
def kept (item : StorageDataItem M) : StorageDataItem M :=
  if (item.data.length : Int) ≤ node.inMemoryLimit then
    item
  else
    { item with data := [] }

/-! ## Reading -/

/-- `has_data_item`. -/
def hasDataItem (key : String) : StorageM M Bool := do
  let state ← get
  if state.storedData.contains key then
    pure true
  else
    let path ← getMetaPath key
    pathExists path

/-- `read_meta_dict`. -/
def readMetaDict (key : String) : StorageM M (StorageMeta M) := do
  let state ← get
  match state.storedData.get? key with
  | some item => pure item.stored
  | none =>
      let path ← getMetaPath key
      if ← pathExists path then
        loadMeta path
      else
        throw (.keyError (notExistsText node key path))

/-- The data file that is read. -/
def readPath (key : String) (userdata : StorageUserdata) : StorageM M (List PathPart) :=
  if userdata.version = 1 then
    getSavePath key .pickleDeprecated
  else
    getSavePath key userdata.type

/-- The data in a data file. -/
def decodeData
    (userdata : StorageUserdata)
    (bytes : List UInt8) :
    PyResult (List UInt8) :=
  if userdata.version = 1 then node.pickleLoad bytes else .ok bytes

/-- `read_data` from the files. -/
def readDataFromFiles (key : String) : StorageM M (StorageDataItem M) := do
  let metaPath ← getMetaPath key
  if ← pathExists metaPath then
    let stored ← loadMeta metaPath
    let path ← readPath key stored.userdata
    if ← pathExists path then
      let bytes ← readBytes path
      let data ← ofResult (node.decodeData stored.userdata bytes)
      let item := ⟨data, stored⟩
      setStored key (node.kept item)
      pure item
    else
      throw (.keyError (notExistsText node key path))
  else
    throw (.keyError (notExistsText node key metaPath))

/-- `read_data`. -/
def readData (key : String) : StorageM M (StorageDataItem M) := do
  let state ← get
  match state.storedData.get? key with
  | some item =>
      if item.data.length > 0 then
        pure item
      else
        node.readDataFromFiles key
  | none => node.readDataFromFiles key

/-- `read_data_if_need_update`. -/
def readDataIfNeedUpdate
    (key : String)
    (timestamp : Int) :
    StorageM M (StorageDataItem M) := do
  let state ← get
  match state.storedData.get? key with
  | none => node.readData key
  | some item =>
      if item.stored.userdata.timestamp ≠ timestamp then
        node.readData key
      else
        pure { item with data := [] }

/-- `path.relative_to(root).with_suffix("")`, spelled. -/
def itemKey (path : List PathPart) : String :=
  (PurePath.mk false path).withoutSuffix.toText

/-- The files that `get_items` looks for beside a node that it meets. -/
def candidates (path : List PathPart) : List (List PathPart) :=
  let stem := (PurePath.mk false path).withoutSuffix.parts
  [metaSuffix, StorageType.raw.suffix, StorageType.jsonArray.suffix,
    StorageType.pickleDeprecated.suffix].map fun suffix =>
      stem.dropLast ++ stem.getLast?.toList.map (· ++ suffix)

/-- The nodes that `get_items` takes for meta files. -/
def itemPaths (files : FileTree (StorageFile M)) : List (List PathPart) :=
  (node.walk files.descendants).filter fun path =>
    path.getLast?.any metaSuffix.isSuffixOf &&
      (candidates path).any files.contains

/-- `get_items`, without a prefix. -/
def getItems : StorageM M (List String) := do
  let state ← get
  if state.files.contains [] then
    pure ((node.itemPaths state.files).map itemKey)
  else
    pure []

/-! ## Writing -/

/-- `save_data`, once it is clear that the item may be written. -/
def writeItem (key : String) (item : StorageDataItem M) : StorageM M Unit := do
  let pathDeprecated ← getSavePath key .pickleDeprecated
  onFiles (FileTree.unlinkIfExists pathDeprecated)
  let path ← getSavePath key item.stored.userdata.type
  onFiles (FileTree.writeFile path (.bytes item.data))
  let metaPath ← getMetaPath key
  onFiles (FileTree.writeFile metaPath (.metaText item.stored))
  setStored key (node.kept item)

/-- `save_data`. -/
def saveData
    (key : String)
    (data : List UInt8)
    (fields : JsonLikeNode M)
    (timestamp : Int)
    (raiseIfExist : Bool)
    (type : StorageType) :
    StorageM M Unit := do
  let isThere ← hasDataItem key
  if isThere && raiseIfExist then
    throw (.keyError (key ++ " already exists"))
  else
    node.writeItem key ⟨data, ⟨fields, ⟨timestamp, data.length, 2, type⟩⟩⟩

/-- The object that `update_storage_data` stores. -/
def updatedObject
    [PyBuiltins F]
    (obj : Value F)
    (ops : List (DraftUpdateOp F)) :
    PyResult (Value F) :=
  match applyDraftUpdateOpsToJsonWithRoot ops (.start obj) with
  | .error raised _ => .error raised
  | .ok _ after =>
      if after.isRootChanged then .ok after.obj else .ok after.stored

/-- The object that a stored item holds. -/
def decodeItem (item : StorageDataItem M) : PyResult (Value F) :=
  match item.stored.userdata.type with
  | .json => node.jsonLoads item.data
  | .jsonArray => node.arrayLoads item.data
  | type =>
      .error (.assertionError
        ("only support json or jarr, not " ++ toString type.value))

/-- The bytes of an object that is stored with a type. -/
def encodeObject (type : StorageType) (obj : Value F) : PyResult (List UInt8) :=
  if type = .json then node.jsonDumps obj else node.arrayDumps obj

/-- `path {key} not exist, {ops[0]}`. -/
def missingText (key : String) (ops : List (DraftUpdateOp F)) : String :=
  "path " ++ key ++ " not exist, " ++ (ops.head?.map node.opText).getD ""

/-- The data of an existing item after an update. -/
def updatedData
    [PyBuiltins F]
    (item : StorageDataItem M)
    (ops : List (DraftUpdateOp F)) :
    PyResult (List UInt8) := do
  let obj ← node.decodeItem item
  let obj ← updatedObject obj ops
  node.encodeObject item.stored.userdata.type obj

/-- The data of an item that an update creates. -/
def createdData
    [PyBuiltins F]
    (key : String)
    (ops : List (DraftUpdateOp F))
    (createType : StorageType) :
    PyResult (List UInt8) := do
  requireRootAssign (node.missingText key ops) .none ops
  let obj ← updatedObject .none ops
  node.encodeObject createType obj

/-- `update_storage_data`. -/
def updateStorageData
    [PyBuiltins F]
    (key : String)
    (timestamp : Int)
    (ops : List (DraftUpdateOp F))
    (createType : StorageType) :
    StorageM M Bool := do
  let isThere ← hasDataItem key
  if isThere then
    let item ← node.readData key
    let data ← ofResult (node.updatedData item ops)
    node.saveData key data item.stored.node timestamp false item.stored.userdata.type
    pure true
  else
    let data ← ofResult (node.createdData key ops createType)
    node.saveData key data ⟨[key], key, objectType, node.defaultOthers⟩ timestamp false
      createType
    pure true

/-! ## Removing and renaming -/

/-- The data file that is removed. -/
def removePath (key : String) (userdata : StorageUserdata) : StorageM M (List PathPart) :=
  if userdata.version = 2 then
    getSavePath key userdata.type
  else
    getSavePath key .pickleDeprecated

/-- `remove_data` of one key. -/
def removeKey (key : String) : StorageM M Unit := do
  modify fun state => { state with storedData := state.storedData.erase key }
  let metaPath ← getMetaPath key
  let stored ← node.readMetaDict key
  onFiles (FileTree.unlinkIfExists metaPath)
  let path ← removePath key stored.userdata
  onFiles (FileTree.unlinkIfExists path)

/-- `remove_data`. -/
def removeData (key : Option String) : StorageM M Unit := do
  match key with
  | none => (← node.getItems).forM node.removeKey
  | some key => node.removeKey key

/-- `if path.exists(): path.rename(target)`. -/
def moveDataFile
    (path : List PathPart)
    (newName : String)
    (type : StorageType) :
    StorageM M Unit := do
  if ← pathExists path then
    let target ← getSavePath newName type
    onFiles (FileTree.rename path target)

/-- `rename_data`; it returns nothing for an item of version 1. -/
def renameData (key newName : String) : StorageM M (Option Bool) := do
  let state ← get
  if key = newName then
    return some false
  match state.storedData.get? key with
  | none => return some false
  | some item =>
      if state.storedData.contains newName then
        return some false
      if item.stored.userdata.version = 2 then
        let path ← getSavePath key item.stored.userdata.type
        moveDataFile path newName item.stored.userdata.type
        let renamed : StorageMeta M :=
          { item.stored with
            node := { item.stored.node with id := [newName], name := newName } }
        setStored key { item with stored := renamed }
        let metaPath ← getMetaPath key
        onFiles (FileTree.unlinkIfExists metaPath)
        let newPath ← getMetaPath newName
        onFiles (FileTree.writeFile newPath (.metaText renamed))
        return some true
      else
        let old ← node.readData key
        node.removeKey key
        node.saveData newName old.data old.stored.node old.stored.userdata.timestamp
          false .raw
        return none

end DataStorageNode

/-! ## Calls -/

/-- A call of an operation, or a restart of the server. -/
inductive StorageCall (F M : Type) where
  | saveData
      (key : String)
      (data : List UInt8)
      (fields : JsonLikeNode M)
      (timestamp : Int)
      (raiseIfExist : Bool)
      (type : StorageType)
  | updateStorageData
      (key : String)
      (timestamp : Int)
      (ops : List (DraftUpdateOp F))
      (createType : StorageType)
  | readData (key : String)
  | readDataIfNeedUpdate (key : String) (timestamp : Int)
  | hasDataItem (key : String)
  | getItems
  | readMetaDict (key : String)
  | renameData (key newName : String)
  | removeData (key : Option String)
  | restart

/-- What a call returns. -/
inductive StorageAnswer (M : Type) where
  | nothing
  | bool (value : Bool)
  | item (item : StorageDataItem M)
  | stored (dict : StorageMeta M)
  | keys (keys : List String)
  deriving DecidableEq

namespace DataStorageNode

variable [PyBuiltins F] (node : DataStorageNode F M)

/-- The computation of a call. -/
def run : StorageCall F M → StorageM M (StorageAnswer M)
  | .saveData key data fields timestamp raiseIfExist type => do
      node.saveData key data fields timestamp raiseIfExist type
      pure .nothing
  | .updateStorageData key timestamp ops createType =>
      .bool <$> node.updateStorageData key timestamp ops createType
  | .readData key => .item <$> node.readData key
  | .readDataIfNeedUpdate key timestamp =>
      .item <$> node.readDataIfNeedUpdate key timestamp
  | .hasDataItem key => .bool <$> hasDataItem key
  | .getItems => .keys <$> node.getItems
  | .readMetaDict key => .stored <$> node.readMetaDict key
  | .renameData key newName => do
      match ← node.renameData key newName with
      | some renamed => pure (.bool renamed)
      | none => pure .nothing
  | .removeData key => do
      node.removeData key
      pure .nothing
  | .restart => do
      modify fun state => { state with storedData := .empty }
      pure .nothing

/-- The answer of a call, and the state after it. -/
def step
    (state : NodeState M)
    (call : StorageCall F M) :
    PyResult (StorageAnswer M) × NodeState M :=
  match node.run call state with
  | .ok answer after => (.ok answer, after)
  | .error raised after => (.error raised, after)

/-- Calls with their answers. -/
def trace
    (state : NodeState M) :
    List (StorageCall F M) →
    List (StorageCall F M × PyResult (StorageAnswer M))
  | [] => []
  | call :: rest =>
      (call, (node.step state call).1) :: trace (node.step state call).2 rest

end DataStorageNode

end TensorPC.Dock
