import TensorPC.Py.Dict
import TensorPC.Py.IntText

namespace TensorPC.Service

/-!
# The definitions of a source file

`get_qualname_to_code` lists the functions and classes of a file under their
qualified names, each with the source text it spans.  Only class bodies are
searched.  The parser gives the tree; the places of a node are lines from one
and bytes from zero, as the parser counts them.
-/

/-- Where a node lies in the source. -/
structure SourceSpan where
  lineno : Nat
  colOffset : Nat
  endLineno : Nat
  endColOffset : Nat
  deriving Repr, DecidableEq

/-- A statement, as far as the search for definitions looks at it. -/
inductive AstNode where
  | classDef (name : String) (span : SourceSpan) (body : List AstNode)
  | functionDef (name : String) (span : SourceSpan)
  | other

/-- A definition found, with the classes around it from the outside in. -/
structure Definition where
  name : String
  span : SourceSpan
  parents : List String
  deriving Repr, DecidableEq

/-- A body still to be searched, with the classes around it. -/
abbrev PendingBody := List AstNode × List String

/-- The function definitions that stand in a body. -/
def functionsOf (pending : PendingBody) : List Definition :=
  pending.1.filterMap fun
    | .functionDef name span => some ⟨name, span, pending.2⟩
    | _ => none

/-- The class definitions that stand in a body. -/
def classesOf (pending : PendingBody) : List Definition :=
  pending.1.filterMap fun
    | .classDef name span _ => some ⟨name, span, pending.2⟩
    | _ => none

/-- The class bodies that a body adds to the queue. -/
def classBodies (pending : PendingBody) : List PendingBody :=
  pending.1.filterMap fun
    | .classDef name _ body => some (body, pending.2 ++ [name])
    | _ => none

/-- The loop `while todo`: bodies are searched in the order they were queued. -/
def searchBodies
    (select : PendingBody → List Definition) :
    Nat → List PendingBody → List Definition
  | 0, _ => []
  | _ + 1, [] => []
  | fuel + 1, pending :: todo =>
      select pending ++ searchBodies select fuel (todo ++ classBodies pending)

mutual

/-- How many bodies the search visits for a statement. -/
def AstNode.bodies : AstNode → Nat
  | .classDef _ _ body => 1 + bodiesIn body
  | .functionDef _ _ => 0
  | .other => 0

/-- How many class bodies lie in a body, at any depth. -/
def bodiesIn : List AstNode → Nat
  | [] => 0
  | node :: rest => node.bodies + bodiesIn rest

end

/-- How many rounds the loop makes for a queue. -/
def rounds (todo : List PendingBody) : Nat :=
  (todo.map fun pending => 1 + bodiesIn pending.1).sum

/-- `get_toplevel_func_node`. -/
def getToplevelFuncNode (tree : List AstNode) : List Definition :=
  searchBodies functionsOf (rounds [(tree, [])]) [(tree, [])]

/-- `get_toplevel_class_node`. -/
def getToplevelClassNode (tree : List AstNode) : List Definition :=
  searchBodies classesOf (rounds [(tree, [])]) [(tree, [])]

/-- `_splitlines_no_ff`, with the line read so far. -/
def splitlinesFrom (nextLine : Text) : Text → List Text
  | [] => if nextLine = [] then [] else [nextLine]
  | '\r' :: '\n' :: rest => (nextLine ++ ['\r', '\n']) :: splitlinesFrom [] rest
  | letter :: rest =>
      if letter = '\r' ∨ letter = '\n' then
        (nextLine ++ [letter]) :: splitlinesFrom [] rest
      else
        splitlinesFrom (nextLine ++ [letter]) rest

/-- `_splitlines_no_ff`. -/
def splitlinesNoFf (source : Text) : List Text :=
  splitlinesFrom [] source

/-- `line.encode()[:stop].decode()`, for an offset between two characters. -/
def takeBytes : Nat → Text → Text
  | _, [] => []
  | stop, letter :: rest =>
      if stop = 0 then [] else letter :: takeBytes (stop - letter.utf8Size) rest

/-- `line.encode()[start:].decode()`, for an offset between two characters. -/
def dropBytes : Nat → Text → Text
  | _, [] => []
  | start, letter :: rest =>
      if start = 0 then letter :: rest else dropBytes (start - letter.utf8Size) rest

/-- `lines[index]`. -/
def lineAt (lines : List Text) (index : Nat) : PyResult Text :=
  match lines[index]? with
  | some line => .ok line
  | none => .error .indexError

/-- `SourceSegmentGetter.get_source_segment` with `padded=False`. -/
def getSourceSegment (lines : List Text) (span : SourceSpan) : PyResult Text := do
  if span.endLineno = span.lineno then
    let line ← lineAt lines (span.lineno - 1)
    return dropBytes span.colOffset (takeBytes span.endColOffset line)
  let first ← lineAt lines (span.lineno - 1)
  let last ← lineAt lines (span.endLineno - 1)
  let between := (lines.take (span.endLineno - 1)).drop span.lineno
  return dropBytes span.colOffset first ++ between.flatten ++ takeBytes span.endColOffset last

/-- The qualified name of a definition. -/
def Definition.qualname (node : Definition) : String :=
  ".".intercalate (node.parents ++ [node.name])

/-- Enter the text of one definition under its qualified name. -/
def addDefinition
    (lines : List Text)
    (qualnameToCode : Dict String Text)
    (node : Definition) :
    PyResult (Dict String Text) := do
  let code ← getSourceSegment lines node.span
  return qualnameToCode.set node.qualname code

/-- `get_qualname_to_code`, for the parser's reading of a source text. -/
def getQualnameToCode
    (astParse : Text → PyResult (List AstNode))
    (source : Text) :
    PyResult (Dict String Text) := do
  let tree ← astParse source
  let nodes := getToplevelFuncNode tree ++ getToplevelClassNode tree
  nodes.foldlM (addDefinition (splitlinesNoFf source)) Dict.empty

/-!
# The code manager

`SimpleCodeManager` keeps, for every watched file, the text last seen and the
definitions in it.  A new version arrives from the disk through `update_code`
or from an editor through `update_code_from_editor`; both report what changed.
-/

/-- What one file was last seen to hold. -/
structure SimpleCodeEntry where
  code : Text
  qualnameToCode : Dict String Text
  deriving DecidableEq

/-- `SimpleCodeManager`: the entries by resolved path. -/
structure SimpleCodeManager where
  fileToEntry : Dict String SimpleCodeEntry
  deriving DecidableEq

/-- The parser and the file system as the manager sees them. -/
structure SourceHost where
  astParse : Text → PyResult (List AstNode)
  resolve : String → String

/-- The triple `(new, change, delete)`. -/
structure CodeChanges where
  new : Dict String Text
  change : Dict String Text
  delete : Dict String Text
  deriving DecidableEq

namespace CodeChanges

/-- Three empty dictionaries. -/
def none : CodeChanges where
  new := Dict.empty
  change := Dict.empty
  delete := Dict.empty

end CodeChanges

/-- `code.strip()`. -/
def stripCode (code : Text) : Text :=
  ((code.dropWhile isSpace).reverse.dropWhile isSpace).reverse

/-- `is_tensorpc_dynamic_path`. -/
def isTensorpcDynamicPath (path : String) : Bool :=
  "<__tensorpc_inmemory_fname".toList.isPrefixOf path.toList

/-- `SimpleCodeManager._resolve_path`. -/
def SourceHost.resolvePath (host : SourceHost) (path : String) : String :=
  if isTensorpcDynamicPath path then path else host.resolve path

/-- `get_qualname_to_code`. -/
def SourceHost.definitions (host : SourceHost) (code : Text) : PyResult (Dict String Text) :=
  getQualnameToCode host.astParse code

/-- One definition of the current version, compared with the previous one. -/
def compareCurrent
    (prevQualnameToCode : Dict String Text)
    (changes : CodeChanges)
    (entry : String × Text) :
    CodeChanges :=
  match prevQualnameToCode.get? entry.1 with
  | some previous =>
      if previous ≠ entry.2 then
        { changes with change := changes.change.set entry.1 entry.2 }
      else
        changes
  | none => { changes with new := changes.new.set entry.1 entry.2 }

/-- One definition of the previous version.  The test asks the previous version again. -/
def comparePrevious
    (prevQualnameToCode : Dict String Text)
    (changes : CodeChanges)
    (entry : String × Text) :
    CodeChanges :=
  if prevQualnameToCode.contains entry.1 then
    changes
  else
    { changes with delete := changes.delete.set entry.1 entry.2 }

/-- `SimpleCodeManager._compare_qualname_to_code`. -/
def compareQualnameToCode
    (prevQualnameToCode qualnameToCode : Dict String Text) :
    CodeChanges :=
  prevQualnameToCode.entries.foldl (comparePrevious prevQualnameToCode)
    (qualnameToCode.entries.foldl (compareCurrent prevQualnameToCode) CodeChanges.none)

namespace SimpleCodeManager

/-- `self.file_to_entry[path]`. -/
def entryAt (manager : SimpleCodeManager) (path : String) : PyResult SimpleCodeEntry :=
  match manager.fileToEntry.get? path with
  | some entry => .ok entry
  | none => .error (.keyError path)

/-- `self.file_to_entry[path] = entry`. -/
def setEntry
    (manager : SimpleCodeManager)
    (path : String)
    (entry : SimpleCodeEntry) :
    SimpleCodeManager where
  fileToEntry := manager.fileToEntry.set path entry

/-- `_add_new_code`: a text held in memory is taken as it is, one on the disk stripped. -/
def addNewCode
    (host : SourceHost)
    (manager : SimpleCodeManager)
    (path : String)
    (inMemory : Option Text)
    (onDisk : Text) :
    PyResult SimpleCodeManager := do
  let code := inMemory.getD (stripCode onDisk)
  let qualnameToCode ← host.definitions code
  return manager.setEntry (host.resolvePath path) ⟨code, qualnameToCode⟩

/-- `_remove_path`. -/
def removePath
    (host : SourceHost)
    (manager : SimpleCodeManager)
    (path : String) :
    SimpleCodeManager where
  fileToEntry := manager.fileToEntry.erase (host.resolvePath path)

/-- `update_code_from_editor`. -/
def updateCodeFromEditor
    (host : SourceHost)
    (manager : SimpleCodeManager)
    (path : String)
    (newData : Text) :
    PyResult (CodeChanges × SimpleCodeManager) := do
  let resolvedPath := host.resolvePath path
  let entry ← manager.entryAt resolvedPath
  if newData = entry.code then
    return (CodeChanges.none, manager)
  let newMeta ← host.definitions newData
  return (compareQualnameToCode entry.qualnameToCode newMeta,
    manager.setEntry resolvedPath ⟨newData, newMeta⟩)

/-- `new_data == self.file_to_entry[resolved_path]`: a text never equals an entry. -/
def textIsEntry (_newData : Text) (_entry : SimpleCodeEntry) : Bool :=
  false

/-- `update_code`, with what the file holds on the disk. -/
def updateCode
    (host : SourceHost)
    (manager : SimpleCodeManager)
    (changeFile : String)
    (newCode : Option Text)
    (onDisk : Text) :
    PyResult (Option CodeChanges × SimpleCodeManager) := do
  let resolvedPath := host.resolvePath changeFile
  let newData := stripCode (newCode.getD onDisk)
  match manager.fileToEntry.get? resolvedPath with
  | none =>
      let newMeta ← host.definitions newData
      return (some (compareQualnameToCode Dict.empty newMeta),
        manager.setEntry resolvedPath ⟨newData, newMeta⟩)
  | some entry =>
      if textIsEntry newData entry then
        return (none, manager)
      let newMeta ← host.definitions newData
      return (some (compareQualnameToCode entry.qualnameToCode newMeta),
        manager.setEntry resolvedPath ⟨newData, newMeta⟩)

end SimpleCodeManager

end TensorPC.Service
