import TensorPC.Lib.Computation
import TensorPC.Py.Dict
import TensorPC.Py.PurePath

namespace TensorPC

/-!
# Folders of files

What `pathlib` does below one folder.  A node is named by the parts of its path
from that folder; the empty path names the folder itself.
-/

/-- A folder, or a file with its content. -/
inductive FileNode (β : Type) where
  | directory
  | file (content : β)
  deriving DecidableEq

/-- The nodes below a folder. -/
abbrev FileTree (β : Type) := Dict (List PathPart) (FileNode β)

namespace FileTree

variable {β : Type}

/-- Whether a path names a file. -/
def isFile (tree : FileTree β) (path : List PathPart) : Bool :=
  match tree.get? path with
  | some (.file _) => true
  | _ => false

/-- Whether a path names a folder. -/
def isDirectory (tree : FileTree β) (path : List PathPart) : Bool :=
  match tree.get? path with
  | some .directory => true
  | _ => false

/-- `path.mkdir(parents=True, exist_ok=True)`, where no part of the path is a file. -/
def withDirs (tree : FileTree β) (path : List PathPart) : FileTree β :=
  path.inits.foldl (fun tree folder => tree.set folder .directory) tree

/-- `if not path.exists(): path.mkdir(parents=True)`. -/
def ensureDirs (path : List PathPart) : EStateM PyError (FileTree β) Unit :=
  fun tree =>
    if tree.contains path then
      .ok () tree
    else if path.inits.any tree.isFile then
      .error (.osError "NotADirectoryError") tree
    else
      .ok () (tree.withDirs path)

/-- `with path.open("w") as f: f.write(content)`. -/
def writeFile
    (path : List PathPart)
    (content : β) :
    EStateM PyError (FileTree β) Unit :=
  fun tree =>
    match tree.get? path.dropLast, tree.get? path with
    | none, _ => .error (.osError "FileNotFoundError") tree
    | some (.file _), _ => .error (.osError "NotADirectoryError") tree
    | some .directory, some .directory =>
        .error (.osError "IsADirectoryError") tree
    | some .directory, _ => .ok () (tree.set path (.file content))

/-- `with path.open("r") as f: f.read()`. -/
def readFile (tree : FileTree β) (path : List PathPart) : PyResult β :=
  match tree.get? path with
  | none => .error (.osError "FileNotFoundError")
  | some .directory => .error (.osError "IsADirectoryError")
  | some (.file content) => .ok content

/-- `path.unlink()`. -/
def unlink (path : List PathPart) : EStateM PyError (FileTree β) Unit :=
  fun tree =>
    match tree.get? path with
    | none => .error (.osError "FileNotFoundError") tree
    | some .directory => .error (.osError "IsADirectoryError") tree
    | some (.file _) => .ok () (tree.erase path)

/-- `if path.exists(): path.unlink()`. -/
def unlinkIfExists (path : List PathPart) : EStateM PyError (FileTree β) Unit :=
  fun tree =>
    if tree.contains path then unlink path tree else .ok () tree

/-- The nodes at a path and below it, and those elsewhere. -/
def splitAt
    (tree : FileTree β)
    (path : List PathPart) :
    List (List PathPart × FileNode β) × List (List PathPart × FileNode β) :=
  tree.entries.partition fun entry => path.isPrefixOf entry.1

/-- A node with everything below it goes to another path. -/
def moveNode (tree : FileTree β) (path target : List PathPart) : FileTree β :=
  let (moved, others) := tree.splitAt path
  (Dict.ofList others).update
    (moved.map fun entry => (target ++ entry.1.drop path.length, entry.2))

/-- `path.rename(target)`. -/
def rename (path target : List PathPart) : EStateM PyError (FileTree β) Unit :=
  fun tree =>
    match tree.get? path, tree.get? target with
    | none, _ => .error (.osError "FileNotFoundError") tree
    | some (.file _), some .directory => .error (.osError "IsADirectoryError") tree
    | some .directory, some (.file _) => .error (.osError "NotADirectoryError") tree
    | some .directory, some .directory =>
        if (tree.splitAt target).1.length = 1 then
          .ok () (tree.moveNode path target)
        else
          .error (.osError "OSError") tree
    | some _, _ => .ok () (tree.moveNode path target)

/-- The paths that `rglob` visits, in the order of the folder's entries. -/
def descendants (tree : FileTree β) : List (List PathPart) :=
  tree.keys.filter (· ≠ [])

/-! ## Well-formed trees -/

/-- What lies above a node is a folder. -/
def Closed (tree : FileTree β) : Prop :=
  ∀ path node, tree.get? path = some node →
    ∀ above, above <+: path → above ≠ path → tree.get? above = some .directory

/-- No part of a path is a file. -/
def OpenPath (tree : FileTree β) (path : List PathPart) : Prop :=
  ∀ above ∈ path.inits, tree.isFile above = false

instance (tree : FileTree β) (path : List PathPart) :
    Decidable (tree.OpenPath path) :=
  inferInstanceAs (Decidable (∀ above ∈ path.inits, tree.isFile above = false))

theorem get?_withDirs
    (tree : FileTree β)
    (path query : List PathPart) :
    (tree.withDirs path).get? query =
      if query <+: path then some .directory else tree.get? query := by
  have general :
      ∀ (folders : List (List PathPart)) (tree : FileTree β),
        (folders.foldl (fun tree folder => tree.set folder .directory) tree).get?
            query =
          if query ∈ folders then some .directory else tree.get? query := by
    intro folders
    induction folders with
    | nil =>
        simp
    | cons folder rest inductionHypothesis =>
        intro tree
        rw [List.foldl_cons, inductionHypothesis, Dict.get?_set]
        by_cases isFolder : query = folder <;> by_cases inRest : query ∈ rest <;>
          simp [isFolder, inRest]
  simpa [withDirs, List.mem_inits] using general path.inits tree

theorem OpenPath.directory
    {tree : FileTree β}
    {path above : List PathPart}
    {node : FileNode β}
    (openPath : tree.OpenPath path)
    (isAbove : above <+: path)
    (found : tree.get? above = some node) :
    node = .directory := by
  have notFile := openPath above ((List.mem_inits _ _).mpr isAbove)
  cases node with
  | directory =>
      rfl
  | file content =>
      simp [isFile, found] at notFile

/-- Folders can be made along an open path. -/
theorem ensureDirs_of_openPath
    {tree : FileTree β}
    {path : List PathPart}
    (closed : tree.Closed)
    (openPath : tree.OpenPath path) :
    ∃ after,
      ensureDirs path tree = .ok () after ∧
        after.Closed ∧
          ∀ query,
            after.get? query =
              if query <+: path then some .directory else tree.get? query := by
  unfold ensureDirs
  by_cases isThere : tree.contains path = true
  · rw [if_pos isThere]
    obtain ⟨node, found⟩ := Option.isSome_iff_exists.mp isThere
    refine ⟨tree, rfl, closed, fun query => ?_⟩
    split
    · rename_i isAbove
      by_cases same : query = path
      · subst same
        rw [found, openPath.directory isAbove found]
      · exact closed path node found query isAbove same
    · rfl
  · have noFile : path.inits.any tree.isFile = false := by
      simpa [OpenPath] using openPath
    rw [if_neg isThere, noFile]
    refine ⟨tree.withDirs path, by simp, ?_, get?_withDirs tree path⟩
    intro below node found above isAbove different
    rw [get?_withDirs] at found ⊢
    split
    · rfl
    · rename_i notPart
      split at found
      · rename_i isPart
        exact absurd (isAbove.trans isPart) notPart
      · exact closed below node found above isAbove different

theorem writeFile_of_directory
    {tree : FileTree β}
    {folder : List PathPart}
    {name : PathPart}
    (content : β)
    (isFolder : tree.get? folder = some .directory)
    (notFolder : tree.get? (folder ++ [name]) ≠ some .directory) :
    writeFile (folder ++ [name]) content tree =
      .ok () (tree.set (folder ++ [name]) (.file content)) := by
  unfold writeFile
  rw [List.dropLast_concat, isFolder]
  cases found : tree.get? (folder ++ [name]) with
  | none =>
      rfl
  | some node =>
      cases node with
      | directory =>
          exact absurd found notFolder
      | file old =>
          rfl

theorem unlinkIfExists_of_notDirectory
    {tree : FileTree β}
    {path : List PathPart}
    (notFolder : tree.get? path ≠ some .directory) :
    unlinkIfExists path tree = .ok () (tree.erase path) := by
  unfold unlinkIfExists unlink
  cases found : tree.get? path with
  | none =>
      simp [Dict.contains, found, Dict.erase_of_get?_eq_none found]
  | some node =>
      cases node with
      | directory =>
          exact absurd found notFolder
      | file old =>
          simp [Dict.contains, found]

/-- Writing a file keeps a tree well-formed. -/
theorem Closed.set_file
    {tree : FileTree β}
    {folder : List PathPart}
    {name : PathPart}
    (closed : tree.Closed)
    (isFolder : tree.get? folder = some .directory)
    (notFolder : tree.get? (folder ++ [name]) ≠ some .directory)
    (content : β) :
    Closed (tree.set (folder ++ [name]) (.file content)) := by
  intro path node found above isAbove different
  have notWritten : above ≠ folder ++ [name] := by
    rintro rfl
    rw [Dict.get?_set_ne _ _ (Ne.symm different)] at found
    exact notFolder (closed path node found _ isAbove different)
  rw [Dict.get?_set_ne _ _ notWritten]
  by_cases written : path = folder ++ [name]
  · subst written
    rcases List.prefix_concat_iff.mp isAbove with whole | inFolder
    · exact absurd whole different
    · by_cases same : above = folder
      · rw [same, isFolder]
      · exact closed folder _ isFolder above inFolder same
  · rw [Dict.get?_set_ne _ _ written] at found
    exact closed path node found above isAbove different

theorem Closed.erase_file
    {tree : FileTree β}
    {path : List PathPart}
    (closed : tree.Closed)
    (notFolder : tree.get? path ≠ some .directory) :
    Closed (tree.erase path) := by
  intro below node found above isAbove different
  rw [Dict.get?_erase] at found ⊢
  split at found
  · cases found
  · have directory := closed below node found above isAbove different
    split
    · rename_i same
      subst same
      exact absurd directory notFolder
    · exact directory

end FileTree

end TensorPC
