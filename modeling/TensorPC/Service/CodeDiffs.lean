import TensorPC.Service.CodeManager
import TensorPC.Lib.Transition

namespace TensorPC.Service

/-!
# What an update reports

A report is exact when it takes the previous definitions to the current ones
and names nothing else.  Names that appear or change are always reported; names
that disappear never are, because the deletion loop asks the version it walks.
-/

namespace CodeChanges

/-- Remove the deleted names, then enter the new and the changed ones. -/
def apply
    (changes : CodeChanges)
    (previous : Dict String Text) :
    Dict String Text :=
  ((previous.eraseAll changes.delete.keys).update changes.new.entries).update
    changes.change.entries

/-- The report takes `previous` to `current`, each name under one heading and none idly. -/
structure Exact
    (previous current : Dict String Text)
    (changes : CodeChanges) : Prop where
  turns : ∀ name, (changes.apply previous).get? name = current.get? name
  new_change : changes.new.keys.Disjoint changes.change.keys
  new_delete : changes.new.keys.Disjoint changes.delete.keys
  change_delete : changes.change.keys.Disjoint changes.delete.keys
  needed :
    ∀ name ∈ changes.new.keys ++ changes.change.keys ++ changes.delete.keys,
      previous.get? name ≠ current.get? name

end CodeChanges

section Comparison

variable {previous current : Dict String Text}

/-- The entry's name is new. -/
def IsNew (previous : Dict String Text) (entry : String × Text) : Bool :=
  previous.get? entry.1 = none

/-- The entry's name is known, with another text. -/
def IsChanged (previous : Dict String Text) (entry : String × Text) : Bool :=
  match previous.get? entry.1 with
  | some code => code ≠ entry.2
  | none => false

theorem foldl_compareCurrent
    (entries : List (String × Text))
    (changes : CodeChanges) :
    entries.foldl (compareCurrent previous) changes =
      { changes with
        new := changes.new.update (entries.filter (IsNew previous))
        change := changes.change.update (entries.filter (IsChanged previous)) } := by
  induction entries generalizing changes with
  | nil =>
      rfl
  | cons entry rest inductionHypothesis =>
      rw [List.foldl_cons, inductionHypothesis]
      cases known : previous.get? entry.1 with
      | none =>
          simp [compareCurrent, IsNew, IsChanged, known, Dict.update]
      | some code =>
          by_cases same : code = entry.2 <;>
            simp [compareCurrent, IsNew, IsChanged, known, same, Dict.update]

theorem foldl_comparePrevious
    {entries : List (String × Text)}
    (listed : ∀ entry ∈ entries, entry ∈ previous.entries)
    (changes : CodeChanges) :
    entries.foldl (comparePrevious previous) changes = changes := by
  induction entries with
  | nil =>
      rfl
  | cons entry rest inductionHypothesis =>
      have known : previous.get? entry.1 = some entry.2 :=
        (Dict.mem_entries_iff previous).mp (listed entry List.mem_cons_self)
      have unchanged : comparePrevious previous changes entry = changes := by
        simp [comparePrevious, Dict.contains, known]
      rw [List.foldl_cons, unchanged]
      exact inductionHypothesis fun other member => listed other (List.mem_cons_of_mem _ member)

theorem compareQualnameToCode_eq :
    compareQualnameToCode previous current =
      { new := Dict.ofList (current.entries.filter (IsNew previous))
        change := Dict.ofList (current.entries.filter (IsChanged previous))
        delete := Dict.empty } := by
  rw [compareQualnameToCode, foldl_comparePrevious (fun _ member => member),
    foldl_compareCurrent]
  rfl

theorem get?_ofList_filter
    {select : String × Text → Bool}
    {name : String}
    {code : Text} :
    (Dict.ofList (current.entries.filter select)).get? name = some code ↔
      current.get? name = some code ∧ select (name, code) = true := by
  have distinct : ((current.entries.filter select).map Prod.fst).Nodup :=
    current.nodup.sublist (List.filter_sublist.map Prod.fst)
  rw [Dict.get?_ofList distinct, Dict.lookup_eq_some_iff distinct, List.mem_filter,
    Dict.mem_entries_iff]

theorem get?_new
    {name : String}
    {code : Text} :
    (compareQualnameToCode previous current).new.get? name = some code ↔
      current.get? name = some code ∧ previous.get? name = none := by
  rw [compareQualnameToCode_eq, get?_ofList_filter]
  simp [IsNew]

theorem get?_change
    {name : String}
    {code : Text} :
    (compareQualnameToCode previous current).change.get? name = some code ↔
      current.get? name = some code ∧
        ∃ old, previous.get? name = some old ∧ old ≠ code := by
  rw [compareQualnameToCode_eq, get?_ofList_filter]
  cases known : previous.get? name <;> simp [IsChanged, known]

theorem delete_eq_empty :
    (compareQualnameToCode previous current).delete = Dict.empty := by
  rw [compareQualnameToCode_eq]

/-- What applying a report gives at one name. -/
theorem get?_apply
    {name : String} :
    ((compareQualnameToCode previous current).apply previous).get? name =
      (current.get? name).or (previous.get? name) := by
  rw [CodeChanges.apply, Dict.get?_update, Dict.get?_update, delete_eq_empty]
  change (((compareQualnameToCode previous current).change.get? name).or
    (((compareQualnameToCode previous current).new.get? name).or
      (previous.get? name))) = _
  cases now : current.get? name with
  | none =>
      have noChange : (compareQualnameToCode previous current).change.get? name = none := by
        refine Option.eq_none_iff_forall_ne_some.mpr fun code found => ?_
        simp [get?_change, now] at found
      have noNew : (compareQualnameToCode previous current).new.get? name = none := by
        refine Option.eq_none_iff_forall_ne_some.mpr fun code found => ?_
        simp [get?_new, now] at found
      simp [noChange, noNew]
  | some code =>
      cases before : previous.get? name with
      | none =>
          have isNew : (compareQualnameToCode previous current).new.get? name = some code :=
            get?_new.mpr ⟨now, before⟩
          have noChange : (compareQualnameToCode previous current).change.get? name = none := by
            refine Option.eq_none_iff_forall_ne_some.mpr fun other found => ?_
            simp [get?_change, before] at found
          simp [isNew, noChange]
      | some old =>
          have noNew : (compareQualnameToCode previous current).new.get? name = none := by
            refine Option.eq_none_iff_forall_ne_some.mpr fun other found => ?_
            simp [get?_new, before] at found
          by_cases same : old = code
          · have noChange :
                (compareQualnameToCode previous current).change.get? name = none := by
              refine Option.eq_none_iff_forall_ne_some.mpr fun other found => ?_
              obtain ⟨nowOther, earlier, wasEarlier, different⟩ := get?_change.mp found
              rw [now] at nowOther
              rw [before] at wasEarlier
              cases nowOther
              cases wasEarlier
              exact different same
            simp [noChange, noNew, same]
          · have changed :
                (compareQualnameToCode previous current).change.get? name = some code :=
              get?_change.mpr ⟨now, old, before, same⟩
            simp [changed]

/-- A comparison is exact when, and only when, no name disappears. -/
theorem exact_compareQualnameToCode_iff :
    (compareQualnameToCode previous current).Exact previous current ↔
      ∀ name ∈ previous.keys, name ∈ current.keys := by
  constructor
  · intro exact name known
    rw [Dict.mem_keys_iff] at known ⊢
    have turns := exact.turns name
    rw [get?_apply] at turns
    rw [← turns]
    cases now : current.get? name with
    | none => simpa using known
    | some code => simp
  · intro kept
    have stillThere : ∀ name, current.get? name = none → previous.get? name = none := by
      intro name gone
      by_contra present
      have listed := kept name (Dict.mem_keys_iff.mpr (Option.isSome_iff_ne_none.mpr present))
      rw [Dict.mem_keys_iff, gone] at listed
      cases listed
    have newOnly :
        ∀ name ∈ (compareQualnameToCode previous current).new.keys,
          previous.get? name = none ∧ current.get? name ≠ none := by
      intro name member
      obtain ⟨code, found⟩ := Option.isSome_iff_exists.mp (Dict.mem_keys_iff.mp member)
      obtain ⟨now, before⟩ := get?_new.mp found
      exact ⟨before, by simp [now]⟩
    have changedOnly :
        ∀ name ∈ (compareQualnameToCode previous current).change.keys,
          ∃ old code, previous.get? name = some old ∧ current.get? name = some code ∧
            old ≠ code := by
      intro name member
      obtain ⟨code, found⟩ := Option.isSome_iff_exists.mp (Dict.mem_keys_iff.mp member)
      obtain ⟨now, old, before, different⟩ := get?_change.mp found
      exact ⟨old, code, before, now, different⟩
    refine ⟨fun name => ?_, ?_, ?_, ?_, fun name member => ?_⟩
    · rw [get?_apply]
      cases now : current.get? name with
      | none => simp [stillThere name now]
      | some code => simp
    · intro name isNew isChanged
      obtain ⟨old, code, before, _, _⟩ := changedOnly name isChanged
      rw [(newOnly name isNew).1] at before
      cases before
    · simp [delete_eq_empty]
    · simp [delete_eq_empty]
    · simp only [delete_eq_empty, Dict.keys_empty, List.append_nil, List.mem_append] at member
      rcases member with isNew | isChanged
      · rw [(newOnly name isNew).1]
        exact (newOnly name isNew).2.symm
      · obtain ⟨old, code, before, now, different⟩ := changedOnly name isChanged
        rw [before, now]
        simpa using different

end Comparison

/-- A new version of a file, through one of the two entry points. -/
inductive CodeUpdate where
  | updateCode (changeFile : String) (newCode : Option Text) (onDisk : Text)
  | updateCodeFromEditor (path : String) (newData : Text)

namespace CodeUpdate

/-- The resolved path of the file. -/
def resolvedPath (host : SourceHost) : CodeUpdate → String
  | updateCode changeFile _ _ => host.resolvePath changeFile
  | updateCodeFromEditor path _ => host.resolvePath path

/-- The text of the version: `update_code` strips what it is given or reads. -/
def version : CodeUpdate → Text
  | updateCode _ newCode onDisk => stripCode (newCode.getD onDisk)
  | updateCodeFromEditor _ newData => newData

/-- The call, with the triple it returns. -/
def run
    (host : SourceHost)
    (manager : SimpleCodeManager) :
    CodeUpdate → PyResult (Option CodeChanges × SimpleCodeManager)
  | updateCode changeFile newCode onDisk =>
      manager.updateCode host changeFile newCode onDisk
  | updateCodeFromEditor path newData =>
      (manager.updateCodeFromEditor host path newData).map fun outcome =>
        (some outcome.1, outcome.2)

/-- The editor can only edit a file that is watched; the disk can bring a new one. -/
def Watched (host : SourceHost) (manager : SimpleCodeManager) : CodeUpdate → Prop
  | updateCode _ _ _ => True
  | updateCodeFromEditor path _ => manager.fileToEntry.get? (host.resolvePath path) ≠ none

end CodeUpdate

namespace SimpleCodeManager

/-- The previous map of a file: empty before its first version. -/
def definitionsAt (manager : SimpleCodeManager) (path : String) : Dict String Text :=
  match manager.fileToEntry.get? path with
  | some entry => entry.qualnameToCode
  | none => Dict.empty

/-- The update returns an exact triple and stores the version with its definitions. -/
def ReportsExactly
    (host : SourceHost)
    (manager : SimpleCodeManager)
    (update : CodeUpdate)
    (current : Dict String Text) : Prop :=
  ∃ changes after,
    update.run host manager = .ok (some changes, after) ∧
      changes.Exact (manager.definitionsAt (update.resolvedPath host)) current ∧
      after.fileToEntry.get? (update.resolvedPath host) = some ⟨update.version, current⟩

/-- Every entry holds the definitions of its text. -/
def Coherent (host : SourceHost) (manager : SimpleCodeManager) : Prop :=
  ∀ path entry,
    manager.fileToEntry.get? path = some entry →
    host.definitions entry.code = .ok entry.qualnameToCode

variable {host : SourceHost} {manager after : SimpleCodeManager}

theorem coherent_setEntry
    {path : String}
    {code : Text}
    {current : Dict String Text}
    (coherent : manager.Coherent host)
    (parses : host.definitions code = .ok current) :
    (manager.setEntry path ⟨code, current⟩).Coherent host := by
  intro query entry found
  simp only [setEntry, Dict.get?_set] at found
  split at found
  · cases found
    exact parses
  · exact coherent query entry found

theorem updateCode_eq
    {changeFile : String}
    {newCode : Option Text}
    {onDisk : Text}
    {current : Dict String Text}
    (parses : host.definitions (stripCode (newCode.getD onDisk)) = .ok current) :
    manager.updateCode host changeFile newCode onDisk =
      .ok (some (compareQualnameToCode
          (manager.definitionsAt (host.resolvePath changeFile)) current),
        manager.setEntry (host.resolvePath changeFile)
          ⟨stripCode (newCode.getD onDisk), current⟩) := by
  unfold updateCode definitionsAt
  cases known : manager.fileToEntry.get? (host.resolvePath changeFile) <;>
    simp only [known, textIsEntry, parses, Bool.false_eq_true, if_false] <;>
    rfl

theorem updateCodeFromEditor_eq
    {path : String}
    {entry : SimpleCodeEntry}
    {newData : Text}
    {current : Dict String Text}
    (known : manager.fileToEntry.get? (host.resolvePath path) = some entry)
    (different : newData ≠ entry.code)
    (parses : host.definitions newData = .ok current) :
    manager.updateCodeFromEditor host path newData =
      .ok (compareQualnameToCode entry.qualnameToCode current,
        manager.setEntry (host.resolvePath path) ⟨newData, current⟩) := by
  simp only [updateCodeFromEditor, entryAt, known]
  simp only [bind, Except.bind, different, if_false, parses]
  rfl

theorem updateCodeFromEditor_same
    {path : String}
    {entry : SimpleCodeEntry}
    (known : manager.fileToEntry.get? (host.resolvePath path) = some entry) :
    manager.updateCodeFromEditor host path entry.code = .ok (CodeChanges.none, manager) := by
  simp only [updateCodeFromEditor, entryAt, known]
  simp only [bind, Except.bind, if_true]
  rfl

end SimpleCodeManager

theorem exact_none (current : Dict String Text) :
    CodeChanges.none.Exact current current where
  turns _ := rfl
  new_change := by simp [CodeChanges.none]
  new_delete := by simp [CodeChanges.none]
  change_delete := by simp [CodeChanges.none]
  needed := by simp [CodeChanges.none]

/-- What happens to the code manager of an app. -/
inductive CodeEvent where
  | addNewCode (path : String) (inMemory : Option Text) (onDisk : Text)
  | removePath (path : String)
  | update (update : CodeUpdate)

/-- The manager after an event; a call that raises leaves it as it was. -/
def SimpleCodeManager.step
    (host : SourceHost)
    (manager : SimpleCodeManager) :
    CodeEvent → Option SimpleCodeManager
  | .addNewCode path inMemory onDisk =>
      match manager.addNewCode host path inMemory onDisk with
      | .ok after => some after
      | .error _ => some manager
  | .removePath path => some (manager.removePath host path)
  | .update update =>
      match update.run host manager with
      | .ok outcome => some outcome.2
      | .error _ => some manager

/-- Every event is possible at every moment. -/
abbrev CodeRun (host : SourceHost) : List CodeEvent → SimpleCodeManager → Prop :=
  Transition.Run (SimpleCodeManager.step host) (fun _ _ => True) ⟨Dict.empty⟩

namespace SimpleCodeManager

variable {host : SourceHost} {manager after : SimpleCodeManager}

/-- An update keeps every entry coherent. -/
theorem coherent_run
    {update : CodeUpdate}
    {reported : Option CodeChanges}
    (coherent : manager.Coherent host)
    (ran : update.run host manager = .ok (reported, after)) :
    after.Coherent host := by
  cases update with
  | updateCode changeFile newCode onDisk =>
      cases parses : host.definitions (stripCode (newCode.getD onDisk)) with
      | ok current =>
          rw [CodeUpdate.run, updateCode_eq parses] at ran
          cases ran
          exact coherent_setEntry coherent parses
      | error raised =>
          simp only [CodeUpdate.run, updateCode, parses, textIsEntry] at ran
          split at ran <;> cases ran
  | updateCodeFromEditor path newData =>
      obtain ⟨outcome, returned, same⟩ := PyResult.map_eq_ok ran
      cases same
      cases known : manager.fileToEntry.get? (host.resolvePath path) with
      | none =>
          simp only [updateCodeFromEditor, entryAt, known] at returned
          cases returned
      | some entry =>
          by_cases same : newData = entry.code
          · subst same
            rw [updateCodeFromEditor_same known] at returned
            cases returned
            exact coherent
          · cases parses : host.definitions newData with
            | ok current =>
                rw [updateCodeFromEditor_eq known same parses] at returned
                cases returned
                exact coherent_setEntry coherent parses
            | error raised =>
                simp only [updateCodeFromEditor, entryAt, known] at returned
                simp only [bind, Except.bind, same, if_false, parses] at returned
                cases returned

/-- No event brings an entry whose definitions are not those of its text. -/
theorem coherent_step
    {event : CodeEvent}
    (coherent : manager.Coherent host)
    (stepped : manager.step host event = some after) :
    after.Coherent host := by
  cases event with
  | addNewCode path inMemory onDisk =>
      simp only [step] at stepped
      split at stepped
      · rename_i added returned
        cases stepped
        obtain ⟨current, parses, entered⟩ := PyResult.bind_eq_ok.mp returned
        cases entered
        exact coherent_setEntry coherent parses
      · cases stepped
        exact coherent
  | removePath path =>
      cases stepped
      intro query entry found
      simp only [removePath, Dict.get?_erase] at found
      split at found
      · cases found
      · exact coherent query entry found
  | update update =>
      simp only [step] at stepped
      split at stepped
      · rename_i outcome returned
        cases stepped
        exact coherent_run coherent returned
      · cases stepped
        exact coherent

theorem coherent_of_run
    {events : List CodeEvent}
    (run : CodeRun host events manager) :
    manager.Coherent host := by
  refine run.invariant ?_ fun before event after coherent _ stepped =>
    coherent_step coherent stepped
  intro path entry found
  simp at found

/-- A coherent manager reports a version exactly when the version drops no name. -/
theorem reportsExactly_iff_of_coherent
    {update : CodeUpdate}
    {current : Dict String Text}
    (coherent : manager.Coherent host)
    (watched : update.Watched host manager)
    (parses : host.definitions update.version = .ok current) :
    manager.ReportsExactly host update current ↔
      ∀ name ∈ (manager.definitionsAt (update.resolvedPath host)).keys,
        name ∈ current.keys := by
  cases update with
  | updateCode changeFile newCode onDisk =>
      simp only [ReportsExactly, CodeUpdate.run, CodeUpdate.resolvedPath, CodeUpdate.version,
        updateCode_eq parses, ← exact_compareQualnameToCode_iff]
      constructor
      · rintro ⟨changes, after, same, exact, _⟩
        cases same
        exact exact
      · intro exact
        exact ⟨_, _, rfl, exact, Dict.get?_set_self _ _ _⟩
  | updateCodeFromEditor path newData =>
      obtain ⟨entry, known⟩ := Option.ne_none_iff_exists'.mp watched
      have definitions : manager.definitionsAt (host.resolvePath path) = entry.qualnameToCode := by
        simp [definitionsAt, known]
      simp only [ReportsExactly, CodeUpdate.run, CodeUpdate.resolvedPath, CodeUpdate.version,
        definitions]
      by_cases same : newData = entry.code
      · subst same
        have stored := coherent _ _ known
        rw [CodeUpdate.version, stored] at parses
        cases parses
        simp only [updateCodeFromEditor_same known]
        constructor
        · intro _ name member
          exact member
        · intro _
          exact ⟨_, _, rfl, exact_none _, known⟩
      · simp only [updateCodeFromEditor_eq known same parses, ← exact_compareQualnameToCode_iff]
        constructor
        · rintro ⟨changes, after, returned, exact, _⟩
          cases returned
          exact exact
        · intro exact
          exact ⟨_, _, rfl, exact, Dict.get?_set_self _ _ _⟩

/--
In every run, a version is reported exactly and stored when, and only when, it
still has every name of the previous version.
-/
theorem reportsExactly_iff
    {events : List CodeEvent}
    {update : CodeUpdate}
    {current : Dict String Text}
    (run : CodeRun host events manager)
    (watched : update.Watched host manager)
    (parses : host.definitions update.version = .ok current) :
    manager.ReportsExactly host update current ↔
      ∀ name ∈ (manager.definitionsAt (update.resolvedPath host)).keys,
        name ∈ current.keys :=
  reportsExactly_iff_of_coherent (coherent_of_run run) watched parses

/-- A file with two functions. -/
def twoFunctions : Text :=
  "def f(): 0\ndef g(): 0".toList

/-- The same file after the second function was deleted. -/
def oneFunction : Text :=
  "def f(): 0".toList

/-- A host that reads these two texts as the parser does. -/
def sampleHost : SourceHost where
  astParse text :=
    if text = twoFunctions then
      .ok [.functionDef "f" ⟨1, 0, 1, 10⟩, .functionDef "g" ⟨2, 0, 2, 10⟩]
    else if text = oneFunction then
      .ok [.functionDef "f" ⟨1, 0, 1, 10⟩]
    else
      .error (.valueError "invalid syntax")
  resolve path := "/app/" ++ path

/-- The manager that watches the file with two functions. -/
def sampleManager : SimpleCodeManager where
  fileToEntry :=
    Dict.ofList [("/app/a.py", ⟨twoFunctions,
      Dict.ofList [("f", "def f(): 0".toList), ("g", "def g(): 0".toList)]⟩)]

theorem run_sampleManager :
    CodeRun sampleHost [.addNewCode "a.py" none twoFunctions] sampleManager :=
  .next .start trivial (by decide +kernel)

/-- Editing the file back and forth is reported exactly as long as no function goes. -/
theorem reportsExactly_iff_sample :
    sampleManager.ReportsExactly sampleHost (.updateCodeFromEditor "a.py" twoFunctions)
      (Dict.ofList [("f", "def f(): 0".toList), ("g", "def g(): 0".toList)]) :=
  have watched :
      (CodeUpdate.updateCodeFromEditor "a.py" twoFunctions).Watched sampleHost sampleManager := by
    change sampleManager.fileToEntry.get? "/app/a.py" ≠ none
    decide +kernel
  (reportsExactly_iff run_sampleManager watched (by decide +kernel)).mpr (by decide +kernel)

/-- Every version of every watched file is reported exactly. -/
def DiffsExact (host : SourceHost) : Prop :=
  ∀ events manager update current,
    CodeRun host events manager →
    update.Watched host manager →
    host.definitions update.version = .ok current →
    manager.ReportsExactly host update current

/-- The deleted function is not in the triple. -/
theorem not_diffsExact :
    ¬ DiffsExact sampleHost := by
  intro exact
  have watched :
      (CodeUpdate.updateCode "a.py" none oneFunction).Watched sampleHost sampleManager :=
    trivial
  have parses :
      sampleHost.definitions (CodeUpdate.updateCode "a.py" none oneFunction).version =
        .ok (Dict.ofList [("f", "def f(): 0".toList)]) := by
    decide +kernel
  have reported := exact _ _ _ _ run_sampleManager watched parses
  have kept := (reportsExactly_iff_of_coherent (coherent_of_run run_sampleManager) watched
    parses).mp reported
  revert kept
  decide +kernel

end SimpleCodeManager

end TensorPC.Service
