import TensorPC.Astex.LineMapping
import TensorPC.Py.Dict

namespace TensorPC.Astex

/-!
# Line numbers of a changing file

`SourceChangeDiffCache` keeps the lines that a file had at the first query, and the
equal blocks between them and the version it read last.  An entry is used as long
as the size and the modification time of the file are those of the entry.
-/

/-- What `os.stat` finds, and what `readlines` gives unless the file cannot be read. -/
structure FileVersion (Time : Type) where
  size : Nat
  mtime : Time
  content : Option (List Text)

/-- The files, and the directories in which a relative name is searched. -/
structure World (Time : Type) where
  files : String → Option (FileVersion Time)
  sysPath : List String

/-- `SourceChangeDiffCache`. -/
structure SourceChangeDiffCache (Time : Type) where
  cache : Dict String (SCDItem Time)
  originalLines : Dict String (List Text)

/-- `os.path.isabs`. -/
def isAbs (filename : String) : Bool :=
  ['/'].isPrefixOf filename.toList

/-- `os.path.join(dirname, basename)` for a relative `basename`. -/
def joinPath (dirname basename : String) : String :=
  if dirname.toList = [] ∨ dirname.toList.getLast? = some '/' then
    dirname ++ basename
  else
    dirname ++ "/" ++ basename

/-- Names such as `<string>`, and the empty one, belong to no file. -/
def namesNoFile (filename : String) : Bool :=
  filename.toList.isEmpty ||
    (filename.toList.head? == some '<' && filename.toList.getLast? == some '>')

section Cache

variable {Time : Type}

/-- The lines of a version; `updatecache` completes the last one. -/
def endWithNewline (lines : List Text) : List Text :=
  match lines.getLast? with
  | none => lines
  | some last =>
      if last.getLast? = some '\n' then
        lines
      else
        lines.dropLast ++ [last ++ ['\n']]

/-- The file that `updatecache` reads, with the name it is found under. -/
def World.findSource
    (world : World Time)
    (filename : String) :
    Option (String × FileVersion Time) :=
  if namesNoFile filename then
    none
  else
    match world.files filename with
    | some stat => some (filename, stat)
    | none =>
        if isAbs filename then
          none
        else
          world.sysPath.findSome? fun dirname =>
            let fullname := joinPath dirname filename
            (world.files fullname).map fun stat => (fullname, stat)

variable [DecidableEq Time]

namespace SourceChangeDiffCache

/-- `checkcache` of one file. -/
def checkcache
    (world : World Time)
    (filename : String)
    (scd : SourceChangeDiffCache Time) :
    SourceChangeDiffCache Time :=
  match scd.cache.get? filename with
  | none => scd
  | some entry =>
      match entry.mtime with
      | none => scd
      | some mtime =>
          match world.files entry.fullname with
          | none => { scd with cache := scd.cache.erase filename }
          | some stat =>
              if entry.size ≠ stat.size ∨ mtime ≠ stat.mtime then
                { scd with cache := scd.cache.erase filename }
              else
                scd

/-- `updatecache`: whether the file was read, and the new cache. -/
def updatecache
    (matcher : SequenceMatcher)
    (world : World Time)
    (filename : String)
    (scd : SourceChangeDiffCache Time) :
    Bool × SourceChangeDiffCache Time :=
  let dropped := { scd with cache := scd.cache.erase filename }
  match world.findSource filename with
  | none => (false, dropped)
  | some (fullname, stat) =>
      match stat.content with
      | none => (false, dropped)
      | some content =>
          let lines := endWithNewline content
          let item (blocks : Option (List EqualBlock)) : SCDItem Time :=
            ⟨stat.size, some stat.mtime, lines, blocks, fullname⟩
          match scd.originalLines.get? filename with
          | none =>
              (true,
                { cache := dropped.cache.set filename (item none)
                  originalLines := scd.originalLines.set filename lines })
          | some original =>
              (true,
                { dropped with
                  cache :=
                    dropped.cache.set filename
                      (item (some (matcher.equalBlocks original lines))) })

/-- The answer of an entry: without a diff, the number itself. -/
def answerOf
    (entry : SCDItem Time)
    (lineno : Int) :
    PyResult Int :=
  match entry.diffOpcodesEqual with
  | none => .ok lineno
  | some _ => entry.bisectMappedLineno lineno

/-- `query_mapped_linenos`. -/
def queryMappedLinenos
    (matcher : SequenceMatcher)
    (world : World Time)
    (filename : String)
    (lineno : Int)
    (scd : SourceChangeDiffCache Time) :
    PyResult Int × SourceChangeDiffCache Time :=
  let checked := checkcache world filename scd
  match checked.cache.get? filename with
  | some entry => (answerOf entry lineno, checked)
  | none =>
      match updatecache matcher world filename checked with
      | (false, updated) => (.ok (-1), updated)
      | (true, updated) =>
          match updated.cache.get? filename with
          | some entry => (answerOf entry lineno, updated)
          | none => (.error (.keyError filename), updated)

/-- A new cache. -/
def empty : SourceChangeDiffCache Time where
  cache := Dict.empty
  originalLines := Dict.empty

end SourceChangeDiffCache

/-! ## Histories of files and queries -/

/-- The files change, or the mapped line of a file is queried. -/
inductive Event (Time : Type) where
  | change (world : World Time)
  | query (filename : String) (lineno : Int)

/-- The files and the cache between two events. -/
structure Session (Time : Type) where
  world : World Time
  scd : SourceChangeDiffCache Time

/-- One event. -/
def Session.next
    (matcher : SequenceMatcher)
    (session : Session Time) :
    Event Time → Session Time
  | .change world => { session with world := world }
  | .query filename lineno =>
      { session with
        scd := (session.scd.queryMappedLinenos matcher session.world filename lineno).2 }

/-- A query of one file: the versions that the earlier ones met, and its own. -/
structure Answer (Time : Type) where
  seen : List (Option (FileVersion Time))
  current : Option (FileVersion Time)
  lineno : Int
  result : PyResult Int

/-- The answers to the queries of `filename`, which names the file at `place`. -/
def answers
    (matcher : SequenceMatcher)
    (filename place : String) :
    List (Option (FileVersion Time)) →
      Session Time →
      List (Event Time) →
      List (Answer Time)
  | _, _, [] => []
  | seen, session, event :: rest =>
      let later (seen : List (Option (FileVersion Time))) : List (Answer Time) :=
        answers matcher filename place seen (session.next matcher event) rest
      match event with
      | .change _ => later seen
      | .query name lineno =>
          if name = filename then
            let current := session.world.files place
            let result :=
              (session.scd.queryMappedLinenos matcher session.world filename lineno).1
            ⟨seen, current, lineno, result⟩ :: later (seen ++ [current])
          else
            later seen

/-- The states of the files in a history. -/
def worldsOf (start : World Time) (events : List (Event Time)) : List (World Time) :=
  start :: events.filterMap fun event =>
    match event with
    | .change world => some world
    | .query _ _ => none

/-- Two versions that `checkcache` cannot tell apart. -/
def SameStat (first second : FileVersion Time) : Prop :=
  first.size = second.size ∧ first.mtime = second.mtime

instance (first second : FileVersion Time) : Decidable (SameStat first second) :=
  inferInstanceAs (Decidable (_ ∧ _))

/-- Versions of a file, found under one name, interleaved with queries of any files.
A version with new lines differs from all earlier ones in size or time. -/
structure History (Time : Type) where
  filename : String
  place : String
  start : World Time
  events : List (Event Time)
  found :
    ∀ world ∈ worldsOf start events,
      world.findSource filename =
        (world.files place).map fun stat => (place, stat)
  changes :
    ∀ first ∈ worldsOf start events, ∀ second ∈ worldsOf start events,
      ∀ old new, first.files place = some old → second.files place = some new →
        SameStat old new → old.content = new.content

/-- The lines of a version that can be read. -/
def linesOf (found : Option (FileVersion Time)) : Option (List Text) :=
  found.bind fun version => version.content.map endWithNewline

/-- The query met a version with the size and time of the first one. -/
def StillFirst
    (first : FileVersion Time)
    (found : Option (FileVersion Time)) : Prop :=
  ∃ version, found = some version ∧ SameStat first version

/-- What a query returns, by the versions met before it and the current one. -/
inductive MapsFromFirst
    (matcher : SequenceMatcher)
    (answer : Answer Time) : Prop
  | unreadable
      (noLines : linesOf answer.current = none)
      (result : answer.result = .ok (-1))
  | first
      {lines : List Text}
      (nothingSeen : ∀ found ∈ answer.seen, linesOf found = none)
      (readable : linesOf answer.current = some lines)
      (result : answer.result = .ok answer.lineno)
  | unchanged
      {before later : List (Option (FileVersion Time))}
      {version : FileVersion Time}
      {lines : List Text}
      (split : answer.seen = before ++ some version :: later)
      (nothingBefore : ∀ found ∈ before, linesOf found = none)
      (original : linesOf (some version) = some lines)
      (same : linesOf answer.current = some lines)
      (stillFirst : ∀ found ∈ later ++ [answer.current], StillFirst version found)
      (result : answer.result = .ok answer.lineno)
  | changed
      {before later : List (Option (FileVersion Time))}
      {version : FileVersion Time}
      {originalLines lines : List Text}
      (split : answer.seen = before ++ some version :: later)
      (nothingBefore : ∀ found ∈ before, linesOf found = none)
      (original : linesOf (some version) = some originalLines)
      (readable : linesOf answer.current = some lines)
      (notFirst : ∃ found ∈ later ++ [answer.current], ¬ StillFirst version found)
      (result :
        answer.result =
          (getRawItemForMapping Time matcher originalLines lines).bisectMappedLineno
            answer.lineno)

/-! ## One query -/

section Query

variable {matcher : SequenceMatcher} {world : World Time} {filename place : String}
variable {scd : SourceChangeDiffCache Time}

open SourceChangeDiffCache

theorem checkcache_of_none (noEntry : scd.cache.get? filename = none) :
    checkcache world filename scd = scd := by
  simp only [checkcache, noEntry]

/-- An entry with the size and time of the file stays. -/
theorem checkcache_of_sameStat
    {entry : SCDItem Time}
    {stat : FileVersion Time}
    (isEntry : scd.cache.get? filename = some entry)
    (present : world.files entry.fullname = some stat)
    (sized : entry.size = stat.size)
    (timed : entry.mtime = some stat.mtime) :
    checkcache world filename scd = scd := by
  simp [checkcache, isEntry, timed, present, sized]

/-- Any other entry is dropped. -/
theorem checkcache_of_differs
    {entry : SCDItem Time}
    {mtime : Time}
    (isEntry : scd.cache.get? filename = some entry)
    (timed : entry.mtime = some mtime)
    (differs :
      ∀ stat, world.files entry.fullname = some stat →
        ¬ (entry.size = stat.size ∧ mtime = stat.mtime)) :
    checkcache world filename scd =
      { scd with cache := scd.cache.erase filename } := by
  simp only [checkcache, isEntry, timed]
  cases present : world.files entry.fullname with
  | none =>
      rfl
  | some stat =>
      have changed : entry.size ≠ stat.size ∨ mtime ≠ stat.mtime := by
        have := differs stat present
        tauto
      exact if_pos changed

omit [DecidableEq Time] in
theorem answerOf_diff
    (matcher : SequenceMatcher)
    (originalLines lines : List Text)
    (stat : FileVersion Time)
    (lineno : Int) :
    answerOf
        ⟨stat.size, some stat.mtime, lines,
          some (matcher.equalBlocks originalLines lines), place⟩ lineno =
      (getRawItemForMapping Time matcher originalLines lines).bisectMappedLineno lineno :=
  rfl

/-- An entry with the size and time of the file answers. -/
theorem queryMappedLinenos_of_kept
    (lineno : Int)
    {entry : SCDItem Time}
    {stat : FileVersion Time}
    (isEntry : scd.cache.get? filename = some entry)
    (present : world.files entry.fullname = some stat)
    (sized : entry.size = stat.size)
    (timed : entry.mtime = some stat.mtime) :
    scd.queryMappedLinenos matcher world filename lineno =
      (answerOf entry lineno, scd) := by
  unfold queryMappedLinenos
  simp only [checkcache_of_sameStat isEntry present sized timed, isEntry]

variable
  (found :
    world.findSource filename =
      (world.files place).map fun stat => (place, stat))
  (dropped : (checkcache world filename scd).cache.get? filename = none)

include found dropped

/-- The file cannot be read. -/
theorem queryMappedLinenos_of_unreadable
    (lineno : Int)
    (noLines : linesOf (world.files place) = none) :
    ∃ updated,
      scd.queryMappedLinenos matcher world filename lineno = (.ok (-1), updated) ∧
      updated.cache.get? filename = none ∧
      updated.originalLines = (checkcache world filename scd).originalLines := by
  unfold queryMappedLinenos updatecache
  simp only [dropped, found]
  cases present : world.files place with
  | none =>
      exact ⟨_, rfl, Dict.get?_erase_self .., rfl⟩
  | some stat =>
      rw [present] at noLines
      have unreadable : stat.content = none := by
        simpa [linesOf] using noLines
      simp only [Option.map_some, unreadable]
      exact ⟨_, rfl, Dict.get?_erase_self .., rfl⟩

/-- The file is read for the first time. -/
theorem queryMappedLinenos_of_first
    (lineno : Int)
    {stat : FileVersion Time}
    {lines : List Text}
    (present : world.files place = some stat)
    (readable : linesOf (some stat) = some lines)
    (noOriginal : (checkcache world filename scd).originalLines.get? filename = none) :
    ∃ updated,
      scd.queryMappedLinenos matcher world filename lineno = (.ok lineno, updated) ∧
      updated.cache.get? filename =
        some ⟨stat.size, some stat.mtime, lines, none, place⟩ ∧
      updated.originalLines.get? filename = some lines := by
  obtain ⟨content, isContent, rfl⟩ : ∃ content, stat.content = some content ∧
      endWithNewline content = lines := by
    simpa [linesOf] using readable
  unfold queryMappedLinenos updatecache
  simp only [dropped, found, present, Option.map_some, isContent, noOriginal,
    Dict.get?_set_self]
  exact ⟨_, rfl, Dict.get?_set_self .., Dict.get?_set_self ..⟩

/-- The file is read again and compared with its first lines. -/
theorem queryMappedLinenos_of_again
    (lineno : Int)
    {stat : FileVersion Time}
    {originalLines lines : List Text}
    (present : world.files place = some stat)
    (readable : linesOf (some stat) = some lines)
    (original :
      (checkcache world filename scd).originalLines.get? filename = some originalLines) :
    ∃ updated,
      scd.queryMappedLinenos matcher world filename lineno =
        ((getRawItemForMapping Time matcher originalLines lines).bisectMappedLineno lineno,
          updated) ∧
      updated.cache.get? filename =
        some ⟨stat.size, some stat.mtime, lines,
          some (matcher.equalBlocks originalLines lines), place⟩ ∧
      updated.originalLines.get? filename = some originalLines := by
  obtain ⟨content, isContent, rfl⟩ : ∃ content, stat.content = some content ∧
      endWithNewline content = lines := by
    simpa [linesOf] using readable
  unfold queryMappedLinenos updatecache
  simp only [dropped, found, present, Option.map_some, isContent, original,
    Dict.get?_set_self]
  exact ⟨_, rfl, Dict.get?_set_self .., original⟩

end Query

/-! ## The cache in a history -/

/-- The entry of a file whose first version has been read. -/
inductive EntryHolds
    (matcher : SequenceMatcher)
    (history : History Time)
    (version : FileVersion Time)
    (originalLines : List Text)
    (later : List (Option (FileVersion Time))) :
    Option (SCDItem Time) → Prop
  | dropped
      (notFirst : ∃ found ∈ later, ¬ StillFirst version found) :
      EntryHolds matcher history version originalLines later none
  | first
      (stillFirst : ∀ found ∈ later, StillFirst version found) :
      EntryHolds matcher history version originalLines later
        (some ⟨version.size, some version.mtime, originalLines, none, history.place⟩)
  | changed
      {world : World Time}
      {last : FileVersion Time}
      {lines : List Text}
      (inHistory : world ∈ worldsOf history.start history.events)
      (present : world.files history.place = some last)
      (readable : linesOf (some last) = some lines)
      (notFirst : ∃ found ∈ later, ¬ StillFirst version found) :
      EntryHolds matcher history version originalLines later
        (some ⟨last.size, some last.mtime, lines,
          some (matcher.equalBlocks originalLines lines), history.place⟩)

/-- What the cache holds of a file after queries that met the versions `seen`. -/
inductive CacheHolds
    (matcher : SequenceMatcher)
    (history : History Time)
    (seen : List (Option (FileVersion Time)))
    (scd : SourceChangeDiffCache Time) : Prop
  | unread
      (nothingSeen : ∀ found ∈ seen, linesOf found = none)
      (noEntry : scd.cache.get? history.filename = none)
      (noOriginal : scd.originalLines.get? history.filename = none)
  | read
      {world : World Time}
      {before later : List (Option (FileVersion Time))}
      {version : FileVersion Time}
      {originalLines : List Text}
      (split : seen = before ++ some version :: later)
      (nothingBefore : ∀ found ∈ before, linesOf found = none)
      (inHistory : world ∈ worldsOf history.start history.events)
      (present : world.files history.place = some version)
      (readable : linesOf (some version) = some originalLines)
      (original : scd.originalLines.get? history.filename = some originalLines)
      (entry :
        EntryHolds matcher history version originalLines later
          (scd.cache.get? history.filename))

omit [DecidableEq Time] in
/-- Versions of a history with the same size and time have the same lines. -/
theorem History.linesOf_eq
    (history : History Time)
    {first second : World Time}
    {old new : FileVersion Time}
    (isFirst : first ∈ worldsOf history.start history.events)
    (isSecond : second ∈ worldsOf history.start history.events)
    (presentFirst : first.files history.place = some old)
    (presentSecond : second.files history.place = some new)
    (same : SameStat old new) :
    linesOf (some old) = linesOf (some new) := by
  simp only [linesOf, Option.bind_some,
    history.changes first isFirst second isSecond old new presentFirst presentSecond same]

section Step

variable {matcher : SequenceMatcher} {history : History Time}
variable {seen : List (Option (FileVersion Time))} {scd : SourceChangeDiffCache Time}
variable {world : World Time} (inHistory : world ∈ worldsOf history.start history.events)

/-- A query and the cache after it. -/
def AnswersWell
    (matcher : SequenceMatcher)
    (history : History Time)
    (seen : List (Option (FileVersion Time)))
    (world : World Time)
    (lineno : Int)
    (outcome : PyResult Int × SourceChangeDiffCache Time) : Prop :=
  MapsFromFirst matcher
      ⟨seen, world.files history.place, lineno, outcome.1⟩ ∧
    CacheHolds matcher history (seen ++ [world.files history.place]) outcome.2

include inHistory

open SourceChangeDiffCache

/-- A query of a file that no query has read yet. -/
theorem answersWell_of_unread
    (lineno : Int)
    (nothingSeen : ∀ found ∈ seen, linesOf found = none)
    (noEntry : scd.cache.get? history.filename = none)
    (noOriginal : scd.originalLines.get? history.filename = none) :
    AnswersWell matcher history seen world lineno
      (scd.queryMappedLinenos matcher world history.filename lineno) := by
  have found := history.found world inHistory
  have same := @checkcache_of_none _ _ world _ _ noEntry
  have dropped : (checkcache world history.filename scd).cache.get? history.filename = none := by
    rw [same]
    exact noEntry
  cases linesEq : linesOf (world.files history.place) with
  | none =>
      obtain ⟨updated, computed, noEntryAfter, originals⟩ :=
        @queryMappedLinenos_of_unreadable _ _ matcher _ _ _ _ found dropped lineno linesEq
      unfold AnswersWell
      rw [computed]
      refine ⟨.unreadable linesEq rfl, .unread ?_ noEntryAfter ?_⟩
      · intro other member
        rcases List.mem_append.mp member with earlier | now
        · exact nothingSeen other earlier
        · rw [List.mem_singleton.mp now]
          exact linesEq
      · rw [originals, same]
        exact noOriginal
  | some lines =>
      cases present : world.files history.place with
      | none =>
          rw [present] at linesEq
          cases linesEq
      | some stat =>
          rw [present] at linesEq
          obtain ⟨updated, computed, entryAfter, originalAfter⟩ :=
            @queryMappedLinenos_of_first _ _ matcher _ _ _ _ found dropped lineno _ _ present
              linesEq (by rw [same]; exact noOriginal)
          unfold AnswersWell
          rw [computed, present]
          refine ⟨.first nothingSeen linesEq rfl,
            .read rfl nothingSeen inHistory present linesEq originalAfter ?_⟩
          rw [entryAfter]
          exact .first nofun

/-- A query that reads a file again. -/
theorem answersWell_of_reload
    (lineno : Int)
    {firstWorld : World Time}
    {before later : List (Option (FileVersion Time))}
    {version : FileVersion Time}
    {originalLines : List Text}
    (split : seen = before ++ some version :: later)
    (nothingBefore : ∀ found ∈ before, linesOf found = none)
    (firstInHistory : firstWorld ∈ worldsOf history.start history.events)
    (firstPresent : firstWorld.files history.place = some version)
    (readable : linesOf (some version) = some originalLines)
    (dropped : (checkcache world history.filename scd).cache.get? history.filename = none)
    (original :
      (checkcache world history.filename scd).originalLines.get? history.filename =
        some originalLines)
    (notFirst :
      ∃ found ∈ later ++ [world.files history.place], ¬ StillFirst version found) :
    AnswersWell matcher history seen world lineno
      (scd.queryMappedLinenos matcher world history.filename lineno) := by
  have found := history.found world inHistory
  have splitAfter :
      seen ++ [world.files history.place] =
        before ++ some version :: (later ++ [world.files history.place]) := by
    rw [split, List.append_assoc, List.cons_append]
  cases linesEq : linesOf (world.files history.place) with
  | none =>
      obtain ⟨updated, computed, noEntryAfter, originals⟩ :=
        @queryMappedLinenos_of_unreadable _ _ matcher _ _ _ _ found dropped lineno linesEq
      unfold AnswersWell
      rw [computed]
      refine ⟨.unreadable linesEq rfl,
        .read splitAfter nothingBefore firstInHistory firstPresent readable ?_ ?_⟩
      · rw [originals]
        exact original
      · rw [noEntryAfter]
        exact .dropped notFirst
  | some lines =>
      cases present : world.files history.place with
      | none =>
          rw [present] at linesEq
          cases linesEq
      | some stat =>
          rw [present] at linesEq notFirst splitAfter
          obtain ⟨updated, computed, entryAfter, originalAfter⟩ :=
            @queryMappedLinenos_of_again _ _ matcher _ _ _ _ found dropped lineno _ _ _
              present linesEq original
          unfold AnswersWell
          rw [computed, present]
          refine ⟨.changed split nothingBefore readable linesEq notFirst rfl,
            .read splitAfter nothingBefore firstInHistory firstPresent readable
              originalAfter ?_⟩
          rw [entryAfter]
          exact .changed inHistory present linesEq notFirst

omit inHistory in
/-- An entry that is not that of the current version is dropped. -/
theorem checkcache_of_changed
    {entry : SCDItem Time}
    {last : FileVersion Time}
    (isEntry : scd.cache.get? history.filename = some entry)
    (isFile : entry.fullname = history.place)
    (sized : entry.size = last.size)
    (timed : entry.mtime = some last.mtime)
    (changed : ¬ StillFirst last (world.files history.place)) :
    (checkcache world history.filename scd).cache.get? history.filename = none ∧
      (checkcache world history.filename scd).originalLines = scd.originalLines := by
  rw [checkcache_of_differs isEntry timed]
  · exact ⟨Dict.get?_erase_self .., rfl⟩
  · rintro stat present ⟨sameSize, sameTime⟩
    rw [isFile] at present
    exact changed ⟨stat, present, sized.symm.trans sameSize, sameTime⟩

/-- A query answers by the versions met so far, and keeps the cache right. -/
theorem queryMappedLinenos_answersWell
    (lineno : Int)
    (holds : CacheHolds matcher history seen scd) :
    AnswersWell matcher history seen world lineno
      (scd.queryMappedLinenos matcher world history.filename lineno) := by
  cases holds with
  | unread nothingSeen noEntry noOriginal =>
      exact answersWell_of_unread inHistory lineno nothingSeen noEntry noOriginal
  | @read firstWorld before later version originalLines split nothingBefore
      firstInHistory firstPresent readable original entry =>
      have splitAfter :
          seen ++ [world.files history.place] =
            before ++ some version :: (later ++ [world.files history.place]) := by
        rw [split, List.append_assoc, List.cons_append]
      have stillNotFirst :
          (∃ found ∈ later, ¬ StillFirst version found) →
            ∃ found ∈ later ++ [world.files history.place],
              ¬ StillFirst version found := by
        rintro ⟨found, member, differs⟩
        exact ⟨found, List.mem_append_left _ member, differs⟩
      generalize entryEq : scd.cache.get? history.filename = cached at entry
      cases entry with
      | dropped notFirst =>
          have same := @checkcache_of_none _ _ world _ _ entryEq
          apply answersWell_of_reload inHistory lineno split nothingBefore firstInHistory
            firstPresent readable
          · rw [same]
            exact entryEq
          · rw [same]
            exact original
          · exact stillNotFirst notFirst
      | first stillFirst =>
          by_cases kept : StillFirst version (world.files history.place)
          · -- the first version is still there: the number itself
            have allFirst :
                ∀ found ∈ later ++ [world.files history.place],
                  StillFirst version found := by
              intro found member
              rcases List.mem_append.mp member with earlier | now
              · exact stillFirst found earlier
              · rw [List.mem_singleton.mp now]
                exact kept
            have sameLines : linesOf (world.files history.place) = some originalLines := by
              obtain ⟨stat, present, sameStat⟩ := kept
              rw [present, ← readable]
              exact (history.linesOf_eq firstInHistory inHistory firstPresent present
                sameStat).symm
            obtain ⟨stat, present, sized, timed⟩ := kept
            unfold AnswersWell
            rw [queryMappedLinenos_of_kept lineno entryEq present sized (congrArg some timed)]
            refine ⟨.unchanged split nothingBefore readable sameLines allFirst rfl,
              .read splitAfter nothingBefore firstInHistory firstPresent readable original ?_⟩
            rw [entryEq]
            exact .first allFirst
          · obtain ⟨dropped, originals⟩ :=
              checkcache_of_changed entryEq rfl rfl rfl kept
            apply answersWell_of_reload inHistory lineno split nothingBefore firstInHistory
              firstPresent readable dropped
            · rw [originals]
              exact original
            · exact ⟨_, List.mem_append_right _ (List.mem_singleton_self _), kept⟩
      | @changed lastWorld last lines lastInHistory lastPresent lastReadable notFirst =>
          by_cases kept : StillFirst last (world.files history.place)
          · -- the version that was read last is still there
            have sameLines : linesOf (world.files history.place) = some lines := by
              obtain ⟨stat, present, sameStat⟩ := kept
              rw [present, ← lastReadable]
              exact (history.linesOf_eq lastInHistory inHistory lastPresent present
                sameStat).symm
            obtain ⟨stat, present, sized, timed⟩ := kept
            unfold AnswersWell
            rw [queryMappedLinenos_of_kept lineno entryEq present sized (congrArg some timed),
              answerOf_diff]
            refine ⟨.changed split nothingBefore readable sameLines
                (stillNotFirst notFirst) rfl,
              .read splitAfter nothingBefore firstInHistory firstPresent readable original ?_⟩
            rw [entryEq]
            exact .changed lastInHistory lastPresent lastReadable (stillNotFirst notFirst)
          · obtain ⟨dropped, originals⟩ :=
              checkcache_of_changed entryEq rfl rfl rfl kept
            apply answersWell_of_reload inHistory lineno split nothingBefore firstInHistory
              firstPresent readable dropped
            · rw [originals]
              exact original
            · exact stillNotFirst notFirst

end Step

/-! ## Queries of other files -/

section OtherFiles

open SourceChangeDiffCache

/-- Two caches hold the same of a file. -/
def SameFor
    (filename : String)
    (first second : SourceChangeDiffCache Time) : Prop :=
  first.cache.get? filename = second.cache.get? filename ∧
    first.originalLines.get? filename = second.originalLines.get? filename

theorem checkcache_sameFor
    (world : World Time)
    {filename name : String}
    (different : filename ≠ name)
    (scd : SourceChangeDiffCache Time) :
    SameFor filename (checkcache world name scd) scd := by
  unfold checkcache
  repeat' split
  all_goals simp [SameFor, Dict.get?_erase, different]

omit [DecidableEq Time] in
theorem updatecache_sameFor
    (matcher : SequenceMatcher)
    (world : World Time)
    {filename name : String}
    (different : filename ≠ name)
    (scd : SourceChangeDiffCache Time) :
    SameFor filename (updatecache matcher world name scd).2 scd := by
  unfold updatecache
  dsimp only
  repeat' split
  all_goals simp [SameFor, Dict.get?_erase, Dict.get?_set, different]

/-- A query leaves what the cache holds of the other files. -/
theorem queryMappedLinenos_sameFor
    (matcher : SequenceMatcher)
    (world : World Time)
    {filename name : String}
    (different : filename ≠ name)
    (lineno : Int)
    (scd : SourceChangeDiffCache Time) :
    SameFor filename (scd.queryMappedLinenos matcher world name lineno).2 scd := by
  have checked := checkcache_sameFor world different scd
  have updated :=
    updatecache_sameFor matcher world different (checkcache world name scd)
  have both : SameFor filename
      (updatecache matcher world name (checkcache world name scd)).2 scd :=
    ⟨updated.1.trans checked.1, updated.2.trans checked.2⟩
  unfold queryMappedLinenos
  dsimp only
  split
  · exact checked
  · split
    · rename_i isUpdated
      rw [isUpdated] at both
      exact both
    · rename_i isUpdated
      rw [isUpdated] at both
      split <;> exact both

omit [DecidableEq Time] in
theorem CacheHolds.of_sameFor
    {matcher : SequenceMatcher}
    {history : History Time}
    {seen : List (Option (FileVersion Time))}
    {first second : SourceChangeDiffCache Time}
    (same : SameFor history.filename first second)
    (holds : CacheHolds matcher history seen second) :
    CacheHolds matcher history seen first := by
  obtain ⟨sameEntry, sameOriginal⟩ := same
  cases holds with
  | unread nothingSeen noEntry noOriginal =>
      exact .unread nothingSeen (sameEntry.trans noEntry) (sameOriginal.trans noOriginal)
  | read split nothingBefore inHistory present readable original entry =>
      rw [← sameEntry] at entry
      exact .read split nothingBefore inHistory present readable
        (sameOriginal.trans original) entry

end OtherFiles

/-! ## Whole histories -/

/-- From a right cache on, every query of the file is answered by the versions met. -/
theorem answers_mapFromFirst
    (matcher : SequenceMatcher)
    (history : History Time)
    {events : List (Event Time)}
    {seen : List (Option (FileVersion Time))}
    {session : Session Time}
    (holds : CacheHolds matcher history seen session.scd)
    (inHistory :
      ∀ world ∈ worldsOf session.world events,
        world ∈ worldsOf history.start history.events)
    {answer : Answer Time}
    (member : answer ∈ answers matcher history.filename history.place seen session events) :
    MapsFromFirst matcher answer := by
  induction events generalizing seen session with
  | nil =>
      cases member
  | cons event rest inductionHypothesis =>
      have now := inHistory session.world List.mem_cons_self
      cases event with
      | change world =>
          refine @inductionHypothesis seen { session with world := world } holds ?_ member
          intro other isOther
          exact inHistory other (List.mem_cons_of_mem _ isOther)
      | query name lineno =>
          have later :
              ∀ world ∈ worldsOf session.world rest,
                world ∈ worldsOf history.start history.events :=
            inHistory
          by_cases same : name = history.filename
          · subst same
            obtain ⟨maps, holdsAfter⟩ :=
              queryMappedLinenos_answersWell now lineno holds
            simp only [answers, if_true] at member
            rcases List.mem_cons.mp member with rfl | inRest
            · exact maps
            · exact @inductionHypothesis _
                (session.next matcher (.query history.filename lineno)) holdsAfter later
                inRest
          · simp only [answers, same, if_false] at member
            refine @inductionHypothesis seen
              (session.next matcher (.query name lineno)) ?_ later member
            exact holds.of_sameFor
              (queryMappedLinenos_sameFor matcher session.world (Ne.symm same) lineno
                session.scd)

/-- The session at the start of a history, with a new cache. -/
def History.startSession (history : History Time) : Session Time :=
  ⟨history.start, SourceChangeDiffCache.empty⟩

/-- The answers to all queries of the file of a history. -/
def History.answers
    (matcher : SequenceMatcher)
    (history : History Time) :
    List (Answer Time) :=
  Astex.answers matcher history.filename history.place [] history.startSession history.events

/-- `FrameLocMeta`. -/
structure FrameLocMeta where
  path : String
  lineno : Int
  mappedLineno : Int
  deriving Repr, DecidableEq

/-- `BreakpointManager.get_frame_loc_meta` of a frame, after the answer of the cache. -/
def getFrameLocMeta (path : String) (lineno mapped : Int) : FrameLocMeta where
  path := path
  lineno := lineno
  mappedLineno := if mapped < 1 then lineno else mapped

/-- A frame is looked up at its own line number, or at the line of the current version
with the text that its line had in the first one. -/
def Answer.FindsLine (answer : Answer Time) (path : String) : Prop :=
  ∃ mapped,
    answer.result = .ok mapped ∧
    ((getFrameLocMeta path answer.lineno mapped).mappedLineno = answer.lineno ∨
      ∃ version originalLines lines text,
        some version ∈ answer.seen ∧
        linesOf (some version) = some originalLines ∧
        linesOf answer.current = some lines ∧
        lineAt originalLines answer.lineno = some text ∧
        lineAt lines (getFrameLocMeta path answer.lineno mapped).mappedLineno = some text)

omit [DecidableEq Time] in
theorem MapsFromFirst.findsLine
    {matcher : SequenceMatcher}
    {answer : Answer Time}
    (maps : MapsFromFirst matcher answer)
    (path : String) :
    answer.FindsLine path := by
  cases maps with
  | unreadable noLines result =>
      exact ⟨-1, result, .inl rfl⟩
  | first nothingSeen readable result =>
      exact ⟨_, result, .inl (ite_self _)⟩
  | unchanged split nothingBefore original same stillFirst result =>
      exact ⟨_, result, .inl (ite_self _)⟩
  | @changed before later version originalLines lines split nothingBefore original
      readable notFirst result =>
      obtain ⟨mapped, computed, found | ⟨_, rfl⟩⟩ :=
        bisectMappedLineno_finds matcher originalLines lines Time answer.lineno
      · obtain ⟨block, member, covers, rfl⟩ := found
        obtain ⟨text, positive, oldText, newText⟩ :=
          (matcher.equalBlocks_matches originalLines lines member).sameLine covers
        have isMapped :
            (getFrameLocMeta path answer.lineno
              (block.mapped (answer.lineno - 1))).mappedLineno =
                block.mapped (answer.lineno - 1) :=
          if_neg (Int.not_lt.mpr positive)
        refine ⟨_, result.trans computed,
          .inr ⟨version, originalLines, lines, text, ?_, original, readable, oldText, ?_⟩⟩
        · rw [split]
          exact List.mem_append_right _ List.mem_cons_self
        · rw [isMapped]
          exact newText
      · exact ⟨-1, result.trans computed, .inl rfl⟩

/-- The mapping follows the equal blocks of any two versions, and the cache maps from
the version that the first query read to the current one. -/
theorem lineMapping_followsVersions (matcher : SequenceMatcher) :
    (∀ oldLines newLines : List Text,
      IsLineMap (matcher.getOpcodes isJunk oldLines newLines) oldLines newLines
        (getRawItemForMapping Time matcher oldLines newLines).bisectMappedLineno) ∧
    ∀ history : History Time, ∀ answer ∈ history.answers matcher,
      MapsFromFirst matcher answer := by
  constructor
  · intro oldLines newLines
    exact bisectMappedLineno_isLineMap matcher oldLines newLines Time
  · intro history answer member
    refine answers_mapFromFirst matcher history (.unread (List.forall_mem_nil _) ?_ ?_) ?_ member
    · exact Dict.get?_empty _
    · exact Dict.get?_empty _
    · intro world inHistory
      exact inHistory

end Cache

/-! ## Where the numbers stay -/

/-- One block for the whole of two sequences. -/
def wholeOpcodes (a b : List Text) : List Opcode :=
  if a = [] ∧ b = [] then
    []
  else
    [⟨if a = b then .equal else .replace, 0, a.length, 0, b.length⟩]

/-- A matcher that only compares the versions as wholes. -/
def wholeMatcher : SequenceMatcher where
  getOpcodes := fun _ a b => wholeOpcodes a b
  partitions := by
    intro _ a b
    unfold wholeOpcodes
    split
    · rename_i bothEmpty
      rw [bothEmpty.1, bothEmpty.2]
      exact ⟨rfl, rfl⟩
    · rename_i notEmpty
      refine ⟨⟨rfl, rfl⟩, ⟨Nat.zero_le _, Nat.zero_le _⟩, ?_, ?_, rfl, rfl⟩
      · rcases a with _ | ⟨first, rest⟩
        · rcases b with _ | ⟨first, rest⟩
          · exact absurd ⟨rfl, rfl⟩ notEmpty
          · exact .inr (Nat.succ_pos _)
        · exact .inl (Nat.succ_pos _)
      · intro isEqual
        have same : a = b := by
          by_contra differ
          rw [if_neg differ] at isEqual
          cases isEqual
        rw [same]

/-- The file `/a.py` with one line of one letter, written at a time. -/
def oneLine (letter : Char) (mtime : Nat) : World Nat where
  files := fun name =>
    if name = "/a.py" then some ⟨2, mtime, some [[letter, '\n']]⟩ else none
  sysPath := []

/-- What the cache maps a line to after a list of events, by the whole matcher. -/
def mappedAfter
    (start : World Nat)
    (events : List (Event Nat))
    (lineno : Int) :
    PyResult Int :=
  let session := events.foldl (Session.next wholeMatcher) ⟨start, SourceChangeDiffCache.empty⟩
  (session.scd.queryMappedLinenos wholeMatcher session.world "/a.py" lineno).1

/-- What the line map of two one-line versions gives. -/
def mappedLine (first second : Char) (lineno : Int) : PyResult Int :=
  (getRawItemForMapping Nat wholeMatcher [[first, '\n']] [[second, '\n']]).bisectMappedLineno
    lineno

/-- The first query maps a line outside the file to itself; and when the file changes
twice and the third version has the size and time of the first, its lines count as
unchanged. -/
theorem not_mapsOutside_not_mapsRestored :
    (mappedAfter (oneLine 'a' 1) [] 2 = .ok 2 ∧ mappedLine 'a' 'a' 2 = .ok (-1)) ∧
    (mappedAfter (oneLine 'a' 1)
        [.query "/a.py" 1, .change (oneLine 'b' 2), .change (oneLine 'c' 1)] 1 = .ok 1 ∧
      mappedLine 'a' 'c' 1 = .ok (-1)) := by
  decide +kernel

end TensorPC.Astex
