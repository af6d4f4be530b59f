import TensorPC.Autossh.TaskTimestamps

namespace TensorPC.Autossh

/-!
# A poll shows the current tasks

Every copy of the client is the task itself or is older than it.  The methods keep
that: whatever they write to a task, they write its timestamp as well before they
return.  Only a launch that raises leaves a new status behind an old timestamp.
-/

namespace TimedScheduler

/-! ## Writes with and without a new timestamp -/

/-- A task is changed, but not its timestamp. -/
structure Rewrites (taskId : String) (before after : TimedScheduler) : Prop where
  others : ∀ other, other ≠ taskId → after.tasks.get? other = before.tasks.get? other
  clock : after.clock = before.clock
  written :
    ∀ timed, after.tasks.get? taskId = some timed →
      ∃ old, before.tasks.get? taskId = some old ∧
        timed.timestamp = old.timestamp ∧ timed.task.id = old.task.id

/-- A task is deleted, or has a timestamp that was read in between. -/
structure Renews (taskId : String) (before after : TimedScheduler) : Prop where
  others : ∀ other, other ≠ taskId → after.tasks.get? other = before.tasks.get? other
  timeNs : after.clock.timeNs = before.clock.timeNs
  reads : before.clock.reads ≤ after.clock.reads
  renewed :
    ∀ timed, after.tasks.get? taskId = some timed →
      timed.task.id = taskId ∧ before.now ≤ timed.timestamp ∧ timed.timestamp < after.now

/-- The tasks are filed under their ids. -/
def Keyed (tasks : Dict String TimedTask) : Prop :=
  ∀ taskId timed, tasks.get? taskId = some timed → timed.task.id = taskId

variable {taskId : String} {before after : TimedScheduler}

theorem now_le (sameClock : after.clock.timeNs = before.clock.timeNs)
    (later : before.clock.reads ≤ after.clock.reads) :
    before.now ≤ after.now := by
  unfold now
  rw [sameClock]
  exact before.clock.increases.monotone later

theorem now_lt_tick (scheduler : TimedScheduler) : scheduler.now < scheduler.tick.now :=
  scheduler.clock.increases (Nat.lt_succ_self _)

namespace Rewrites

theorem refl (taskId : String) (scheduler : TimedScheduler) :
    Rewrites taskId scheduler scheduler :=
  ⟨fun _ _ => rfl, rfl, fun timed found => ⟨timed, found, rfl, rfl⟩⟩

theorem withManager
    (rewrites : Rewrites taskId before after)
    (manager : ResourceManager) :
    Rewrites taskId before { after with resourceManager := manager } :=
  ⟨rewrites.others, rewrites.clock, rewrites.written⟩

theorem setState
    (rewrites : Rewrites taskId before after)
    (change : TaskState → TaskState) :
    Rewrites taskId before (after.setState taskId change) := by
  unfold TimedScheduler.setState
  split
  · rename_i timed found
    refine ⟨fun other isOther => ?_, rewrites.clock, fun written isWritten => ?_⟩
    · rw [Dict.get?_set_ne _ _ isOther]
      exact rewrites.others other isOther
    · rw [Dict.get?_set_self] at isWritten
      cases isWritten
      exact rewrites.written timed found
  · exact rewrites

theorem release (rewrites : Rewrites taskId before after) :
    Rewrites taskId before (after.releaseTaskResources taskId) := by
  unfold releaseTaskResources
  split
  · exact (rewrites.withManager _).setState _
  · exact rewrites

/-- A new timestamp makes up for what was written before. -/
theorem stamp
    (rewrites : Rewrites taskId before after)
    (keyed : Keyed before.tasks) :
    Renews taskId before (after.updateTaskTimestamp taskId) := by
  have sameNow : after.now = before.now := by
    unfold now
    rw [rewrites.clock]
  unfold updateTaskTimestamp
  split
  · rename_i timed found
    refine ⟨fun other isOther => ?_, ?_, ?_, fun written isWritten => ?_⟩
    · change (after.tasks.set taskId _).get? other = _
      rw [Dict.get?_set_ne _ _ isOther]
      exact rewrites.others other isOther
    · change after.clock.timeNs = before.clock.timeNs
      rw [rewrites.clock]
    · change _ ≤ after.clock.reads + 1
      rw [rewrites.clock]
      exact Nat.le_succ _
    · change (after.tasks.set taskId _).get? taskId = _ at isWritten
      rw [Dict.get?_set_self] at isWritten
      cases isWritten
      obtain ⟨old, isOld, -, sameId⟩ := rewrites.written timed found
      refine ⟨sameId.trans (keyed taskId old isOld), sameNow.ge, ?_⟩
      exact now_lt_tick after
  · rename_i missing
    refine ⟨rewrites.others, congrArg Clock.timeNs rewrites.clock, ?_, ?_⟩
    · rw [rewrites.clock]
    · intro timed found
      rw [missing] at found
      cases found

end Rewrites

/-- Later writes to the same task keep the new timestamp. -/
theorem Renews.rewrite
    {last : TimedScheduler}
    (renews : Renews taskId before after)
    (rewrites : Rewrites taskId after last) :
    Renews taskId before last := by
  have sameNow : last.now = after.now := by
    unfold now
    rw [rewrites.clock]
  refine ⟨fun other isOther => ?_, ?_, ?_, fun timed found => ?_⟩
  · exact (rewrites.others other isOther).trans (renews.others other isOther)
  · rw [rewrites.clock]
    exact renews.timeNs
  · rw [rewrites.clock]
    exact renews.reads
  · obtain ⟨old, isOld, sameStamp, sameId⟩ := rewrites.written timed found
    obtain ⟨isKey, read, bounded⟩ := renews.renewed old isOld
    rw [sameStamp, sameNow, sameId]
    exact ⟨isKey, read, bounded⟩

/-! ## What the copies have to do with the tasks -/

/-- The client has no copy of this task, or one that is older than it. -/
def Outdated (copies : TaskCopies) (scheduler : TimedScheduler) (taskId : String) : Prop :=
  ∀ seen current,
    copies.get? taskId = some seen →
    scheduler.tasks.get? taskId = some current →
    seen.timestamp < current.timestamp

/-- Every copy is the task or older than it, and no timestamp is in the future; some
copies are known to be outdated. -/
structure Tracks
    (copies : TaskCopies)
    (outdated : String → Prop)
    (scheduler : TimedScheduler) :
    Prop where
  keyed : Keyed scheduler.tasks
  copiesKeyed : Keyed copies
  bounded :
    ∀ taskId timed, scheduler.tasks.get? taskId = some timed → timed.timestamp < scheduler.now
  copiesBounded :
    ∀ taskId seen, copies.get? taskId = some seen → seen.timestamp < scheduler.now
  fresh :
    ∀ taskId seen current,
      copies.get? taskId = some seen →
      scheduler.tasks.get? taskId = some current →
      current = seen ∨ seen.timestamp < current.timestamp
  outdated : ∀ taskId, outdated taskId → Outdated copies scheduler taskId

namespace Tracks

variable {copies : TaskCopies} {outdated weaker : String → Prop} {scheduler : TimedScheduler}

theorem mono
    (tracks : Tracks copies outdated scheduler)
    (fewer : ∀ taskId, weaker taskId → outdated taskId) :
    Tracks copies weaker scheduler :=
  ⟨tracks.keyed, tracks.copiesKeyed, tracks.bounded, tracks.copiesBounded, tracks.fresh,
    fun taskId isWeaker => tracks.outdated taskId (fewer taskId isWeaker)⟩

theorem withManager
    (tracks : Tracks copies outdated scheduler)
    (manager : ResourceManager) :
    Tracks copies outdated { scheduler with resourceManager := manager } :=
  ⟨tracks.keyed, tracks.copiesKeyed, tracks.bounded, tracks.copiesBounded, tracks.fresh,
    tracks.outdated⟩

/-- After a new timestamp, the copy of the task is outdated. -/
theorem renew
    (tracks : Tracks copies outdated before)
    (renews : Renews taskId before after) :
    Tracks copies (fun other => outdated other ∨ other = taskId) after := by
  have later := now_le renews.timeNs renews.reads
  have here : Outdated copies after taskId := by
    intro seen current isSeen isCurrent
    have read := (renews.renewed current isCurrent).2.1
    exact lt_of_lt_of_le (tracks.copiesBounded taskId seen isSeen) read
  constructor
  · intro other timed found
    by_cases same : other = taskId
    · subst same
      exact (renews.renewed timed found).1
    · rw [renews.others other same] at found
      exact tracks.keyed other timed found
  · exact tracks.copiesKeyed
  · intro other timed found
    by_cases same : other = taskId
    · subst same
      exact (renews.renewed timed found).2.2
    · rw [renews.others other same] at found
      exact lt_of_lt_of_le (tracks.bounded other timed found) later
  · intro other seen isSeen
    exact lt_of_lt_of_le (tracks.copiesBounded other seen isSeen) later
  · intro other seen current isSeen isCurrent
    by_cases same : other = taskId
    · subst same
      exact .inr (here seen current isSeen isCurrent)
    · rw [renews.others other same] at isCurrent
      exact tracks.fresh other seen current isSeen isCurrent
  · rintro other (isOutdated | same) seen current isSeen isCurrent
    · by_cases same : other = taskId
      · subst same
        exact here seen current isSeen isCurrent
      · rw [renews.others other same] at isCurrent
        exact tracks.outdated other isOutdated seen current isSeen isCurrent
    · subst same
      exact here seen current isSeen isCurrent

/-- The copy of a task may already be outdated when it is changed. -/
theorem rewrite
    (tracks : Tracks copies outdated before)
    (rewrites : Rewrites taskId before after)
    (isOutdated : outdated taskId) :
    Tracks copies outdated after := by
  have sameNow : after.now = before.now := by
    unfold now
    rw [rewrites.clock]
  have keeps (other : String) (timed : TimedTask)
      (found : after.tasks.get? other = some timed) :
      ∃ old, before.tasks.get? other = some old ∧
        timed.timestamp = old.timestamp ∧ timed.task.id = old.task.id := by
    by_cases same : other = taskId
    · subst same
      exact rewrites.written timed found
    · rw [rewrites.others other same] at found
      exact ⟨timed, found, rfl, rfl⟩
  have stillOutdated (other : String) (was : outdated other) :
      Outdated copies after other := by
    intro seen current isSeen isCurrent
    obtain ⟨old, isOld, sameStamp, -⟩ := keeps other current isCurrent
    rw [sameStamp]
    exact tracks.outdated other was seen old isSeen isOld
  constructor
  · intro other timed found
    obtain ⟨old, isOld, -, sameId⟩ := keeps other timed found
    exact sameId.trans (tracks.keyed other old isOld)
  · exact tracks.copiesKeyed
  · intro other timed found
    obtain ⟨old, isOld, sameStamp, -⟩ := keeps other timed found
    rw [sameStamp, sameNow]
    exact tracks.bounded other old isOld
  · rw [sameNow]
    exact tracks.copiesBounded
  · intro other seen current isSeen isCurrent
    by_cases same : other = taskId
    · subst same
      exact .inr (stillOutdated _ isOutdated seen current isSeen isCurrent)
    · rw [rewrites.others other same] at isCurrent
      exact tracks.fresh other seen current isSeen isCurrent
  · exact stillOutdated

/-- The usual case: something is written, then the timestamp. -/
theorem stamp
    (tracks : Tracks copies outdated before)
    (rewrites : Rewrites taskId before after) :
    Tracks copies outdated (after.updateTaskTimestamp taskId) :=
  (tracks.renew (rewrites.stamp tracks.keyed)).mono fun _ => .inl

/-! ## The methods -/

/-- `run_task`, after something was written to a pending task. -/
theorem runTask
    (tracks : Tracks copies outdated before)
    (rewrites : Rewrites taskId before after)
    {launchRaises : String → Bool}
    (raisesOutdated : launchRaises taskId = true → outdated taskId)
    (isPending : after.statusOf taskId = some .pending) :
    Tracks copies outdated (after.runTask launchRaises taskId).1 := by
  unfold TimedScheduler.runTask
  rw [isPending]
  dsimp only
  rw [if_pos (by simp [allRunningStatus])]
  split
  · rename_i raised
    dsimp only
    exact tracks.rewrite (rewrites.setState _) (raisesOutdated raised)
  · exact tracks.stamp (rewrites.setState _)

end Tracks

theorem others_runTask
    {launchRaises : String → Bool}
    (scheduler : TimedScheduler)
    {other : String}
    (isOther : other ≠ taskId) :
    (scheduler.runTask launchRaises taskId).1.tasks.get? other = scheduler.tasks.get? other := by
  have written := (Rewrites.refl taskId scheduler).setState ({ · with status := .booting })
  have stamped : (updateTaskTimestamp taskId
      (scheduler.setState taskId ({ · with status := .booting }))).tasks.get? other =
        scheduler.tasks.get? other := by
    unfold updateTaskTimestamp
    split
    · change (Dict.set _ taskId _).get? other = _
      rw [Dict.get?_set_ne _ _ isOther]
      exact written.others other isOther
    · exact written.others other isOther
  unfold TimedScheduler.runTask
  split
  · rfl
  · split
    · dsimp only
      split
      · exact written.others other isOther
      · exact stamped
    · rfl

theorem statusOf_congr
    {first second : TimedScheduler}
    (same : first.tasks.get? taskId = second.tasks.get? taskId) :
    first.statusOf taskId = second.statusOf taskId := by
  unfold statusOf
  rw [same]

theorem statusOf_setState
    (scheduler : TimedScheduler)
    (resources : List Resource) :
    (scheduler.setState taskId ({ · with resources := resources })).statusOf taskId =
      scheduler.statusOf taskId := by
  unfold setState statusOf
  split
  · rename_i timed found
    simp [found]
  · rfl

namespace Tracks

variable {copies : TaskCopies} {outdated : String → Prop} {scheduler : TimedScheduler}

/-- Every task that the loop starts is stamped, unless its launch raises. -/
theorem scheduleTasks
    (tracks : Tracks copies outdated scheduler)
    (order : SetOrder Resource)
    {launchRaises : String → Bool}
    (raisesOutdated : ∀ taskId, launchRaises taskId = true → outdated taskId)
    {pending : List Task}
    (distinct : (pending.map Task.id).Nodup)
    (arePending : ∀ task ∈ pending, scheduler.statusOf task.id = some .pending) :
    Tracks copies outdated (scheduler.scheduleTasks order launchRaises pending) := by
  induction pending generalizing scheduler with
  | nil =>
      exact tracks
  | cons task rest inductionHypothesis =>
      obtain ⟨notLater, distinctRest⟩ := List.nodup_cons.mp distinct
      obtain ⟨isPending, restPending⟩ := List.forall_mem_cons.mp arePending
      have starts (resources : List Resource) (manager : ResourceManager) :
          let assigned := { scheduler with resourceManager := manager }.setState task.id
            ({ · with resources := resources })
          let launched := assigned.runTask launchRaises task.id
          Tracks copies outdated
            (if launched.2 then
              launched.1
            else
              launched.1.scheduleTasks order launchRaises rest) := by
        intro assigned launched
        have assigns : Rewrites task.id scheduler assigned :=
          ((Rewrites.refl task.id scheduler).withManager manager).setState _
        have status : assigned.statusOf task.id = some .pending :=
          (statusOf_setState _ resources).trans isPending
        have launches : Tracks copies outdated launched.1 :=
          tracks.runTask assigns (raisesOutdated task.id) status
        split
        · exact launches
        · apply inductionHypothesis launches distinctRest
          intro other isRest
          have apart : other.id ≠ task.id :=
            fun same => notLater (same ▸ List.mem_map_of_mem isRest)
          rw [statusOf_congr (others_runTask assigned apart)]
          rw [statusOf_congr (assigns.others other.id apart)]
          exact restPending other isRest
      unfold TimedScheduler.scheduleTasks
      dsimp only
      split
      · exact tracks.withManager _
      · split
        · split
          · exact inductionHypothesis (tracks.withManager _) distinctRest restPending
          · exact starts _ _
        · exact starts _ _

theorem doSchedule
    (tracks : Tracks copies outdated scheduler)
    (order : SetOrder Resource)
    {launchRaises : String → Bool}
    (raisesOutdated : ∀ taskId, launchRaises taskId = true → outdated taskId) :
    Tracks copies outdated (scheduler.doSchedule order launchRaises) := by
  have sorted := List.perm_insertionSort
    (fun first second : Task => first.createTimestamp ≤ second.createTimestamp)
    ((scheduler.tasks.values.map TimedTask.task).filter (·.state.status = .pending))
  apply tracks.scheduleTasks order raisesOutdated
  · apply (sorted.map Task.id).nodup_iff.mpr
    have ids := Dict.map_values_eq_keys tracks.keyed
    have distinct : ((scheduler.tasks.values.map TimedTask.task).map Task.id).Nodup := by
      rw [List.map_map]
      exact ids ▸ scheduler.tasks.nodup_keys
    exact distinct.sublist (List.filter_sublist.map _)
  · intro task isPending
    obtain ⟨isTask, status⟩ := List.mem_filter.mp (sorted.mem_iff.mp isPending)
    obtain ⟨timed, isValue, rfl⟩ := List.mem_map.mp isTask
    obtain ⟨taskId, found⟩ := Dict.mem_values_iff.mp isValue
    rw [tracks.keyed taskId timed found]
    unfold statusOf
    rw [found]
    simpa using status

theorem checkTask
    (tracks : Tracks copies outdated scheduler)
    (pidExists : Int → Bool)
    (taskId : String) :
    Tracks copies outdated (scheduler.checkTask pidExists taskId) := by
  have writes (change : TaskState → TaskState) :=
    (Rewrites.refl taskId scheduler).setState change
  have finishes (change : TaskState → TaskState) :
      Tracks copies outdated
        (((scheduler.setState taskId change).updateTaskTimestamp taskId).releaseTaskResources
          taskId) :=
    (tracks.renew
      (((writes change).stamp tracks.keyed).rewrite (Rewrites.refl _ _).release)).mono
        fun _ => .inl
  unfold TimedScheduler.checkTask
  split
  · exact tracks
  · split
    · exact tracks
    · split
      · exact tracks.stamp (writes _).release
      · exact finishes _
      · exact finishes _
      · exact tracks

theorem foldl_checkTask
    (tracks : Tracks copies outdated scheduler)
    (pidExists : Int → Bool)
    (taskIds : List String) :
    Tracks copies outdated (taskIds.foldl (TimedScheduler.checkTask pidExists) scheduler) := by
  induction taskIds generalizing scheduler with
  | nil =>
      exact tracks
  | cons taskId rest inductionHypothesis =>
      exact inductionHypothesis (tracks.checkTask pidExists taskId)

theorem cancelPending
    (tracks : Tracks copies outdated scheduler)
    (sentToTmux : List TaskStatus)
    (taskId : String) :
    Tracks copies outdated (scheduler.cancelPending sentToTmux taskId) := by
  unfold TimedScheduler.cancelPending
  split
  · exact tracks
  · split
    · exact tracks
    · split
      · exact tracks.stamp ((Rewrites.refl _ _).setState _)
      · exact tracks

/-- A task that replaces another one, or is new, has a new timestamp. -/
theorem submitTask
    (tracks : Tracks copies outdated scheduler)
    (task : Task)
    (uuid : String)
    (order : SetOrder Resource)
    {launchRaises : String → Bool}
    (raisesOutdated :
      ∀ taskId, launchRaises taskId = true →
        taskId = (Scheduler.submittedTask task uuid scheduler.now).id ∨ outdated taskId) :
    Tracks copies outdated (scheduler.submitTask task uuid order launchRaises) := by
  unfold TimedScheduler.submitTask
  dsimp only
  split
  · exact tracks
  · have renews : Renews (Scheduler.submittedTask task uuid scheduler.now).id scheduler
        { scheduler with
          tasks :=
            scheduler.tasks.set (Scheduler.submittedTask task uuid scheduler.now).id
              { task := Scheduler.submittedTask task uuid scheduler.now
                timestamp := scheduler.now } }.tick := by
      refine ⟨fun other isOther => Dict.get?_set_ne _ _ isOther, rfl, Nat.le_succ _, ?_⟩
      intro timed found
      change (scheduler.tasks.set _ _).get? _ = _ at found
      rw [Dict.get?_set_self] at found
      cases found
      exact ⟨rfl, le_rfl, now_lt_tick scheduler⟩
    exact ((tracks.renew renews).doSchedule order fun taskId raises =>
      (raisesOutdated taskId raises).symm).mono fun _ => .inl

theorem setTaskException
    (tracks : Tracks copies outdated scheduler)
    (taskId exceptionStr : String)
    (order : SetOrder Resource)
    {launchRaises : String → Bool}
    (raisesOutdated : ∀ taskId, launchRaises taskId = true → outdated taskId) :
    Tracks copies outdated
      (scheduler.setTaskException taskId exceptionStr order launchRaises) := by
  unfold TimedScheduler.setTaskException
  split
  · have fails := ((Rewrites.refl taskId scheduler).setState
      ({ · with status := .failed, exceptionStr := exceptionStr })).stamp tracks.keyed
    exact ((tracks.renew (fails.rewrite (Rewrites.refl _ _).release)).mono
      fun _ => .inl).doSchedule order raisesOutdated
  · exact tracks

/-- `run_task` as a call of its own. -/
theorem runTaskCall
    (tracks : Tracks copies outdated scheduler)
    {launchRaises : String → Bool}
    (taskId : String)
    (raisesOutdated : launchRaises taskId = true → outdated taskId) :
    Tracks copies outdated (scheduler.runTask launchRaises taskId).1 := by
  have writes := (Rewrites.refl taskId scheduler).setState ({ · with status := .booting })
  unfold TimedScheduler.runTask
  split
  · exact tracks
  · split
    · dsimp only
      split
      · rename_i raised
        dsimp only
        exact tracks.rewrite writes (raisesOutdated raised)
      · exact tracks.stamp writes
    · exact tracks

theorem deleteTask
    (tracks : Tracks copies outdated scheduler)
    (taskId : String) :
    Tracks copies outdated (scheduler.deleteTask taskId) := by
  unfold TimedScheduler.deleteTask
  split
  · exact tracks
  · have renews : Renews taskId scheduler
        { scheduler with tasks := scheduler.tasks.erase taskId } := by
      refine ⟨fun other isOther => ?_, rfl, le_rfl, fun timed found => ?_⟩
      · change (scheduler.tasks.erase taskId).get? other = _
        rw [Dict.get?_erase, if_neg isOther]
      · change (scheduler.tasks.erase taskId).get? taskId = _ at found
        rw [Dict.get?_erase_self] at found
        cases found
    exact (tracks.renew renews).mono fun _ => .inl

end Tracks

end TimedScheduler

/-! ## A poll -/

namespace TaskCopies

open TimedScheduler

/-- What a poll is to leave and to return. -/
structure PollRight
    (copies : TaskCopies)
    (scheduler : TimedScheduler)
    (polled : TaskCopies × List TimedTask × List String) :
    Prop where
  converges : ∀ taskId, polled.1.get? taskId = scheduler.tasks.get? taskId
  updated :
    ∀ timed, timed ∈ polled.2.1 ↔
      ∃ taskId, scheduler.tasks.get? taskId = some timed ∧ copies.get? taskId ≠ some timed
  deleted :
    ∀ taskId, taskId ∈ polled.2.2 ↔
      (copies.get? taskId).isSome ∧ scheduler.tasks.get? taskId = none

variable {copies : TaskCopies} {scheduler : TimedScheduler}

/-- The ids that the client asks for are those of its copies. -/
theorem queried_ids (keyed : Keyed copies) :
    (copies.values.map fun timed => (timed.timestamp, timed.task.id)).map Prod.snd =
      copies.keys := by
  rw [List.map_map]
  exact Dict.map_values_eq_keys keyed

/-- The answer lists the tasks that are not what the client has. -/
theorem mem_updated_iff
    {outdated : String → Prop}
    (tracks : Tracks copies outdated scheduler)
    (timed : TimedTask) :
    timed ∈ (copies.updateTasks scheduler).2.1 ↔
      ∃ taskId, scheduler.tasks.get? taskId = some timed ∧ copies.get? taskId ≠ some timed := by
  have ids := queried_ids tracks.copiesKeyed
  unfold updateTasks queryTaskUpdates
  dsimp only
  rw [ids, List.mem_append, List.mem_filterMap, List.mem_filterMap]
  constructor
  · rintro (⟨query, asked, found⟩ | ⟨⟨taskId, current⟩, isTask, found⟩)
    · obtain ⟨seen, isSeen, rfl⟩ := List.mem_map.mp asked
      obtain ⟨taskId, isCopy⟩ := Dict.mem_values_iff.mp isSeen
      obtain ⟨isTask, newer⟩ := Option.filter_eq_some_iff.mp found
      rw [tracks.copiesKeyed taskId seen isCopy] at isTask
      refine ⟨taskId, isTask, ?_⟩
      rw [isCopy]
      rintro same
      cases same
      simp at newer
    · dsimp only at found
      split at found
      · cases found
      · rename_i unknown
        cases found
        refine ⟨taskId, (Dict.mem_entries_iff _).mp isTask, fun isCopy => unknown ?_⟩
        rw [Dict.mem_keys_iff, isCopy]
        rfl
  · rintro ⟨taskId, isTask, differs⟩
    cases isCopy : copies.get? taskId with
    | none =>
        refine .inr ⟨(taskId, timed), (Dict.mem_entries_iff _).mpr isTask, if_neg ?_⟩
        rw [Dict.mem_keys_iff, isCopy]
        simp
    | some seen =>
        have newer := (tracks.fresh taskId seen timed isCopy isTask).resolve_left
          fun same => differs (isCopy.trans (congrArg some same.symm))
        refine .inl ⟨(seen.timestamp, seen.task.id), ?_, ?_⟩
        · exact List.mem_map_of_mem (Dict.mem_values_iff.mpr ⟨taskId, isCopy⟩)
        · rw [tracks.copiesKeyed taskId seen isCopy, isTask]
          simpa [Option.filter] using newer

theorem mem_deleted_iff
    (keyed : Keyed copies)
    (taskId : String) :
    taskId ∈ (copies.updateTasks scheduler).2.2 ↔
      (copies.get? taskId).isSome ∧ scheduler.tasks.get? taskId = none := by
  have ids := queried_ids keyed
  unfold updateTasks queryTaskUpdates
  dsimp only
  rw [ids, List.mem_filter, Dict.mem_keys_iff]
  simp [Dict.mem_keys_iff]

/-- Filing tasks under their ids, in any order. -/
theorem get?_foldl_set
    {tasks : Dict String TimedTask}
    {updated : List TimedTask}
    (areTasks : ∀ timed ∈ updated, tasks.get? timed.task.id = some timed)
    (copies : TaskCopies)
    (taskId : String) :
    (updated.foldl (fun copies timed => copies.set timed.task.id timed) copies).get? taskId =
      if ∃ timed ∈ updated, timed.task.id = taskId then
        tasks.get? taskId
      else
        copies.get? taskId := by
  induction updated generalizing copies with
  | nil =>
      simp
  | cons first rest inductionHypothesis =>
      obtain ⟨isFirst, areRest⟩ := List.forall_mem_cons.mp areTasks
      rw [List.foldl_cons, inductionHypothesis areRest, Dict.get?_set]
      by_cases later : ∃ timed ∈ rest, timed.task.id = taskId
      · obtain ⟨timed, isRest, same⟩ := later
        rw [if_pos ⟨timed, isRest, same⟩,
          if_pos ⟨timed, List.mem_cons_of_mem _ isRest, same⟩]
      · rw [if_neg later]
        by_cases here : taskId = first.task.id
        · rw [if_pos here, if_pos ⟨first, List.mem_cons_self, here.symm⟩, here, isFirst]
        · rw [if_neg here, if_neg]
          rintro ⟨timed, isMember, same⟩
          rcases List.mem_cons.mp isMember with rfl | isRest
          · exact here same.symm
          · exact later ⟨timed, isRest, same⟩

theorem pollRight
    {outdated : String → Prop}
    (tracks : Tracks copies outdated scheduler) :
    PollRight copies scheduler (copies.updateTasks scheduler) := by
  have updated := mem_updated_iff tracks
  have deleted := @mem_deleted_iff copies scheduler tracks.copiesKeyed
  refine ⟨fun taskId => ?_, updated, deleted⟩
  have areTasks :
      ∀ timed ∈ (copies.updateTasks scheduler).2.1,
        scheduler.tasks.get? timed.task.id = some timed := by
    intro timed isUpdated
    obtain ⟨taskId, isTask, -⟩ := (updated timed).mp isUpdated
    rwa [tracks.keyed taskId timed isTask]
  change (Dict.eraseAll _ (copies.updateTasks scheduler).2.2).get? taskId = _
  rw [Dict.get?_eraseAll]
  change (if _ then _ else
    (((copies.updateTasks scheduler).2.1).foldl _ copies).get? taskId) = _
  rw [get?_foldl_set areTasks]
  cases isTask : scheduler.tasks.get? taskId with
  | none =>
      cases isCopy : copies.get? taskId with
      | none => simp
      | some seen => rw [if_pos ((deleted taskId).mpr ⟨by rw [isCopy]; rfl, isTask⟩)]
  | some current =>
      have kept : taskId ∉ (copies.updateTasks scheduler).2.2 := by
        intro isDeleted
        have gone := ((deleted taskId).mp isDeleted).2
        rw [isTask] at gone
        cases gone
      rw [if_neg kept]
      split
      · rfl
      · rename_i same
        by_contra differs
        exact same ⟨current, (updated current).mpr ⟨taskId, isTask, differs⟩,
          tracks.keyed taskId current isTask⟩

end TaskCopies

/-! ## Runs -/

namespace PolledScheduler

open TimedScheduler

/-- A launch that raises is one of a task whose copy is outdated anyway, or of the
task that the same call submits. -/
def RaisesUnseen (system : PolledScheduler) : PolledEvent → Prop
  | .submitTask task uuid _ launchRaises =>
      ∀ taskId, launchRaises taskId = true →
        taskId = (Scheduler.submittedTask task uuid system.scheduler.now).id ∨
          Outdated system.copies system.scheduler taskId
  | .runTask taskId launchRaises =>
      launchRaises taskId = true → Outdated system.copies system.scheduler taskId
  | .setTaskException _ _ _ launchRaises =>
      ∀ taskId, launchRaises taskId = true → Outdated system.copies system.scheduler taskId
  | .periodCheck _ _ launchRaises =>
      ∀ taskId, launchRaises taskId = true → Outdated system.copies system.scheduler taskId
  | _ => True

/-- Nothing is known to be outdated. -/
def Followed (system : PolledScheduler) : Prop :=
  Tracks system.copies (fun _ => False) system.scheduler

theorem Followed.withOutdated
    {system : PolledScheduler}
    (followed : system.Followed) :
    Tracks system.copies (Outdated system.copies system.scheduler) system.scheduler :=
  ⟨followed.keyed, followed.copiesKeyed, followed.bounded, followed.copiesBounded,
    followed.fresh, fun _ isOutdated => isOutdated⟩

/-- Copies that agree with the tasks are neither old nor outdated. -/
theorem Followed.of_same
    {scheduler : TimedScheduler}
    {copies : TaskCopies}
    (keyed : Keyed scheduler.tasks)
    (bounded :
      ∀ taskId timed, scheduler.tasks.get? taskId = some timed →
        timed.timestamp < scheduler.now)
    (same : ∀ taskId, copies.get? taskId = scheduler.tasks.get? taskId) :
    Followed ⟨scheduler, copies⟩ := by
  refine ⟨keyed, ?_, bounded, ?_, ?_, fun _ => False.elim⟩
  · intro taskId timed found
    exact keyed taskId timed ((same taskId).symm.trans found)
  · intro taskId seen isSeen
    exact bounded taskId seen ((same taskId).symm.trans isSeen)
  · intro taskId seen current isSeen isCurrent
    left
    rw [same taskId, isCurrent] at isSeen
    exact Option.some.inj isSeen

theorem Followed.step
    {system after : PolledScheduler}
    {event : PolledEvent}
    (followed : system.Followed)
    (fits : system.RaisesUnseen event)
    (stepped : system.step event = some after) :
    after.Followed := by
  have known := followed.withOutdated
  have forget {scheduler : TimedScheduler}
      (tracks : Tracks system.copies (Outdated system.copies system.scheduler) scheduler) :
      Followed { system with scheduler := scheduler } :=
    tracks.mono fun _ => False.elim
  cases event with
  | submitTask task uuid order launchRaises =>
      cases stepped
      exact forget (known.submitTask task uuid order fits)
  | runTask taskId launchRaises =>
      cases stepped
      exact forget (known.runTaskCall taskId fits)
  | initTask taskId pid =>
      cases stepped
      exact forget (known.stamp ((Rewrites.refl _ _).setState _))
  | updateTask taskId progress output =>
      cases stepped
      exact forget (known.stamp ((Rewrites.refl _ _).setState _))
  | setTaskStatus taskId status =>
      cases stepped
      apply forget
      unfold TimedScheduler.setTaskStatus
      split
      · exact known
      · dsimp only
        split
        · exact known
        · exact known.stamp ((Rewrites.refl _ _).setState _)
  | setTaskFinished taskId =>
      cases stepped
      exact forget (known.stamp ((Rewrites.refl _ _).setState _))
  | setTaskException taskId exceptionStr order launchRaises =>
      cases stepped
      exact forget (known.setTaskException taskId exceptionStr order fits)
  | cancelTask taskId =>
      cases stepped
      exact forget (known.cancelPending _ taskId)
  | killTask taskId =>
      cases stepped
      exact forget (known.cancelPending _ taskId)
  | deleteTask taskId =>
      cases stepped
      exact forget (known.deleteTask taskId)
  | periodCheck pidExists order launchRaises =>
      cases stepped
      exact forget ((known.foldl_checkTask pidExists _).doSchedule order fits)
  | connect =>
      cases stepped
      exact .of_same followed.keyed followed.bounded fun _ => rfl
  | poll =>
      cases stepped
      exact .of_same followed.keyed followed.bounded (TaskCopies.pollRight followed).converges

/-- A poll converges, and reports exactly what has changed, in every run in which no
launch raises for a task that the client has seen as it is. -/
theorem schedulerRun_pollRight
    {numCpu numGpu : Nat}
    {clock : Clock}
    {events : List PolledEvent}
    {system : PolledScheduler}
    (run : Transition.Run step RaisesUnseen (init numCpu numGpu clock) events system) :
    system.copies.PollRight system.scheduler
      (system.copies.updateTasks system.scheduler) := by
  have followed : system.Followed := by
    apply run.invariant
    · exact .of_same (fun _ _ found => by cases found) (fun _ _ found => by cases found)
        fun _ => rfl
    · exact fun _ _ _ before permitted stepped => before.step permitted stepped
  exact TaskCopies.pollRight followed

/-- A clock that gives the number of the reading. -/
def countingClock : Clock where
  timeNs := Nat.cast
  increases := Nat.strictMono_cast
  reads := 0

/-- A shell command with this id. -/
def commandTask (taskId : String) : Task where
  type := .command
  command := "true"
  params := none
  id := taskId
  createTimestamp := -1
  numGpuUsed := 0
  state := .fresh

theorem schedulerRun_pollRight_submitted :
    let system := (init 1 0 countingClock).mapScheduler
      (·.submitTask (commandTask "train") "" .asStored fun _ => false)
    system.copies.PollRight system.scheduler
      (system.copies.updateTasks system.scheduler) := by
  have fits : (init 1 0 countingClock).RaisesUnseen
      (.submitTask (commandTask "train") "" .asStored fun _ => false) := by
    intro taskId raises
    cases raises
  exact schedulerRun_pollRight (@Transition.Run.next _ _ _ _ _ [] _ _ _ .start fits rfl)

/-- The second task waits for the only slot, the client polls, and the launch of the
task raises when the slot is free again. -/
def stalledEvents : List PolledEvent :=
  [ .submitTask (commandTask "train") "" .asStored fun _ => false,
    .submitTask (commandTask "eval.1") "" .asStored fun _ => false,
    .poll,
    .initTask "train" 7,
    .periodCheck (fun _ => false) .asStored fun taskId => taskId == "eval.1" ]

/-- After the launch that raises, the client goes on showing a pending task. -/
theorem not_pollRight_stalled :
    ∃ system,
      Transition.Run step (fun _ _ => True) (init 1 0 countingClock) stalledEvents system ∧
        ¬ system.copies.PollRight system.scheduler
          (system.copies.updateTasks system.scheduler) := by
  have computed :
      (Transition.execute step (fun _ _ => True) (init 1 0 countingClock) stalledEvents).map
          (fun system =>
            (((system.copies.updateTasks system.scheduler).1.get? "eval.1").map
                fun timed => timed.task.state.status,
              system.scheduler.statusOf "eval.1")) =
        some (some .pending, some .booting) := by
    decide +kernel
  obtain ⟨system, reached, statuses⟩ := Option.map_eq_some_iff.mp computed
  refine ⟨system, Transition.Run.of_execute reached, fun right => ?_⟩
  have same := congrArg (Option.map fun timed => timed.task.state.status)
    (right.converges "eval.1")
  obtain ⟨shown, actual⟩ := Prod.mk.inj statuses
  rw [shown] at same
  rw [statusOf, ← same] at actual
  cases actual

end PolledScheduler

end TensorPC.Autossh
