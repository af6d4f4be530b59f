import TensorPC.Events.Subscription

namespace TensorPC.Events

/-!
# Provider tasks and subscribed events

The invariant couples the two subscription tables, the two pending sets and the
task table.  Handlers keep it in any order; an iteration of the executor keeps it
as long as every event of `_new_events` still has a subscriber, and the handling
of failed messages as long as their events have one.
-/

variable {Client Data : Type}

/-! ## The statement -/

/-- What the executor promises at its wait. -/
structure ProvidersMatch (server : EventServer Client Data) : Prop where
  /-- Up to pending changes, the events with a provider task are the subscribed ones. -/
  providers :
    ∀ key,
      server.phase = .waiting →
      key ∉ server.newEvents →
      key ∉ server.deleteEvents →
      (key ∈ server.taskToEv.values ↔ key ∈ server.eventToClients.keys)
  /-- No lookup of the executor has failed. -/
  running : ∀ error, server.phase ≠ .stopped error

/-- The events the executor is about to look up have subscribers. -/
def KeysPresent
    (server : EventServer Client Data) :
    ServerEvent Client Data → Prop
  | .iterate => ∀ key ∈ server.newEvents, key ∈ server.eventToClients.keys
  | .finishIteration outcomes =>
      match server.phase with
      | .sending _ _ sendingTasks =>
          firstRaised outcomes = none →
            ∀ key ∈ failedEvents sendingTasks outcomes,
              key ∈ server.eventToClients.keys
      | _ => True
  | _ => True

/-! ## Scheduling -/

/-- What the scheduling loops keep: the tables agree and hold the given events. -/
structure SchedulingInv
    (scheduling : Scheduling)
    (base : Nat)
    (Keys : EventKey → Prop)
    (Kept : Nat → Prop) :
    Prop where
  agree :
    ∀ key task,
      scheduling.newTasks.get? key = some task ↔
        scheduling.newTaskToEv.get? task = some key
  fresh : ∀ task ∈ scheduling.newTaskToEv.keys, task < scheduling.nextTask
  base_le : base ≤ scheduling.nextTask
  keys : ∀ key, key ∈ scheduling.newTasks.keys ↔ Keys key
  origin : ∀ task ∈ scheduling.newTaskToEv.keys, base ≤ task ∨ Kept task

namespace SchedulingInv

variable {scheduling : Scheduling} {base : Nat} {Keys : EventKey → Prop} {Kept : Nat → Prop}

/-- Keeping a task for an event that has none yet. -/
theorem keep
    (inv : SchedulingInv scheduling base Keys Kept)
    {key : EventKey}
    {task : Nat}
    (newKey : ¬ Keys key)
    (newTask : task ∉ scheduling.newTaskToEv.keys)
    (old : task < scheduling.nextTask)
    (allowed : base ≤ task ∨ Kept task) :
    SchedulingInv (scheduling.keep key task) base (fun query => query = key ∨ Keys query)
      Kept where
  agree := by
    intro query other
    have noKey : scheduling.newTasks.get? key = none := by
      have absent := mt (inv.keys key).mp newKey
      simpa [Dict.mem_keys_iff] using absent
    have noTask : scheduling.newTaskToEv.get? task = none := by
      simpa [Dict.mem_keys_iff] using newTask
    have before := inv.agree query other
    simp only [Scheduling.keep, Dict.get?_set]
    by_cases sameKey : query = key
    · subst sameKey
      by_cases sameTask : other = task
      · simp [sameTask]
      · rw [noKey] at before
        simp [sameTask, ← before, Ne.symm sameTask]
    · by_cases sameTask : other = task
      · subst sameTask
        rw [noTask] at before
        simp [sameKey, before, Ne.symm sameKey]
      · simp [sameKey, sameTask, before]
  fresh := by
    intro other member
    rcases Dict.mem_keys_set.mp member with rfl | earlier
    · exact old
    · exact inv.fresh other earlier
  base_le := inv.base_le
  keys := by
    intro query
    exact Dict.mem_keys_set.trans (or_congr_right (inv.keys query))
  origin := by
    intro other member
    rcases Dict.mem_keys_set.mp member with rfl | earlier
    · exact allowed
    · exact inv.origin other earlier

theorem create
    (inv : SchedulingInv scheduling base Keys Kept)
    {key : EventKey}
    (newKey : ¬ Keys key) :
    SchedulingInv (scheduling.create key) base (fun query => query = key ∨ Keys query)
      Kept := by
  have widened :
      SchedulingInv { scheduling with nextTask := scheduling.nextTask + 1 } base Keys
        Kept :=
    { agree := inv.agree
      fresh := fun task member => Nat.lt_succ_of_lt (inv.fresh task member)
      base_le := Nat.le_succ_of_le inv.base_le
      keys := inv.keys
      origin := inv.origin }
  exact widened.keep newKey
    (fun member => Nat.lt_irrefl _ (inv.fresh _ member))
    (Nat.lt_succ_self _) (.inl inv.base_le)

theorem congr
    {others : EventKey → Prop}
    (inv : SchedulingInv scheduling base Keys Kept)
    (same : ∀ key, Keys key ↔ others key) :
    SchedulingInv scheduling base others Kept where
  agree := inv.agree
  fresh := inv.fresh
  base_le := inv.base_le
  keys := fun key => (inv.keys key).trans (same key)
  origin := inv.origin

theorem weaken
    {others : Nat → Prop}
    (inv : SchedulingInv scheduling base Keys Kept)
    (more : ∀ task, Kept task → others task) :
    SchedulingInv scheduling base Keys others where
  agree := inv.agree
  fresh := inv.fresh
  base_le := inv.base_le
  keys := inv.keys
  origin := fun task member => (inv.origin task member).imp_right (more task)

theorem start (base : Nat) :
    SchedulingInv ⟨.empty, .empty, base⟩ base (fun _ => False) (fun _ => False) where
  agree := by
    simp
  fresh := by
    simp
  base_le := Nat.le_refl base
  keys := by
    simp
  origin := by
    simp

/-- The new events get a task each. -/
theorem scheduleNew
    {newEvents : List EventKey}
    (inv : SchedulingInv scheduling base Keys Kept)
    (distinct : newEvents.Nodup)
    (newKeys : ∀ key ∈ newEvents, ¬ Keys key) :
    SchedulingInv (scheduleNew scheduling newEvents) base
      (fun query => query ∈ newEvents ∨ Keys query) Kept := by
  induction newEvents generalizing scheduling Keys with
  | nil =>
      exact inv.congr fun key => by simp
  | cons key rest inductionHypothesis =>
      obtain ⟨notInRest, restDistinct⟩ := List.nodup_cons.mp distinct
      have created := inv.create (newKeys key (by simp))
      have others :=
        inductionHypothesis created restDistinct (by
          rintro other member (rfl | earlier)
          · exact notInRest member
          · exact newKeys other (List.mem_cons_of_mem _ member) earlier)
      refine others.congr fun query => ?_
      simp only [List.mem_cons]
      tauto

/-- Done tasks of events that are not deleted are started again. -/
theorem scheduleDone
    {deleteEvents : PySet EventKey}
    {tasks : List Nat}
    {taskToEv : Dict Nat EventKey}
    (inv : SchedulingInv scheduling base Keys Kept)
    (distinct : tasks.Nodup)
    (injective :
      ∀ first ∈ tasks, ∀ second ∈ tasks, ∀ key,
        taskToEv.get? first = some key →
        taskToEv.get? second = some key →
        first = second)
    (newKeys :
      ∀ task ∈ tasks, ∀ key,
        taskToEv.get? task = some key →
        key ∉ deleteEvents →
        ¬ Keys key) :
    SchedulingInv (Events.scheduleDone deleteEvents tasks scheduling taskToEv).1 base
        (fun query =>
          (∃ task ∈ tasks, taskToEv.get? task = some query ∧ query ∉ deleteEvents) ∨
            Keys query) Kept ∧
      ∀ task key,
        (Events.scheduleDone deleteEvents tasks scheduling taskToEv).2.get? task =
            some key ↔
          taskToEv.get? task = some key ∧ (task ∈ tasks → key ∉ deleteEvents) := by
  induction tasks generalizing scheduling Keys taskToEv with
  | nil =>
      refine ⟨inv.congr fun key => by simp, fun task key => ?_⟩
      simp [Events.scheduleDone]
  | cons task rest inductionHypothesis =>
      obtain ⟨notInRest, restDistinct⟩ := List.nodup_cons.mp distinct
      have restInjective :=
        fun first firstMember second secondMember =>
          injective first (List.mem_cons_of_mem task firstMember) second
            (List.mem_cons_of_mem task secondMember)
      cases found : taskToEv.get? task with
      | none =>
          obtain ⟨scheduled, table⟩ :=
            inductionHypothesis inv restDistinct restInjective
              (fun other member => newKeys other (List.mem_cons_of_mem task member))
          simp only [Events.scheduleDone, found]
          refine ⟨scheduled.congr fun query => ?_, fun other key => ?_⟩
          · simp [found]
          · rw [table]
            refine and_congr_right fun present => ?_
            have different : other ≠ task := by
              rintro rfl
              simp [found] at present
            simp [different]
      | some key =>
          by_cases deleted : key ∈ deleteEvents
          · -- the task of a deleted event leaves the table
            have erased :
                ∀ other, other ≠ task →
                  (taskToEv.erase task).get? other = taskToEv.get? other := by
              intro other different
              rw [Dict.get?_erase, if_neg different]
            have inRest : ∀ other ∈ rest, other ≠ task := by
              rintro other member rfl
              exact notInRest member
            obtain ⟨scheduled, table⟩ :=
              @inductionHypothesis scheduling Keys (taskToEv.erase task) inv restDistinct
                (by
                  intro first firstMember second secondMember query
                  rw [erased first (inRest first firstMember),
                    erased second (inRest second secondMember)]
                  exact restInjective first firstMember second secondMember query)
                (by
                  intro other member query
                  rw [erased other (inRest other member)]
                  exact newKeys other (List.mem_cons_of_mem task member) query)
            simp only [Events.scheduleDone, found, deleted, not_true_eq_false, if_false]
            refine ⟨scheduled.congr fun query => ?_, fun other query => ?_⟩
            · have sameTasks :
                  (∃ other ∈ rest,
                      (taskToEv.erase task).get? other = some query ∧
                        query ∉ deleteEvents) ↔
                    ∃ other ∈ rest,
                      taskToEv.get? other = some query ∧ query ∉ deleteEvents := by
                refine exists_congr fun other => and_congr_right fun member => ?_
                rw [erased other (inRest other member)]
              rw [sameTasks]
              simp only [List.mem_cons, exists_eq_or_imp, found, Option.some.injEq]
              refine or_congr_left ?_
              constructor
              · exact .inr
              · rintro (⟨rfl, kept⟩ | other)
                · exact absurd deleted kept
                · exact other
            · rw [table]
              by_cases same : other = task
              · subst same
                simp only [Dict.get?_erase_self, reduceCtorEq, false_and, found,
                  Option.some.injEq, List.mem_cons, true_or, forall_const, false_iff,
                  not_and, not_not]
                rintro rfl
                exact deleted
              · rw [erased other same]
                simp [same]
          · -- the event goes on with a new task
            have created := inv.create (newKeys task (by simp) key found deleted)
            obtain ⟨scheduled, table⟩ :=
              inductionHypothesis created restDistinct restInjective (by
                rintro other member query isEvent kept (rfl | earlier)
                · have same :=
                    injective other (List.mem_cons_of_mem task member) task (by simp)
                      query isEvent found
                  exact notInRest (same ▸ member)
                · exact newKeys other (List.mem_cons_of_mem task member) query isEvent
                    kept earlier)
            simp only [Events.scheduleDone, found, deleted, not_false_eq_true, if_true]
            refine ⟨scheduled.congr fun query => ?_, fun other query => ?_⟩
            · simp only [List.mem_cons, exists_eq_or_imp, found, Option.some.injEq]
              constructor
              · rintro (rest | rfl | earlier)
                · exact .inl (.inr rest)
                · exact .inl (.inl ⟨rfl, deleted⟩)
                · exact .inr earlier
              · rintro ((⟨rfl, _⟩ | rest) | earlier)
                · exact .inr (.inl rfl)
                · exact .inl rest
                · exact .inr (.inr earlier)
            · rw [table]
              refine and_congr_right fun present => ?_
              by_cases same : other = task
              · subst same
                rw [found] at present
                cases present
                simp [deleted]
              · simp [same]

/-- Pending tasks of events that are not deleted are kept. -/
theorem schedulePending
    {deleteEvents : PySet EventKey}
    {taskToEv : Dict Nat EventKey}
    {tasks canceled : List Nat}
    (inv : SchedulingInv scheduling base Keys Kept)
    (distinct : tasks.Nodup)
    (injective :
      ∀ first ∈ tasks, ∀ second ∈ tasks, ∀ key,
        taskToEv.get? first = some key →
        taskToEv.get? second = some key →
        first = second)
    (newKeys :
      ∀ task ∈ tasks, ∀ key,
        taskToEv.get? task = some key →
        key ∉ deleteEvents →
        ¬ Keys key)
    (old : ∀ task ∈ tasks, task < base)
    (notKept : ∀ task ∈ tasks, ¬ Kept task) :
    SchedulingInv
      (Events.schedulePending deleteEvents taskToEv tasks scheduling canceled).1 base
      (fun query =>
        (∃ task ∈ tasks, taskToEv.get? task = some query ∧ query ∉ deleteEvents) ∨
          Keys query)
      (fun task => task ∈ tasks ∨ Kept task) := by
  induction tasks generalizing scheduling Keys Kept canceled with
  | nil =>
      exact (inv.congr fun key => by simp).weaken fun task kept => .inr kept
  | cons task rest inductionHypothesis =>
      obtain ⟨notInRest, restDistinct⟩ := List.nodup_cons.mp distinct
      have restInjective :=
        fun first firstMember second secondMember =>
          injective first (List.mem_cons_of_mem task firstMember) second
            (List.mem_cons_of_mem task secondMember)
      have restOld := fun other member => old other (List.mem_cons_of_mem task member)
      have restNotKept :=
        fun other member => notKept other (List.mem_cons_of_mem task member)
      have restNewKeys :=
        fun other member => newKeys other (List.mem_cons_of_mem task member)
      have moreKept :
          ∀ other, other ∈ rest ∨ Kept other → other ∈ task :: rest ∨ Kept other := by
        rintro other (member | kept)
        · exact .inl (List.mem_cons_of_mem task member)
        · exact .inr kept
      cases found : taskToEv.get? task with
      | none =>
          have scheduled :=
            @inductionHypothesis scheduling Keys Kept canceled inv restDistinct restInjective
              restNewKeys restOld restNotKept
          simp only [Events.schedulePending, found]
          exact (scheduled.congr fun query => by simp [found]).weaken moreKept
      | some key =>
          by_cases deleted : key ∈ deleteEvents
          · have scheduled :=
              @inductionHypothesis scheduling Keys Kept (canceled ++ [task]) inv restDistinct
                restInjective restNewKeys restOld restNotKept
            simp only [Events.schedulePending, found, deleted, not_true_eq_false, if_false]
            refine (scheduled.congr fun query => ?_).weaken moreKept
            simp only [List.mem_cons, exists_eq_or_imp, found, Option.some.injEq]
            refine or_congr_left ?_
            constructor
            · exact .inr
            · rintro (⟨rfl, kept⟩ | other)
              · exact absurd deleted kept
              · exact other
          · have newTask : task ∉ scheduling.newTaskToEv.keys := by
              intro member
              rcases inv.origin task member with created | kept
              · have := old task (by simp)
                omega
              · exact notKept task (by simp) kept
            have below : task < scheduling.nextTask :=
              Nat.lt_of_lt_of_le (old task (by simp)) inv.base_le
            have kept :=
              (inv.weaken fun other isKept =>
                (.inr isKept : other = task ∨ Kept other)).keep
                (newKeys task (by simp) key found deleted) newTask below (.inr (.inl rfl))
            have scheduled :=
              @inductionHypothesis _ _ _ canceled kept restDistinct restInjective (by
                rintro other member query isEvent notDeleted (rfl | earlier)
                · have same :=
                    injective other (List.mem_cons_of_mem task member) task (by simp)
                      query isEvent found
                  exact notInRest (same ▸ member)
                · exact restNewKeys other member query isEvent notDeleted earlier)
                restOld (by
                  rintro other member (rfl | isKept)
                  · exact notInRest member
                  · exact restNotKept other member isKept)
            simp only [Events.schedulePending, found, deleted, not_false_eq_true, if_true]
            refine (scheduled.congr fun query => ?_).weaken ?_
            · simp only [List.mem_cons, exists_eq_or_imp, found, Option.some.injEq]
              constructor
              · rintro (rest | rfl | earlier)
                · exact .inl (.inr rest)
                · exact .inl (.inl ⟨rfl, deleted⟩)
                · exact .inr earlier
              · rintro ((⟨rfl, _⟩ | rest) | earlier)
                · exact .inr (.inl rfl)
                · exact .inl rest
                · exact .inr (.inr earlier)
            · rintro other (member | rfl | isKept)
              · exact .inl (List.mem_cons_of_mem task member)
              · exact .inl (by simp)
              · exact .inr isKept

end SchedulingInv

/-! ## The invariant -/

/-- How the task table, the pending sets and the subscribed events are coupled. -/
structure ProviderInv
    (server : EventServer Client Data)
    (table : Dict Nat EventKey) :
    Prop where
  agree :
    ∀ key task,
      server.waitTasks.get? key = some task ↔ table.get? task = some key
  fresh : ∀ task ∈ table.keys, task < server.nextTask
  /-- A task without subscribers is about to be deleted. -/
  live :
    ∀ key ∈ server.waitTasks.keys,
      key ∈ server.eventToClients.keys ∨ key ∈ server.deleteEvents
  /-- A subscribed event without a task is about to be started. -/
  provided :
    ∀ key ∈ server.eventToClients.keys,
      key ∈ server.waitTasks.keys ∨ key ∈ server.newEvents
  /-- The old task of an event that is started again is about to be deleted. -/
  startedOnce :
    ∀ key ∈ server.newEvents,
      key ∈ server.waitTasks.keys →
      key ∈ server.deleteEvents
  /-- A subscribed event that is about to be deleted is about to be started again. -/
  resubscribed :
    ∀ key ∈ server.eventToClients.keys,
      key ∈ server.deleteEvents →
      key ∈ server.newEvents
  newFlag : ∀ key ∈ server.newEvents, server.newEventEv = true

theorem map_fst_filterMap_pair
    {α β : Type}
    (f : α → Option β)
    (items : List α) :
    (items.filterMap fun item => (f item).map fun found => (item, found)).map Prod.fst =
      items.filter fun item => (f item).isSome := by
  induction items with
  | nil =>
      rfl
  | cons item rest inductionHypothesis =>
      cases found : f item with
      | none =>
          simp [found, inductionHypothesis]
      | some value =>
          simp [found, inductionHypothesis]

namespace ProviderInv

variable {server : EventServer Client Data}

theorem mem_values_iff
    {table : Dict Nat EventKey}
    (inv : ProviderInv server table)
    {key : EventKey} :
    key ∈ table.values ↔ key ∈ server.waitTasks.keys := by
  rw [Dict.mem_values_iff, Dict.mem_keys_iff, Option.isSome_iff_exists]
  exact exists_congr fun task => (inv.agree key task).symm

theorem values_nodup
    {table : Dict Nat EventKey}
    (inv : ProviderInv server table) :
    server.waitTasks.values.Nodup := by
  have entriesNodup : server.waitTasks.entries.Nodup :=
    .of_map Prod.fst server.waitTasks.nodup
  refine List.Nodup.map_on ?_ entriesNodup
  rintro ⟨firstKey, firstTask⟩ isFirst ⟨secondKey, secondTask⟩ isSecond sameTask
  simp only at sameTask
  subst sameTask
  have first := (inv.agree _ _).mp ((Dict.mem_entries_iff _).mp isFirst)
  have second := (inv.agree _ _).mp ((Dict.mem_entries_iff _).mp isSecond)
  rw [first] at second
  cases second
  rfl

variable (inv : ProviderInv server server.taskToEv)

include inv

theorem task_known
    {task : Nat}
    (waited : task ∈ server.waitTasks.values) :
    ∃ key, server.waitTasks.get? key = some task ∧
      server.taskToEv.get? task = some key := by
  obtain ⟨key, found⟩ := Dict.mem_values_iff.mp waited
  exact ⟨key, found, (inv.agree key task).mp found⟩

/-- The scheduling of an iteration has a task for exactly the subscribed events. -/
theorem schedule_spec
    (present : ∀ key ∈ server.newEvents, key ∈ server.eventToClients.keys) :
    (∃ Kept,
      SchedulingInv server.schedule.1 server.nextTask
        (fun key => key ∈ server.eventToClients.keys) Kept) ∧
      ∀ task key,
        server.schedule.2.1.get? task = some key ↔
          server.taskToEv.get? task = some key ∧
            (task ∈ server.doneTasks.map Prod.fst → key ∉ server.deleteEvents) := by
  have doneEq : server.doneTasks.map Prod.fst =
      server.waitTasks.values.filter fun task => (server.finished.get? task).isSome :=
    map_fst_filterMap_pair _ _
  have waitedOfDone :
      ∀ task ∈ server.doneTasks.map Prod.fst, task ∈ server.waitTasks.values := by
    intro task member
    rw [doneEq] at member
    exact List.mem_of_mem_filter member
  have injective :
      ∀ first second key,
        server.taskToEv.get? first = some key →
        server.taskToEv.get? second = some key →
        first = second := by
    intro first second key isFirst isSecond
    have firstTask := (inv.agree key first).mpr isFirst
    rw [(inv.agree key second).mpr isSecond] at firstTask
    exact (Option.some.inj firstTask).symm
  have hasTask :
      ∀ task key, server.taskToEv.get? task = some key → key ∈ server.waitTasks.keys := by
    intro task key found
    rw [Dict.mem_keys_iff, (inv.agree key task).mpr found]
    rfl
  -- the events that are new get a task
  have started :
      SchedulingInv
        (if server.newEventEv then
          scheduleNew ⟨.empty, .empty, server.nextTask⟩ server.newEvents.toList
        else
          ⟨.empty, .empty, server.nextTask⟩)
        server.nextTask (fun key => key ∈ server.newEvents) (fun _ => False) := by
    by_cases flag : server.newEventEv = true
    · rw [if_pos flag]
      refine ((SchedulingInv.start _).scheduleNew server.newEvents.nodup
        (fun _ _ none => none)).congr fun key => ?_
      rw [or_false, PySet.mem_toList]
    · rw [if_neg flag]
      refine (SchedulingInv.start _).congr fun key => ?_
      rw [false_iff]
      exact fun isNew => flag (inv.newFlag key isNew)
  have notNew :
      ∀ task key,
        server.taskToEv.get? task = some key →
        key ∉ server.deleteEvents →
        key ∉ server.newEvents := fun task key found kept isNew =>
    kept (inv.startedOnce key isNew (hasTask task key found))
  -- the done tasks of subscribed events are started again
  obtain ⟨restarted, table⟩ :=
    @SchedulingInv.scheduleDone _ _ _ _ server.deleteEvents
      (server.doneTasks.map Prod.fst) server.taskToEv started
      (by
        rw [doneEq]
        exact inv.values_nodup.filter _)
      (fun first _ second _ => injective first second)
      (fun task _ => notNew task)
  -- the pending tasks of subscribed events are kept
  have pendingWaited :
      ∀ task ∈ server.pendingTasks, task ∈ server.waitTasks.values := fun task member =>
    List.mem_of_mem_filter member
  have notDone :
      ∀ task ∈ server.pendingTasks, task ∉ server.doneTasks.map Prod.fst := by
    intro task isPending isDone
    rw [doneEq] at isDone
    have done := (List.mem_filter.mp isDone).2
    have pending := (List.mem_filter.mp isPending).2
    cases found : server.finished.get? task <;> simp [found] at done pending
  have kept :=
    @SchedulingInv.schedulePending _ _ _ _ server.deleteEvents _ server.pendingTasks []
      restarted
      (inv.values_nodup.filter _)
      (by
        intro first _ second _ key isFirst isSecond
        exact injective first second key ((table first key).mp isFirst).1
          ((table second key).mp isSecond).1)
      (by
        rintro task isPending key found notDeleted (⟨other, isDone, sameKey, _⟩ | isNew)
        · have same := injective task other key ((table task key).mp found).1 sameKey
          exact notDone task isPending (same ▸ isDone)
        · exact notNew task key ((table task key).mp found).1 notDeleted isNew)
      (by
        intro task isPending
        obtain ⟨key, _, found⟩ := inv.task_known (pendingWaited task isPending)
        refine inv.fresh task ?_
        rw [Dict.mem_keys_iff, found]
        rfl)
      (fun _ _ none => none)
  refine ⟨⟨_, SchedulingInv.congr kept fun key => ?_⟩, table⟩
  constructor
  · rintro (⟨task, _, found, notDeleted⟩ | ⟨task, _, found, notDeleted⟩ | isNew)
    · exact (inv.live key (hasTask task key ((table task key).mp found).1)).resolve_right
        notDeleted
    · exact (inv.live key (hasTask task key found)).resolve_right notDeleted
    · exact present key isNew
  · intro subscribed
    by_cases isNew : key ∈ server.newEvents
    · exact .inr (.inr isNew)
    · have notDeleted : key ∉ server.deleteEvents := fun deleted =>
        isNew (inv.resubscribed key subscribed deleted)
      obtain ⟨task, waits⟩ := Option.isSome_iff_exists.mp
        (Dict.mem_keys_iff.mp ((inv.provided key subscribed).resolve_right isNew))
      have found := (inv.agree key task).mp waits
      have waited : task ∈ server.waitTasks.values := Dict.mem_values_iff.mpr ⟨key, waits⟩
      by_cases isDone : (server.finished.get? task).isSome = true
      · refine .inr (.inl ⟨task, ?_, found, notDeleted⟩)
        rw [doneEq]
        exact List.mem_filter.mpr ⟨waited, isDone⟩
      · refine .inl ⟨task, List.mem_filter.mpr ⟨waited, ?_⟩, ?_, notDeleted⟩
        · simpa using isDone
        · exact (table task key).mpr ⟨found, fun _ => notDeleted⟩

end ProviderInv

/-! ## Handlers -/

/-- A handler moves neither the executor nor its tasks and keeps their invariant. -/
structure HandlerFrame (server after : EventServer Client Data) : Prop where
  phase : after.phase = server.phase
  taskToEv : after.taskToEv = server.taskToEv
  providerInv : ∀ table, ProviderInv server table → ProviderInv after table

theorem HandlerFrame.refl (server : EventServer Client Data) :
    HandlerFrame server server where
  phase := rfl
  taskToEv := rfl
  providerInv := fun _ inv => inv

theorem HandlerFrame.trans
    {server middle after : EventServer Client Data}
    (first : HandlerFrame server middle)
    (second : HandlerFrame middle after) :
    HandlerFrame server after where
  phase := second.phase.trans first.phase
  taskToEv := second.taskToEv.trans first.taskToEv
  providerInv := fun table inv => second.providerInv table (first.providerInv table inv)

theorem HandlerFrame.triggerDelete
    (server : EventServer Client Data)
    (condition : Bool) :
    HandlerFrame server (server.triggerDelete condition) :=
  ⟨rfl, rfl, fun _ inv =>
    ⟨inv.agree, inv.fresh, inv.live, inv.provided, inv.startedOnce, inv.resubscribed,
      inv.newFlag⟩⟩

theorem HandlerFrame.setClientToEvents
    (server : EventServer Client Data)
    (clientToEvents : Dict Client (PySet EventKey)) :
    HandlerFrame server { server with clientToEvents := clientToEvents } :=
  ⟨rfl, rfl, fun _ inv =>
    ⟨inv.agree, inv.fresh, inv.live, inv.provided, inv.startedOnce, inv.resubscribed,
      inv.newFlag⟩⟩

/-- Changing who subscribes to an event that has subscribers. -/
theorem HandlerFrame.setClients
    {server : EventServer Client Data}
    {key : EventKey}
    (present : key ∈ server.eventToClients.keys)
    (clients : PySet Client)
    (clientToEvents : Dict Client (PySet EventKey)) :
    HandlerFrame server
      { server with
        eventToClients := server.eventToClients.set key clients
        clientToEvents := clientToEvents } := by
  have sameKeys :
      ∀ query,
        query ∈ (server.eventToClients.set key clients).keys ↔
          query ∈ server.eventToClients.keys := by
    intro query
    rw [Dict.mem_keys_set]
    constructor
    · rintro (rfl | member)
      · exact present
      · exact member
    · exact .inr
  refine ⟨rfl, rfl, fun table inv => ?_⟩
  exact
    { agree := inv.agree
      fresh := inv.fresh
      live := fun query member => (inv.live query member).imp_left (sameKeys query).mpr
      provided := fun query member => inv.provided query ((sameKeys query).mp member)
      startedOnce := inv.startedOnce
      resubscribed := fun query member =>
        inv.resubscribed query ((sameKeys query).mp member)
      newFlag := inv.newFlag }

/-- A first subscriber makes the event new. -/
theorem HandlerFrame.addEvent
    {server : EventServer Client Data}
    {key : EventKey}
    (absent : key ∉ server.eventToClients.keys)
    (clients : PySet Client) :
    HandlerFrame server
      { server with
        eventToClients := server.eventToClients.set key clients
        newEvents := server.newEvents.add key
        newEventEv := true } := by
  refine ⟨rfl, rfl, fun table inv => ?_⟩
  exact
    { agree := inv.agree
      fresh := inv.fresh
      live := fun query member =>
        (inv.live query member).imp_left fun earlier => Dict.mem_keys_set.mpr (.inr earlier)
      provided := by
        intro query member
        rcases Dict.mem_keys_set.mp member with rfl | earlier
        · exact .inr (PySet.mem_add.mpr (.inl rfl))
        · exact (inv.provided query earlier).imp_right fun isNew =>
            PySet.mem_add.mpr (.inr isNew)
      startedOnce := by
        intro query isNew member
        rcases PySet.mem_add.mp isNew with rfl | earlier
        · exact (inv.live query member).resolve_left absent
        · exact inv.startedOnce query earlier member
      resubscribed := by
        intro query member deleted
        rcases Dict.mem_keys_set.mp member with rfl | earlier
        · exact PySet.mem_add.mpr (.inl rfl)
        · exact PySet.mem_add.mpr (.inr (inv.resubscribed query earlier deleted))
      newFlag := fun _ _ => rfl }

/-- The last subscriber gone, the event is to be deleted. -/
theorem HandlerFrame.removeEvent
    (server : EventServer Client Data)
    (key : EventKey) :
    HandlerFrame server
      { server with
        eventToClients := server.eventToClients.erase key
        deleteEvents := server.deleteEvents.add key } := by
  refine ⟨rfl, rfl, fun table inv => ?_⟩
  exact
    { agree := inv.agree
      fresh := inv.fresh
      live := by
        intro query member
        by_cases same : query = key
        · exact .inr (PySet.mem_add.mpr (.inl same))
        · refine (inv.live query member).imp ?_ fun deleted =>
            PySet.mem_add.mpr (.inr deleted)
          exact fun earlier => Dict.mem_keys_erase.mpr ⟨same, earlier⟩
      provided := fun query member =>
        inv.provided query (Dict.mem_keys_erase.mp member).2
      startedOnce := fun query isNew member =>
        PySet.mem_add.mpr (.inr (inv.startedOnce query isNew member))
      resubscribed := by
        intro query member deleted
        obtain ⟨different, earlier⟩ := Dict.mem_keys_erase.mp member
        exact inv.resubscribed query earlier
          ((PySet.mem_add.mp deleted).resolve_left different)
      newFlag := inv.newFlag }

section SetTables

variable {κ α : Type} [DecidableEq κ] {table : Dict κ (PySet α)} {key query : κ}
variable {elements : PySet α} {element : α}

theorem related_set :
    (∃ found, (table.set key elements).get? query = some found ∧ element ∈ found) ↔
      (query = key ∧ element ∈ elements) ∨
        (query ≠ key ∧ ∃ found, table.get? query = some found ∧ element ∈ found) := by
  rw [Dict.get?_set]
  by_cases same : query = key <;> simp [same]

theorem related_erase :
    (∃ found, (table.erase key).get? query = some found ∧ element ∈ found) ↔
      (query ≠ key ∧ ∃ found, table.get? query = some found ∧ element ∈ found) := by
  rw [Dict.get?_erase]
  by_cases same : query = key <;> simp [same]

end SetTables

namespace EventServer

variable [DecidableEq Client]

/-- The client is subscribed according to `event_to_clients`. -/
def Subscribed
    (server : EventServer Client Data)
    (client : Client)
    (key : EventKey) :
    Prop :=
  ∃ clients, server.eventToClients.get? key = some clients ∧ client ∈ clients

/-- The client is subscribed according to `client_to_events`. -/
def HasEvent
    (server : EventServer Client Data)
    (client : Client)
    (key : EventKey) :
    Prop :=
  ∃ events, server.clientToEvents.get? client = some events ∧ key ∈ events

/-- Both tables say the same. -/
def TablesAgree (server : EventServer Client Data) : Prop :=
  ∀ client key, server.Subscribed client key ↔ server.HasEvent client key

variable {server : EventServer Client Data} {client : Client} {key : EventKey}
variable {clients : PySet Client}

theorem mem_eventsOf
    {query : EventKey} :
    query ∈ server.eventsOf client ↔ server.HasEvent client query := by
  unfold eventsOf HasEvent
  cases server.clientToEvents.get? client <;> simp

theorem addSubscriber_frame
    (found : server.eventToClients.get? key = some clients) :
    HandlerFrame server (server.addSubscriber client key clients) := by
  unfold addSubscriber
  split
  · exact .refl server
  · refine .setClients ?_ _ _
    rw [Dict.mem_keys_iff, found]
    rfl

/-- Adding a subscriber adds it to both tables. -/
theorem addSubscriber_tables
    (agree : server.TablesAgree)
    (found : server.eventToClients.get? key = some clients) :
    (server.addSubscriber client key clients).TablesAgree := by
  unfold addSubscriber
  split
  · exact agree
  · intro other query
    have before := agree other query
    refine related_set.trans (Iff.trans ?_ related_set.symm)
    rw [PySet.mem_add, PySet.mem_add, mem_eventsOf]
    by_cases sameKey : query = key
    · by_cases sameClient : other = client
      · simp [sameKey, sameClient]
      · subst sameKey
        have ofFound : server.Subscribed other query ↔ other ∈ clients := by
          simp [Subscribed, found]
        rw [ofFound] at before
        simp only [HasEvent] at before
        simp [sameClient, before]
    · by_cases sameClient : other = client
      · subst sameClient
        simp only [Subscribed] at before
        simp [sameKey, before]
      · simp only [Subscribed, HasEvent] at before
        simp [sameKey, sameClient, before]

/-- `Subscribe` moves no task and keeps the tables in agreement. -/
theorem subscribe_spec
    (allEvProviders : List EventKey)
    (agree : server.TablesAgree) :
    HandlerFrame server (server.subscribe allEvProviders client key).1 ∧
      (server.subscribe allEvProviders client key).1.TablesAgree := by
  unfold subscribe
  split
  · exact ⟨.refl server, agree⟩
  · split
    · rename_i absent
      have notKey : key ∉ server.eventToClients.keys := by
        simp [Dict.mem_keys_iff, absent]
      have nowFound :
          (server.eventToClients.set key PySet.empty).get? key =
            some (PySet.empty : PySet Client) :=
        Dict.get?_set_self ..
      dsimp only
      refine ⟨(HandlerFrame.addEvent notKey .empty).trans (addSubscriber_frame nowFound),
        addSubscriber_tables ?_ nowFound⟩
      intro other query
      refine related_set.trans (Iff.trans ?_ (agree other query))
      by_cases same : query = key
      · simp [same, Subscribed, absent]
      · simp [same, Subscribed]
    · rename_i found
      exact ⟨addSubscriber_frame found, addSubscriber_tables agree found⟩

theorem removeSubscriber_frame
    (found : server.eventToClients.get? key = some clients) :
    HandlerFrame server (server.removeSubscriber client key clients) := by
  unfold removeSubscriber
  dsimp only
  split
  · exact .removeEvent server key
  · refine .setClients ?_ _ server.clientToEvents
    rw [Dict.mem_keys_iff, found]
    rfl

theorem removeSubscriber_clientToEvents :
    (server.removeSubscriber client key clients).clientToEvents =
      server.clientToEvents := by
  unfold removeSubscriber
  dsimp only
  split <;> rfl

/-- Removing a subscriber removes the one pair. -/
theorem removeSubscriber_subscribed
    (found : server.eventToClients.get? key = some clients)
    {other : Client}
    {query : EventKey} :
    (server.removeSubscriber client key clients).Subscribed other query ↔
      server.Subscribed other query ∧ ¬ (other = client ∧ query = key) := by
  have ofFound :
      query = key → (server.Subscribed other query ↔ other ∈ clients) := by
    rintro rfl
    simp [Subscribed, found]
  unfold removeSubscriber
  dsimp only
  split
  · rename_i noClients
    refine related_erase.trans ?_
    by_cases same : query = key
    · have gone := PySet.toList_eq_nil_iff.mp noClients other
      rw [PySet.mem_discard, not_and] at gone
      have onlyClient : other ∈ clients → other = client := fun member => by
        by_contra different
        exact gone different member
      simpa [same, ← ofFound same] using onlyClient
    · simp [same, Subscribed]
  · refine related_set.trans ?_
    rw [PySet.mem_discard]
    by_cases same : query = key
    · simp [same, ← ofFound same, and_comm]
    · simp [same, Subscribed]

/-- Removing an event from a client that has it. -/
theorem removeEvent_spec
    (has : server.HasEvent client key) :
    ∃ after,
      server.removeEvent client key = .ok after ∧
        HandlerFrame server after ∧
        after.eventToClients = server.eventToClients ∧
        ∀ other query,
          after.HasEvent other query ↔
            server.HasEvent other query ∧ ¬ (other = client ∧ query = key) := by
  obtain ⟨events, found, member⟩ := has
  have removed :
      server.removeEvent client key =
        .ok { server with
          clientToEvents :=
            if (events.discard key).toList = [] then
              server.clientToEvents.erase client
            else
              server.clientToEvents.set client (events.discard key) } := by
    simp only [EventServer.removeEvent, found, member, not_true_eq_false, if_false]
  refine ⟨_, removed, .setClientToEvents server _, rfl, fun other query => ?_⟩
  have ofFound : other = client → (server.HasEvent other query ↔ query ∈ events) := by
    rintro rfl
    simp [HasEvent, found]
  unfold HasEvent
  dsimp only
  split
  · rename_i noEvents
    refine related_erase.trans ?_
    by_cases same : other = client
    · have gone := PySet.toList_eq_nil_iff.mp noEvents query
      rw [PySet.mem_discard, not_and] at gone
      have onlyKey : query ∈ events → query = key := fun isEvent => by
        by_contra different
        exact gone different isEvent
      have ofSame := ofFound same
      simp only [HasEvent] at ofSame
      simpa [same, ← ofSame] using onlyKey
    · simp [same]
  · refine related_set.trans ?_
    rw [PySet.mem_discard]
    by_cases same : other = client
    · have ofSame := ofFound same
      simp only [HasEvent] at ofSame
      simp [same, ← ofSame, and_comm]
    · simp [same]

/-- `UnSubscribe` never fails, moves no task and keeps the tables in agreement. -/
theorem unSubscribe_spec
    (allEvProviders : List EventKey)
    (client : Client)
    (key : EventKey)
    (agree : server.TablesAgree) :
    ∃ after reply,
      server.unSubscribe allEvProviders client key = .ok (after, reply) ∧
        HandlerFrame server after ∧ after.TablesAgree := by
  unfold unSubscribe
  split
  · exact ⟨server, _, rfl, .refl server, agree⟩
  · split
    · exact ⟨server, _, rfl, .refl server, agree⟩
    · rename_i clients found
      split
      · exact ⟨server, _, rfl, .refl server, agree⟩
      · rename_i isSubscribed
        rw [not_not] at isSubscribed
        have has : server.HasEvent client key :=
          (agree client key).mp ⟨clients, found, isSubscribed⟩
        have hasAfter :
            ((server.removeSubscriber client key clients).triggerDelete
              ((clients.discard client).toList = [])).HasEvent client key := by
          simpa [HasEvent, triggerDelete, removeSubscriber_clientToEvents] using has
        obtain ⟨after, removed, frame, sameClients, events⟩ := removeEvent_spec hasAfter
        refine ⟨after, none, ?_,
          ((removeSubscriber_frame found).trans (.triggerDelete _ _)).trans frame, ?_⟩
        · simp only [removed, bind, Except.bind]
        · intro other query
          have sameSubscribed :
              after.Subscribed other query ↔
                (server.removeSubscriber client key clients).Subscribed other query := by
            simp [Subscribed, sameClients, triggerDelete]
          have sameEvents :
              ((server.removeSubscriber client key clients).triggerDelete
                  ((clients.discard client).toList = [])).HasEvent other query ↔
                server.HasEvent other query := by
            simp [HasEvent, triggerDelete, removeSubscriber_clientToEvents]
          rw [sameSubscribed, removeSubscriber_subscribed found, events, sameEvents,
            agree other query]

/-- The loop of a closed connection over events it is subscribed to. -/
theorem dropEvents_spec
    {keys : List EventKey}
    (distinct : keys.Nodup)
    (subscribed : ∀ key ∈ keys, server.Subscribed client key) :
    ∃ after,
      dropEvents client keys server = .ok after ∧
        HandlerFrame server after ∧
        after.clientToEvents = server.clientToEvents ∧
        ∀ other query,
          after.Subscribed other query ↔
            server.Subscribed other query ∧ ¬ (other = client ∧ query ∈ keys) := by
  induction keys generalizing server with
  | nil =>
      exact ⟨server, rfl, .refl server, rfl, by simp⟩
  | cons key rest inductionHypothesis =>
      obtain ⟨notInRest, restDistinct⟩ := List.nodup_cons.mp distinct
      obtain ⟨clients, found, member⟩ := subscribed key (by simp)
      have removed :=
        @removeSubscriber_subscribed _ _ _ server client key clients found
      obtain ⟨after, dropped, frame, sameEvents, subscribedAfter⟩ :=
        @inductionHypothesis (server.removeSubscriber client key clients) restDistinct (by
          intro other otherMember
          refine removed.mpr ⟨subscribed other (List.mem_cons_of_mem key otherMember), ?_⟩
          rintro ⟨_, rfl⟩
          exact notInRest otherMember)
      refine ⟨after, ?_, (removeSubscriber_frame found).trans frame,
        sameEvents.trans removeSubscriber_clientToEvents, fun other query => ?_⟩
      · simp [dropEvents, clientsOf, found, member, dropped, bind, Except.bind]
      · rw [subscribedAfter, removed, and_assoc]
        refine and_congr_right fun _ => ?_
        simp only [List.mem_cons]
        tauto

/-- Closing a connection never fails, moves no task and keeps the tables in agreement. -/
theorem disconnect_spec
    (client : Client)
    (agree : server.TablesAgree) :
    ∃ after,
      server.disconnect client = .ok after ∧
        HandlerFrame server after ∧ after.TablesAgree := by
  obtain ⟨dropped, isDropped, frame, agreeAfter⟩ :
      ∃ dropped,
        server.dropClient client = .ok dropped ∧
          HandlerFrame server dropped ∧ dropped.TablesAgree := by
    unfold dropClient
    cases found : server.clientToEvents.get? client with
    | none =>
        exact ⟨server, rfl, .refl server, agree⟩
    | some events =>
        obtain ⟨after, dropped, frame, sameEvents, subscribed⟩ :=
          @dropEvents_spec _ _ _ server client events.toList events.nodup
            (fun key member => (agree client key).mpr ⟨events, found, member⟩)
        refine ⟨_, by simp only [dropped, bind, Except.bind]; rfl, ?_, ?_⟩
        · exact frame.trans (.setClientToEvents after _)
        · intro other query
          refine Iff.trans (subscribed other query) ?_
          refine Iff.trans ?_ related_erase.symm
          rw [sameEvents, agree other query]
          by_cases same : other = client
          · subst same
            have own : server.HasEvent other query ↔ query ∈ events := by
              simp [HasEvent, found]
            rw [own, PySet.mem_toList]
            simp
          · simp [same, HasEvent]
  refine ⟨dropped.triggerDelete (dropped.deleteEvents.toList ≠ []),
    by simp only [disconnect, isDropped, bind, Except.bind], ?_, agreeAfter⟩
  exact frame.trans (.triggerDelete dropped _)

end EventServer

/-! ## The executor -/

section Executor

variable {server : EventServer Client Data}

theorem EventServer.clientsOf_ok
    {key : EventKey}
    (present : key ∈ server.eventToClients.keys) :
    ∃ clients, server.clientsOf key = .ok clients := by
  obtain ⟨clients, found⟩ := Option.isSome_iff_exists.mp (Dict.mem_keys_iff.mp present)
  exact ⟨clients, by simp [clientsOf, found]⟩

/-- The messages of a subscribed event can be made, whatever its task returned. -/
theorem EventServer.resultMessages_ok
    {key : EventKey}
    (present : key ∈ server.eventToClients.keys)
    (result : EventResult Data) :
    ∃ messages, server.resultMessages key result = .ok messages := by
  obtain ⟨clients, found⟩ := EventServer.clientsOf_ok present
  cases result with
  | raised exceptionDict =>
      exact ⟨_, by simp only [resultMessages, found, bind, Except.bind]; rfl⟩
  | dynamicEvent name data =>
      exact ⟨_, by simp only [resultMessages, found, bind, Except.bind]; rfl⟩
  | plain data =>
      exact ⟨_, by simp only [resultMessages, found, bind, Except.bind]; rfl⟩
  | dynamicEvents nameAndDatas =>
      have all :
          ∃ messages,
            nameAndDatas.mapM (fun nameAndData => do
              let clients ← server.clientsOf key
              .ok (messagesTo clients key false nameAndData.1 nameAndData.2)) =
              .ok messages :=
        PyResult.exists_mapM_eq_ok fun nameAndData _ =>
          ⟨_, by simp only [found, bind, Except.bind]; rfl⟩
      obtain ⟨messages, computed⟩ := all
      exact ⟨messages.flatten, by
        simp only [resultMessages]
        rw [computed]
        rfl⟩

/-- The messages of all done tasks can be made when their events are subscribed. -/
theorem EventServer.sendResults_ok
    {taskToEv : Dict Nat EventKey}
    {done : List (Nat × EventResult Data)}
    (present :
      ∀ task ∈ done.map Prod.fst, ∀ key,
        taskToEv.get? task = some key →
        key ∈ server.eventToClients.keys) :
    ∃ messages, server.sendResults taskToEv done = .ok messages := by
  induction done with
  | nil =>
      exact ⟨[], rfl⟩
  | cons head rest inductionHypothesis =>
      obtain ⟨task, result⟩ := head
      obtain ⟨others, computedRest⟩ :=
        inductionHypothesis fun other member =>
          present other (List.mem_cons_of_mem _ member)
      cases found : taskToEv.get? task with
      | none =>
          exact ⟨others, by simp only [sendResults, found, computedRest]⟩
      | some key =>
          obtain ⟨messages, computed⟩ :=
            EventServer.resultMessages_ok (present task (by simp) key found) result
          exact ⟨messages ++ others, by
            simp only [sendResults, found, computed, computedRest, bind, Except.bind]⟩

/-- An iteration succeeds, and its tasks are those of the subscribed events. -/
theorem EventServer.iterate_spec
    (inv : ProviderInv server server.taskToEv)
    (present : ∀ key ∈ server.newEvents, key ∈ server.eventToClients.keys) :
    ∃ table canceled messages,
      server.iterate.phase = .sending table canceled messages ∧
        server.iterate.eventToClients = server.eventToClients ∧
        server.iterate.clientToEvents = server.clientToEvents ∧
        ProviderInv server.iterate table := by
  obtain ⟨⟨Kept, scheduled⟩, table⟩ := inv.schedule_spec present
  obtain ⟨messages, sent⟩ :=
    @EventServer.sendResults_ok _ _ server server.schedule.2.1 server.doneTasks (by
      intro task isDone key found
      obtain ⟨before, notDeleted⟩ := (table task key).mp found
      have waits : key ∈ server.waitTasks.keys := by
        rw [Dict.mem_keys_iff, (inv.agree key task).mpr before]
        rfl
      exact (inv.live key waits).resolve_right (notDeleted isDone))
  have iterated :
      server.iterate =
        { server with
          newEvents := if server.newEventEv then .empty else server.newEvents
          newEventEv := false
          deleteEvents := .empty
          deleteEventEv := false
          waitTasks := server.schedule.1.newTasks
          taskToEv := server.schedule.2.1
          nextTask := server.schedule.1.nextTask
          phase :=
            .sending server.schedule.1.newTaskToEv server.schedule.2.2 messages } := by
    unfold EventServer.iterate
    simp only [sent]
  rw [iterated]
  refine ⟨_, _, _, rfl, rfl, rfl, ?_⟩
  have noNew :
      ∀ key, key ∉ (if server.newEventEv then PySet.empty else server.newEvents) := by
    intro key
    split
    · exact PySet.not_mem_empty key
    · rename_i noFlag
      exact fun isNew => noFlag (inv.newFlag key isNew)
  exact
    { agree := scheduled.agree
      fresh := scheduled.fresh
      live := fun key waits => .inl ((scheduled.keys key).mp waits)
      provided := fun key subscribed => .inl ((scheduled.keys key).mpr subscribed)
      startedOnce := fun key isNew => absurd isNew (noNew key)
      resubscribed := fun key _ deleted => absurd deleted (PySet.not_mem_empty key)
      newFlag := fun key isNew => absurd isNew (noNew key) }

end Executor

/-! ## Runs -/

variable [DecidableEq Client]

/-- The invariant of the task table at each place where the executor waits. -/
def PhaseInv (server : EventServer Client Data) : Prop :=
  match server.phase with
  | .waiting => ProviderInv server server.taskToEv
  | .sending table _ _ => ProviderInv server table
  | .stopped _ => False
  | .sendRaised _ => True

/-- What every step keeps. -/
structure ServerInv (server : EventServer Client Data) : Prop where
  tables : server.TablesAgree
  phase : PhaseInv server

/-- A handler step keeps the invariant. -/
theorem HandlerFrame.serverInv
    {server after : EventServer Client Data}
    (frame : HandlerFrame server after)
    (agree : after.TablesAgree)
    (inv : ServerInv server) :
    ServerInv after := by
  refine ⟨agree, ?_⟩
  have before := inv.phase
  unfold PhaseInv at before ⊢
  rw [frame.phase]
  cases inPhase : server.phase with
  | waiting =>
      simp only [inPhase] at before ⊢
      rw [frame.taskToEv]
      exact frame.providerInv _ before
  | sending table canceled messages =>
      simp only [inPhase] at before ⊢
      exact frame.providerInv _ before
  | stopped error =>
      simp only [inPhase] at before
  | sendRaised error =>
      trivial

theorem ServerInv.initial : ServerInv (EventServer.initial : EventServer Client Data) where
  tables := by
    intro client key
    simp [EventServer.Subscribed, EventServer.HasEvent, EventServer.initial]
  phase :=
    { agree := by simp [EventServer.initial]
      fresh := by simp [EventServer.initial]
      live := by simp [EventServer.initial]
      provided := by simp [EventServer.initial]
      startedOnce := by simp [EventServer.initial]
      resubscribed := by simp [EventServer.initial]
      newFlag := by simp [EventServer.initial] }

section Runs

variable {allEvProviders : List EventKey}

/-- Every step whose looked up events are present keeps the invariant. -/
theorem serverStep_inv
    {server after : EventServer Client Data}
    {event : ServerEvent Client Data}
    (inv : ServerInv server)
    (permitted : KeysPresent server event)
    (stepped : serverStep allEvProviders server event = some after) :
    ServerInv after := by
  cases event with
  | subscribe client key =>
      obtain ⟨frame, agree⟩ :=
        @EventServer.subscribe_spec _ _ _ server client key allEvProviders inv.tables
      cases stepped
      exact frame.serverInv agree inv
  | unSubscribe client key =>
      obtain ⟨final, reply, handled, frame, agree⟩ :=
        EventServer.unSubscribe_spec allEvProviders client key inv.tables
      simp only [serverStep, handled] at stepped
      cases stepped
      exact frame.serverInv agree inv
  | disconnect client =>
      obtain ⟨final, handled, frame, agree⟩ :=
        EventServer.disconnect_spec client inv.tables
      simp only [serverStep, handled] at stepped
      cases stepped
      exact frame.serverInv agree inv
  | taskDone task result =>
      simp only [serverStep] at stepped
      split at stepped
      · cases stepped
        have frame :
            HandlerFrame server
              { server with finished := server.finished.set task result } :=
          ⟨rfl, rfl, fun _ inv =>
            ⟨inv.agree, inv.fresh, inv.live, inv.provided, inv.startedOnce,
              inv.resubscribed, inv.newFlag⟩⟩
        exact frame.serverInv inv.tables inv
      · cases stepped
  | iterate =>
      simp only [serverStep] at stepped
      split at stepped
      · rename_i isWaiting
        split at stepped
        · cases stepped
          have before := inv.phase
          simp only [PhaseInv, isWaiting] at before
          obtain ⟨table, canceled, messages, phase, sameClients, sameEvents, providers⟩ :=
            EventServer.iterate_spec before permitted
          refine ⟨?_, ?_⟩
          · intro client key
            have agree := inv.tables client key
            simp only [EventServer.Subscribed, EventServer.HasEvent] at agree ⊢
            rw [sameClients, sameEvents]
            exact agree
          · simp only [PhaseInv, phase]
            exact providers
        · cases stepped
      · cases stepped
  | finishIteration outcomes =>
      simp only [serverStep] at stepped
      split at stepped
      · rename_i table canceled messages isSending
        split at stepped
        · cases stepped
          have before := inv.phase
          simp only [PhaseInv, isSending] at before
          simp only [KeysPresent, isSending] at permitted
          unfold EventServer.finishIteration
          cases raised : firstRaised outcomes with
          | some error =>
              exact ⟨inv.tables, trivial⟩
          | none =>
              obtain ⟨clients, found⟩ :=
                PyResult.exists_mapM_eq_ok fun key member =>
                  EventServer.clientsOf_ok (permitted raised key member)
              simp only [found]
              exact ⟨inv.tables, before.agree, before.fresh, before.live, before.provided,
                before.startedOnce, before.resubscribed, before.newFlag⟩
        · cases stepped
      · cases stepped

theorem ServerInv.providersMatch
    {server : EventServer Client Data}
    (inv : ServerInv server) :
    ProvidersMatch server := by
  have held := inv.phase
  unfold PhaseInv at held
  constructor
  · intro key waits notNew notDeleted
    simp only [waits] at held
    rw [held.mem_values_iff]
    constructor
    · intro live
      exact (held.live key live).resolve_right notDeleted
    · intro subscribed
      exact (held.provided key subscribed).resolve_right notNew
  · intro error stopped
    simp only [stopped] at held

/-- In every run whose lookups find their events, the provider tasks match the subscribed
events and no lookup of the executor fails. -/
theorem serverRun_providersMatch
    {events : List (ServerEvent Client Data)}
    {server : EventServer Client Data}
    (run :
      Transition.Run (serverStep allEvProviders) KeysPresent EventServer.initial events
        server) :
    ProvidersMatch server :=
  (run.invariant ServerInv.initial fun _ _ _ inv permitted stepped =>
    serverStep_inv inv permitted stepped).providersMatch

end Runs

/-! ## Two runs -/

instance (server : EventServer Client Data) (event : ServerEvent Client Data) :
    Decidable (KeysPresent server event) :=
  match event with
  | .iterate =>
      inferInstanceAs (Decidable
        (∀ key ∈ server.newEvents.toList, key ∈ server.eventToClients.keys))
  | .finishIteration outcomes =>
      match phase : server.phase with
      | .sending _ _ sendingTasks =>
          decidable_of_iff
            (firstRaised outcomes = none →
              ∀ key ∈ failedEvents sendingTasks outcomes,
                key ∈ server.eventToClients.keys)
            (by simp only [KeysPresent, phase])
      | .waiting => .isTrue (by simp only [KeysPresent, phase])
      | .stopped _ => .isTrue (by simp only [KeysPresent, phase])
      | .sendRaised _ => .isTrue (by simp only [KeysPresent, phase])
  | .subscribe _ _ => .isTrue trivial
  | .unSubscribe _ _ => .isTrue trivial
  | .disconnect _ => .isTrue trivial
  | .taskDone _ _ => .isTrue trivial

/-- An event is sent to its subscriber, who then subscribes to another one and leaves. -/
def sentEvents : List (ServerEvent Nat Nat) :=
  [.subscribe 1 "state", .iterate, .finishIteration [], .taskDone 0 (.plain 7), .iterate,
    .subscribe 2 "log", .finishIteration [.sent], .disconnect 1, .iterate,
    .finishIteration []]

/-- After the run the one subscribed event has the one provider task. -/
theorem serverRun_providersMatch_sent :
    ∃ server,
      Transition.Run (serverStep ["state", "log"]) KeysPresent
        (EventServer.initial : EventServer Nat Nat) sentEvents server ∧
      server.taskToEv.values = ["log"] ∧
      ProvidersMatch server := by
  have executes :
      (Transition.execute (serverStep ["state", "log"]) KeysPresent
          (EventServer.initial : EventServer Nat Nat) sentEvents).any
        (fun server => server.taskToEv.values = ["log"]) = true := by
    decide +kernel
  obtain ⟨server, executed, values⟩ := (Option.any_eq_true _ _).mp executes
  have run := Transition.Run.of_execute executed
  exact ⟨server, run, by simpa using values, serverRun_providersMatch run⟩

/-- A client subscribes and unsubscribes before the executor has run. -/
def droppedEvents : List (ServerEvent Nat Nat) :=
  [.subscribe 1 "state", .unSubscribe 1 "state", .iterate, .finishIteration [],
    .taskDone 0 (.plain 7), .iterate]

/-- The executor starts a provider nobody subscribes to and ends with a `KeyError`. -/
theorem serverRun_not_providersMatch :
    ∃ server,
      Transition.Run (serverStep ["state", "log"]) (fun _ _ => True)
        (EventServer.initial : EventServer Nat Nat) droppedEvents server ∧
      ¬ ProvidersMatch server := by
  have stops :
      (Transition.execute (serverStep ["state", "log"]) (fun _ _ => True)
          (EventServer.initial : EventServer Nat Nat) droppedEvents).any
        (fun server =>
          match server.phase with
          | .stopped error => error = .keyError "state"
          | _ => false) = true := by
    decide +kernel
  obtain ⟨server, executed, stopped⟩ := (Option.any_eq_true _ _).mp stops
  refine ⟨server, .of_execute executed, ?_⟩
  intro providers
  split at stopped
  · rename_i error isStopped
    exact providers.running error isStopped
  · cases stopped

/-! ## Handlers and tables, whatever the executor does -/

variable {allEvProviders : List EventKey}

/-- No step parts the two tables; the executor and its tasks write neither. -/
theorem serverStep_tablesAgree
    {server after : EventServer Client Data}
    {event : ServerEvent Client Data}
    (agree : server.TablesAgree)
    (stepped : serverStep allEvProviders server event = some after) :
    after.TablesAgree := by
  cases event with
  | subscribe client key =>
      cases stepped
      exact (EventServer.subscribe_spec allEvProviders agree).2
  | unSubscribe client key =>
      obtain ⟨final, reply, handled, _, agreeAfter⟩ :=
        EventServer.unSubscribe_spec allEvProviders client key agree
      simp only [serverStep, handled] at stepped
      exact Option.some.inj stepped ▸ agreeAfter
  | disconnect client =>
      obtain ⟨final, handled, _, agreeAfter⟩ := EventServer.disconnect_spec client agree
      simp only [serverStep, handled] at stepped
      exact Option.some.inj stepped ▸ agreeAfter
  | taskDone task result =>
      simp only [serverStep] at stepped
      split at stepped <;> cases stepped
      exact agree
  | iterate =>
      simp only [serverStep] at stepped
      split at stepped
      · split at stepped <;> cases stepped
        simp only [EventServer.iterate]
        split <;> exact agree
      · cases stepped
  | finishIteration outcomes =>
      simp only [serverStep] at stepped
      split at stepped
      · split at stepped <;> cases stepped
        unfold EventServer.finishIteration
        split
        · exact agree
        · split <;> exact agree
      · cases stepped

/-- A closed connection has no events. -/
theorem EventServer.not_hasEvent_of_disconnect
    {server after : EventServer Client Data}
    {client : Client}
    (closed : server.disconnect client = .ok after)
    (key : EventKey) :
    ¬after.HasEvent client key := by
  simp only [disconnect, dropClient] at closed
  cases found : server.clientToEvents.get? client with
  | none =>
      simp only [found, bind, Except.bind] at closed
      cases closed
      simp [HasEvent, triggerDelete, found]
  | some events =>
      cases dropped : dropEvents client events.toList server <;>
        simp only [found, dropped, bind, Except.bind] at closed <;> cases closed
      simp [HasEvent, triggerDelete]

/-- In every run the two tables agree, no handler fails, and a connection that is closed
subscribes to nothing. -/
theorem serverRun_handlersSafe
    {events : List (ServerEvent Client Data)}
    {server : EventServer Client Data}
    (run :
      Transition.Run (serverStep allEvProviders) (fun _ _ => True) EventServer.initial
        events server) :
    server.TablesAgree ∧
      (∀ client key, ∃ handled, server.unSubscribe allEvProviders client key = .ok handled) ∧
      ∀ client, ∃ after, server.disconnect client = .ok after ∧
        ∀ key, ¬after.Subscribed client key := by
  have agree : server.TablesAgree :=
    run.invariant ServerInv.initial.tables fun _ _ _ agree _ => serverStep_tablesAgree agree
  refine ⟨agree, fun client key => ?_, fun client => ?_⟩
  · obtain ⟨after, reply, handled, _⟩ :=
      EventServer.unSubscribe_spec allEvProviders client key agree
    exact ⟨_, handled⟩
  · obtain ⟨after, closed, _, agreeAfter⟩ := EventServer.disconnect_spec client agree
    refine ⟨after, closed, fun key subscribed => ?_⟩
    exact EventServer.not_hasEvent_of_disconnect closed key
      ((agreeAfter client key).mp subscribed)

/-- The handlers outlive the executor. -/
theorem serverRun_handlersSafe_dropped :
    ∃ server,
      Transition.execute (serverStep ["state", "log"]) (fun _ _ => True)
          (EventServer.initial : EventServer Nat Nat) droppedEvents = some server ∧
        server.TablesAgree := by
  obtain ⟨server, executed⟩ := Option.isSome_iff_exists.mp
    (show (Transition.execute (serverStep ["state", "log"]) (fun _ _ => True)
      (EventServer.initial : EventServer Nat Nat) droppedEvents).isSome by decide +kernel)
  exact ⟨server, executed, (serverRun_handlersSafe (.of_execute executed)).1⟩

end TensorPC.Events
