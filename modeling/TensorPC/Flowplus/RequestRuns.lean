import TensorPC.Flowplus.RequestsKept

namespace TensorPC.Flowplus

/-!
# Runs that lose no request

Every permitted step keeps the invariant, and so every state that permitted steps
reach keeps its requests.
-/

open Transition

variable {V : Type}

/-! ## Requests -/

theorem Listed.ofKeys
    {graph : FlowGraph}
    {nodes : List FlowNode}
    {inputs : InputsByNode V}
    (found : inputs.keys.mapM graph.getNodeById = some nodes) :
    Listed nodes inputs :=
  fun _ inside => FlowGraph.mem_of_mapM_getNodeById found (Dict.mem_keys_iff.mpr inside)

/-- The nodes with inputs that a request asks for are the nodes that it asks for. -/
theorem Request.listed_of_asked
    {graph : FlowGraph}
    {request : Request V}
    {asked : Asked V}
    (isAsked : request.asked graph = some asked) :
    Listed asked.nodes asked.inputs := by
  cases request with
  | run nodeId =>
      simp only [Request.asked, Option.bind_eq_bind, Option.bind_eq_some_iff] at isAsked
      obtain ⟨roots, -, isAsked⟩ := isAsked
      cases isAsked
      exact fun _ inside => nomatch inside
  | scheduleNode nodeId nodeInputs sync =>
      simp only [Request.asked, Option.bind_eq_bind, Option.bind_eq_some_iff] at isAsked
      obtain ⟨node, found, isAsked⟩ := isAsked
      cases isAsked
      intro id inside
      have same : id = nodeId := by
        by_contra different
        rw [Dict.contains, Dict.get?_set_ne _ _ different] at inside
        cases inside
      exact ⟨node, by simp, by rw [graph.keyed nodeId node found, same]⟩
  | scheduleNext nodeId nodeOutput sync =>
      simp only [Request.asked, Option.bind_eq_bind, Option.bind_eq_some_iff] at isAsked
      obtain ⟨inputs, -, nodes, found, isAsked⟩ := isAsked
      cases isAsked
      exact .ofKeys found

theorem QueueFits.valueAt_mergeInputs
    {flow : ComputeFlow V}
    {waiting : InputsByNode V}
    {node handle : String}
    {value : HandleValue V}
    (fits : QueueFits flow waiting)
    (notNew : valueAt waiting node handle = none)
    (old : valueAt flow.waitNodeInputs node handle = some value) :
    valueAt (mergeInputs flow.waitNodeInputs waiting) node handle = some value := by
  rw [Flowplus.valueAt_mergeInputs]
  split
  · rename_i isNew
    obtain ⟨values, there, inside⟩ := Option.bind_eq_some_iff.mp old
    have isHandle : handle ∈ ((flow.waitNodeInputs.get? node).getD .empty).keys := by
      rw [there, Option.getD_some, Dict.mem_keys_iff, inside]
      rfl
    have given := fits node (Dict.mem_keys_iff.mpr isNew) handle isHandle
    simp [notNew] at given
  · exact old

/-- A request keeps the invariant. -/
theorem Sound.handleRequest
    {flow after : ComputeFlow V}
    {request : Request V}
    (sound : Sound flow)
    (fits : Permitted flow (.request request))
    (handled : flow.handleRequest request = some after) :
    Sound after := by
  simp only [ComputeFlow.handleRequest, Option.bind_eq_bind, Option.bind_eq_some_iff]
    at handled
  obtain ⟨asked, isAsked, handled⟩ := handled
  split at handled
  · rename_i queues
    cases handled
    have queueFits := fits asked isAsked queues
    refine ⟨sound.live, sound.passed, ?_, sound.begun, sound.once, sound.known,
      sound.remaining⟩
    intro node handle value owed
    simp only [Owed.add] at owed
    rcases Option.or_eq_some_iff.mp owed with isNew | ⟨notNew, old⟩
    · refine .inl ?_
      rw [valueAt_mergeInputs, if_pos (contains_of_valueAt isNew)]
      exact isNew
    · rcases sound.held node handle value old with waits | kept
      · exact .inl (queueFits.valueAt_mergeInputs notNew waits)
      · exact .inr kept
  · cases handled
    have listed := Request.listed_of_asked isAsked
    -- The new loop is the last one; the others stay where they are.
    have earlier :
        ∀ (number : Nat) (loop : ScheduleLoop V),
          flow.loops[number]? = some loop →
            (flow.loops ++ [ScheduleLoop.init asked.nodes asked.inputs])[number]? =
              some loop := by
      intro number loop there
      rw [List.getElem?_append_left (List.getElem?_eq_some_iff.mp there).1, there]
    have oneOf :
        ∀ (number : Nat) (loop : ScheduleLoop V),
          (flow.loops ++ [ScheduleLoop.init asked.nodes asked.inputs])[number]? =
              some loop →
            flow.loops[number]? = some loop ∨
              loop = .init asked.nodes asked.inputs := by
      intro number loop there
      rcases List.mem_append.mp (List.mem_of_getElem? there) with - | isLast
      · rw [List.getElem?_append] at there
        split at there
        · exact .inl there
        · exact .inr (List.mem_singleton.mp (List.mem_of_getElem? there))
      · exact .inr (List.mem_singleton.mp isLast)
    refine ⟨fun _ => ⟨_, List.mem_append_right _ (List.mem_singleton_self _), rfl⟩,
      sound.passed, ?_, ?_, sound.once, ?_, ?_⟩
    · intro node handle value owed
      simp only [Owed.add] at owed
      rcases Option.or_eq_some_iff.mp owed with isNew | ⟨-, old⟩
      · exact .inr ⟨flow.loops.length, _, List.getElem?_concat_length, isNew⟩
      · rcases sound.held node handle value old with waits | ⟨number, loop, there, kept⟩
        · exact .inl waits
        · exact .inr ⟨number, loop, earlier number loop there, kept⟩
    · intro number loop there saving
      rcases oneOf number loop there with old | rfl
      · exact sound.begun number loop old saving
      · exact listed
    · intro start member
      obtain ⟨loop, there, facts⟩ := sound.known start member
      exact ⟨loop, earlier _ _ there, facts⟩
    · intro number loop there
      rcases oneOf number loop there with old | rfl
      · exact sound.remaining number loop old
      · exact List.nodup_nil

/-! ## Loops -/

theorem loopIn_eq_some
    {flow : ComputeFlow V}
    {number : Nat}
    {phase : LoopPhase}
    {loop : ScheduleLoop V}
    (found : flow.loopIn number phase = some loop) :
    flow.loops[number]? = some loop ∧ loop.phase = phase := by
  simpa [ComputeFlow.loopIn, Option.filter_eq_some_iff] using found

/-- The first stretch of a loop keeps the invariant. -/
theorem Sound.saved
    {flow : ComputeFlow V}
    {number : Nat}
    {loop : ScheduleLoop V}
    (sound : Sound flow)
    (there : flow.loops[number]? = some loop)
    (saving : loop.phase = .saving)
    (fits : SavedFits flow number loop) :
    Sound (flow.saved number loop) := by
  obtain ⟨exist, keeps, topFits⟩ := fits
  obtain ⟨waitNodes, found⟩ := FlowGraph.exists_mapM_getNodeById exist
  have waiting : waitingNodes flow = waitNodes := by
    rw [waitingNodes, found, Option.getD_some]
  rw [waiting] at topFits
  rw [ComputeFlow.saved, found]
  refine AtTop.runTop ⟨⟨loop, there, rfl, rfl⟩, ?_, ?_, sound.passed, sound.begun,
    sound.once, sound.known, sound.remaining⟩ topFits
  · intro id inside
    rw [contains_mergeInputs, Bool.or_eq_true] at inside
    rcases inside with current | waits
    · obtain ⟨node, member, same⟩ := sound.begun number loop there saving id current
      exact ⟨node, by simp [member], same⟩
    · obtain ⟨node, member, same⟩ :=
        FlowGraph.mem_of_mapM_getNodeById found (Dict.mem_keys_iff.mpr waits)
      exact ⟨node, by simp [member], same⟩
  · intro node handle value owed
    have merged :
        (valueAt flow.waitNodeInputs node handle = some value ∨
          valueAt loop.curNodeInputs node handle = some value) →
          valueAt (mergeInputs flow.waitNodeInputs loop.curNodeInputs) node handle =
            some value := by
      rw [valueAt_mergeInputs]
      rintro (waits | current)
      · split
        · rename_i inside
          exact (keeps node (Dict.mem_keys_iff.mpr inside)).valueAt waits
        · exact waits
      · rw [if_pos (contains_of_valueAt current)]
        exact current
    rcases sound.held node handle value owed with waits | ⟨other, held, isThere, inside⟩
    · exact .inr (.inl (merged (.inl waits)))
    · by_cases same : other = number
      · subst same
        rw [there, Option.some.injEq] at isThere
        subst isThere
        simp only [ScheduleLoop.held, saving] at inside
        exact .inr (.inl (merged (.inr inside)))
      · exact .inr (.inr ⟨other, held, same, isThere, inside⟩)

/-- The next inputs are what was delivered, over what was kept. -/
theorem valueAt_nextInputs
    (loop : ScheduleLoop V)
    (delivered : InputsByNode V)
    (node handle : String) :
    valueAt (loop.nextInputs delivered) node handle =
      (valueAt delivered node handle).or (valueAt loop.nodeInputsInFuture node handle) := by
  rcases kept : loop.nodeInputsInFuture with ⟨entries, nodup⟩
  simp only [ScheduleLoop.nextInputs, kept]
  have general :
      ∀ add : InputsByNode V → String × NodeInputs V → InputsByNode V,
        (∀ inputs entry new, inputs.get? entry.1 = some new →
          add inputs entry = inputs.set entry.1 (entry.2.update new.entries)) →
        (∀ inputs entry, inputs.get? entry.1 = none →
          add inputs entry = inputs.set entry.1 entry.2) →
        ∀ (entries : List (String × NodeInputs V)) (start : InputsByNode V),
          (entries.map Prod.fst).Nodup →
          valueAt (entries.foldl add start) node handle =
            (valueAt start node handle).or
              ((entries.lookup node).bind (·.get? handle)) := by
    intro add addToSome addToNone entries
    induction entries with
    | nil =>
        intro start _
        simp
    | cons entry rest inductionHypothesis =>
        rcases entry with ⟨id, inputs⟩
        intro start distinct
        simp only [List.map_cons, List.nodup_cons] at distinct
        rw [List.foldl_cons, inductionHypothesis _ distinct.2]
        by_cases same : node = id
        · subst same
          rw [Dict.lookup_eq_none_of_notMem distinct.1]
          cases there : start.get? node with
          | none =>
              rw [addToNone start (node, inputs) there]
              simp [valueAt, there]
          | some new =>
              rw [addToSome start (node, inputs) new there]
              simp [valueAt, there, Dict.get?_update]
        · have unequal : (node == id) = false := by
            simp [same]
          have unchanged :
              ∀ value : NodeInputs V,
                valueAt (start.set id value) node handle = valueAt start node handle := by
            intro value
            simp only [valueAt, Dict.get?_set_ne _ _ same]
          simp only [List.lookup_cons, unequal]
          cases there : start.get? id with
          | none =>
              rw [addToNone start (id, inputs) there, unchanged]
          | some new =>
              rw [addToSome start (id, inputs) new there, unchanged]
  refine general _ ?_ ?_ entries delivered nodup
  · intro inputs entry new there
    simp only [there]
  · intro inputs entry there
    simp only [there]

/-- The end of a round keeps the invariant. -/
theorem Sound.collected
    {flow : ComputeFlow V}
    {number : Nat}
    {loop : ScheduleLoop V}
    (sound : Sound flow)
    (there : flow.loops[number]? = some loop)
    (collecting : loop.phase = .collecting)
    (fits : EndFits flow number loop) :
    Sound (flow.collected number loop) := by
  obtain ⟨⟨next, delivered⟩, ended⟩ := Option.isSome_iff_exists.mp fits.1
  have topFits := fits.2 _ ended
  rw [ComputeFlow.collected, ended]
  simp only [ScheduleLoop.endRound, Option.bind_eq_bind, Option.bind_eq_some_iff,
    Option.some.injEq, Prod.mk.injEq] at ended
  obtain ⟨results, -, delivered', -, nodes, found, rfl, rfl⟩ := ended
  refine AtTop.runTop ⟨⟨loop, there, rfl, rfl⟩, ?_, ?_, sound.passed, sound.begun,
    sound.once, sound.known, sound.remaining⟩
    ⟨topFits.found, topFits.parents, topFits.merged, topFits.distinct,
      topFits.generators, topFits.lacking, topFits.others⟩
  · intro id inside
    obtain ⟨node, member, same⟩ := Listed.ofKeys found id inside
    exact ⟨node, by simp [member], same⟩
  · intro node handle value owed
    simp only [Owed.add] at owed
    dsimp only
    rw [valueAt_nextInputs]
    rcases Option.or_eq_some_iff.mp owed with isNew | ⟨notNew, old⟩
    · exact .inr (.inl (by rw [isNew]; rfl))
    · rcases sound.held node handle value old with waits | ⟨other, held, isThere, inside⟩
      · exact .inl waits
      · by_cases same : other = number
        · subst same
          rw [there, Option.some.injEq] at isThere
          subst isThere
          simp only [ScheduleLoop.held, collecting] at inside
          exact .inr (.inl (by rw [notNew, inside]; rfl))
        · exact .inr (.inr ⟨other, held, same, isThere, inside⟩)

/-- The start of a node keeps the invariant. -/
theorem Sound.startNode
    {flow after : ComputeFlow V}
    {number : Nat}
    {loop : ScheduleLoop V}
    {outcome : Outcome V}
    (sound : Sound flow)
    (there : flow.loops[number]? = some loop)
    (running : loop.phase = .running)
    (fits : StartFits loop outcome)
    (started : flow.startNode number loop outcome = some after) :
    Sound after := by
  unfold ComputeFlow.startNode at started
  cases isNext : loop.remaining with
  | nil =>
      simp [isNext] at started
  | cons node rest =>
      have sameHeld :
          ∀ new : ScheduleLoop V, new.phase = .running →
            new.nodeInputsInFuture = loop.nodeInputsInFuture →
            ∀ node handle value, valueAt loop.held node handle = some value →
              valueAt new.held node handle = some value := by
        intro new isRunning sameFuture node handle value inside
        simpa only [ScheduleLoop.held, running, isRunning, sameFuture] using inside
      simp only [isNext] at started
      split at started
      · cases started
        exact sound.started there isNext running rfl (sameHeld _ running rfl)
      · rename_i notRunning
        cases kind : node.kind with
        | asyncGenerator =>
            simp only [kind] at started
            cases started
            exact sound.started there isNext running rfl (sameHeld _ running rfl)
        | coroutine =>
            simp only [kind] at started
            cases started
            exact sound.started there isNext running rfl (sameHeld _ running rfl)
        | function =>
            have excluded :=
              fits node (by simp [isNext]) kind (by simpa using notRunning)
            simp only [kind] at started
            cases outcome with
            | returnsDict output =>
                cases started
                exact sound.started there isNext running rfl (sameHeld _ running rfl)
            | raises =>
                cases started
                exact sound.started there isNext running rfl (sameHeld _ running rfl)
            | stopsIteration =>
                cases started
                exact sound.started there isNext running rfl (sameHeld _ running rfl)
            | returnsNone =>
                exact absurd rfl excluded.1
            | returnsOther =>
                exact absurd rfl excluded.2.1
            | raisesBase =>
                exact absurd rfl excluded.2.2

/-! ## Steps and runs -/

/-- A permitted step keeps the invariant. -/
theorem Sound.step
    {flow after : ComputeFlow V}
    {event : FlowEvent V}
    (sound : Sound flow)
    (permitted : Permitted flow event)
    (stepped : flow.step event = some after) :
    Sound after := by
  cases event with
  | request request =>
      exact sound.handleRequest permitted stepped
  | stop =>
      cases stepped
      refine sound.follow flow.hasScheduleTask _ (fun hasTask => ?_) (by simp) ?_
      · obtain ⟨loop, member, live⟩ := sound.live hasTask
        refine ⟨_, List.mem_map_of_mem member, ?_⟩
        split
        · exact live
        · exact live
      · intro number old new wasThere isThere
        rw [List.getElem?_map, wasThere, Option.map_some, Option.some.injEq] at isThere
        subst isThere
        have begun := sound.begun number old wasThere
        split
        · exact ⟨fun _ _ _ => id, begun, rfl, .refl _⟩
        · exact ⟨fun _ _ _ => id, begun, rfl, .refl _⟩
  | deleteNode nodeId =>
      cases stepped
      refine ⟨sound.live, sound.passed, ?_, sound.begun, sound.once, sound.known,
        sound.remaining⟩
      intro node handle value owed
      simp only [ComputeFlow.deleteNode, Owed.remove] at owed
      split at owed
      · cases owed
      · exact sound.held node handle value owed
  | saved number =>
      obtain ⟨loop, found, rfl⟩ := Option.map_eq_some_iff.mp stepped
      obtain ⟨there, saving⟩ := loopIn_eq_some found
      exact sound.saved there saving (permitted loop there)
  | startNode number outcome =>
      obtain ⟨loop, found, started⟩ := Option.bind_eq_some_iff.mp stepped
      obtain ⟨there, running⟩ := loopIn_eq_some found
      exact sound.startNode there running (permitted loop there) started
  | taskDone number task outcome =>
      obtain ⟨loop, found, done⟩ := Option.bind_eq_some_iff.mp stepped
      obtain ⟨there, running⟩ := loopIn_eq_some found
      simp only [ComputeFlow.taskDone, Option.bind_eq_bind, Option.bind_eq_some_iff]
        at done
      obtain ⟨doneTask, -, done⟩ := done
      split at done
      · cases done
        have isLive : loop.isLive = true := by
          simp [ScheduleLoop.isLive, running]
        exact sound.followLoop there flow.hasScheduleTask
          (fun hasTask => ⟨hasTask, isLive⟩)
          ⟨fun _ _ _ => id, sound.begun number loop there, rfl, .refl _⟩
      · cases done
  | wake number sawShutdown =>
      obtain ⟨loop, found, woken⟩ := Option.bind_eq_some_iff.mp stepped
      obtain ⟨there, running⟩ := loopIn_eq_some found
      simp only [ComputeFlow.wake] at woken
      split at woken
      · split at woken
        · rename_i sawIt
          split at woken
          · cases woken
            refine sound.followLoop there flow.hasScheduleTask
              (fun hasTask => ⟨hasTask, rfl⟩) ⟨?_, ?_, rfl, .refl _⟩
            · -- What the round has kept for later is dropped: there is none.
              intro node handle value inside
              simp only [ScheduleLoop.held, running] at inside
              have isKey := Dict.mem_keys_iff.mpr (contains_of_valueAt inside)
              rw [(permitted sawIt loop there node isKey).valueAt_eq_none] at inside
              cases inside
            · intro saving
              cases saving
          · cases woken
        · split at woken
          · cases woken
            refine sound.followLoop there flow.hasScheduleTask
              (fun hasTask => ⟨hasTask, rfl⟩) ⟨?_, ?_, rfl, .refl _⟩
            · intro node handle value inside
              simpa only [ScheduleLoop.held, running] using inside
            · intro saving
              cases saving
          · cases woken
      · cases woken
  | collected number =>
      obtain ⟨loop, found, rfl⟩ := Option.map_eq_some_iff.mp stepped
      obtain ⟨there, collecting⟩ := loopIn_eq_some found
      exact sound.collected there collecting (permitted loop there)
  | cancelled number =>
      obtain ⟨loop, found, rfl⟩ := Option.map_eq_some_iff.mp stepped
      obtain ⟨there, stopping⟩ := loopIn_eq_some found
      refine sound.followLoop there false (fun hasTask => absurd hasTask Bool.false_ne_true)
        ⟨?_, ?_, rfl, .refl _⟩
      · intro node handle value inside
        simp only [ScheduleLoop.held, stopping] at inside
        cases inside
      · intro saving
        cases saving

/-- A node without inputs that hands an output to a node with two inputs. -/
def smallGraph : FlowGraph :=
  { (FlowGraph.empty.addNode
        ⟨"a", [], [⟨"x", false⟩], .coroutine⟩).addNode
        ⟨"b", [⟨"x", false, false⟩, ⟨"y", false, false⟩], [], .coroutine⟩ with
    edges := [⟨"a", "x", "b", "x"⟩] }

/-- The second node waits for an output with a value that was asked for before. -/
def mergedEvents : List (FlowEvent Nat) :=
  [.request (.scheduleNode "a" .empty false),
    .request (.scheduleNode "b" (Dict.empty.set "y" (.value 1)) false),
    .saved 0,
    .startNode 0 .returnsNone,
    .taskDone 0 0 (.returnsDict (Dict.empty.set "x" 2)),
    .wake 0 false,
    .collected 0,
    .startNode 0 .returnsNone,
    .stop,
    .taskDone 0 0 .returnsNone,
    .wake 0 false,
    .collected 0,
    .request (.scheduleNode "a" .empty false),
    .deleteNode "b"]

end TensorPC.Flowplus
