import TensorPC.Flowplus.ScheduleLoop
import TensorPC.Lib.Transition

namespace TensorPC.Flowplus

/-!
# The inputs of a round

Where the values of merged inputs come from, and what the top of a round does
with the inputs it finds when it loses nothing.
-/

variable {V : Type}

/-! ## Values -/

theorem valueAt_mergeInputs
    (first second : InputsByNode V)
    (node handle : String) :
    valueAt (mergeInputs first second) node handle =
      if second.contains node then
        valueAt second node handle
      else
        valueAt first node handle := by
  have looked := Dict.get?_update first second node
  cases there : second.get? node with
  | none =>
      simp [valueAt, mergeInputs, looked, Dict.contains, there]
  | some values =>
      simp [valueAt, mergeInputs, looked, Dict.contains, there]

theorem contains_mergeInputs
    (first second : InputsByNode V)
    (node : String) :
    (mergeInputs first second).contains node =
      (second.contains node || first.contains node) := by
  simp only [mergeInputs, Dict.get?_update, Dict.contains, Option.isSome_or]

theorem contains_of_valueAt
    {inputs : InputsByNode V}
    {node handle : String}
    {value : HandleValue V}
    (found : valueAt inputs node handle = some value) :
    inputs.contains node = true := by
  obtain ⟨values, there, -⟩ := Option.bind_eq_some_iff.mp found
  simp [Dict.contains, there]

theorem NoValues.valueAt_eq_none
    {inputs : InputsByNode V}
    {node : String}
    (noValues : NoValues inputs node)
    (handle : String) :
    valueAt inputs node handle = none := by
  cases found : valueAt inputs node handle with
  | none =>
      rfl
  | some value =>
      obtain ⟨values, there, inside⟩ := Option.bind_eq_some_iff.mp found
      have listed : handle ∈ values.keys :=
        Dict.mem_keys_iff.mpr (by simp [inside])
      simp only [NoValues, there, Option.getD_some] at noValues
      simp [noValues] at listed

theorem KeepsValues.valueAt
    {first second : InputsByNode V}
    {node handle : String}
    {value : HandleValue V}
    (keeps : KeepsValues first second node)
    (found : valueAt first node handle = some value) :
    valueAt second node handle = some value := by
  obtain ⟨values, there, inside⟩ := Option.bind_eq_some_iff.mp found
  refine keeps (handle, value) ?_
  rw [there, Option.getD_some]
  exact (Dict.mem_entries_iff values).mpr inside

/-! ## Nodes -/

namespace FlowGraph

variable {graph : FlowGraph}

theorem mem_of_mapM_getNodeById
    {ids : List String}
    {nodes : List FlowNode}
    (found : ids.mapM graph.getNodeById = some nodes)
    {id : String}
    (member : id ∈ ids) :
    ∃ node ∈ nodes, node.id = id := by
  induction ids generalizing nodes with
  | nil =>
      simp at member
  | cons first rest inductionHypothesis =>
      simp only [List.mapM_cons, Option.bind_eq_bind, Option.bind_eq_some_iff,
        Option.pure_def, Option.some.injEq] at found
      obtain ⟨node, isNode, others, areOthers, rfl⟩ := found
      rcases List.mem_cons.mp member with rfl | inRest
      · exact ⟨node, by simp, graph.keyed _ node isNode⟩
      · obtain ⟨other, isOther, same⟩ := inductionHypothesis areOthers inRest
        exact ⟨other, by simp [isOther], same⟩

theorem exists_mapM_getNodeById
    {ids : List String}
    (there : ∀ id ∈ ids, graph.idToNode.contains id = true) :
    ∃ nodes, ids.mapM graph.getNodeById = some nodes := by
  induction ids with
  | nil =>
      exact ⟨[], rfl⟩
  | cons first rest inductionHypothesis =>
      obtain ⟨nodes, found⟩ :=
        inductionHypothesis fun id member => there id (by simp [member])
      obtain ⟨node, isNode⟩ :=
        Option.isSome_iff_exists.mp (there first (by simp))
      have isNode : graph.getNodeById first = some node := isNode
      exact ⟨node :: nodes, by simp [List.mapM_cons, isNode, found]⟩

end FlowGraph

/-! ## Nodes that wait for an ancestor -/

theorem exists_foldlM_scheduleInFuture
    {graph : FlowGraph}
    {inputs : InputsByNode V}
    {ids : List String}
    {lacking : List FlowNode}
    (there : ∀ node ∈ lacking, (graph.getAllParentNodes node.id).isSome = true)
    (start : InputsByNode V) :
    ∃ inFuture,
      lacking.foldlM (scheduleInFuture graph inputs ids) start = some inFuture := by
  induction lacking generalizing start with
  | nil =>
      exact ⟨start, rfl⟩
  | cons node rest inductionHypothesis =>
      obtain ⟨parents, listed⟩ := Option.isSome_iff_exists.mp (there node (by simp))
      have others := inductionHypothesis fun other member => there other (by simp [member])
      simp only [List.foldlM_cons, scheduleInFuture, listed, Option.bind_eq_bind,
        Option.bind_some]
      split
      · exact others _
      · exact others _

/-- A node that is kept for a later round stays kept. -/
theorem foldlM_scheduleInFuture_keeps
    {graph : FlowGraph}
    {inputs : InputsByNode V}
    {ids : List String}
    {lacking : List FlowNode}
    {start inFuture : InputsByNode V}
    {id : String}
    (computed : lacking.foldlM (scheduleInFuture graph inputs ids) start = some inFuture)
    (kept : start.get? id = some ((inputs.get? id).getD .empty)) :
    inFuture.get? id = some ((inputs.get? id).getD .empty) := by
  induction lacking generalizing start with
  | nil =>
      simp only [List.foldlM_nil, Option.pure_def, Option.some.injEq] at computed
      rw [← computed, kept]
  | cons node rest inductionHypothesis =>
      simp only [List.foldlM_cons, Option.bind_eq_bind, Option.bind_eq_some_iff]
        at computed
      obtain ⟨middle, first, others⟩ := computed
      refine inductionHypothesis others ?_
      simp only [scheduleInFuture, Option.bind_eq_bind, Option.bind_eq_some_iff] at first
      obtain ⟨parents, -, chosen⟩ := first
      split at chosen
      · cases chosen
        rw [Dict.get?_set]
        split
        · rename_i same
          rw [same]
        · exact kept
      · cases chosen
        exact kept

/-- A node with an ancestor that is started is kept for a later round. -/
theorem get?_foldlM_scheduleInFuture
    {graph : FlowGraph}
    {inputs : InputsByNode V}
    {ids : List String}
    {lacking : List FlowNode}
    {start inFuture : InputsByNode V}
    (computed : lacking.foldlM (scheduleInFuture graph inputs ids) start = some inFuture)
    {node : FlowNode}
    (member : node ∈ lacking)
    (hasParent :
      ∃ parent ∈ (graph.getAllParentNodes node.id).getD [], parent ∈ ids) :
    inFuture.get? node.id = some ((inputs.get? node.id).getD .empty) := by
  induction lacking generalizing start with
  | nil =>
      simp at member
  | cons head rest inductionHypothesis =>
      simp only [List.foldlM_cons, Option.bind_eq_bind, Option.bind_eq_some_iff]
        at computed
      obtain ⟨middle, first, others⟩ := computed
      rcases List.mem_cons.mp member with rfl | inRest
      · refine foldlM_scheduleInFuture_keeps others ?_
        simp only [scheduleInFuture, Option.bind_eq_bind, Option.bind_eq_some_iff] at first
        obtain ⟨parents, listed, chosen⟩ := first
        obtain ⟨parent, isParent, runs⟩ := hasParent
        rw [listed, Option.getD_some] at isParent
        have any : parents.any ids.contains = true :=
          List.any_eq_true.mpr ⟨parent, isParent, by simpa using runs⟩
        rw [if_pos any] at chosen
        cases chosen
        rw [Dict.get?_set_self]
      · exact inductionHypothesis others inRest

/-! ## The top of a round -/

/-- Nodes with inputs are listed. -/
def Listed (nodes : List FlowNode) (inputs : InputsByNode V) : Prop :=
  ∀ id, inputs.contains id = true → ∃ node ∈ nodes, node.id = id

theorem Listed.merge
    {graph : FlowGraph}
    {nodes others : List FlowNode}
    {inputs waiting : InputsByNode V}
    (listed : Listed nodes inputs)
    (found : waiting.keys.mapM graph.getNodeById = some others) :
    Listed (nodes ++ others) (mergeInputs inputs waiting) := by
  intro id inside
  rw [contains_mergeInputs, Bool.or_eq_true] at inside
  rcases inside with isWaiting | isInput
  · obtain ⟨node, member, same⟩ :=
      FlowGraph.mem_of_mapM_getNodeById found (Dict.mem_keys_iff.mpr isWaiting)
    exact ⟨node, by simp [member], same⟩
  · obtain ⟨node, member, same⟩ := listed id isInput
    exact ⟨node, by simp [member], same⟩

/-- How a round that loses nothing begins. -/
inductive TopCases (flow : ComputeFlow V) (loop : ScheduleLoop V) : Prop where
  | leaves
      (left : loop.top flow.graph flow.waitNodeInputs = .leaves)
      (nothing : ∀ node handle, valueAt (nextNodeInputs flow loop) node handle = none)
  | starts
      (inFuture : InputsByNode V)
      (started :
        loop.top flow.graph flow.waitNodeInputs =
          .starts (nextNodes flow loop) (runnable flow loop) (nextNodeInputs flow loop)
            inFuture)
      (kept :
        ∀ node ∈ nextNodes flow loop,
          canRun (nextNodeInputs flow loop) loop.curAnodeIters node = false →
            ∀ handle value,
              valueAt (nextNodeInputs flow loop) node.id handle = some value →
                valueAt inFuture node.id handle = some value)

theorem topCases
    {flow : ComputeFlow V}
    {number : Nat}
    {loop : ScheduleLoop V}
    (listed : Listed loop.nodesToSchedule loop.curNodeInputs)
    (fits : TopFits flow number loop) :
    TopCases flow loop := by
  obtain ⟨waitNodes, found⟩ := FlowGraph.exists_mapM_getNodeById fits.found
  have waiting : waitingNodes flow = waitNodes := by
    rw [waitingNodes, found, Option.getD_some]
  have nodes : nextNodes flow loop = loop.nodesToSchedule ++ waitNodes := by
    rw [nextNodes, waiting]
  have allListed : Listed (nextNodes flow loop) (nextNodeInputs flow loop) := by
    rw [nodes]
    exact listed.merge found
  by_cases idle :
      (loop.nodesToSchedule.isEmpty && flow.waitNodeInputs.keys.isEmpty) = true
  · refine .leaves (by rw [ScheduleLoop.top, if_pos idle]) fun node handle => ?_
    simp only [Bool.and_eq_true, List.isEmpty_iff] at idle
    cases value : valueAt (nextNodeInputs flow loop) node handle with
    | none =>
        rfl
    | some value =>
        obtain ⟨listedNode, member, -⟩ := allListed node (contains_of_valueAt value)
        simp only [idle.2, List.mapM_nil, Option.pure_def, Option.some.injEq] at found
        rw [nodes, idle.1, ← found] at member
        simp at member
  · let lacking :=
      (nextNodes flow loop).filter
        (!canRun (nextNodeInputs flow loop) loop.curAnodeIters ·)
    have parents :
        ∀ node ∈ lacking, (flow.graph.getAllParentNodes node.id).isSome = true := by
      intro node member
      simp only [lacking, List.mem_filter, Bool.not_eq_true'] at member
      exact fits.parents node member.1 member.2
    obtain ⟨inFuture, computed⟩ :=
      @exists_foldlM_scheduleInFuture _ _ (nextNodeInputs flow loop)
        ((runnable flow loop).map (·.id)) _ parents .empty
    have filtered :
        filterNodeCantSchedule flow.graph (nextNodes flow loop)
            (nextNodeInputs flow loop) loop.curAnodeIters =
          some (runnable flow loop, inFuture) := by
      simp only [filterNodeCantSchedule, Option.bind_eq_bind]
      exact Option.bind_eq_some_iff.mpr ⟨inFuture, computed, rfl⟩
    have hasTop :
        loop.top flow.graph flow.waitNodeInputs =
          if (runnable flow loop).isEmpty && inFuture.keys.isEmpty then
            .leaves
          else
            .starts (nextNodes flow loop) (runnable flow loop)
              (nextNodeInputs flow loop) inFuture := by
      rw [ScheduleLoop.top, if_neg idle, found]
      simp only [← nodes, ← nextNodeInputs.eq_def, filtered]
    have kept :
        ∀ node ∈ nextNodes flow loop,
          canRun (nextNodeInputs flow loop) loop.curAnodeIters node = false →
            ∀ handle value,
              valueAt (nextNodeInputs flow loop) node.id handle = some value →
                valueAt inFuture node.id handle = some value := by
      intro node member cannotRun handle value there
      rcases fits.lacking node member cannotRun with hasParent | noValues
      · have inLacking : node ∈ lacking := by
          simp [lacking, member, cannotRun]
        have isKept := get?_foldlM_scheduleInFuture computed inLacking hasParent
        obtain ⟨values, hasValues, inside⟩ := Option.bind_eq_some_iff.mp there
        rw [hasValues, Option.getD_some] at isKept
        simp [valueAt, isKept, inside]
      · rw [noValues.valueAt_eq_none] at there
        cases there
    by_cases nothingToDo :
        ((runnable flow loop).isEmpty && inFuture.keys.isEmpty) = true
    · refine .leaves (by rw [hasTop, if_pos nothingToDo]) fun node handle => ?_
      simp only [Bool.and_eq_true, List.isEmpty_iff] at nothingToDo
      cases there : valueAt (nextNodeInputs flow loop) node handle with
      | none =>
          rfl
      | some value =>
          obtain ⟨listedNode, member, rfl⟩ := allListed node (contains_of_valueAt there)
          cases runs :
              canRun (nextNodeInputs flow loop) loop.curAnodeIters listedNode with
          | true =>
              have isRunnable : listedNode ∈ runnable flow loop := by
                simp [runnable, member, runs]
              simp [nothingToDo.1] at isRunnable
          | false =>
              have inFutureToo := kept listedNode member runs handle value there
              have isKey := Dict.mem_keys_iff.mpr (contains_of_valueAt inFutureToo)
              simp [nothingToDo.2] at isKey
    · exact .starts inFuture (by rw [hasTop, if_neg nothingToDo]) kept

/-!
# Requests are kept

While no step drops or overwrites inputs, starts a node twice in a round or
raises, what nodes are owed waits or is kept by a running loop, and a round gives
every node that it starts all it is owed.
-/

/-! ## The invariant -/

/-- What the permitted steps keep. -/
structure Sound (flow : ComputeFlow V) : Prop where
  live : flow.hasScheduleTask = true → ∃ loop ∈ flow.loops, loop.isLive = true
  passed :
    ∀ given ∈ flow.passed, ∀ handle value,
      given.owed handle = some value → given.inputs.get? handle = some value
  held :
    ∀ node handle value, flow.owed node handle = some value →
      valueAt flow.waitNodeInputs node handle = some value ∨
        ∃ (number : Nat) (loop : ScheduleLoop V), flow.loops[number]? = some loop ∧
          valueAt loop.held node handle = some value
  begun :
    ∀ (number : Nat) loop, flow.loops[number]? = some loop → loop.phase = .saving →
      Listed loop.nodesToSchedule loop.curNodeInputs
  once : flow.starts.Nodup
  known :
    ∀ start ∈ flow.starts, ∃ loop, flow.loops[start.loop]? = some loop ∧
      start.round ≤ loop.round ∧
        (start.round = loop.round → ∀ node ∈ loop.remaining, node.id ≠ start.node)
  remaining :
    ∀ (number : Nat) loop, flow.loops[number]? = some loop →
      (loop.remaining.map (·.id)).Nodup

theorem Sound.requestsKept {flow : ComputeFlow V} (sound : Sound flow) :
    RequestsKept flow where
  idle noneLive := by
    refine Bool.eq_false_iff.mpr fun hasTask => ?_
    obtain ⟨loop, member, live⟩ := sound.live hasTask
    simp [noneLive loop member] at live
  passed := sound.passed
  held node handle value owed := by
    rcases sound.held node handle value owed with waiting | ⟨number, loop, there, inside⟩
    · exact .inl waiting
    · exact .inr ⟨loop, List.mem_of_getElem? there, inside⟩
  once := sound.once

theorem sound_init (graph : FlowGraph) : Sound (ComputeFlow.init graph : ComputeFlow V) where
  live hasTask := nomatch hasTask
  passed _ member := nomatch member
  held _ _ _ owed := nomatch owed
  begun _ _ there := by
    simp [ComputeFlow.init] at there
  once := List.nodup_nil
  known _ member := nomatch member
  remaining _ _ there := by
    simp [ComputeFlow.init] at there

/-! ## Steps inside a loop -/

/-- A loop goes on within a round: it keeps its inputs and starts no node. -/
structure Follows (old new : ScheduleLoop V) : Prop where
  held :
    ∀ node handle value, valueAt old.held node handle = some value →
      valueAt new.held node handle = some value
  begun : new.phase = .saving → Listed new.nodesToSchedule new.curNodeInputs
  round : new.round = old.round
  remaining : new.remaining.Sublist old.remaining

/-- The invariant is kept when every loop goes on within its round. -/
theorem Sound.follow
    {flow : ComputeFlow V}
    (sound : Sound flow)
    (hasScheduleTask : Bool)
    (loops : List (ScheduleLoop V))
    (live : hasScheduleTask = true → ∃ loop ∈ loops, loop.isLive = true)
    (length : loops.length = flow.loops.length)
    (follows :
      ∀ (number : Nat) old new,
        flow.loops[number]? = some old → loops[number]? = some new → Follows old new) :
    Sound { flow with loops := loops, hasScheduleTask := hasScheduleTask } := by
  have forth :
      ∀ (number : Nat) old, flow.loops[number]? = some old →
        ∃ new, loops[number]? = some new ∧ Follows old new := by
    intro number old there
    have bound := (List.getElem?_eq_some_iff.mp there).1
    rw [← length] at bound
    exact ⟨loops[number], List.getElem?_eq_getElem bound,
      follows number old _ there (List.getElem?_eq_getElem bound)⟩
  have back :
      ∀ (number : Nat) new, loops[number]? = some new →
        ∃ old, flow.loops[number]? = some old ∧ Follows old new := by
    intro number new there
    have bound := (List.getElem?_eq_some_iff.mp there).1
    rw [length] at bound
    exact ⟨flow.loops[number], List.getElem?_eq_getElem bound,
      follows number _ new (List.getElem?_eq_getElem bound) there⟩
  refine ⟨live, sound.passed, ?_, ?_, sound.once, ?_, ?_⟩
  · intro node handle value owed
    rcases sound.held node handle value owed with waiting | ⟨number, old, there, inside⟩
    · exact .inl waiting
    · obtain ⟨new, isNew, goesOn⟩ := forth number old there
      exact .inr ⟨number, new, isNew, goesOn.held _ _ _ inside⟩
  · intro number new there
    obtain ⟨old, -, goesOn⟩ := back number new there
    exact goesOn.begun
  · intro start member
    obtain ⟨old, there, bound, notAgain⟩ := sound.known start member
    obtain ⟨new, isNew, goesOn⟩ := forth start.loop old there
    refine ⟨new, isNew, by rw [goesOn.round]; exact bound, fun same node inNew => ?_⟩
    rw [goesOn.round] at same
    exact notAgain same node (goesOn.remaining.subset inNew)
  · intro number new there
    obtain ⟨old, wasThere, goesOn⟩ := back number new there
    exact (sound.remaining number old wasThere).sublist (goesOn.remaining.map _)

/-- The invariant is kept when one loop goes on within its round. -/
theorem Sound.followLoop
    {flow : ComputeFlow V}
    {number : Nat}
    {old new : ScheduleLoop V}
    (sound : Sound flow)
    (there : flow.loops[number]? = some old)
    (hasScheduleTask : Bool)
    (live :
      hasScheduleTask = true → flow.hasScheduleTask = true ∧ new.isLive = true)
    (follows : Follows old new) :
    Sound
      { flow.setLoop number new with hasScheduleTask := hasScheduleTask } := by
  have bound := (List.getElem?_eq_some_iff.mp there).1
  refine sound.follow hasScheduleTask (flow.loops.set number new) (fun hasTask => ?_)
    (by simp) ?_
  · exact ⟨new, List.mem_of_getElem? (List.getElem?_set_self bound), (live hasTask).2⟩
  · intro other before after wasThere isThere
    by_cases same : number = other
    · subst same
      rw [List.getElem?_set_self bound, Option.some.injEq] at isThere
      rw [there, Option.some.injEq] at wasThere
      rw [← isThere, ← wasThere]
      exact follows
    · rw [List.getElem?_set_ne same, wasThere, Option.some.injEq] at isThere
      subst isThere
      exact ⟨fun _ _ _ => id, sound.begun other before wasThere, rfl, .refl _⟩

/-- A node is started: it is not among the nodes that the round started before. -/
theorem Sound.started
    {flow : ComputeFlow V}
    {number : Nat}
    {loop new : ScheduleLoop V}
    {node : FlowNode}
    (sound : Sound flow)
    (there : flow.loops[number]? = some loop)
    (isNext : loop.remaining = node :: new.remaining)
    (phase : new.phase = .running)
    (round : new.round = loop.round)
    (held :
      ∀ node handle value, valueAt loop.held node handle = some value →
        valueAt new.held node handle = some value) :
    Sound
      ({ flow with starts := flow.starts ++ [NodeStart.mk number loop.round node.id] }.setLoop
        number new) := by
  have follows : Follows loop new :=
    ⟨held, fun saving => by simp [phase] at saving, round, by simp [isNext]⟩
  have isLive : new.isLive = true := by
    simp [ScheduleLoop.isLive, phase]
  have followed :=
    sound.followLoop there flow.hasScheduleTask (fun hasTask => ⟨hasTask, isLive⟩)
      follows
  have bound := (List.getElem?_eq_some_iff.mp there).1
  have distinct := sound.remaining number loop there
  rw [isNext, List.map_cons, List.nodup_cons] at distinct
  refine ⟨followed.live, followed.passed, followed.held, followed.begun, ?_, ?_,
    followed.remaining⟩
  · refine List.nodup_append.mpr ⟨sound.once, List.nodup_singleton _, ?_⟩
    intro start member other isOther same
    rw [List.mem_singleton] at isOther
    obtain ⟨known, isKnown, -, notAgain⟩ := sound.known start member
    subst same isOther
    rw [there, Option.some.injEq] at isKnown
    subst isKnown
    exact notAgain rfl node (by simp [isNext]) rfl
  · intro start member
    rcases List.mem_append.mp member with earlier | now
    · exact followed.known start earlier
    · rw [List.mem_singleton] at now
      subst now
      refine
        ⟨new, List.getElem?_set_self bound, Nat.le_of_eq round.symm,
          fun _ other inRest same => ?_⟩
      exact distinct.1 (List.mem_map.mpr ⟨other, inRest, same⟩)

/-! ## The top of a round -/

/-- What holds before a loop chooses the nodes of its next round. -/
structure AtTop
    (flow : ComputeFlow V)
    (number : Nat)
    (loop : ScheduleLoop V) : Prop where
  there :
    ∃ old, flow.loops[number]? = some old ∧ old.round = loop.round ∧
      old.remaining = loop.remaining
  listed : Listed loop.nodesToSchedule loop.curNodeInputs
  held :
    ∀ node handle value, flow.owed node handle = some value →
      valueAt flow.waitNodeInputs node handle = some value ∨
        valueAt loop.curNodeInputs node handle = some value ∨
          ∃ (other : Nat) (held : ScheduleLoop V),
            other ≠ number ∧ flow.loops[other]? = some held ∧
            valueAt held.held node handle = some value
  passed :
    ∀ given ∈ flow.passed, ∀ handle value,
      given.owed handle = some value → given.inputs.get? handle = some value
  begun :
    ∀ (number : Nat) loop, flow.loops[number]? = some loop → loop.phase = .saving →
      Listed loop.nodesToSchedule loop.curNodeInputs
  once : flow.starts.Nodup
  known :
    ∀ start ∈ flow.starts, ∃ loop, flow.loops[start.loop]? = some loop ∧
      start.round ≤ loop.round ∧
        (start.round = loop.round → ∀ node ∈ loop.remaining, node.id ≠ start.node)
  remaining :
    ∀ (number : Nat) loop, flow.loops[number]? = some loop →
      (loop.remaining.map (·.id)).Nodup

namespace AtTop

variable {flow : ComputeFlow V} {number : Nat} {loop : ScheduleLoop V}

theorem next
    (atTop : AtTop flow number loop)
    (fits : TopFits flow number loop)
    {node handle : String}
    {value : HandleValue V}
    (owed : flow.owed node handle = some value) :
    valueAt (nextNodeInputs flow loop) node handle = some value ∨
      ∃ (other : Nat) (held : ScheduleLoop V),
        other ≠ number ∧ flow.loops[other]? = some held ∧
        valueAt held.held node handle = some value := by
  rw [nextNodeInputs, valueAt_mergeInputs]
  rcases atTop.held node handle value owed with waiting | current | others
  · rw [if_pos (contains_of_valueAt waiting)]
    exact .inl waiting
  · split
    · rename_i waits
      exact .inl ((fits.merged node (Dict.mem_keys_iff.mpr waits)).valueAt current)
    · exact .inl current
  · exact .inr others

theorem getElem?_set_of_ne
    {loops : List (ScheduleLoop V)}
    {other : Nat}
    {found new : ScheduleLoop V}
    (different : other ≠ number)
    (there : loops[other]? = some found) :
    (loops.set number new)[other]? = some found := by
  rw [List.getElem?_set_ne (Ne.symm different), there]

/-- A round that loses nothing keeps the invariant. -/
theorem runTop
    (atTop : AtTop flow number loop)
    (fits : TopFits flow number loop) :
    Sound (flow.runTop number loop) := by
  obtain ⟨old, there, sameRound, sameRemaining⟩ := atTop.there
  have bound := (List.getElem?_eq_some_iff.mp there).1
  have begun :
      ∀ new : ScheduleLoop V, new.phase ≠ .saving →
        ∀ (other : Nat) found, (flow.loops.set number new)[other]? = some found →
          found.phase = .saving →
            Listed found.nodesToSchedule found.curNodeInputs := by
    intro new notSaving other found isThere saving
    by_cases same : number = other
    · subst same
      rw [List.getElem?_set_self bound, Option.some.injEq] at isThere
      subst isThere
      exact absurd saving notSaving
    · rw [List.getElem?_set_ne same] at isThere
      exact atTop.begun other found isThere saving
  have known :
      ∀ new : ScheduleLoop V,
        (new.round = loop.round ∧ new.remaining = loop.remaining ∨
          loop.round < new.round) →
        ∀ start ∈ flow.starts, ∃ found,
          (flow.loops.set number new)[start.loop]? = some found ∧
            start.round ≤ found.round ∧
              (start.round = found.round →
                ∀ node ∈ found.remaining, node.id ≠ start.node) := by
    intro new goesOn start member
    obtain ⟨found, isThere, atMost, notAgain⟩ := atTop.known start member
    by_cases same : number = start.loop
    · rw [← same, there, Option.some.injEq] at isThere
      subst isThere
      rw [← same]
      refine ⟨new, List.getElem?_set_self bound, ?_⟩
      rw [sameRound] at atMost notAgain
      rw [sameRemaining] at notAgain
      rcases goesOn with ⟨round, remaining⟩ | later
      · rw [round, remaining]
        exact ⟨atMost, notAgain⟩
      · exact ⟨by omega, fun equal => by omega⟩
    · exact ⟨found, getElem?_set_of_ne (Ne.symm same) isThere, atMost, notAgain⟩
  have remaining :
      ∀ new : ScheduleLoop V, (new.remaining.map (·.id)).Nodup →
        ∀ (other : Nat) found, (flow.loops.set number new)[other]? = some found →
          (found.remaining.map (·.id)).Nodup := by
    intro new distinct other found isThere
    by_cases same : number = other
    · subst same
      rw [List.getElem?_set_self bound, Option.some.injEq] at isThere
      subst isThere
      exact distinct
    · rw [List.getElem?_set_ne same] at isThere
      exact atTop.remaining other found isThere
  cases topCases atTop.listed fits with
  | leaves left nothing =>
      rw [ComputeFlow.runTop, left]
      dsimp only [ComputeFlow.leave, ComputeFlow.setLoop]
      refine ⟨nofun, atTop.passed, ?_,
        begun _ (by simp), atTop.once, known _ (.inl ⟨rfl, rfl⟩), remaining _ ?_⟩
      · intro node handle value owed
        rcases atTop.next fits owed with now | ⟨other, found, different, isThere, inside⟩
        · rw [nothing] at now
          cases now
        · exact .inr ⟨other, found, getElem?_set_of_ne different isThere, inside⟩
      · have distinct := atTop.remaining number old there
        rw [sameRemaining] at distinct
        exact distinct
  | starts inFuture started kept =>
      rw [ComputeFlow.runTop, started]
      dsimp only
      have isGiven :
          ∀ node ∈ runnable flow loop, loop.curAnodeIters.contains node.id = false →
            ⟨node.id, ((nextNodeInputs flow loop).get? node.id).getD .empty,
                flow.owed node.id⟩ ∈
              ComputeFlow.passedNow flow.owed loop (runnable flow loop)
                (nextNodeInputs flow loop) := by
        intro node member notRunning
        refine List.mem_map.mpr ⟨node, List.mem_filter.mpr ⟨member, ?_⟩, rfl⟩
        rw [notRunning]
        rfl
      refine ⟨fun _ => ⟨_, List.mem_of_getElem? (List.getElem?_set_self bound), rfl⟩,
        ?_, ?_, begun _ (by simp), atTop.once,
        known _ (.inr (Nat.lt_succ_self _)), remaining _ fits.distinct⟩
      · intro given member handle value owed
        rcases List.mem_append.mp member with earlier | now
        · exact atTop.passed given earlier handle value owed
        · obtain ⟨node, isNode, rfl⟩ := List.mem_map.mp now
          have isRunnable := (List.mem_filter.mp isNode).1
          rcases atTop.next fits owed with
            here | ⟨other, found, different, isThere, inside⟩
          · obtain ⟨values, hasValues, isValue⟩ := Option.bind_eq_some_iff.mp here
            rw [hasValues, Option.getD_some]
            exact isValue
          · have indexed : (found, other) ∈ flow.loops.zipIdx :=
              List.mem_zipIdx_iff_getElem?.mpr isThere
            rw [(fits.others _ indexed different node isRunnable).valueAt_eq_none]
              at inside
            cases inside
      · intro node handle value owed
        simp only [Owed.remove] at owed
        split at owed
        · cases owed
        · rename_i notGiven
          rcases atTop.next fits owed with
            here | ⟨other, found, different, isThere, inside⟩
          · refine .inr ⟨number, _, List.getElem?_set_self bound, ?_⟩
            obtain ⟨waitNodes, found⟩ := FlowGraph.exists_mapM_getNodeById fits.found
            have allListed : Listed (nextNodes flow loop) (nextNodeInputs flow loop) := by
              rw [nextNodes, waitingNodes, found, Option.getD_some]
              exact atTop.listed.merge found
            obtain ⟨listedNode, member, rfl⟩ := allListed node (contains_of_valueAt here)
            cases runs :
                canRun (nextNodeInputs flow loop) loop.curAnodeIters listedNode with
            | false =>
                exact kept listedNode member runs handle value here
            | true =>
                exfalso
                have isRunnable : listedNode ∈ runnable flow loop := by
                  simp [runnable, member, runs]
                cases running : loop.curAnodeIters.contains listedNode.id with
                | false =>
                    exact notGiven
                      (List.mem_map.mpr ⟨_, isGiven listedNode isRunnable running, rfl⟩)
                | true =>
                    have noValues :=
                      fits.generators listedNode.id (by simpa using running)
                    rw [noValues.valueAt_eq_none] at here
                    cases here
          · exact .inr ⟨other, found, getElem?_set_of_ne different isThere, inside⟩

end AtTop

end TensorPC.Flowplus
