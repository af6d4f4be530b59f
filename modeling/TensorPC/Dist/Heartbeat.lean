import TensorPC.Dist.FaultGroup
import TensorPC.Lib.Transition
import Mathlib.Data.List.Perm.Subperm

namespace TensorPC.Dist

/-!
# When the heartbeat loop gives up

The loop checks the group once in every round, between which workers register.
It gives up when its retry counter passes the limit, so the counter must not run
ahead of the checks that failed since the group was last fully connected.
-/

open Computation

/-! ## The loop and its environment -/

/-- How the heartbeat loop of a process stands. -/
inductive LoopStatus
  | running
  | stopped
  /-- The loop gave up, after so many failed checks in a row. -/
  | gaveUp (failedChecks : Nat)
  | raised (error : PyError)

/--
A process with its heartbeat loop.  `failedChecks` counts the checks in a row that
left the group not fully connected, since it was last fully connected.
-/
structure Loop where
  group : Group
  status : LoopStatus
  failedChecks : Nat

/-- What happens to a process. -/
inductive LoopEvent
  | heartbeat (answers : Answers)
  | setWorkerState (state : FTState)
  | shutdown

namespace Loop

/-- The loop of a new group. -/
def start (group : Group) : Loop where
  group := group
  status := .running
  failedChecks := 0

/-- The number of failed checks in a row once the group is as given. -/
def failedChecksAfter (loop : Loop) (group : Group) (failed : Nat) : Nat :=
  if group.numClientRobjIsValid then
    0
  else
    loop.failedChecks + failed

/-- One round of the loop. -/
def checkOnce (loop : Loop) (answers : Answers) : Loop :=
  match Group.heartbeat answers loop.group with
  | .ok shouldExit group =>
      let failedChecks := loop.failedChecksAfter group 1
      { group := group
        status := if shouldExit then .gaveUp failedChecks else .running
        failedChecks := failedChecks }
  | .error raised group =>
      { group := group
        status := .raised raised
        failedChecks := loop.failedChecks }

/-- A round of the loop, a registration between two rounds, or the shutdown event. -/
def step (loop : Loop) : LoopEvent → Option Loop
  | .heartbeat answers =>
      match loop.status with
      | .running => some (loop.checkOnce answers)
      | _ => none
  | .setWorkerState state =>
      let group := stateAfter (Group.setWorkerState state) loop.group
      some {
        loop with
        group := group
        failedChecks := loop.failedChecksAfter group 0 }
  | .shutdown =>
      match loop.status with
      | .running => some { loop with status := .stopped }
      | _ => none

end Loop

/-- Whether a check in the disconnected state finds every missing connection. -/
def Group.reconnects (group : Group) (answers : Answers) : Bool :=
  if group.state.isMaster then
    group.clientRanks.all fun rank =>
      group.clientRobjs.contains rank || (!group.hasDiscovery && answers.worker rank)
  else
    match group.queryMasterRobj answers with
    | .ok robj => robj.isSome
    | .error _ => false

/-- A failed check is counted only after the counter has been set. -/
def StepOk (loop : Loop) : LoopEvent → Prop
  | .heartbeat answers =>
      loop.group.state.status = .ok ∨
        loop.group.disconnectRetryCount.isSome ∨
          loop.group.reconnects answers
  | _ => True

/-- The safety of the loop. -/
structure ExitSafe (loop : Loop) : Prop where
  noError : ∀ error, loop.status ≠ .raised error
  gaveUp :
    ∀ failedChecks,
      loop.status = .gaveUp failedChecks →
        (failedChecks : Int) > loop.group.cfg.disconnectTotalRetry

/-! ## Well-formed groups -/

namespace Group

/-- What the constructor checks and every method keeps. -/
structure WellFormed (group : Group) : Prop where
  masterFlag : group.state.isMaster = group.isMaster
  clientStates : group.clientStates.length = group.worldSize
  ranks : ∀ rank ∈ group.clientRobjs.keys, rank ≠ masterRank ∧ rank < group.worldSize
  urls :
    group.hasDiscovery = false →
      ∃ urls, group.distUrlWithPorts = some urls ∧ urls.length = group.worldSize
  worldSize : 0 < group.worldSize

/-- A change of the connections and statuses only. -/
structure SameSetup (before after : Group) : Prop where
  rank : after.rank = before.rank
  worldSize : after.worldSize = before.worldSize
  distUrlWithPorts : after.distUrlWithPorts = before.distUrlWithPorts
  cfg : after.cfg = before.cfg
  masterFlag : after.state.isMaster = before.state.isMaster
  clientStates : after.clientStates.length = before.clientStates.length

namespace SameSetup

theorem refl (group : Group) : SameSetup group group :=
  ⟨rfl, rfl, rfl, rfl, rfl, rfl⟩

theorem trans
    {first second third : Group}
    (left : SameSetup first second)
    (right : SameSetup second third) :
    SameSetup first third :=
  ⟨right.rank.trans left.rank, right.worldSize.trans left.worldSize,
    right.distUrlWithPorts.trans left.distUrlWithPorts, right.cfg.trans left.cfg,
    right.masterFlag.trans left.masterFlag, right.clientStates.trans left.clientStates⟩

/-- A well-formed group stays so while its workers' ranks are in range. -/
theorem wellFormed
    {before after : Group}
    (same : SameSetup before after)
    (wellFormed : WellFormed before)
    (ranks : ∀ rank ∈ after.clientRobjs.keys, rank ≠ masterRank ∧ rank < before.worldSize) :
    WellFormed after where
  masterFlag := by
    simp only [same.masterFlag, isMaster, same.rank]
    exact wellFormed.masterFlag
  clientStates := by
    rw [same.clientStates, same.worldSize]
    exact wellFormed.clientStates
  ranks := by
    rw [same.worldSize]
    exact ranks
  urls := by
    simp only [hasDiscovery, same.cfg, same.distUrlWithPorts, same.worldSize]
    exact wellFormed.urls
  worldSize := by
    rw [same.worldSize]
    exact wellFormed.worldSize

end SameSetup

theorem wellFormed_construct
    {rank : Rank}
    {worldSize : Nat}
    {url uuid : String}
    {port : Nat}
    {distUrlWithPorts : Option (List Url)}
    {cfg : FTGroupConfig}
    {group : Group}
    (constructed :
      construct rank worldSize url port uuid distUrlWithPorts cfg = .ok group) :
    WellFormed group ∧ group.state.status = .ok ∧
      group.disconnectRetryCount = none ∧ group.masterRobj = none := by
  have build :
      ∀ {worldSize : Nat},
        (cfg.syncFolder = none →
          ∃ urls, distUrlWithPorts = some urls ∧ urls.length = worldSize) →
        0 < worldSize →
        WellFormed (initial rank worldSize url port uuid distUrlWithPorts cfg) := by
    intro worldSize urls positive
    refine ⟨rfl, by simp [initial], ?_, ?_, positive⟩
    · intro rank member
      cases member
    · intro noDiscovery
      simp only [hasDiscovery, initial, Bool.or_eq_false_iff] at noDiscovery
      exact urls (Option.isSome_eq_false_iff.mp noDiscovery.2 |> Option.isNone_iff_eq_none.mp)
  simp only [construct] at constructed
  obtain ⟨_, urlsGiven, constructed⟩ := PyResult.bind_eq_ok.mp constructed
  split at constructed
  · cases constructed
  · rename_i notZero
    cases constructed
    refine ⟨build ?_ (Nat.pos_of_ne_zero notZero), rfl, rfl, rfl⟩
    intro noFolder
    simp only [checkUrls, noFolder, Option.isNone_none, ↓reduceIte] at urlsGiven
    cases distUrlWithPorts with
    | none =>
        cases urlsGiven
    | some urls =>
        simp only [pyAssert_eq_ok, beq_iff_eq] at urlsGiven
        exact ⟨urls, rfl, urlsGiven⟩

/-! ## Counting the connections -/

theorem length_clientRanks
    {group : Group}
    (positive : 0 < group.worldSize) :
    (group.clientRanks.length : Int) = group.worldSize - 1 := by
  obtain ⟨workers, isSize⟩ : ∃ workers, group.worldSize = workers + 1 :=
    ⟨group.worldSize - 1, by omega⟩
  have others :
      ((List.range workers).map Nat.succ).filter (· != masterRank) =
        (List.range workers).map Nat.succ := by
    refine List.filter_eq_self.mpr fun rank member => ?_
    obtain ⟨before, _, rfl⟩ := List.mem_map.mp member
    rfl
  have ranks : group.clientRanks = (List.range workers).map Nat.succ := by
    rw [clientRanks, isSize, List.range_succ_eq_map, List.filter_cons_of_neg (by decide),
      others]
  simp [ranks, isSize]

theorem mem_clientRanks
    {group : Group}
    {rank : Rank} :
    rank ∈ group.clientRanks ↔ rank ≠ masterRank ∧ rank < group.worldSize := by
  simp [clientRanks, and_comm]

theorem length_of_allConnected
    {group : Group}
    (wellFormed : WellFormed group)
    (all : ∀ rank ∈ group.clientRanks, rank ∈ group.clientRobjs.keys) :
    (group.clientRobjs.entries.length : Int) = group.worldSize - 1 := by
  have distinct : group.clientRanks.Nodup := List.nodup_range.filter _
  have same : group.clientRobjs.keys.Perm group.clientRanks := by
    refine (List.perm_ext_iff_of_nodup group.clientRobjs.nodup_keys distinct).mpr
      fun rank => ⟨fun member => ?_, all rank⟩
    exact mem_clientRanks.mpr (wellFormed.ranks rank member)
  have lengths := same.length_eq
  rw [Dict.keys, List.length_map] at lengths
  rw [lengths]
  exact length_clientRanks wellFormed.worldSize

/-! ## The methods -/

/-- A change that leaves the counter and the status of the process alone. -/
structure Adjusted (before after : Group) : Prop extends SameSetup before after where
  retryCount : after.disconnectRetryCount = before.disconnectRetryCount
  masterRobj : after.masterRobj = before.masterRobj
  status : after.state.status = before.state.status

namespace Adjusted

theorem refl (group : Group) : Adjusted group group :=
  ⟨.refl group, rfl, rfl, rfl⟩

theorem trans
    {first second third : Group}
    (left : Adjusted first second)
    (right : Adjusted second third) :
    Adjusted first third :=
  ⟨left.toSameSetup.trans right.toSameSetup, right.retryCount.trans left.retryCount,
    right.masterRobj.trans left.masterRobj, right.status.trans left.status⟩

end Adjusted

theorem setClientStatus_returns
    {group : Group}
    {rank : Rank}
    (isWorker : rank ≠ masterRank)
    (listed : rank < group.clientStates.length)
    (status : FTStatus) :
    Returns (setClientStatus rank status)
      (fun _ after => Adjusted group after ∧ after.clientRobjs = group.clientRobjs)
      group := by
  have found : group.clientStates[rank]? = some group.clientStates[rank] :=
    List.getElem?_eq_getElem listed
  simp only [setClientStatus, returns_bind, returns_get, isWorker, ↓reduceIte, found,
    returns_set]
  exact ⟨⟨⟨rfl, rfl, rfl, rfl, rfl, List.length_set⟩, rfl, rfl, rfl⟩, trivial⟩

theorem markClient_returns
    {group : Group}
    {rank : Rank}
    (wellFormed : WellFormed group)
    (isConnected : rank ∈ group.clientRobjs.keys)
    (status : FTStatus) :
    Returns (setClientStatus rank status)
      (fun _ after =>
        Adjusted group after ∧ WellFormed after ∧ after.clientRobjs = group.clientRobjs)
      group := by
  obtain ⟨isWorker, inRange⟩ := wellFormed.ranks rank isConnected
  have listed : rank < group.clientStates.length := by
    rw [wellFormed.clientStates]
    exact inRange
  refine (setClientStatus_returns isWorker listed status).mono ?_
  rintro _ after ⟨adjusted, sameRobjs⟩
  refine ⟨adjusted, adjusted.toSameSetup.wellFormed wellFormed ?_, sameRobjs⟩
  rw [sameRobjs]
  exact wellFormed.ranks

/-- Dropping a connected worker removes its connection only. -/
theorem dropClient_returns
    {group : Group}
    {rank : Rank}
    (wellFormed : WellFormed group)
    (isConnected : rank ∈ group.clientRobjs.keys) :
    Returns (setClientStatus rank .workerDisconnected)
      (fun _ middle =>
        Returns (popClientRobj rank)
          (fun _ after =>
            Adjusted group after ∧ WellFormed after ∧
              ∀ other, other ∈ after.clientRobjs.keys ↔
                other ≠ rank ∧ other ∈ group.clientRobjs.keys)
          middle)
      group := by
  refine (markClient_returns wellFormed isConnected .workerDisconnected).mono ?_
  rintro _ middle ⟨adjusted, _, sameRobjs⟩
  obtain ⟨url, found⟩ :=
    Option.isSome_iff_exists.mp (Dict.mem_keys_iff.mp isConnected)
  rw [← sameRobjs] at found
  simp only [popClientRobj, returns_bind, returns_get, found, returns_set]
  have erased :
      ∀ other, other ∈ (middle.clientRobjs.erase rank).keys ↔
        other ≠ rank ∧ other ∈ group.clientRobjs.keys := by
    intro other
    rw [Dict.mem_keys_erase, sameRobjs]
  have popped :
      Adjusted group { middle with clientRobjs := middle.clientRobjs.erase rank } :=
    ⟨⟨adjusted.rank, adjusted.worldSize, adjusted.distUrlWithPorts, adjusted.cfg,
      adjusted.masterFlag, adjusted.clientStates⟩,
      adjusted.retryCount, adjusted.masterRobj, adjusted.status⟩
  exact ⟨popped, popped.toSameSetup.wellFormed wellFormed
    fun other member => wellFormed.ranks other ((erased other).mp member).2, erased⟩

/-- Recording the replies of connected workers removes connections at most. -/
theorem recordReplies_returns
    {answers : Answers}
    {ranks : List Rank}
    (distinct : ranks.Nodup)
    {group : Group}
    (wellFormed : WellFormed group)
    (connected : ∀ rank ∈ ranks, rank ∈ group.clientRobjs.keys) :
    Returns (recordReplies answers ranks)
      (fun _ after =>
        Adjusted group after ∧
          ∀ rank ∈ after.clientRobjs.keys, rank ∈ group.clientRobjs.keys)
      group := by
  induction ranks generalizing group with
  | nil =>
      exact ⟨.refl group, fun _ member => member⟩
  | cons rank rest inductionHypothesis =>
      obtain ⟨isNew, distinct⟩ := List.nodup_cons.mp distinct
      have isConnected := connected rank (by simp)
      simp only [recordReplies, returns_ite, returns_bind]
      split
      · refine (markClient_returns wellFormed isConnected .ok).mono ?_
        rintro _ middle ⟨adjusted, middleFormed, sameRobjs⟩
        refine (inductionHypothesis distinct middleFormed ?_).mono ?_
        · intro other inRest
          rw [sameRobjs]
          exact connected other (List.mem_cons_of_mem _ inRest)
        · rintro _ after ⟨adjustedRest, fewer⟩
          exact ⟨adjusted.trans adjustedRest, fun other member => sameRobjs ▸ fewer other member⟩
      · refine (dropClient_returns wellFormed isConnected).mono fun _ _ dropped => ?_
        rw [returns_bind]
        refine dropped.mono ?_
        rintro _ middle ⟨popped, poppedFormed, erased⟩
        rw [returns_bind]
        refine (inductionHypothesis distinct poppedFormed ?_).mono ?_
        · intro other inRest
          refine (erased other).mpr ⟨?_, connected other (List.mem_cons_of_mem _ inRest)⟩
          rintro rfl
          exact isNew inRest
        · rintro _ after ⟨adjustedRest, fewer⟩
          exact ⟨popped.trans adjustedRest,
            fun other member => ((erased other).mp (fewer other member)).2⟩

/-- Calling missing workers adds the connections of those that answer. -/
theorem reconnectWorkers_returns
    {urls : List Url}
    {answers : Answers}
    {ranks : List Rank}
    {group : Group}
    (wellFormed : WellFormed group)
    (given : urls.length = group.worldSize)
    (workers : ∀ rank ∈ ranks, rank ≠ masterRank ∧ rank < group.worldSize) :
    Returns (reconnectWorkers urls answers ranks)
      (fun _ after =>
        Adjusted group after ∧ WellFormed after ∧
          (∀ rank ∈ group.clientRobjs.keys, rank ∈ after.clientRobjs.keys) ∧
          ∀ rank ∈ ranks, answers.worker rank = true → rank ∈ after.clientRobjs.keys)
      group := by
  induction ranks generalizing group with
  | nil =>
      exact ⟨.refl group, wellFormed, fun _ member => member, by simp⟩
  | cons rank rest inductionHypothesis =>
      obtain ⟨isWorker, inRange⟩ := workers rank (by simp)
      have hasUrl : rank < urls.length := by
        rw [given]
        exact inRange
      have found : urls[rank]? = some urls[rank] :=
        List.getElem?_eq_getElem hasUrl
      have others : ∀ other ∈ rest, other ≠ masterRank ∧ other < group.worldSize :=
        fun other inRest => workers other (List.mem_cons_of_mem _ inRest)
      simp only [reconnectWorkers, found]
      by_cases reached : answers.worker rank = true
      · have listed : rank < group.clientStates.length := by
          rw [wellFormed.clientStates]
          exact inRange
        simp only [reached, ↓reduceIte, addClientRobj, returns_bind, returns_modify]
        let extended : Group :=
          { group with clientRobjs := group.clientRobjs.set rank urls[rank] }
        have recorded :=
          @setClientStatus_returns extended rank isWorker listed .ok
        refine recorded.mono ?_
        rintro _ middle ⟨adjusted, sameRobjs⟩
        have keys :
            ∀ other, other ∈ middle.clientRobjs.keys ↔
              other = rank ∨ other ∈ group.clientRobjs.keys := by
          intro other
          rw [sameRobjs]
          exact Dict.mem_keys_set
        have added : Adjusted group middle :=
          ⟨⟨adjusted.rank, adjusted.worldSize, adjusted.distUrlWithPorts, adjusted.cfg,
            adjusted.masterFlag, adjusted.clientStates⟩,
            adjusted.retryCount, adjusted.masterRobj, adjusted.status⟩
        have middleFormed : WellFormed middle := by
          refine added.toSameSetup.wellFormed wellFormed fun other member => ?_
          rcases (keys other).mp member with rfl | wasThere
          · exact ⟨isWorker, inRange⟩
          · exact wellFormed.ranks other wasThere
        refine (inductionHypothesis middleFormed (by rw [added.worldSize]; exact given)
          (by rw [added.worldSize]; exact others)).mono ?_
        rintro _ after ⟨adjustedRest, afterFormed, kept, reachedRest⟩
        refine ⟨added.trans adjustedRest, afterFormed,
          fun other member => kept other ((keys other).mpr (.inr member)), ?_⟩
        intro other member answered
        rcases List.mem_cons.mp member with rfl | inRest
        · exact kept other ((keys other).mpr (.inl rfl))
        · exact reachedRest other inRest answered
      · simp only [reached, Bool.false_eq_true, ↓reduceIte]
        refine (inductionHypothesis wellFormed given others).mono ?_
        rintro _ after ⟨adjustedRest, afterFormed, kept, reachedRest⟩
        refine ⟨adjustedRest, afterFormed, kept, ?_⟩
        intro other member answered
        rcases List.mem_cons.mp member with rfl | inRest
        · exact absurd answered reached
        · exact reachedRest other inRest answered

/-! ## One check -/

/-- The counter, which stands for 0 before it is set. -/
def retries (group : Group) : Nat :=
  group.disconnectRetryCount.getD 0

/-- What every round keeps: the counter counts checks of a disconnected group only. -/
structure Steady (group : Group) : Prop extends WellFormed group where
  okUncounted : group.state.status = .ok → group.retries = 0
  connectedUncounted : group.numClientRobjIsValid = true → group.retries = 0
  masterLost :
    group.isMaster = false → group.state.status ≠ .ok → group.masterRobj = none

/-- The outcome of one check. -/
structure Checked (before : Group) (shouldExit : Bool) (after : Group) : Prop where
  steady : Steady after
  cfg : after.cfg = before.cfg
  retries : after.retries ≤ before.retries + 1
  exits :
    shouldExit = true →
      (after.retries : Int) > before.cfg.disconnectTotalRetry ∧
        after.numClientRobjIsValid = false

theorem checked_of_uncounted
    {before after : Group}
    (same : SameSetup before after)
    (wellFormed : WellFormed after)
    (uncounted : after.retries = 0)
    (masterLost : after.isMaster = false → after.state.status ≠ .ok → after.masterRobj = none) :
    Checked before false after where
  steady := ⟨wellFormed, fun _ => uncounted, fun _ => uncounted, masterLost⟩
  cfg := same.cfg
  retries := by
    rw [uncounted]
    exact Nat.zero_le _
  exits := fun isTrue => nomatch isTrue

/-- A check that counts a failure. -/
theorem checked_of_counted
    {before middle : Group}
    {count : Nat}
    (same : SameSetup before middle)
    (wellFormed : WellFormed middle)
    (counted : before.disconnectRetryCount = some count)
    (notOk : middle.state.status ≠ .ok)
    (missing : middle.numClientRobjIsValid = false)
    (masterLost : middle.isMaster = false → middle.masterRobj = none) :
    Checked before
      (decide (((count + 1 : Nat) : Int) > middle.cfg.disconnectTotalRetry))
      { middle with disconnectRetryCount := some (count + 1) } where
  steady :=
    ⟨⟨wellFormed.masterFlag, wellFormed.clientStates, wellFormed.ranks, wellFormed.urls,
        wellFormed.worldSize⟩,
      fun isOk => absurd isOk notOk,
      fun isValid => absurd (missing.symm.trans isValid) Bool.false_ne_true,
      fun isWorker _ => masterLost isWorker⟩
  cfg := same.cfg
  retries := by
    simp [Group.retries, counted]
  exits := by
    intro exits
    refine ⟨?_, missing⟩
    rw [← same.cfg]
    simpa [Group.retries] using exits

theorem numClientRobjIsValid_iff
    {group : Group}
    (isMaster : group.isMaster = true) :
    group.numClientRobjIsValid = true ↔
      (group.clientRobjs.entries.length : Int) = group.worldSize - 1 := by
  simp [numClientRobjIsValid, isMaster]

/-- The end of a check in the disconnected state, on the master. -/
theorem waitForWorkers_checked
    {before middle : Group}
    (adjusted : Adjusted before middle)
    (wellFormed : WellFormed middle)
    (isMaster : middle.isMaster = true)
    (notOk : before.state.status ≠ .ok)
    (counter :
      before.disconnectRetryCount.isSome ∨
        (middle.clientRobjs.entries.length : Int) = middle.worldSize - 1) :
    Returns waitForWorkers (Checked before) middle := by
  simp only [waitForWorkers, returns_bind, returns_get, returns_ite, ne_eq, ite_not]
  split
  · simp only [resetRetryCount, setStatus, emit, returns_bind, returns_modify, returns_pure]
    refine checked_of_uncounted
      ⟨adjusted.rank, adjusted.worldSize, adjusted.distUrlWithPorts, adjusted.cfg,
        adjusted.masterFlag, adjusted.clientStates⟩
      ⟨wellFormed.masterFlag, wellFormed.clientStates, wellFormed.ranks, wellFormed.urls,
        wellFormed.worldSize⟩ rfl ?_
    intro isWorker
    exact absurd (isMaster.symm.trans isWorker) Bool.noConfusion
  · rename_i missing
    obtain ⟨count, counted⟩ :=
      Option.isSome_iff_exists.mp (counter.resolve_right missing)
    have counted' : middle.disconnectRetryCount = some count :=
      adjusted.retryCount.trans counted
    simp only [increaseRetryCount, returns_bind, returns_get, counted', returns_set,
      returns_pure]
    have notValid : middle.numClientRobjIsValid = false := by
      rw [← Bool.not_eq_true, numClientRobjIsValid_iff isMaster]
      exact missing
    refine checked_of_counted adjusted.toSameSetup wellFormed counted ?_ notValid ?_
    · rw [adjusted.status]
      exact notOk
    · intro isWorker
      exact absurd (isMaster.symm.trans isWorker) Bool.noConfusion

/-- Calling all workers leaves the counter alone. -/
theorem masterCallAllClient_returns
    {group : Group}
    (wellFormed : WellFormed group)
    (answers : Answers) :
    Returns (masterCallAllClient answers)
      (fun _ after =>
        SameSetup group after ∧ WellFormed after ∧ after.retries = group.retries)
      group := by
  simp only [masterCallAllClient, returns_bind, returns_get]
  refine (recordReplies_returns group.clientRobjs.nodup_keys wellFormed
    (fun _ member => member)).mono ?_
  rintro failed middle ⟨adjusted, fewer⟩
  have middleFormed : WellFormed middle :=
    adjusted.toSameSetup.wellFormed wellFormed
      fun rank member => wellFormed.ranks rank (fewer rank member)
  have sameRetries : middle.retries = group.retries := by
    simp only [retries, adjusted.retryCount]
  simp only [returns_ite, returns_bind, setStatus, returns_modify, returns_pure]
  split
  · exact ⟨⟨adjusted.rank, adjusted.worldSize, adjusted.distUrlWithPorts, adjusted.cfg,
      adjusted.masterFlag, adjusted.clientStates⟩,
      ⟨middleFormed.masterFlag, middleFormed.clientStates, middleFormed.ranks,
        middleFormed.urls, middleFormed.worldSize⟩, sameRetries⟩
  · exact ⟨adjusted.toSameSetup, middleFormed, sameRetries⟩

theorem masterCheckWorkers_returns
    {group : Group}
    {answers : Answers}
    (steady : Steady group)
    (isMaster : group.state.isMaster = true)
    (allowed :
      group.state.status = .ok ∨
        group.disconnectRetryCount.isSome ∨ group.reconnects answers) :
    Returns (masterCheckWorkers answers) (Checked group) group := by
  have masterRole : group.isMaster = true := steady.masterFlag ▸ isMaster
  have roleOf :
      ∀ {after : Group}, SameSetup group after → after.isMaster = true := by
    intro after same
    simpa only [Group.isMaster, same.rank] using masterRole
  simp only [masterCheckWorkers, returns_bind, returns_get, returns_ite]
  split
  · rename_i isOk
    refine (masterCallAllClient_returns steady.toWellFormed answers).mono ?_
    rintro allClientOk middle ⟨same, wellFormed, sameRetries⟩
    have uncounted : middle.retries = 0 :=
      sameRetries.trans (steady.okUncounted isOk)
    have notWorker : middle.isMaster = false → False :=
      fun isWorker => Bool.noConfusion ((roleOf same).symm.trans isWorker)
    split
    · simp only [emit, returns_bind, returns_modify, returns_pure]
      exact checked_of_uncounted
        ⟨same.rank, same.worldSize, same.distUrlWithPorts, same.cfg, same.masterFlag,
          same.clientStates⟩
        ⟨wellFormed.masterFlag, wellFormed.clientStates, wellFormed.ranks,
          wellFormed.urls, wellFormed.worldSize⟩ uncounted
        fun isWorker => (notWorker isWorker).elim
    · exact checked_of_uncounted same wellFormed uncounted
        fun isWorker => (notWorker isWorker).elim
  · rename_i notOk
    have counter := allowed.resolve_left notOk
    split
    · rename_i noDiscovery
      have noDiscovery : group.hasDiscovery = false := by
        simpa using noDiscovery
      obtain ⟨urls, given, size⟩ := steady.urls noDiscovery
      simp only [given, returns_bind]
      have workers :
          ∀ rank ∈ group.disconnectedRanks, rank ≠ masterRank ∧ rank < group.worldSize :=
        fun rank member => mem_clientRanks.mp (List.mem_filter.mp member).1
      refine (@reconnectWorkers_returns urls answers _ _ steady.toWellFormed size workers).mono ?_
      rintro _ middle ⟨adjusted, wellFormed, kept, reached⟩
      refine waitForWorkers_checked adjusted wellFormed (roleOf adjusted.toSameSetup) notOk ?_
      refine counter.imp_right fun answered => length_of_allConnected wellFormed ?_
      intro rank member
      simp only [clientRanks, adjusted.worldSize] at member
      simp only [reconnects, isMaster, ↓reduceIte, List.all_eq_true, noDiscovery,
        Bool.not_false, Bool.true_and, Bool.or_eq_true] at answered
      by_cases connected : rank ∈ group.clientRobjs.keys
      · exact kept rank connected
      · have absent : group.clientRobjs.contains rank = false := by
          rw [Dict.contains, ← Bool.not_eq_true, ← Dict.mem_keys_iff]
          exact connected
        refine reached rank (List.mem_filter.mpr ⟨member, by simp [absent]⟩) ?_
        exact (answered rank member).resolve_left (by simp [absent])
    · rename_i discovery
      have discovery : group.hasDiscovery = true := by
        simpa using discovery
      refine waitForWorkers_checked (.refl group) steady.toWellFormed masterRole notOk ?_
      refine counter.imp_right fun answered =>
        length_of_allConnected steady.toWellFormed ?_
      intro rank member
      simp only [reconnects, isMaster, ↓reduceIte, List.all_eq_true, discovery,
        Bool.not_true, Bool.false_and, Bool.or_false] at answered
      exact Dict.mem_keys_iff.mpr (answered rank member)

theorem queryMasterRobj_ok
    {group : Group}
    (wellFormed : WellFormed group)
    (answers : Answers) :
    ∃ robj, group.queryMasterRobj answers = .ok robj := by
  simp only [queryMasterRobj]
  split
  · exact ⟨_, rfl⟩
  · rename_i noDiscoveryFn
    split
    · exact ⟨_, rfl⟩
    · rename_i noFolder
      have noDiscovery : group.hasDiscovery = false := by
        simp [hasDiscovery, noDiscoveryFn, noFolder]
      obtain ⟨urls, given, size⟩ := wellFormed.urls noDiscovery
      have hasMaster : masterRank < urls.length := by
        rw [size]
        exact wellFormed.worldSize
      simp only [given, List.getElem?_eq_getElem hasMaster]
      exact ⟨_, rfl⟩

theorem clientCheckMaster_returns
    {group : Group}
    {answers : Answers}
    (steady : Steady group)
    (isWorker : group.state.isMaster = false)
    (allowed :
      group.state.status = .ok ∨
        group.disconnectRetryCount.isSome ∨ group.reconnects answers) :
    Returns (clientCheckMaster answers) (Checked group) group := by
  have workerRole : group.isMaster = false := steady.masterFlag ▸ isWorker
  obtain ⟨robj, found⟩ := queryMasterRobj_ok steady.toWellFormed answers
  have formedOf :
      ∀ {after : Group},
        SameSetup group after →
        after.clientRobjs = group.clientRobjs →
        WellFormed after := by
    intro after same sameRobjs
    exact same.wellFormed steady.toWellFormed (by rw [sameRobjs]; exact steady.ranks)
  by_cases isOk : group.state.status = .ok
  · have uncounted := steady.okUncounted isOk
    have updated :
        ∀ {middle : Group},
          SameSetup group middle →
          middle.clientRobjs = group.clientRobjs →
          middle.retries = 0 →
          middle.state.status = .ok →
          middle.masterRobj.isSome = true →
          Returns
            (clientSetWorkerState answers)
            (fun _ after => Checked group false after) middle := by
      intro middle same sameRobjs uncounted isOk connected
      have present : middle.masterRobj.isNone = false := by
        simp [Option.isNone_eq_false_iff, connected]
      simp only [clientSetWorkerState, returns_bind, returns_get, present,
        Bool.false_eq_true, ↓reduceIte]
      cases answers.masterState with
      | none =>
          simp only [setStatus, emit, returns_bind, returns_modify]
          exact checked_of_uncounted
            ⟨same.rank, same.worldSize, same.distUrlWithPorts, same.cfg, same.masterFlag,
              same.clientStates⟩
            (formedOf
              ⟨same.rank, same.worldSize, same.distUrlWithPorts, same.cfg,
                same.masterFlag, same.clientStates⟩ sameRobjs)
            uncounted fun _ _ => rfl
      | some master =>
          simp only [returns_ite, emit, returns_bind, returns_modify]
          split
          · exact checked_of_uncounted
              ⟨same.rank, same.worldSize, same.distUrlWithPorts, same.cfg,
                same.masterFlag, same.clientStates⟩
              (formedOf
                ⟨same.rank, same.worldSize, same.distUrlWithPorts, same.cfg,
                  same.masterFlag, same.clientStates⟩ sameRobjs)
              uncounted fun _ notOk => absurd isOk notOk
          · exact checked_of_uncounted
              ⟨same.rank, same.worldSize, same.distUrlWithPorts, same.cfg,
                same.masterFlag, same.clientStates⟩
              (formedOf
                ⟨same.rank, same.worldSize, same.distUrlWithPorts, same.cfg,
                  same.masterFlag, same.clientStates⟩ sameRobjs)
              uncounted fun _ notOk => absurd isOk notOk
    simp only [clientCheckMaster, returns_bind, returns_get, isOk, ↓reduceIte, returns_ite]
    split
    · simp only [found]
      cases robj with
      | none =>
          rename_i unconnected
          simp only [setStatus, emit, returns_bind, returns_modify, returns_pure]
          exact checked_of_uncounted ⟨rfl, rfl, rfl, rfl, rfl, rfl⟩
            (formedOf ⟨rfl, rfl, rfl, rfl, rfl, rfl⟩ rfl) uncounted
            fun _ _ => Option.isNone_iff_eq_none.mp unconnected
      | some url =>
          simp only [returns_bind, returns_modify]
          exact updated ⟨rfl, rfl, rfl, rfl, rfl, rfl⟩ rfl uncounted isOk rfl
    · rename_i connected
      exact updated (.refl group) rfl uncounted isOk
        (Option.isSome_iff_ne_none.mpr (by simpa using connected))
  · simp only [clientCheckMaster, returns_bind, returns_get, isOk, ↓reduceIte, found]
    cases robj with
    | none =>
        have unanswered : group.reconnects answers = false := by
          simp [Group.reconnects, isWorker, found]
        obtain ⟨count, counted⟩ :
            ∃ count, group.disconnectRetryCount = some count := by
          rcases allowed with ok | counts | answered
          · exact absurd ok isOk
          · exact Option.isSome_iff_exists.mp counts
          · exact absurd (unanswered.symm.trans answered) Bool.false_ne_true
        have lost := steady.masterLost workerRole isOk
        simp only [increaseRetryCount, returns_bind, returns_get, counted, returns_set,
          returns_pure]
        exact checked_of_counted (.refl group) steady.toWellFormed counted isOk
          (by simp [numClientRobjIsValid, workerRole, lost]) fun _ => lost
    | some url =>
        simp only [resetRetryCount, setStatus, emit, returns_bind, returns_modify,
          returns_pure]
        exact checked_of_uncounted ⟨rfl, rfl, rfl, rfl, rfl, rfl⟩
          (formedOf ⟨rfl, rfl, rfl, rfl, rfl, rfl⟩ rfl) rfl
          fun _ notOk => absurd rfl notOk

/-- One round of the loop. -/
theorem heartbeat_returns
    {group : Group}
    {answers : Answers}
    (steady : Steady group)
    (allowed :
      group.state.status = .ok ∨
        group.disconnectRetryCount.isSome ∨ group.reconnects answers) :
    Returns (heartbeat answers) (Checked group) group := by
  have checked : Returns (check answers) (Checked group) group := by
    simp only [check, returns_bind, returns_get, returns_ite]
    split
    · rename_i isMaster
      exact masterCheckWorkers_returns steady isMaster allowed
    · rename_i isWorker
      exact clientCheckMaster_returns steady (by simpa using isWorker) allowed
  have reported :
      ∀ {shouldExit : Bool} {middle : Group} (event : GroupEvent),
        Checked group shouldExit middle →
        Checked group shouldExit { middle with emitted := middle.emitted ++ [event] } := by
    intro shouldExit middle event checked
    exact ⟨⟨⟨checked.steady.masterFlag, checked.steady.clientStates, checked.steady.ranks,
        checked.steady.urls, checked.steady.worldSize⟩,
        checked.steady.okUncounted, checked.steady.connectedUncounted,
        checked.steady.masterLost⟩, checked.cfg, checked.retries, checked.exits⟩
  simp only [heartbeat, returns_bind]
  refine checked.mono ?_
  intro shouldExit middle checked
  simp only [returns_get, returns_ite, emit, returns_bind, returns_modify, returns_pure]
  cases shouldExit with
  | true =>
      simp only [↓reduceIte]
      split
      · exact reported .exit checked
      · exact checked
  | false =>
      exact reported .stepEnd checked

/-! ## Registrations -/

/-- The outcome of a registration. -/
structure Registered (before after : Group) : Prop where
  steady : Steady after
  cfg : after.cfg = before.cfg
  retries : after.retries ≤ before.retries

/-- The end of a registration: the master is connected or goes on waiting. -/
theorem masterStateCheckIsOk_registered
    {before middle : Group}
    (steady : Steady before)
    (same : SameSetup before middle)
    (wellFormed : WellFormed middle)
    (isMaster : before.isMaster = true)
    (status : middle.state.status = before.state.status)
    (retryCount : middle.disconnectRetryCount = before.disconnectRetryCount) :
    Returns masterStateCheckIsOk (fun _ => Registered before) middle := by
  have role : middle.isMaster = true := by
    simpa only [Group.isMaster, same.rank] using isMaster
  have notWorker : middle.isMaster = false → False :=
    fun isWorker => Bool.noConfusion (role.symm.trans isWorker)
  have sameRetries : middle.retries = before.retries := by
    simp only [retries, retryCount]
  simp only [masterStateCheckIsOk, returns_bind, returns_get, returns_ite]
  split
  · simp only [setClientStatus, returns_bind, returns_get, ↓reduceIte, setStatus, emit,
      resetRetryCount, returns_modify]
    exact ⟨⟨⟨wellFormed.masterFlag, wellFormed.clientStates, wellFormed.ranks,
        wellFormed.urls, wellFormed.worldSize⟩,
        fun _ => rfl, fun _ => rfl, fun isWorker => (notWorker isWorker).elim⟩,
      same.cfg, Nat.zero_le _⟩
  · rename_i missing
    simp only [returns_pure]
    refine ⟨⟨wellFormed, ?_, ?_, fun isWorker => (notWorker isWorker).elim⟩, same.cfg,
      Nat.le_of_eq sameRetries⟩
    · intro isOk
      rw [sameRetries]
      exact steady.okUncounted (status ▸ isOk)
    · intro isValid
      exact absurd ((numClientRobjIsValid_iff role).mp isValid) missing

/-- Opening a connection to a worker. -/
theorem connectWorker_returns
    (group : Group)
    (clientIsRestart : Bool)
    (state : FTState) :
    Returns (connectWorker clientIsRestart state)
      (fun _ after =>
        Adjusted group after ∧
          ∀ rank ∈ after.clientRobjs.keys,
            rank = state.rank ∨ rank ∈ group.clientRobjs.keys)
      group := by
  have opened :
      ∀ robjs : Dict Rank Url,
        (∀ rank ∈ robjs.keys, rank = state.rank ∨ rank ∈ group.clientRobjs.keys) →
        Adjusted group { group with clientRobjs := robjs } ∧
          ∀ rank ∈ robjs.keys, rank = state.rank ∨ rank ∈ group.clientRobjs.keys :=
    fun _ members => ⟨⟨⟨rfl, rfl, rfl, rfl, rfl, rfl⟩, rfl, rfl, rfl⟩, members⟩
  simp only [connectWorker, returns_bind, returns_get, returns_ite]
  split
  · rename_i contained
    split
    · obtain ⟨url, found⟩ := Option.isSome_iff_exists.mp contained
      simp only [popClientRobj, addClientRobj, returns_bind, returns_get, found,
        returns_set, returns_modify]
      refine opened _ fun rank member => ?_
      exact (Dict.mem_keys_set.mp member).imp_right fun kept => (Dict.mem_keys_erase.mp kept).2
    · exact opened group.clientRobjs fun _ member => .inr member
  · simp only [addClientRobj, returns_modify]
    exact opened _ fun rank member => Dict.mem_keys_set.mp member

/-- An accepted registration. -/
theorem registerWorker_returns
    {group : Group}
    (steady : Steady group)
    (isMaster : group.isMaster = true)
    (prevClientState : FTState)
    {state : FTState}
    (isWorker : state.rank ≠ masterRank)
    (inRange : state.rank < group.worldSize) :
    Returns (registerWorker prevClientState state) (fun _ => Registered group) group := by
  have recorded :
      ∀ {middle : Group} (clientIsRestart : Bool),
        Adjusted group middle →
        middle.clientRobjs = group.clientRobjs →
        Returns (connectWorker clientIsRestart state)
          (fun _ =>
            Returns
              (do
                masterStateCheckIsOk
                let group ← get
                return group.state)
              fun _ => Registered group)
          middle := by
    intro middle clientIsRestart adjusted sameRobjs
    refine (connectWorker_returns middle clientIsRestart state).mono ?_
    rintro _ after ⟨opened, members⟩
    have ended := adjusted.trans opened
    rw [returns_bind]
    refine masterStateCheckIsOk_registered steady ended.toSameSetup ?_ isMaster ended.status
      ended.retryCount
    refine ended.toSameSetup.wellFormed steady.toWellFormed fun rank member => ?_
    rcases members rank member with rfl | wasThere
    · exact ⟨isWorker, inRange⟩
    · rw [sameRobjs] at wasThere
      exact steady.ranks rank wasThere
  simp only [registerWorker, returns_bind, returns_get, returns_ite, emit, returns_modify]
  split
  · refine recorded _ ?_ ?_
    · exact ⟨⟨rfl, rfl, rfl, rfl, rfl, List.length_set⟩, rfl, rfl, rfl⟩
    · rfl
  · refine recorded _ ?_ ?_
    · exact ⟨⟨rfl, rfl, rfl, rfl, rfl, List.length_set⟩, rfl, rfl, rfl⟩
    · rfl

/-- Registering a worker keeps the group steady, whether or not it is refused. -/
theorem setWorkerState_registered
    {group : Group}
    (steady : Steady group)
    (state : FTState) :
    Registered group (stateAfter (setWorkerState state) group) := by
  have refused : Registered group group := ⟨steady, rfl, Nat.le_refl _⟩
  simp only [setWorkerState, stateAfter_get_bind]
  split
  · exact refused
  · rename_i isWorker
    split
    · exact refused
    · rename_i isMaster
      have isMaster : group.state.isMaster = true := by
        simpa using isMaster
      cases listed : group.clientStates[state.rank]? with
      | none =>
          exact refused
      | some prevClientState =>
          have inRange : state.rank < group.worldSize := by
            rw [← steady.clientStates]
            exact (List.getElem?_eq_some_iff.mp listed).1
          exact (registerWorker_returns steady (steady.masterFlag ▸ isMaster)
            prevClientState isWorker inRange).stateAfter

end Group

/-! ## Runs -/

/-- What every run of allowed steps keeps. -/
structure Tracked (cfg : FTGroupConfig) (loop : Loop) : Prop extends ExitSafe loop where
  steady : Group.Steady loop.group
  cfg : loop.group.cfg = cfg
  counted : loop.group.retries ≤ loop.failedChecks

theorem retries_le_failedChecksAfter
    {loop : Loop}
    {group : Group}
    {failed : Nat}
    (steady : Group.Steady group)
    (counted : group.retries ≤ loop.failedChecks + failed) :
    group.retries ≤ loop.failedChecksAfter group failed := by
  simp only [Loop.failedChecksAfter]
  split
  · rename_i connected
    exact Nat.le_of_eq (steady.connectedUncounted connected)
  · exact counted

/-- An allowed step keeps what is tracked. -/
theorem tracked_of_step
    {cfg : FTGroupConfig}
    {before after : Loop}
    {event : LoopEvent}
    (tracked : Tracked cfg before)
    (stepOk : StepOk before event)
    (stepped : before.step event = some after) :
    Tracked cfg after := by
  cases event with
  | heartbeat answers =>
      simp only [Loop.step] at stepped
      split at stepped
      · cases stepped
        obtain ⟨shouldExit, group, computed, checked⟩ :=
          returns_iff.mp (Group.heartbeat_returns tracked.steady stepOk)
        have counted : group.retries ≤ before.failedChecksAfter group 1 :=
          retries_le_failedChecksAfter checked.steady
            (Nat.le_trans checked.retries (Nat.add_le_add_right tracked.counted 1))
        simp only [Loop.checkOnce, computed]
        refine ⟨⟨?_, ?_⟩, checked.steady, checked.cfg.trans tracked.cfg, counted⟩
        · intro error
          cases shouldExit <;> simp
        · intro failedChecks gaveUp
          cases shouldExit with
          | false =>
              cases gaveUp
          | true =>
              cases gaveUp
              have exits := (checked.exits rfl).1
              simp only [checked.cfg]
              omega
      · cases stepped
  | setWorkerState state =>
      cases stepped
      have registered := Group.setWorkerState_registered tracked.steady state
      refine ⟨⟨tracked.noError, ?_⟩, registered.steady, registered.cfg.trans tracked.cfg, ?_⟩
      · intro failedChecks gaveUp
        simp only [registered.cfg]
        exact tracked.gaveUp failedChecks gaveUp
      · exact retries_le_failedChecksAfter registered.steady
          (Nat.le_trans registered.retries tracked.counted)
  | shutdown =>
      simp only [Loop.step] at stepped
      split at stepped
      · cases stepped
        exact ⟨⟨fun _ isRaised => (nomatch isRaised), fun _ gaveUp => (nomatch gaveUp)⟩,
          tracked.steady, tracked.cfg, tracked.counted⟩
      · cases stepped

/-- A loop that never counts a failed check before the counter is set completes every
round, and gives up only after too many failed checks in a row. -/
theorem heartbeatLoop_exitSafe
    {rank : Rank}
    {worldSize : Nat}
    {url uuid : String}
    {port : Nat}
    {distUrlWithPorts : Option (List Url)}
    {cfg : FTGroupConfig}
    {group : Group}
    {events : List LoopEvent}
    {loop : Loop}
    (constructed :
      Group.construct rank worldSize url port uuid distUrlWithPorts cfg = .ok group)
    (run : Transition.Run Loop.step StepOk (Loop.start group) events loop) :
    ExitSafe loop := by
  obtain ⟨wellFormed, status, uncounted, unconnected⟩ :=
    Group.wellFormed_construct constructed
  have noRetries : group.retries = 0 := by
    simp [Group.retries, uncounted]
  have initially : Tracked group.cfg (Loop.start group) :=
    ⟨⟨fun _ isRaised => (nomatch isRaised), fun _ gaveUp => (nomatch gaveUp)⟩,
      ⟨wellFormed, fun _ => noRetries, fun _ => noRetries, fun _ _ => unconnected⟩,
      rfl, Nat.le_of_eq noRetries⟩
  have tracked : Tracked group.cfg loop :=
    run.invariant initially fun _ _ _ tracked stepOk stepped =>
      tracked_of_step tracked stepOk stepped
  exact tracked.toExitSafe

/-! ## Samples -/

/-- Nobody answers. -/
def noAnswers : Answers where
  worker := fun _ => false
  discovered := none
  masterFile := none
  master := fun _ => false
  masterState := none

/-- A job of two processes that meet through a folder and do not wait long. -/
def sampleCfg : FTGroupConfig where
  syncFolder := some "/sync"
  disconnectTotalRetry := 0

/-- One process of the job. -/
def sampleGroup (rank : Rank) : Group :=
  Group.initial rank 2 "10.0.0.1" 50051 "m" none sampleCfg

/-- The registration of the worker. -/
def sampleWorker : FTState where
  rank := 1
  ip := "10.0.0.2"
  port := 50051
  isMaster := false
  uuid := "w"

/-- The master waits for the worker, loses it, and gives up after two failed checks. -/
theorem heartbeatLoop_exitSafe_sample :
    ∃ loop,
      Transition.Run Loop.step StepOk (Loop.start (sampleGroup 0))
          [.heartbeat noAnswers, .setWorkerState sampleWorker, .heartbeat noAnswers,
            .heartbeat noAnswers] loop ∧
        loop.status = .gaveUp 2 ∧ ExitSafe loop := by
  have waits :
      Transition.Run Loop.step StepOk (Loop.start (sampleGroup 0))
        [.heartbeat noAnswers] _ :=
    @Transition.Run.next _ _ _ _ _ _ _ _ _ .start (.inl rfl) rfl
  have meets := @Transition.Run.next _ _ _ _ _ _ _ _ (LoopEvent.setWorkerState sampleWorker)
    waits trivial rfl
  have loses := @Transition.Run.next _ _ _ _ _ _ _ _ (LoopEvent.heartbeat noAnswers)
    meets (.inl rfl) rfl
  have run := @Transition.Run.next _ _ _ _ _ _ _ _ (LoopEvent.heartbeat noAnswers)
    loses (.inr (.inl rfl)) rfl
  exact ⟨_, run, rfl, @heartbeatLoop_exitSafe 0 2 "10.0.0.1" "m" 50051 none sampleCfg
    (sampleGroup 0) _ _ rfl run⟩

/-- A worker that does not find its master in its first two checks raises. -/
theorem heartbeatLoop_raises :
    ∃ loop,
      Transition.Run Loop.step (fun _ _ => True) (Loop.start (sampleGroup 1))
          [.heartbeat noAnswers, .heartbeat noAnswers] loop ∧
        loop.status = .raised (.attributeError "_disconnect_retry_count") ∧
          ¬ ExitSafe loop := by
  have first :
      Transition.Run Loop.step (fun _ _ => True) (Loop.start (sampleGroup 1))
        [.heartbeat noAnswers] _ :=
    @Transition.Run.next _ _ _ _ _ _ _ _ _ .start trivial rfl
  have run := @Transition.Run.next _ _ _ _ _ _ _ _ (LoopEvent.heartbeat noAnswers)
    first trivial rfl
  exact ⟨_, run, rfl, fun safe => safe.noError _ rfl⟩

end TensorPC.Dist
