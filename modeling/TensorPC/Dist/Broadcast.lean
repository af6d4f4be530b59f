import TensorPC.Dist.Heartbeat

namespace TensorPC.Dist

/-!
# Calls to all workers

`master_call_all_client` calls every connected worker and sorts what comes back
into replies and exceptions.  With given urls the master calls again those
workers that failed without an RPC error, up to a number of rounds, and shuts
every server down when it gives up; otherwise each worker is called once and the
connections that failed are dropped.
-/

/-- How one call of a worker ends. -/
inductive Outcome (α ε : Type)
  | reply (value : α)
  | rpcError (raised : ε)
  | exception (raised : ε)
  deriving DecidableEq

namespace Outcome

/-- Whether the worker replied. -/
def isReply : Outcome α ε → Bool
  | .reply _ => true
  | .rpcError _ => false
  | .exception _ => false

/-- What the caller sees of a call that failed. -/
def raised? : Outcome α ε → Option ε
  | .reply _ => none
  | .rpcError raised => some raised
  | .exception raised => some raised

end Outcome

/-- What the other processes do during one broadcast. -/
structure Network (α ε : Type) where
  /-- How the call of a worker ends in a round. -/
  outcome : Nat → Rank → Outcome α ε
  /-- What awaiting a cancelled call raises, when it had failed before. -/
  cancelled : Rank → Option PyError
  /-- What shutting a server down raises besides `AioRpcError`, which is printed. -/
  shutdown : Url → Option PyError

/-- `res_dict` and `exc_dict`, with what the loop over one round gathers. -/
structure Round (α ε : Type) where
  resDict : Dict Rank α
  excDict : Dict Rank ε
  newRanks : List Rank
  rpcFailed : Bool

namespace Round

/-- A round starts with the replies of the earlier ones. -/
def next (resDict : Dict Rank α) : Round α ε where
  resDict := resDict
  excDict := Dict.empty
  newRanks := []
  rpcFailed := false

/-- `res_dict[rank] = r`. -/
def addReply (round : Round α ε) (rank : Rank) (value : α) : Round α ε :=
  { round with resDict := round.resDict.set rank value }

/-- `exc_dict[rank] = r`. -/
def addException (round : Round α ε) (rank : Rank) (raised : ε) : Round α ε :=
  { round with excDict := round.excDict.set rank raised }

end Round

/-- `res_dict, exc_dict, failed` of the one path, `res_dict, exc_dict, all_ok` of the other. -/
abbrev CallResult (α ε : Type) := Dict Rank α × Dict Rank ε × Bool

namespace Group

variable {α ε : Type}

/-- The loop over the replies of one round, with given urls. -/
def recordRound
    (outcome : Rank → Outcome α ε) :
    List Rank → Round α ε → Method (Round α ε)
  | [], round => return round
  | rank :: rest, round =>
      match outcome rank with
      | .reply value => do
          setClientStatus rank .ok
          recordRound outcome rest (round.addReply rank value)
      | .rpcError raised =>
          recordRound outcome rest
            { round.addException rank raised with rpcFailed := true }
      | .exception raised => do
          setClientStatus rank .workerDisconnected
          let group ← get
          if !group.clientRobjs.contains rank then
            throw (.keyError (toString rank))
          recordRound outcome rest
            { round.addException rank raised with newRanks := round.newRanks ++ [rank] }

/-- Cancelling the calls of the next round. -/
def cancelCalls (network : Network α ε) : List Rank → Method Unit
  | [] => return
  | rank :: rest =>
      match network.cancelled rank with
      | some raised => throw raised
      | none => cancelCalls network rest

/-- The loop that shuts the workers' servers down. -/
def shutdownServers (network : Network α ε) : Rank → List Url → Method Unit
  | _, [] => return
  | rank, url :: rest =>
      if rank = masterRank then
        shutdownServers network (rank + 1) rest
      else
        match network.shutdown url with
        | some raised => throw raised
        | none => shutdownServers network (rank + 1) rest

/-- The retry loop.  A round in which nobody failed leaves no rank to call, so the
loop does not go on when `retry_cnt` is used up. -/
def callInRounds
    (network : Network α ε)
    (urls : List Url)
    (retryCnt number : Nat)
    (ranks : List Rank)
    (before : Round α ε) :
    Method (CallResult α ε) :=
  if ranks.isEmpty then
    return (before.resDict, before.excDict, false)
  else do
    let round ← recordRound (network.outcome number) ranks (.next before.resDict)
    if (round.rpcFailed || retryCnt == 0) && !round.excDict.entries.isEmpty then
      cancelCalls network round.newRanks
      shutdownServers network 0 urls
      return (round.resDict, round.excDict, true)
    else
      match retryCnt with
      | 0 => return (round.resDict, round.excDict, false)
      | retryCnt + 1 => callInRounds network urls retryCnt (number + 1) round.newRanks round

/-- `master_call_all_client` with given urls. -/
def callAllClientInSync
    (network : Network α ε)
    (excludeRanks : List Rank)
    (urls : List Url) :
    Method (CallResult α ε) := do
  let group ← get
  if !group.numClientRobjIsValid then
    throw (.assertionError "all worker must be connected in sync mode.")
  if !excludeRanks.isEmpty then
    throw (.assertionError "exclude_ranks not supported in sync mode.")
  callInRounds network urls (max 1 group.cfg.disconnectTotalRetry).toNat 0
    group.clientRobjs.keys (.next Dict.empty)

/-- The loop over the replies, when each worker is called once. -/
def recordOutcomes
    (outcome : Rank → Outcome α ε) :
    List Rank → Round α ε → Method (Round α ε)
  | [], round => return round
  | rank :: rest, round =>
      match outcome rank with
      | .reply value => do
          setClientStatus rank .ok
          recordOutcomes outcome rest (round.addReply rank value)
      | .rpcError raised | .exception raised => do
          setClientStatus rank .workerDisconnected
          popClientRobj rank
          recordOutcomes outcome rest (round.addException rank raised)

/-- The workers that are called. -/
def calledRanks (group : Group) (excludeRanks : List Rank) : List Rank :=
  group.clientRobjs.keys.filter fun rank => !excludeRanks.contains rank

/-- `master_call_all_client` of the other groups, and of every health check. -/
def callAllClientOnce
    (network : Network α ε)
    (excludeRanks : List Rank) :
    Method (CallResult α ε) := do
  let group ← get
  let round ←
    recordOutcomes (network.outcome 0) (group.calledRanks excludeRanks) (.next Dict.empty)
  if !group.numClientRobjIsValid || !round.excDict.entries.isEmpty then
    setStatus .workerDisconnected
  return (round.resDict, round.excDict,
    group.numClientRobjIsValid && round.excDict.entries.isEmpty)

/-- `master_call_all_client`. -/
def callAllClient
    (network : Network α ε)
    (excludeRanks : List Rank)
    (rpcIsHealthCheck : Bool) :
    Method (CallResult α ε) := do
  let group ← get
  if !group.isMaster then
    throw (.assertionError "only master can call all client")
  match if rpcIsHealthCheck then none else group.distUrlWithPorts with
  | some urls => callAllClientInSync network excludeRanks urls
  | none => callAllClientOnce network excludeRanks

/-! ## The health check of a heartbeat -/

end Group

/-! ## Sorted outcomes -/

/-- The ranks seen so far are sorted: each one is a reply or an exception, and those
to be called again failed. -/
structure Sorted
    (network : Network α ε)
    (seen : List Rank)
    (round : Round α ε) : Prop where
  disjoint : ∀ rank ∈ round.resDict.keys, rank ∉ round.excDict.keys
  cover : ∀ rank, rank ∈ seen ↔ rank ∈ round.resDict.keys ∨ rank ∈ round.excDict.keys
  replies :
    ∀ rank value, round.resDict.get? rank = some value →
      ∃ number, network.outcome number rank = .reply value
  raised :
    ∀ rank raised, round.excDict.get? rank = some raised →
      ∃ number, (network.outcome number rank).raised? = some raised

namespace Sorted

variable {α ε : Type} {network : Network α ε} {seen : List Rank} {round : Round α ε}

theorem next (sorted : Sorted network seen round) :
    Sorted network round.resDict.keys (.next round.resDict : Round α ε) where
  disjoint := by
    intro rank _ member
    simp [Round.next] at member
  cover := by
    simp [Round.next]
  replies := sorted.replies
  raised := by
    intro rank raised found
    simp [Round.next] at found

theorem empty : Sorted network [] (.next Dict.empty : Round α ε) where
  disjoint := by
    simp [Round.next]
  cover := by
    simp [Round.next]
  replies := by
    simp [Round.next]
  raised := by
    simp [Round.next]

/-- A reply of a rank that was not seen yet. -/
theorem addReply
    {rank : Rank}
    {value : α}
    {number : Nat}
    (sorted : Sorted network seen round)
    (isNew : rank ∉ seen)
    (replied : network.outcome number rank = .reply value) :
    Sorted network (seen ++ [rank]) (round.addReply rank value) where
  disjoint := by
    intro other member
    rcases Dict.mem_keys_set.mp member with same | earlier
    · subst same
      exact fun failed => isNew ((sorted.cover other).mpr (.inr failed))
    · exact sorted.disjoint other earlier
  cover := by
    intro other
    simp only [Round.addReply, List.mem_append, List.mem_singleton, Dict.mem_keys_set,
      sorted.cover other]
    tauto
  replies := by
    intro other reply found
    simp only [Round.addReply, Dict.get?_set] at found
    split at found
    · rename_i same
      subst same
      obtain rfl := Option.some.inj found
      exact ⟨number, replied⟩
    · exact sorted.replies other reply found
  raised := sorted.raised

/-- A failure of a rank that was not seen yet. -/
theorem addException
    {rank : Rank}
    {raised : ε}
    {number : Nat}
    (sorted : Sorted network seen round)
    (isNew : rank ∉ seen)
    (failed : (network.outcome number rank).raised? = some raised) :
    Sorted network (seen ++ [rank]) (round.addException rank raised) where
  disjoint := by
    intro other member failedToo
    rcases Dict.mem_keys_set.mp failedToo with same | earlier
    · subst same
      exact isNew ((sorted.cover other).mpr (.inl member))
    · exact sorted.disjoint other member earlier
  cover := by
    intro other
    simp only [Round.addException, List.mem_append, List.mem_singleton, Dict.mem_keys_set,
      sorted.cover other]
    tauto
  replies := sorted.replies
  raised := by
    intro other exception found
    simp only [Round.addException, Dict.get?_set] at found
    split at found
    · rename_i same
      subst same
      obtain rfl := Option.some.inj found
      exact ⟨number, failed⟩
    · exact sorted.raised other exception found

theorem congr
    {other : Round α ε}
    (sorted : Sorted network seen round)
    (sameReplies : other.resDict = round.resDict)
    (sameExceptions : other.excDict = round.excDict) :
    Sorted network seen other := by
  obtain ⟨disjoint, cover, replies, raised⟩ := sorted
  rw [← sameReplies] at disjoint cover replies
  rw [← sameExceptions] at disjoint cover raised
  exact ⟨disjoint, cover, replies, raised⟩

theorem ofMem
    {called : List Rank}
    (sorted : Sorted network seen round)
    (same : ∀ rank, rank ∈ called ↔ rank ∈ seen) :
    Sorted network called round :=
  ⟨sorted.disjoint, fun rank => (same rank).trans (sorted.cover rank), sorted.replies,
    sorted.raised⟩

theorem noException_iff (sorted : Sorted network seen round) :
    round.excDict.entries.isEmpty = true ↔
      ∀ rank ∈ seen, rank ∈ round.resDict.keys := by
  rw [List.isEmpty_iff]
  constructor
  · intro none rank member
    refine ((sorted.cover rank).mp member).resolve_right ?_
    simp [Dict.keys, none]
  · intro all
    by_contra some
    obtain ⟨entry, member⟩ := List.exists_mem_of_ne_nil _ some
    have failed : entry.1 ∈ round.excDict.keys := List.mem_map_of_mem member
    exact sorted.disjoint entry.1 (all entry.1 ((sorted.cover entry.1).mpr (.inr failed))) failed

end Sorted

/-- The ranks to be called again are those that failed, unless an RPC error ends the calls. -/
structure Retried (round : Round α ε) : Prop where
  distinct : round.newRanks.Nodup
  failed : ∀ rank ∈ round.newRanks, rank ∈ round.excDict.keys
  all : round.rpcFailed = false → ∀ rank ∈ round.excDict.keys, rank ∈ round.newRanks

/-! ## What a broadcast returns -/

/-- The contract of the returned triple: replies and exceptions do not overlap, are
those of the called workers, and the third component says whether all replied. -/
structure Contract
    (network : Network α ε)
    (called : List Rank)
    (result : CallResult α ε) : Prop where
  sorted : Sorted network called ⟨result.1, result.2.1, [], false⟩
  allReplied : result.2.2 = true ↔ ∀ rank ∈ called, rank ∈ result.1.keys

namespace Group

open Computation

variable {α ε : Type} {network : Network α ε}

/-- One round with given urls sorts the ranks it calls. -/
theorem recordRound_sorted
    {number : Nat}
    {seen ranks : List Rank}
    {round final : Round α ε}
    {group after : Group}
    (distinct : (seen ++ ranks).Nodup)
    (sorted : Sorted network seen round)
    (retried : Retried round)
    (recorded : recordRound (network.outcome number) ranks round group = .ok final after) :
    Sorted network (seen ++ ranks) final ∧ Retried final := by
  induction ranks generalizing seen round group with
  | nil =>
      obtain ⟨rfl, rfl⟩ := pure_eq_ok.mp recorded
      rw [List.append_nil]
      exact ⟨sorted, retried⟩
  | cons rank rest inductionHypothesis =>
      have isNew : rank ∉ seen := by
        intro member
        exact (List.nodup_append.mp distinct).2.2 rank member rank List.mem_cons_self rfl
      have notFailed : rank ∉ round.excDict.keys := fun failed =>
        isNew ((sorted.cover rank).mpr (.inr failed))
      rw [List.append_cons] at distinct ⊢
      cases outcome : network.outcome number rank with
      | reply value =>
        simp only [recordRound, outcome] at recorded
        obtain ⟨_, middle, _, recorded⟩ := bind_eq_ok.mp recorded
        exact inductionHypothesis distinct (sorted.addReply isNew outcome)
          ⟨retried.distinct, retried.failed, retried.all⟩ recorded
      | rpcError raised =>
        simp only [recordRound, outcome] at recorded
        have seenToo :
            Sorted network (seen ++ [rank])
              { round.addException rank raised with rpcFailed := true } :=
          (sorted.addException isNew (congrArg Outcome.raised? outcome)).congr rfl rfl
        refine inductionHypothesis distinct seenToo ?_ recorded
        refine ⟨retried.distinct, ?_, nofun⟩
        intro other member
        exact Dict.mem_keys_set.mpr (.inr (retried.failed other member))
      | exception raised =>
        simp only [recordRound, outcome] at recorded
        obtain ⟨_, middle, _, recorded⟩ := bind_eq_ok.mp recorded
        obtain ⟨current, _, _, recorded⟩ := bind_eq_ok.mp recorded
        split at recorded
        · obtain ⟨_, _, thrown, _⟩ := bind_eq_ok.mp recorded
          cases thrown
        have seenToo :
            Sorted network (seen ++ [rank])
              { round.addException rank raised with newRanks := round.newRanks ++ [rank] } :=
          (sorted.addException isNew (congrArg Outcome.raised? outcome)).congr rfl rfl
        refine inductionHypothesis distinct seenToo ?_ recorded
        refine ⟨?_, ?_, ?_⟩
        · refine List.nodup_append.mpr ⟨retried.distinct, List.nodup_singleton _, ?_⟩
          intro other member another isRank
          obtain rfl := List.mem_singleton.mp isRank
          rintro rfl
          exact notFailed (retried.failed other member)
        · intro other member
          refine Dict.mem_keys_set.mpr ?_
          rcases List.mem_append.mp member with earlier | added
          · exact .inr (retried.failed other earlier)
          · exact .inl (List.mem_singleton.mp added)
        · intro noError other member
          refine List.mem_append.mpr ?_
          rcases Dict.mem_keys_set.mp member with same | earlier
          · exact .inr (List.mem_singleton.mpr same)
          · exact .inl (retried.all noError other earlier)

/-- What the retry loop keeps between two rounds: each called rank has replied or is
called in the next one. -/
structure Pending
    (network : Network α ε)
    (called ranks : List Rank)
    (before : Round α ε) : Prop where
  sorted : ∃ seen, Sorted network seen before
  distinct : ranks.Nodup
  cover : ∀ rank, rank ∈ called ↔ rank ∈ before.resDict.keys ∨ rank ∈ ranks
  fresh : ∀ rank ∈ ranks, rank ∉ before.resDict.keys
  ended : ranks = [] → before.excDict.entries = []

/-- A round of the retry loop sorts all ranks. -/
theorem Pending.recordRound
    {number : Nat}
    {called ranks : List Rank}
    {before round : Round α ε}
    {group after : Group}
    (pending : Pending network called ranks before)
    (recorded :
      Group.recordRound (network.outcome number) ranks (.next before.resDict) group =
        .ok round after) :
    Sorted network called round ∧ Retried round := by
  obtain ⟨seen, sorted⟩ := pending.sorted
  have distinct : (before.resDict.keys ++ ranks).Nodup := by
    refine List.nodup_append.mpr ⟨before.resDict.nodup_keys, pending.distinct, ?_⟩
    rintro rank replied other toCall rfl
    exact pending.fresh rank toCall replied
  have nothing : Retried (.next before.resDict : Round α ε) := by
    refine ⟨List.nodup_nil, nofun, fun _ rank member => ?_⟩
    simp [Round.next] at member
  obtain ⟨sortedRound, retried⟩ := recordRound_sorted distinct sorted.next nothing recorded
  refine ⟨sortedRound.ofMem fun rank => ?_, retried⟩
  rw [pending.cover, List.mem_append]

/-- After a round that is not the last one, those that failed are called again. -/
theorem Pending.of_round
    {called : List Rank}
    {round : Round α ε}
    (sorted : Sorted network called round)
    (retried : Retried round)
    (goesOn : round.rpcFailed = false ∨ round.excDict.entries = []) :
    Pending network called round.newRanks round := by
  have all : ∀ rank ∈ round.excDict.keys, rank ∈ round.newRanks := by
    intro rank member
    rcases goesOn with noError | none
    · exact retried.all noError rank member
    · simp [Dict.keys, none] at member
  refine ⟨⟨called, sorted⟩, retried.distinct, ?_, ?_, ?_⟩
  · intro rank
    rw [sorted.cover]
    exact or_congr_right ⟨all rank, retried.failed rank⟩
  · intro rank member replied
    exact sorted.disjoint rank replied (retried.failed rank member)
  · intro none
    by_contra some
    obtain ⟨entry, member⟩ := List.exists_mem_of_ne_nil _ some
    have again := all entry.1 (List.mem_map_of_mem member)
    rw [none] at again
    cases again

/-- Sorted replies and exceptions with a third component that says that some rank failed. -/
def SortedAsFailed
    (network : Network α ε)
    (called : List Rank)
    (result : CallResult α ε) : Prop :=
  Sorted network called ⟨result.1, result.2.1, [], false⟩ ∧
    (result.2.2 = true ↔ result.2.1.entries.isEmpty = false)

/-- How one turn of the retry loop can go: there is nobody to call, the master gives up
after a round with failures, or the calls that failed are made again. -/
inductive Turn
    (network : Network α ε)
    (urls : List Url)
    (retryCnt number : Nat)
    (ranks : List Rank)
    (before : Round α ε)
    (group after : Group)
    (result : CallResult α ε) : Prop
  | ended
      (nobody : ranks = [])
      (made : result = (before.resDict, before.excDict, false))
  | gaveUp
      (round : Round α ε)
      (middle : Group)
      (recorded :
        recordRound (network.outcome number) ranks (.next before.resDict) group =
          .ok round middle)
      (failed : round.excDict.entries ≠ [])
      (made : result = (round.resDict, round.excDict, true))
  | last
      (round : Round α ε)
      (recorded :
        recordRound (network.outcome number) ranks (.next before.resDict) group =
          .ok round after)
      (noException : round.excDict.entries = [])
      (made : result = (round.resDict, round.excDict, false))
  | again
      (round : Round α ε)
      (middle : Group)
      (fewer : Nat)
      (recorded :
        recordRound (network.outcome number) ranks (.next before.resDict) group =
          .ok round middle)
      (goesOn : round.rpcFailed = false ∨ round.excDict.entries = [])
      (counted : retryCnt = fewer + 1)
      (returned :
        callInRounds network urls fewer (number + 1) round.newRanks round middle =
          .ok result after)

theorem turn_of_callInRounds
    {urls : List Url}
    {retryCnt number : Nat}
    {ranks : List Rank}
    {before : Round α ε}
    {group after : Group}
    {result : CallResult α ε}
    (returned :
      callInRounds network urls retryCnt number ranks before group = .ok result after) :
    Turn network urls retryCnt number ranks before group after result := by
  unfold callInRounds at returned
  split at returned
  · rename_i nobody
    obtain ⟨rfl, _⟩ := pure_eq_ok.mp returned
    exact .ended (List.isEmpty_iff.mp nobody) rfl
  obtain ⟨round, middle, recorded, rest⟩ := bind_eq_ok.mp returned
  split at rest
  · rename_i giveUp
    obtain ⟨_, _, _, rest⟩ := bind_eq_ok.mp rest
    obtain ⟨_, _, _, rest⟩ := bind_eq_ok.mp rest
    obtain ⟨rfl, _⟩ := pure_eq_ok.mp rest
    refine .gaveUp round middle recorded ?_ rfl
    simp only [Bool.and_eq_true, Bool.not_eq_true', List.isEmpty_eq_false_iff] at giveUp
    exact giveUp.2
  rename_i goesOn
  simp only [Bool.and_eq_true, Bool.or_eq_true, beq_iff_eq, Bool.not_eq_true',
    List.isEmpty_eq_false_iff, not_and, not_not] at goesOn
  cases retryCnt with
  | zero =>
      obtain ⟨rfl, rfl⟩ := pure_eq_ok.mp rest
      exact .last round recorded (goesOn (.inr rfl)) rfl
  | succ fewer =>
      refine .again round middle fewer recorded ?_ rfl rest
      cases noError : round.rpcFailed with
      | false =>
          exact .inl rfl
      | true =>
          exact .inr (goesOn (.inl noError))

/-- The retry loop sorts all ranks, and its third component says that some rank failed. -/
theorem callInRounds_sorted
    {urls : List Url}
    {retryCnt number : Nat}
    {called ranks : List Rank}
    {before : Round α ε}
    {group after : Group}
    {result : CallResult α ε}
    (pending : Pending network called ranks before)
    (returned :
      callInRounds network urls retryCnt number ranks before group = .ok result after) :
    SortedAsFailed network called result := by
  induction retryCnt using Nat.strongRecOn generalizing number ranks before group with
  | _ retryCnt inductionHypothesis =>
  cases turn_of_callInRounds returned with
  | ended nobody made =>
      subst made
      obtain ⟨seen, sorted⟩ := pending.sorted
      have none := pending.ended nobody
      have members : ∀ rank, rank ∈ called ↔ rank ∈ seen := by
        intro rank
        rw [pending.cover, sorted.cover, nobody]
        simp [Dict.keys, none]
      exact ⟨(sorted.ofMem members).congr rfl rfl, by simp [none]⟩
  | gaveUp round middle recorded failed made =>
      subst made
      obtain ⟨sorted, _⟩ := pending.recordRound recorded
      exact ⟨sorted.congr rfl rfl, by simp [failed]⟩
  | last round recorded noException made =>
      subst made
      obtain ⟨sorted, _⟩ := pending.recordRound recorded
      exact ⟨sorted.congr rfl rfl, by simp [noException]⟩
  | again round middle fewer recorded goesOn counted rest =>
      subst counted
      obtain ⟨sorted, retried⟩ := pending.recordRound recorded
      exact inductionHypothesis fewer (Nat.lt_succ_self fewer)
        (.of_round sorted retried goesOn) rest

/-- What a broadcast with given urls returns is sorted, and its third component says
that some worker failed. -/
theorem callAllClientInSync_sorted
    {excludeRanks : List Rank}
    {urls : List Url}
    {group after : Group}
    {result : CallResult α ε}
    (returned :
      callAllClientInSync network excludeRanks urls group = .ok result after) :
    SortedAsFailed network (group.calledRanks excludeRanks) result := by
  unfold callAllClientInSync at returned
  obtain ⟨current, start, got, returned⟩ := bind_eq_ok.mp returned
  obtain ⟨rfl, rfl⟩ := get_eq_ok.mp got
  split at returned
  · obtain ⟨_, _, thrown, _⟩ := bind_eq_ok.mp returned
    cases thrown
  split at returned
  · obtain ⟨_, _, thrown, _⟩ := bind_eq_ok.mp returned
    cases thrown
  rename_i noExclusion
  simp only [Bool.not_eq_true', Bool.not_eq_false, List.isEmpty_iff] at noExclusion
  have called : group.calledRanks excludeRanks = group.clientRobjs.keys := by
    simp [calledRanks, noExclusion]
  rw [called]
  refine callInRounds_sorted ?_ returned
  refine ⟨⟨[], .empty⟩, group.clientRobjs.nodup_keys, ?_, ?_, fun _ => rfl⟩
  · simp [Round.next]
  · simp [Round.next]

/-- Recording the outcomes of connected workers returns and sorts them. -/
theorem recordOutcomes_returns
    {number : Nat}
    {seen ranks : List Rank}
    {round : Round α ε}
    {group : Group}
    (distinct : (seen ++ ranks).Nodup)
    (sorted : Sorted network seen round)
    (wellFormed : WellFormed group)
    (connected : ∀ rank ∈ ranks, rank ∈ group.clientRobjs.keys) :
    Returns (recordOutcomes (network.outcome number) ranks round)
      (fun final after =>
        Sorted network (seen ++ ranks) final ∧ Adjusted group after ∧ WellFormed after)
      group := by
  induction ranks generalizing seen round group with
  | nil =>
      rw [List.append_nil]
      exact ⟨sorted, .refl group, wellFormed⟩
  | cons rank rest inductionHypothesis =>
      have isNew : rank ∉ seen := by
        intro member
        exact (List.nodup_append.mp distinct).2.2 rank member rank List.mem_cons_self rfl
      rw [List.append_cons] at distinct ⊢
      have isConnected := connected rank List.mem_cons_self
      have restDistinct : rank ∉ rest := by
        have all := List.nodup_append.mp distinct
        intro member
        exact all.2.2 rank (by simp) rank member rfl
      have failing :
          ∀ raised, (network.outcome number rank).raised? = some raised →
            Returns
              (do
                setClientStatus rank .workerDisconnected
                popClientRobj rank
                recordOutcomes (network.outcome number) rest (round.addException rank raised))
              (fun final after =>
                Sorted network (seen ++ [rank] ++ rest) final ∧ Adjusted group after ∧
                  WellFormed after)
              group := by
        intro raised failed
        rw [returns_bind]
        refine (dropClient_returns wellFormed isConnected).mono fun _ _ dropped => ?_
        rw [returns_bind]
        refine dropped.mono ?_
        rintro _ middle ⟨popped, poppedFormed, erased⟩
        have seenToo := sorted.addException isNew failed
        refine (inductionHypothesis distinct seenToo poppedFormed ?_).mono ?_
        · intro other inRest
          refine (erased other).mpr ⟨?_, connected other (List.mem_cons_of_mem _ inRest)⟩
          rintro rfl
          exact restDistinct inRest
        · rintro final after ⟨sortedRest, adjustedRest, formed⟩
          exact ⟨sortedRest, popped.trans adjustedRest, formed⟩
      cases outcome : network.outcome number rank with
      | reply value =>
          simp only [recordOutcomes, outcome, returns_bind]
          refine (markClient_returns wellFormed isConnected .ok).mono ?_
          rintro _ middle ⟨adjusted, middleFormed, sameRobjs⟩
          refine (inductionHypothesis distinct (sorted.addReply isNew outcome) middleFormed
            ?_).mono ?_
          · intro other inRest
            rw [sameRobjs]
            exact connected other (List.mem_cons_of_mem _ inRest)
          · rintro final after ⟨sortedRest, adjustedRest, formed⟩
            exact ⟨sortedRest, adjusted.trans adjustedRest, formed⟩
      | rpcError raised =>
          simp only [recordOutcomes, outcome]
          exact failing raised (congrArg Outcome.raised? outcome)
      | exception raised =>
          simp only [recordOutcomes, outcome]
          exact failing raised (congrArg Outcome.raised? outcome)

/-- What a broadcast that calls each worker once returns. -/
theorem callAllClientOnce_returns
    {group : Group}
    (wellFormed : WellFormed group)
    (excludeRanks : List Rank) :
    Returns (callAllClientOnce network excludeRanks)
      (fun result _ =>
        Sorted { network with outcome := fun _ => network.outcome 0 }
            (group.calledRanks excludeRanks) ⟨result.1, result.2.1, [], false⟩ ∧
          result.2.2 = (group.numClientRobjIsValid && result.2.1.entries.isEmpty))
      group := by
  simp only [callAllClientOnce, returns_bind, returns_get]
  have distinct : ([] ++ group.calledRanks excludeRanks).Nodup :=
    group.clientRobjs.nodup_keys.filter _
  have recorded :=
    @recordOutcomes_returns _ _ { network with outcome := fun _ => network.outcome 0 } 0 []
      (group.calledRanks excludeRanks) (.next Dict.empty) group distinct .empty wellFormed
      fun rank member => (List.mem_filter.mp member).1
  refine recorded.mono ?_
  rintro round middle ⟨sorted, _, _⟩
  simp only [returns_ite, returns_bind, setStatus, returns_modify, returns_pure]
  split
  · exact ⟨sorted.congr rfl rfl, trivial⟩
  · exact ⟨sorted.congr rfl rfl, trivial⟩

/-- When each worker is called once, nothing is raised if and only if all of them reply. -/
theorem noException_iff_isReply
    {called : List Rank}
    {round : Round α ε}
    (sorted :
      Sorted { network with outcome := fun _ => network.outcome 0 } called round) :
    round.excDict.entries.isEmpty = true ↔
      ∀ rank ∈ called, (network.outcome 0 rank).isReply = true := by
  rw [sorted.noException_iff]
  refine forall₂_congr fun rank member => ?_
  constructor
  · intro replied
    obtain ⟨value, found⟩ := Option.isSome_iff_exists.mp (Dict.mem_keys_iff.mp replied)
    obtain ⟨_, reply⟩ := sorted.replies rank value found
    exact congrArg Outcome.isReply reply
  · intro isReply
    refine ((sorted.cover rank).mp member).resolve_right ?_
    intro failed
    obtain ⟨raised, found⟩ := Option.isSome_iff_exists.mp (Dict.mem_keys_iff.mp failed)
    obtain ⟨_, exception⟩ := sorted.raised rank raised found
    cases outcome : network.outcome 0 rank with
    | reply value =>
        simp [outcome, Outcome.raised?] at exception
    | rpcError error =>
        simp [outcome, Outcome.isReply] at isReply
    | exception error =>
        simp [outcome, Outcome.isReply] at isReply

/-- Where the third component means what the callers read it as: the workers are called
once, and when one of them is missing, one of those called does not reply either. -/
def SaysAllReplied
    (network : Network α ε)
    (group : Group)
    (excludeRanks : List Rank)
    (rpcIsHealthCheck : Bool) : Prop :=
  group.isMaster = true ∧
    (rpcIsHealthCheck = true ∨ group.distUrlWithPorts = none) ∧
    (group.numClientRobjIsValid = true ∨
      ∃ rank ∈ group.calledRanks excludeRanks, (network.outcome 0 rank).isReply = false)

theorem not_contract_of_sortedAsFailed
    {called : List Rank}
    {result : CallResult α ε}
    (sorted : SortedAsFailed network called result) :
    ¬Contract network called result := by
  intro contract
  have replied := contract.sorted.noException_iff.trans contract.allReplied.symm
  have failed := sorted.2
  cases noException : result.2.1.entries.isEmpty <;>
    simp_all

theorem callAllClient_eq
    {group : Group}
    (isMaster : group.isMaster = true)
    (excludeRanks : List Rank)
    (rpcIsHealthCheck : Bool) :
    callAllClient network excludeRanks rpcIsHealthCheck group =
      (match if rpcIsHealthCheck then none else group.distUrlWithPorts with
      | some urls => callAllClientInSync network excludeRanks urls
      | none => callAllClientOnce network excludeRanks) group := by
  simp [callAllClient, bind, EStateM.bind, Computation.get_apply, isMaster]

theorem callAllClient_not_ok
    {group after : Group}
    {excludeRanks : List Rank}
    {rpcIsHealthCheck : Bool}
    {result : CallResult α ε}
    (isWorker : group.isMaster = false) :
    callAllClient network excludeRanks rpcIsHealthCheck group ≠ .ok result after := by
  intro returned
  obtain ⟨_, _, got, rest⟩ := bind_eq_ok.mp returned
  obtain ⟨rfl, rfl⟩ := get_eq_ok.mp got
  rw [if_pos (by simp [isWorker])] at rest
  obtain ⟨_, _, thrown, _⟩ := bind_eq_ok.mp rest
  cases thrown

/-- The returned replies and exceptions always cover the called workers without overlap;
the third component meets the contract exactly where it is read as "all replied". -/
theorem callAllClient_contract
    {group : Group}
    (wellFormed : WellFormed group)
    (network : Network α ε)
    (excludeRanks : List Rank)
    (rpcIsHealthCheck : Bool) :
    (∀ result after,
      callAllClient network excludeRanks rpcIsHealthCheck group = .ok result after →
      Sorted network (group.calledRanks excludeRanks) ⟨result.1, result.2.1, [], false⟩) ∧
      (Returns (callAllClient network excludeRanks rpcIsHealthCheck)
          (fun result _ => Contract network (group.calledRanks excludeRanks) result) group ↔
        SaysAllReplied network group excludeRanks rpcIsHealthCheck) := by
  cases isMaster : group.isMaster with
  | false =>
      refine ⟨fun result after returned => absurd returned (callAllClient_not_ok isMaster), ?_⟩
      constructor
      · intro returns
        obtain ⟨_, _, returned, _⟩ := returns_iff.mp returns
        exact absurd returned (callAllClient_not_ok isMaster)
      · rintro ⟨master, _⟩
        rw [isMaster] at master
        cases master
  | true =>
      have made :=
        @callAllClient_eq _ _ network _ isMaster excludeRanks rpcIsHealthCheck
      cases path : if rpcIsHealthCheck then none else group.distUrlWithPorts with
      | some urls =>
          rw [path] at made
          simp only [returns_iff, made]
          refine ⟨fun result after returned => (callAllClientInSync_sorted returned).1, ?_⟩
          constructor
          · rintro ⟨result, _, returned, contract⟩
            exact absurd contract
              (not_contract_of_sortedAsFailed (callAllClientInSync_sorted returned))
          · rintro ⟨_, once, _⟩
            rcases once with isHealthCheck | noUrls
            · simp [isHealthCheck] at path
            · simp [noUrls] at path
      | none =>
          have once : rpcIsHealthCheck = true ∨ group.distUrlWithPorts = none := by
            cases rpcIsHealthCheck with
            | true =>
                exact .inl rfl
            | false =>
                exact .inr path
          obtain ⟨result, after, returned, sorted, third⟩ :=
            returns_iff.mp (@callAllClientOnce_returns _ _ network _ wellFormed excludeRanks)
          have anyRound : Sorted network (group.calledRanks excludeRanks)
              ⟨result.1, result.2.1, [], false⟩ := by
            refine ⟨sorted.disjoint, sorted.cover, ?_, ?_⟩
            · intro rank value found
              obtain ⟨_, reply⟩ := sorted.replies rank value found
              exact ⟨0, reply⟩
            · intro rank raised found
              obtain ⟨_, exception⟩ := sorted.raised rank raised found
              exact ⟨0, exception⟩
          rw [path] at made
          simp only [returns_iff, made, returned]
          refine ⟨?_, ?_⟩
          · intro other _ same
            cases same
            exact anyRound
          have repliesIffNone := noException_iff_isReply sorted
          have someFailed :
              result.2.1.entries.isEmpty = false ↔
                ∃ rank ∈ group.calledRanks excludeRanks,
                  (network.outcome 0 rank).isReply = false := by
            rw [← Bool.not_eq_true, repliesIffNone]
            simp
          constructor
          · rintro ⟨_, _, same, contract⟩
            cases same
            refine ⟨isMaster, once, ?_⟩
            rw [← someFailed]
            have meant := contract.allReplied.trans contract.sorted.noException_iff.symm
            rw [third] at meant
            cases valid : group.numClientRobjIsValid <;> simp_all
          · rintro ⟨_, _, missing⟩
            refine ⟨result, after, rfl, anyRound, ?_⟩
            rw [← someFailed] at missing
            rw [third, ← sorted.noException_iff]
            cases noException : result.2.1.entries.isEmpty <;> simp_all

/-- A job of two processes that are given each other's urls. -/
def syncGroup : Group :=
  { Group.initial 0 2 "10.0.0.1" 50051 "m" (some ["10.0.0.1:50051", "10.0.0.2:50051"]) {} with
    clientRobjs := Dict.ofList [(1, "10.0.0.2:50051")] }

/-- Every worker replies at once. -/
def allReply : Network Unit Unit where
  outcome := fun _ _ => .reply ()
  cancelled := fun _ => none
  shutdown := fun _ => none

theorem syncGroup_wellFormed : WellFormed syncGroup where
  masterFlag := rfl
  clientStates := rfl
  ranks := by decide
  urls := fun _ => ⟨_, rfl, rfl⟩
  worldSize := by decide

/-- A health check of a connected group meets the contract. -/
theorem callAllClient_contract_sample :
    (∀ result after,
      callAllClient allReply [] true syncGroup = .ok result after →
      Sorted allReply (syncGroup.calledRanks []) ⟨result.1, result.2.1, [], false⟩) ∧
      (Returns (callAllClient allReply [] true)
          (fun result _ => Contract allReply (syncGroup.calledRanks []) result) syncGroup ↔
        SaysAllReplied allReply syncGroup [] true) :=
  callAllClient_contract syncGroup_wellFormed allReply [] true

/-- All workers are connected and reply, and the third component is false. -/
theorem not_callAllClient_contract :
    ¬∀ (group : Group) (network : Network Unit Unit),
      WellFormed group →
      group.isMaster = true →
      group.numClientRobjIsValid = true →
      Returns (callAllClient network [] false)
        (fun result _ => Contract network (group.calledRanks []) result) group := by
  intro claim
  have returns := claim syncGroup allReply syncGroup_wellFormed rfl rfl
  obtain ⟨result, after, returned, contract⟩ := returns_iff.mp returns
  rw [callAllClient_eq rfl] at returned
  exact not_contract_of_sortedAsFailed (callAllClientInSync_sorted returned) contract

end Group

end TensorPC.Dist
