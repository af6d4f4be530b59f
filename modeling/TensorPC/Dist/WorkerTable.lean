import TensorPC.Dist.FaultGroup
import TensorPC.Lib.Transition

namespace TensorPC.Dist.SSHServer

/-!
# The master's table of worker connections

The distssh master calls all its workers and meanwhile takes their
`set_worker_state` messages.  Between two `await`s a coroutine runs alone, so a
run is a sequence of such stretches: of the broadcast that holds the master lock,
and of any number of messages.  What was removed from the table, and what was
raised, is recorded.
-/

/-- An `AsyncRemoteManager`: the object, and where it connects to. -/
structure Connection where
  id : Nat
  url : Url
  deriving DecidableEq

/-- How a remote call ended. -/
inductive Reply
  | result
  | exception
  deriving DecidableEq

/-- One call of a broadcast; without a reply yet while it is pending. -/
structure Call where
  rank : Rank
  connection : Connection
  reply : Option Reply
  deriving DecidableEq

/-- `_master_call_all_client`, while it holds `_master_lock`. -/
structure Broadcast where
  isAllWorkerConn : Bool
  /-- Whether the replies are in and the loop over them runs. -/
  recording : Bool
  /-- The calls that the loop over the replies has yet to look at. -/
  calls : List Call
  /-- The status changes recorded in the draft. -/
  statuses : List (Rank × FTStatus)
  hasDisconnect : Bool
  /-- The ranks that went through the table since the broadcast started. -/
  registered : List Rank

/-- Where a `set_worker_state` call stands. -/
inductive RegistrationPhase
  | started
  | stored
  | closing
  | connected
  deriving DecidableEq

/-- A `set_worker_state` call. -/
structure Registration where
  state : FTState
  clientIsRestart : Bool
  phase : RegistrationPhase

/-- An entry that a broadcast took out of the table. -/
structure Removal where
  rank : Rank
  removed : Connection
  calledOn : Connection
  registeredSince : Bool

/-- `FaultToleranceSSHServer` on the master, with its coroutines. -/
structure Server where
  worldSize : Nat
  clientRobjs : Dict Rank Connection
  clientStates : List FTState
  connections : Nat
  broadcast : Option Broadcast
  messages : Nat
  registrations : Dict Nat Registration
  removals : List Removal
  raised : List PyError

/-- A stretch between two `await`s. -/
inductive TableEvent
  | callAllClient (excludeRanks : List Rank)
  | reply (rank : Rank) (reply : Reply)
  | gathered
  | record
  | finish
  | setWorkerState (state : FTState)
  | storeState (message : Nat)
  | connect (message : Nat)
  | replace (message : Nat)
  | checkIsOk (message : Nat)

namespace Server

/-- A master before anybody registered. -/
def start (worldSize : Nat) (clientStates : List FTState) : Server where
  worldSize := worldSize
  clientRobjs := Dict.empty
  clientStates := clientStates
  connections := 0
  broadcast := none
  messages := 0
  registrations := Dict.empty
  removals := []
  raised := []

/-- `_num_client_robj_is_valid`. -/
def numClientRobjIsValid (server : Server) : Bool :=
  (server.clientRobjs.entries.length : Int) == server.worldSize - 1

/-- The status changes of a draft, applied when its context ends. -/
def applyStatuses
    (statuses : List (Rank × FTStatus))
    (clientStates : List FTState) :
    List FTState :=
  statuses.foldl
    (fun states change =>
      states.modify change.1 fun state => { state with status := change.2 })
    clientStates

/-! ## The broadcast -/

/-- The calls that `_master_call_all_client` starts. -/
def startCalls
    (clientRobjs : Dict Rank Connection)
    (excludeRanks : List Rank) :
    List Call :=
  (clientRobjs.entries.filter fun entry => entry.1 ∉ excludeRanks).map fun entry =>
    { rank := entry.1, connection := entry.2, reply := none }

/-- A broadcast takes the lock and snapshots the table. -/
def callAllClient (excludeRanks : List Rank) (server : Server) : Option Server :=
  match server.broadcast with
  | some _ => none
  | none => some { server with
      broadcast := some {
        isAllWorkerConn := server.numClientRobjIsValid
        recording := false
        calls := startCalls server.clientRobjs excludeRanks
        statuses := []
        hasDisconnect := false
        registered := [] } }

/-- A pending call of the broadcast ends. -/
def receiveReply (rank : Rank) (reply : Reply) (server : Server) : Option Server := do
  let broadcast ← server.broadcast
  if broadcast.calls.any fun call => call.rank = rank ∧ call.reply = none then
    some { server with
      broadcast := some { broadcast with
        calls := broadcast.calls.map fun call =>
          if call.rank = rank then
            { call with reply := some reply }
          else
            call } }
  else
    none

/-- `asyncio.gather` returns once every call has ended. -/
def gathered (server : Server) : Option Server := do
  let broadcast ← server.broadcast
  if !broadcast.recording && broadcast.calls.all fun call => call.reply.isSome then
    some { server with broadcast := some { broadcast with recording := true } }
  else
    none

/-- One round of the loop over the replies; a failed rank is taken out of the table. -/
def record (server : Server) : Option Server := do
  let broadcast ← server.broadcast
  match broadcast.recording, broadcast.calls with
  | true, call :: rest =>
      match call.reply with
      | some .exception =>
          match server.clientRobjs.get? call.rank with
          | none => some { server with
              broadcast := none
              raised := server.raised ++ [.keyError (toString call.rank)] }
          | some popedRobj => some { server with
              clientRobjs := server.clientRobjs.erase call.rank
              broadcast := some { broadcast with
                calls := rest
                statuses := broadcast.statuses ++ [(call.rank, .workerDisconnected)]
                hasDisconnect := true }
              removals := server.removals ++ [{
                rank := call.rank
                removed := popedRobj
                calledOn := call.connection
                registeredSince := broadcast.registered.contains call.rank }] }
      | _ => some { server with
          broadcast := some { broadcast with
            calls := rest
            statuses := broadcast.statuses ++ [(call.rank, .ok)] } }
  | _, _ => none

/-- The end of the broadcast: the draft is applied and the lock is released. -/
def finish (server : Server) : Option Server := do
  let broadcast ← server.broadcast
  match broadcast.recording, broadcast.calls with
  | true, [] =>
      let master : List (Rank × FTStatus) :=
        if broadcast.hasDisconnect || !broadcast.isAllWorkerConn then
          [(masterRank, .workerDisconnected)]
        else
          []
      some { server with
        broadcast := none
        clientStates := applyStatuses (broadcast.statuses ++ master) server.clientStates }
  | _, _ => none

/-! ## Messages of the workers -/

/-- `set_worker_state` up to its first `await`. -/
def setWorkerState (state : FTState) (server : Server) : Server :=
  let refuse (error : PyError) : Server := { server with raised := server.raised ++ [error] }
  if state.rank = masterRank then
    refuse (.assertionError "master rank should not be set")
  else
    match server.clientStates[masterRank]? with
    | none => refuse .indexError
    | some master =>
        if !master.isMaster then
          refuse (.assertionError "only master can set worker state")
        else
          match server.clientStates[state.rank]? with
          | none => refuse .indexError
          | some prevClientState => { server with
              messages := server.messages + 1
              registrations := server.registrations.set server.messages {
                state := state
                clientIsRestart :=
                  prevClientState.uuid != state.uuid && prevClientState.uuid != ""
                phase := .started } }

/-- The message goes on to its next `await`. -/
def moveTo
    (message : Nat)
    (registration : Registration)
    (phase : RegistrationPhase)
    (server : Server) :
    Server :=
  { server with
    registrations := server.registrations.set message { registration with phase := phase } }

/-- The message has gone through the table, which a broadcast meanwhile does not see. -/
def markRegistered (rank : Rank) (server : Server) : Server :=
  { server with
    broadcast := server.broadcast.map fun broadcast =>
      { broadcast with registered := broadcast.registered ++ [rank] } }

/-- `self._client_robjs[rank] = AsyncRemoteManager(url)`. -/
def addClientRobj (state : FTState) (server : Server) : Server :=
  { server with
    connections := server.connections + 1
    clientRobjs :=
      server.clientRobjs.set state.rank { id := server.connections, url := state.url } }

/-- The first draft update: the state of the worker is stored. -/
def storeState (message : Nat) (server : Server) : Option Server := do
  let registration ← server.registrations.get? message
  match registration.phase with
  | .started =>
      some ({ server with
        clientStates :=
          server.clientStates.set registration.state.rank registration.state }.moveTo
            message registration .stored)
  | _ => none

/-- The look at the table: a known worker that restarted has its connection closed. -/
def connect (message : Nat) (server : Server) : Option Server := do
  let registration ← server.registrations.get? message
  match registration.phase with
  | .stored =>
      let server := server.markRegistered registration.state.rank
      if server.clientRobjs.contains registration.state.rank then
        if registration.clientIsRestart then
          some (server.moveTo message registration .closing)
        else
          some (server.moveTo message registration .connected)
      else
        some ((server.addClientRobj registration.state).moveTo message registration .connected)
  | _ => none

/-- After `await prev_robj.close()`: the connection is exchanged. -/
def replace (message : Nat) (server : Server) : Option Server := do
  let registration ← server.registrations.get? message
  match registration.phase with
  | .closing =>
      let server := server.markRegistered registration.state.rank
      match server.clientRobjs.get? registration.state.rank with
      | none => some { server with
          registrations := server.registrations.erase message
          raised := server.raised ++ [.keyError (toString registration.state.rank)] }
      | some _ =>
          let popped : Server :=
            { server with clientRobjs := server.clientRobjs.erase registration.state.rank }
          some ((popped.addClientRobj registration.state).moveTo message registration .connected)
  | _ => none

/-- `_master_state_check_is_ok`, and the end of the message. -/
def checkIsOk (message : Nat) (server : Server) : Option Server := do
  let registration ← server.registrations.get? message
  match registration.phase with
  | .connected =>
      some { server with
        registrations := server.registrations.erase message
        clientStates :=
          if server.numClientRobjIsValid then
            applyStatuses [(masterRank, .ok)] server.clientStates
          else
            server.clientStates }
  | _ => none

/-- One stretch of one coroutine. -/
def step (server : Server) : TableEvent → Option Server
  | .callAllClient excludeRanks => server.callAllClient excludeRanks
  | .reply rank reply => server.receiveReply rank reply
  | .gathered => server.gathered
  | .record => server.record
  | .finish => server.finish
  | .setWorkerState state => some (server.setWorkerState state)
  | .storeState message => server.storeState message
  | .connect message => server.connect message
  | .replace message => server.replace message
  | .checkIsOk message => server.checkIsOk message

end Server

/-! ## Reconnect safety -/

/-- The property: what a broadcast removes is what it called, nobody who registered
meanwhile is removed, and no key is missing. -/
structure ReconnectSafe (server : Server) : Prop where
  sameConnection : ∀ removal ∈ server.removals, removal.removed = removal.calledOn
  keepsRegistered : ∀ removal ∈ server.removals, removal.registeredSince = false
  noKeyError : ∀ key, .keyError key ∉ server.raised

/-- The next reply is not the failure of a rank that registered since the start. -/
def Broadcast.recordsOk (broadcast : Broadcast) : Bool :=
  match broadcast.calls with
  | call :: _ => call.reply != some .exception || !broadcast.registered.contains call.rank
  | [] => true

/-- A failure is recorded only for a rank that has not registered since the broadcast
started, and a closed connection is still in the table when it is exchanged. -/
def StepOk (server : Server) : TableEvent → Prop
  | .record => server.broadcast.all Broadcast.recordsOk = true
  | .replace message =>
      (server.registrations.get? message).all
        (fun registration => server.clientRobjs.contains registration.state.rank) = true
  | _ => True

instance (server : Server) (event : TableEvent) : Decidable (StepOk server event) :=
  match event with
  | .record => inferInstanceAs (Decidable (_ = true))
  | .replace _ => inferInstanceAs (Decidable (_ = true))
  | .callAllClient _ => .isTrue trivial
  | .reply _ _ => .isTrue trivial
  | .gathered => .isTrue trivial
  | .finish => .isTrue trivial
  | .setWorkerState _ => .isTrue trivial
  | .storeState _ => .isTrue trivial
  | .connect _ => .isTrue trivial
  | .checkIsOk _ => .isTrue trivial

/-- The calls of a broadcast were made on the connections in the table, but for the
ranks that registered since. -/
def Snapshot (clientRobjs : Dict Rank Connection) (broadcast : Broadcast) : Prop :=
  (broadcast.calls.map Call.rank).Nodup ∧
    ∀ call ∈ broadcast.calls,
      call.rank ∉ broadcast.registered →
      clientRobjs.get? call.rank = some call.connection

/-- What every run of allowed steps keeps. -/
structure Tracked (server : Server) : Prop extends ReconnectSafe server where
  snapshot :
    ∀ broadcast, server.broadcast = some broadcast → Snapshot server.clientRobjs broadcast

namespace Snapshot

variable {clientRobjs changed : Dict Rank Connection} {broadcast : Broadcast}

theorem start
    (isAllWorkerConn : Bool)
    (clientRobjs : Dict Rank Connection)
    (excludeRanks : List Rank) :
    Snapshot clientRobjs {
      isAllWorkerConn := isAllWorkerConn
      recording := false
      calls := Server.startCalls clientRobjs excludeRanks
      statuses := []
      hasDisconnect := false
      registered := [] } := by
  constructor
  · simp only [Server.startCalls, List.map_map, Function.comp_def]
    exact clientRobjs.nodup.sublist (List.filter_sublist.map Prod.fst)
  · intro call member _
    obtain ⟨entry, inTable, rfl⟩ := List.mem_map.mp member
    exact (Dict.mem_entries_iff clientRobjs).mp (List.mem_filter.mp inTable).1

theorem mark
    (snapshot : Snapshot clientRobjs broadcast)
    {rank : Rank}
    (others : ∀ other, other ≠ rank → changed.get? other = clientRobjs.get? other) :
    Snapshot changed { broadcast with registered := broadcast.registered ++ [rank] } := by
  refine ⟨snapshot.1, fun call member unregistered => ?_⟩
  simp only [List.mem_append, List.mem_singleton, not_or] at unregistered
  rw [others call.rank unregistered.2]
  exact snapshot.2 call member unregistered.1

theorem rest
    {call : Call}
    {calls : List Call}
    (snapshot : Snapshot clientRobjs broadcast)
    (first : broadcast.calls = call :: calls)
    (others : ∀ other, other ≠ call.rank → changed.get? other = clientRobjs.get? other)
    (statuses : List (Rank × FTStatus))
    (hasDisconnect : Bool) :
    Snapshot changed { broadcast with
      calls := calls, statuses := statuses, hasDisconnect := hasDisconnect } := by
  obtain ⟨distinct, connections⟩ := snapshot
  rw [first] at distinct connections
  obtain ⟨isNew, distinct⟩ := List.nodup_cons.mp distinct
  refine ⟨distinct, fun other member unregistered => ?_⟩
  have different : other.rank ≠ call.rank := by
    intro same
    exact isNew (same ▸ List.mem_map_of_mem member)
  rw [others other.rank different]
  exact connections other (List.mem_cons_of_mem _ member) unregistered

end Snapshot

namespace Tracked

variable {server : Server}

/-- A message goes through the table. -/
theorem throughTable
    (tracked : Tracked server)
    {rank : Rank}
    {after : Server}
    (others :
      ∀ other, other ≠ rank → after.clientRobjs.get? other = server.clientRobjs.get? other)
    (marked : after.broadcast = (server.markRegistered rank).broadcast)
    (removals : after.removals = server.removals)
    (raised : after.raised = server.raised) :
    Tracked after := by
  refine ⟨⟨?_, ?_, ?_⟩, ?_⟩
  · rw [removals]
    exact tracked.sameConnection
  · rw [removals]
    exact tracked.keepsRegistered
  · rw [raised]
    exact tracked.noKeyError
  · intro broadcast isBroadcast
    rw [marked] at isBroadcast
    obtain ⟨earlier, isEarlier, rfl⟩ := Option.map_eq_some_iff.mp isBroadcast
    exact (tracked.snapshot earlier isEarlier).mark others

/-- The loop over the replies takes a failed rank out of the table. -/
theorem record
    (tracked : Tracked server)
    (stepOk : StepOk server .record)
    {after : Server}
    (recorded : server.record = some after) :
    Tracked after := by
  obtain ⟨broadcast, isBroadcast, recorded⟩ := Option.bind_eq_some_iff.mp recorded
  have snapshot := tracked.snapshot broadcast isBroadcast
  split at recorded
  · rename_i call rest _ first
    split at recorded
    · rename_i failed
      have unregistered : call.rank ∉ broadcast.registered := by
        simpa [StepOk, isBroadcast, Broadcast.recordsOk, first, failed] using stepOk
      have called := snapshot.2 call (first ▸ List.mem_cons_self) unregistered
      simp only [called, Option.some.injEq] at recorded
      subst recorded
      refine ⟨⟨?_, ?_, tracked.noKeyError⟩, ?_⟩
      · intro removal member
        rcases List.mem_append.mp member with earlier | now
        · exact tracked.sameConnection removal earlier
        · rw [List.mem_singleton.mp now]
      · intro removal member
        rcases List.mem_append.mp member with earlier | now
        · exact tracked.keepsRegistered removal earlier
        · rw [List.mem_singleton.mp now]
          simpa using unregistered
      · intro later isLater
        cases isLater
        exact snapshot.rest first (fun other different => by
          rw [Dict.get?_erase, if_neg different]) _ true
    · cases recorded
      refine ⟨⟨tracked.sameConnection, tracked.keepsRegistered, tracked.noKeyError⟩, ?_⟩
      intro later isLater
      cases isLater
      exact snapshot.rest first (fun _ _ => rfl) _ broadcast.hasDisconnect
  · cases recorded

/-- The first stretch of a message: a refused message raises no `KeyError`. -/
theorem setWorkerState
    (tracked : Tracked server)
    (state : FTState) :
    Tracked (server.setWorkerState state) := by
  have refused :
      ∀ error : PyError,
        (∀ key, PyError.keyError key ≠ error) →
        Tracked { server with raised := server.raised ++ [error] } := by
    intro error notKeyError
    refine ⟨⟨tracked.sameConnection, tracked.keepsRegistered, ?_⟩, tracked.snapshot⟩
    intro key member
    rcases List.mem_append.mp member with earlier | now
    · exact tracked.noKeyError key earlier
    · exact notKeyError key (List.mem_singleton.mp now)
  simp only [Server.setWorkerState]
  split
  · exact refused _ fun _ isKeyError => nomatch isKeyError
  · split
    · exact refused _ fun _ isKeyError => nomatch isKeyError
    · split
      · exact refused _ fun _ isKeyError => nomatch isKeyError
      · split
        · exact refused _ fun _ isKeyError => nomatch isKeyError
        · exact ⟨⟨tracked.sameConnection, tracked.keepsRegistered, tracked.noKeyError⟩,
            tracked.snapshot⟩

/-- An allowed step keeps what is tracked. -/
theorem step
    (tracked : Tracked server)
    {event : TableEvent}
    (stepOk : StepOk server event)
    {after : Server}
    (stepped : server.step event = some after) :
    Tracked after := by
  cases event with
  | callAllClient excludeRanks =>
      simp only [Server.step, Server.callAllClient] at stepped
      split at stepped
      · cases stepped
      · cases stepped
        refine ⟨⟨tracked.sameConnection, tracked.keepsRegistered, tracked.noKeyError⟩, ?_⟩
        intro broadcast isBroadcast
        cases isBroadcast
        exact Snapshot.start _ server.clientRobjs excludeRanks
  | reply rank reply =>
      obtain ⟨broadcast, isBroadcast, stepped⟩ := Option.bind_eq_some_iff.mp stepped
      split at stepped
      · cases stepped
        refine ⟨⟨tracked.sameConnection, tracked.keepsRegistered, tracked.noKeyError⟩, ?_⟩
        intro later isLater
        cases isLater
        obtain ⟨distinct, connections⟩ := tracked.snapshot broadcast isBroadcast
        have answered :
            ∀ call : Call,
              (if call.rank = rank then { call with reply := some reply } else call).rank =
                call.rank ∧
              (if call.rank = rank then
                  { call with reply := some reply }
                else
                  call).connection = call.connection := by
          intro call
          split <;> exact ⟨rfl, rfl⟩
        constructor
        · simpa only [List.map_map, Function.comp_def, (answered _).1] using distinct
        · intro call member unregistered
          obtain ⟨earlier, wasCalled, rfl⟩ := List.mem_map.mp member
          rw [(answered earlier).1] at unregistered ⊢
          rw [(answered earlier).2]
          exact connections earlier wasCalled unregistered
      · cases stepped
  | gathered =>
      obtain ⟨broadcast, isBroadcast, stepped⟩ := Option.bind_eq_some_iff.mp stepped
      split at stepped
      · cases stepped
        refine ⟨⟨tracked.sameConnection, tracked.keepsRegistered, tracked.noKeyError⟩, ?_⟩
        intro later isLater
        cases isLater
        exact tracked.snapshot broadcast isBroadcast
      · cases stepped
  | record =>
      exact tracked.record stepOk stepped
  | finish =>
      obtain ⟨broadcast, isBroadcast, stepped⟩ := Option.bind_eq_some_iff.mp stepped
      split at stepped
      · cases stepped
        exact ⟨⟨tracked.sameConnection, tracked.keepsRegistered, tracked.noKeyError⟩,
          fun _ isLater => nomatch isLater⟩
      · cases stepped
  | setWorkerState state =>
      cases stepped
      exact tracked.setWorkerState state
  | storeState message =>
      obtain ⟨registration, _, stepped⟩ := Option.bind_eq_some_iff.mp stepped
      split at stepped
      · cases stepped
        exact ⟨⟨tracked.sameConnection, tracked.keepsRegistered, tracked.noKeyError⟩,
          tracked.snapshot⟩
      · cases stepped
  | connect message =>
      obtain ⟨registration, _, stepped⟩ := Option.bind_eq_some_iff.mp stepped
      split at stepped
      · simp only at stepped
        split at stepped
        · split at stepped
          · cases stepped
            exact tracked.throughTable (fun _ _ => rfl) rfl rfl rfl
          · cases stepped
            exact tracked.throughTable (fun _ _ => rfl) rfl rfl rfl
        · cases stepped
          exact tracked.throughTable (fun _ different => Dict.get?_set_ne _ _ different)
            rfl rfl rfl
      · cases stepped
  | replace message =>
      obtain ⟨registration, isRegistration, stepped⟩ := Option.bind_eq_some_iff.mp stepped
      split at stepped
      · obtain ⟨connection, found⟩ :=
          Option.isSome_iff_exists.mp (by
            simpa [StepOk, isRegistration, Dict.contains] using stepOk)
        simp only [Server.markRegistered, found] at stepped
        cases stepped
        refine tracked.throughTable (fun other different => ?_) rfl rfl rfl
        refine (Dict.get?_set_ne _ _ different).trans ?_
        rw [Dict.get?_erase, if_neg different]
      · cases stepped
  | checkIsOk message =>
      obtain ⟨registration, _, stepped⟩ := Option.bind_eq_some_iff.mp stepped
      split at stepped
      · cases stepped
        exact ⟨⟨tracked.sameConnection, tracked.keepsRegistered, tracked.noKeyError⟩,
          tracked.snapshot⟩
      · cases stepped

end Tracked

/-- The states that the master of a job of two processes starts with. -/
def sampleStates : List FTState := [
  { rank := 0, ip := "10.0.0.1", port := 22, isMaster := true, uuid := "m" },
  { rank := 1, ip := "", port := 0, isMaster := false, status := .workerDisconnected }]

/-- The worker, told apart from its restarted self by a uuid. -/
def sampleWorker (uuid : String) : FTState where
  rank := 1
  ip := "10.0.0.2"
  port := 22
  isMaster := false
  uuid := uuid

/-- A worker registers, fails during a broadcast, and registers again. -/
def reconnectEvents : List TableEvent := [
  .setWorkerState (sampleWorker "w"), .storeState 0, .connect 0, .checkIsOk 0,
  .callAllClient [], .reply 1 .exception, .gathered, .record, .finish,
  .setWorkerState (sampleWorker "v"), .storeState 1, .connect 1, .checkIsOk 1]

/-- A worker restarts and registers while a broadcast waits for its old process. -/
def restartEvents : List TableEvent := [
  .setWorkerState (sampleWorker "w"), .storeState 0, .connect 0, .checkIsOk 0,
  .callAllClient [], .setWorkerState (sampleWorker "v"), .storeState 1, .connect 1,
  .replace 1, .reply 1 .exception, .gathered, .record]

/-- The same, but the broadcast records the failure while the old connection is closed. -/
def closingEvents : List TableEvent := [
  .setWorkerState (sampleWorker "w"), .storeState 0, .connect 0, .checkIsOk 0,
  .callAllClient [], .setWorkerState (sampleWorker "v"), .storeState 1, .connect 1,
  .reply 1 .exception, .gathered, .record, .replace 1]

end TensorPC.Dist.SSHServer
