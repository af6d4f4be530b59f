import TensorPC.Py.Dict
import TensorPC.Lib.Computation

namespace TensorPC.Dist

/-!
# The fault tolerance RPC group

One process of a distributed job: the master keeps a connection to every worker
that registered, a worker keeps one to the master, and both check their
connections once in a heartbeat.  What other processes answer is an argument of
every check; the group does the rest.
-/

abbrev Rank := Nat
abbrev Url := String

/-- `FTStatus`. -/
inductive FTStatus
  | ok
  | masterDisconnected
  | workerDisconnected
  | unknown
  deriving DecidableEq, Repr

/-- `FTStateBase`. -/
structure FTState where
  rank : Rank
  ip : String
  port : Nat
  isMaster : Bool
  status : FTStatus := .ok
  uuid : String := ""
  masterUuid : String := ""
  masterIp : String := ""
  deriving DecidableEq

/-- `f"{ip}:{port}"`. -/
def FTState.url (state : FTState) : Url :=
  s!"{state.ip}:{state.port}"

/-- `FTGroupConfig`, without the time limits. -/
structure FTGroupConfig where
  syncFolder : Option String := none
  masterDiscoveryFn : Option String := none
  disconnectTotalRetry : Int := 120

/-- An event the group emits. -/
inductive GroupEvent
  | okToDisconnect
  | disconnectToOk
  | stepEnd
  | restart
  | exit
  | updateClientState (state : FTState)

/-- `_master_rank`. -/
def masterRank : Rank := 0

/--
`FaultToleranceRPCGroup`.  `client_states[_master_rank]` is the object `state`
itself, so its entry here is never read.  `_disconnect_retry_count` has no value
before it is assigned.
-/
structure Group where
  rank : Rank
  worldSize : Nat
  distUrlWithPorts : Option (List Url)
  cfg : FTGroupConfig
  clientRobjs : Dict Rank Url
  masterRobj : Option Url
  state : FTState
  clientStates : List FTState
  disconnectRetryCount : Option Nat
  emitted : List GroupEvent

/-- What the other processes and the sync folder answer during one check. -/
structure Answers where
  /-- Whether `health_check` of a worker's connection returns. -/
  worker : Rank → Bool
  /-- `_master_discovery_fn()`. -/
  discovered : Option Url
  /-- The master's address in the sync folder. -/
  masterFile : Option Url
  /-- Whether `health_check` of the master's connection returns. -/
  master : Url → Bool
  /-- What `set_worker_state` of the master returns, unless it raises. -/
  masterState : Option FTState

namespace Group

/-- `_is_master`. -/
def isMaster (group : Group) : Bool :=
  group.rank == masterRank

/-- `_has_discovery`. -/
def hasDiscovery (group : Group) : Bool :=
  group.cfg.masterDiscoveryFn.isSome || group.cfg.syncFolder.isSome

/-- `_client_ranks`. -/
def clientRanks (group : Group) : List Rank :=
  (List.range group.worldSize).filter (· != masterRank)

/-- `_num_client_robj_is_valid`. -/
def numClientRobjIsValid (group : Group) : Bool :=
  if group.isMaster then
    (group.clientRobjs.entries.length : Int) == group.worldSize - 1
  else
    group.masterRobj.isSome

/-- A method of the group: it may raise halfway. -/
abbrev Method (α : Type) := EStateM PyError Group α

/-- The assertion on the urls that the constructor is given. -/
def checkUrls
    (worldSize : Nat)
    (distUrlWithPorts : Option (List Url))
    (cfg : FTGroupConfig) :
    PyResult Unit :=
  if cfg.syncFolder.isNone then
    match distUrlWithPorts with
    | none => .error (.assertionError "")
    | some urls =>
        pyAssert (urls.length == worldSize)
          ("when sync_folder is None, dist_url_with_ports length " ++
            "\x7blen(dist_url_with_ports)\x7d must be equal to world_size \x7bworld_size\x7d.")
  else
    .ok ()

/-- The attributes of a new group. -/
def initial
    (rank : Rank)
    (worldSize : Nat)
    (url : String)
    (port : Nat)
    (uuid : String)
    (distUrlWithPorts : Option (List Url))
    (cfg : FTGroupConfig) :
    Group where
  rank := rank
  worldSize := worldSize
  distUrlWithPorts := distUrlWithPorts
  cfg := cfg
  clientRobjs := Dict.empty
  masterRobj := none
  state := {
    rank := rank
    uuid := uuid
    ip := url
    port := port
    isMaster := rank == masterRank
    masterUuid := if rank == masterRank then uuid else ""
    masterIp := url }
  clientStates := (List.range worldSize).map fun rank => {
    rank := rank
    ip := ""
    port := 0
    isMaster := false
    status := .workerDisconnected }
  disconnectRetryCount := none
  emitted := []

/-- `FaultToleranceRPCGroup(...)`; without a rank 0, `_client_ranks.remove` raises. -/
def construct
    (rank : Rank)
    (worldSize : Nat)
    (url : String)
    (port : Nat)
    (uuid : String)
    (distUrlWithPorts : Option (List Url))
    (cfg : FTGroupConfig) :
    PyResult Group := do
  checkUrls worldSize distUrlWithPorts cfg
  if worldSize = 0 then
    .error (.keyError "0")
  else
    .ok (initial rank worldSize url port uuid distUrlWithPorts cfg)

/-! ## Small steps -/

/-- `emit_async`. -/
def emit (event : GroupEvent) : Method Unit :=
  modify fun group => { group with emitted := group.emitted ++ [event] }

/-- `self.state.status = status`. -/
def setStatus (status : FTStatus) : Method Unit :=
  modify fun group => { group with state := { group.state with status := status } }

/-- `self.client_states[rank].status = status`. -/
def setClientStatus (rank : Rank) (status : FTStatus) : Method Unit := do
  let group ← get
  if rank = masterRank then
    setStatus status
  else
    match group.clientStates[rank]? with
    | none => throw .indexError
    | some client =>
        set { group with
          clientStates := group.clientStates.set rank { client with status := status } }

/-- `self._client_robjs[rank] = AsyncRemoteManager(url)`. -/
def addClientRobj (rank : Rank) (url : Url) : Method Unit :=
  modify fun group => { group with clientRobjs := group.clientRobjs.set rank url }

/-- `self._client_robjs.pop(rank)`. -/
def popClientRobj (rank : Rank) : Method Unit := do
  let group ← get
  match group.clientRobjs.get? rank with
  | none => throw (.keyError (toString rank))
  | some _ => set { group with clientRobjs := group.clientRobjs.erase rank }

/-- `self._disconnect_retry_count = 0`. -/
def resetRetryCount : Method Unit :=
  modify fun group => { group with disconnectRetryCount := some 0 }

/-- `self._disconnect_retry_count += 1`: reading an attribute that was never set raises. -/
def increaseRetryCount : Method Nat := do
  let group ← get
  match group.disconnectRetryCount with
  | none => throw (.attributeError "_disconnect_retry_count")
  | some count =>
      set { group with disconnectRetryCount := some (count + 1) }
      return count + 1

/-! ## The master -/

/-- The loop of `master_call_all_client` over the replies: the ranks that failed. -/
def recordReplies (answers : Answers) : List Rank → Method (List Rank)
  | [] => return []
  | rank :: rest => do
      if answers.worker rank then
        setClientStatus rank .ok
        recordReplies answers rest
      else
        setClientStatus rank .workerDisconnected
        popClientRobj rank
        let failed ← recordReplies answers rest
        return rank :: failed

/-- `master_call_all_client("", set(), rpc_is_health_check=True)`. -/
def masterCallAllClient (answers : Answers) : Method Bool := do
  let group ← get
  let isAllWorkerConn := group.numClientRobjIsValid
  let failed ← recordReplies answers group.clientRobjs.keys
  if !isAllWorkerConn || !failed.isEmpty then
    setStatus .workerDisconnected
  return isAllWorkerConn && failed.isEmpty

/-- `_client_ranks - set(_client_robjs.keys())`. -/
def disconnectedRanks (group : Group) : List Rank :=
  group.clientRanks.filter fun rank => !group.clientRobjs.contains rank

/-- The loop of `_master_check_workers` that calls the workers at their given urls. -/
def reconnectWorkers (urls : List Url) (answers : Answers) : List Rank → Method Unit
  | [] => return
  | rank :: rest => do
      match urls[rank]? with
      | none => throw .indexError
      | some url =>
          if answers.worker rank then
            addClientRobj rank url
            setClientStatus rank .ok
          reconnectWorkers urls answers rest

/-- `_master_state_check_is_ok`. -/
def masterStateCheckIsOk : Method Unit := do
  let group ← get
  if (group.clientRobjs.entries.length : Int) = group.worldSize - 1 then
    setClientStatus masterRank .ok
    emit .disconnectToOk
    resetRetryCount

/-- The end of `_master_check_workers` in the disconnected state. -/
def waitForWorkers : Method Bool := do
  let group ← get
  if (group.clientRobjs.entries.length : Int) ≠ group.worldSize - 1 then
    let count ← increaseRetryCount
    return decide ((count : Int) > group.cfg.disconnectTotalRetry)
  else
    resetRetryCount
    setStatus .ok
    emit .disconnectToOk
    return false

/-- `_master_check_workers`: whether to exit. -/
def masterCheckWorkers (answers : Answers) : Method Bool := do
  let group ← get
  if group.state.status = .ok then
    let allClientOk ← masterCallAllClient answers
    if !allClientOk then
      emit .okToDisconnect
    return false
  else
    if !group.hasDiscovery then
      match group.distUrlWithPorts with
      | none => throw (.assertionError "")
      | some urls => reconnectWorkers urls answers group.disconnectedRanks
    waitForWorkers

/-- The connection that `set_worker_state` opens to a new or restarted worker. -/
def connectWorker (clientIsRestart : Bool) (state : FTState) : Method Unit := do
  let group ← get
  if group.clientRobjs.contains state.rank then
    if clientIsRestart then
      popClientRobj state.rank
      addClientRobj state.rank state.url
  else
    addClientRobj state.rank state.url

/-- `set_worker_state` once the state of the worker is accepted. -/
def registerWorker (prevClientState state : FTState) : Method FTState := do
  let group ← get
  let clientIsRestart := prevClientState.uuid != state.uuid && prevClientState.uuid != ""
  let masterIsRestart := group.state.uuid != state.masterUuid && state.masterUuid != ""
  if clientIsRestart || masterIsRestart then
    emit .restart
  emit (.updateClientState state)
  modify fun group =>
    { group with clientStates := group.clientStates.set state.rank state }
  connectWorker clientIsRestart state
  masterStateCheckIsOk
  let group ← get
  return group.state

/-- `set_worker_state`, called by a worker that starts, restarts or checks in. -/
def setWorkerState (state : FTState) : Method FTState := do
  let group ← get
  if state.rank = masterRank then
    throw (.assertionError "master rank should not be set")
  else if !group.state.isMaster then
    throw (.assertionError "only master can set worker state")
  else
    match group.clientStates[state.rank]? with
    | none => throw .indexError
    | some prevClientState => registerWorker prevClientState state

/-! ## A worker -/

/-- `_query_master_robj`. -/
def queryMasterRobj (group : Group) (answers : Answers) : PyResult (Option Url) :=
  let checked (robj : Option Url) := robj.filter fun url => answers.master url
  if group.cfg.masterDiscoveryFn.isSome then
    .ok (checked answers.discovered)
  else if group.cfg.syncFolder.isSome then
    .ok (checked answers.masterFile)
  else
    match group.distUrlWithPorts with
    | none => .error (.assertionError "")
    | some urls =>
        match urls[masterRank]? with
        | none => .error .indexError
        | some url => .ok (checked (some url))

/-- `_client_set_worker_state(handle_restart=True)`. -/
def clientSetWorkerState (answers : Answers) : Method Unit := do
  let group ← get
  if group.masterRobj.isNone then
    throw (.assertionError "")
  match answers.masterState with
  | some master =>
      if group.state.masterUuid ≠ "" ∧ group.state.masterUuid ≠ master.masterUuid then
        emit .restart
      modify fun group => { group with
        state := { group.state with
          masterUuid := master.masterUuid
          masterIp := master.masterIp } }
  | none =>
      modify fun group => { group with masterRobj := none }
      setStatus .masterDisconnected
      emit .okToDisconnect

/-- `_client_check_master`: whether to exit. -/
def clientCheckMaster (answers : Answers) : Method Bool := do
  let group ← get
  if group.state.status = .ok then
    if group.masterRobj.isNone then
      match queryMasterRobj group answers with
      | .error raised => throw raised
      | .ok none =>
          setStatus .masterDisconnected
          emit .okToDisconnect
          return false
      | .ok (some robj) =>
          modify fun group => { group with masterRobj := some robj }
    clientSetWorkerState answers
    return false
  else
    match queryMasterRobj group answers with
    | .error raised => throw raised
    | .ok none =>
        let count ← increaseRetryCount
        return decide ((count : Int) > group.cfg.disconnectTotalRetry)
    | .ok (some robj) =>
        modify fun group => { group with masterRobj := some robj }
        resetRetryCount
        setStatus .ok
        emit .disconnectToOk
        return false

/-- The check of one heartbeat, made under the state lock. -/
def check (answers : Answers) : Method Bool := do
  let group ← get
  if group.state.isMaster then
    masterCheckWorkers answers
  else
    clientCheckMaster answers

/-- One round of `_heartbeat_loop`: whether the loop gives up. -/
def heartbeat (answers : Answers) : Method Bool := do
  let shouldExit ← check answers
  let group ← get
  if shouldExit then
    if !group.state.isMaster then
      emit .exit
    return true
  else
    emit .stepEnd
    return false

end Group

end TensorPC.Dist
