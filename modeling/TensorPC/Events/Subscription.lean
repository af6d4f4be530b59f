import TensorPC.Py.Dict
import TensorPC.Py.PySet
import TensorPC.Lib.Transition

namespace TensorPC.Events

/-!
# Event subscriptions

The tables that the connection handlers of the WebSocket server and its event
executor share, and what a handler does to them for `Subscribe`, `UnSubscribe`
and a closed connection.  None of these handlers waits between its first and its
last access to the tables.
-/

/-- The name under which a service provides an event. -/
abbrev EventKey :=
  String

/-- What an event task has come to: an exception, or the event to send. -/
inductive EventResult (Data : Type) where
  | raised (exceptionDict : Data)
  | dynamicEvents (nameAndDatas : List (String × Data))
  | dynamicEvent (name : String) (data : Data)
  | plain (data : Data)
  deriving Repr, DecidableEq

/-- A message that the executor sends to one client. -/
structure EventMessage (Client Data : Type) where
  client : Client
  serviceKey : EventKey
  isError : Bool
  dynamicKey : String
  data : Data
  deriving Repr, DecidableEq

/-- Where `event_provide_executor` stands. -/
inductive ExecutorPhase (Client Data : Type) where
  /-- `await asyncio.wait(wait_tasks)` -/
  | waiting
  /-- The tasks to be cancelled and those that send are awaited. -/
  | sending
      (newTaskToEv : Dict Nat EventKey)
      (tasksToBeCanceled : List Nat)
      (sendingTasks : List (EventMessage Client Data))
  /-- An exception of the executor's own has ended it. -/
  | stopped (error : PyError)
  /-- An exception of a task that sends, other than those handled, has ended it. -/
  | sendRaised (error : PyError)

/-- The state shared by the handlers and the executor. -/
structure EventServer (Client Data : Type) where
  eventToClients : Dict EventKey (PySet Client)
  clientToEvents : Dict Client (PySet EventKey)
  newEvents : PySet EventKey
  deleteEvents : PySet EventKey
  /-- Whether `new_event_ev` is set. -/
  newEventEv : Bool
  /-- Whether `delete_event_ev` is set. -/
  deleteEventEv : Bool
  /-- The provider tasks in `wait_tasks`, which the executor keeps in `new_tasks`. -/
  waitTasks : Dict EventKey Nat
  taskToEv : Dict Nat EventKey
  /-- The number of the next task that is created. -/
  nextTask : Nat
  /-- The provider tasks that are done, with their results. -/
  finished : Dict Nat (EventResult Data)
  phase : ExecutorPhase Client Data

namespace EventServer

variable {Client Data : Type}

/-- The server when the executor has been started and no client is connected. -/
def initial : EventServer Client Data where
  eventToClients := .empty
  clientToEvents := .empty
  newEvents := .empty
  deleteEvents := .empty
  newEventEv := false
  deleteEventEv := false
  waitTasks := .empty
  taskToEv := .empty
  nextTask := 0
  finished := .empty
  phase := .waiting

variable [DecidableEq Client]

/-- `self.event_to_clients[event_key]`. -/
def clientsOf
    (server : EventServer Client Data)
    (key : EventKey) :
    PyResult (PySet Client) :=
  match server.eventToClients.get? key with
  | none => .error (.keyError key)
  | some clients => .ok clients

/-- `self.client_to_events[client]`, or an empty set for a client without events. -/
def eventsOf (server : EventServer Client Data) (client : Client) : PySet EventKey :=
  (server.clientToEvents.get? client).getD .empty

/-- Add a client to an event that is in the table. -/
def addSubscriber
    (server : EventServer Client Data)
    (client : Client)
    (key : EventKey)
    (clients : PySet Client) :
    EventServer Client Data :=
  if client ∈ clients then
    server
  else
    { server with
      eventToClients := server.eventToClients.set key (clients.add client)
      clientToEvents :=
        server.clientToEvents.set client ((server.eventsOf client).add key) }

/-- A `Subscribe` message; the result is the error that is sent back, if any. -/
def subscribe
    (allEvProviders : List EventKey)
    (server : EventServer Client Data)
    (client : Client)
    (key : EventKey) :
    EventServer Client Data × Option PyError :=
  if key ∉ allEvProviders then
    (server, some (.keyError s!"event key {key} not found"))
  else
    match server.eventToClients.get? key with
    | none =>
        let server :=
          { server with
            eventToClients := server.eventToClients.set key .empty
            newEvents := server.newEvents.add key
            newEventEv := true }
        (server.addSubscriber client key .empty, none)
    | some clients => (server.addSubscriber client key clients, none)

/-- Remove a client from an event; an event without clients leaves the table. -/
def removeSubscriber
    (server : EventServer Client Data)
    (client : Client)
    (key : EventKey)
    (clients : PySet Client) :
    EventServer Client Data :=
  let clients := clients.discard client
  if clients.toList = [] then
    { server with
      eventToClients := server.eventToClients.erase key
      deleteEvents := server.deleteEvents.add key }
  else
    { server with
      eventToClients := server.eventToClients.set key clients }

/-- `self.delete_event_ev.set()` under a condition. -/
def triggerDelete
    (server : EventServer Client Data)
    (condition : Bool) :
    EventServer Client Data :=
  { server with deleteEventEv := server.deleteEventEv || condition }

/-- Remove an event from a client; a client without events leaves the table. -/
def removeEvent
    (server : EventServer Client Data)
    (client : Client)
    (key : EventKey) :
    PyResult (EventServer Client Data) :=
  match server.clientToEvents.get? client with
  | none => .error (.keyError "client")
  | some clientEvs =>
      if key ∉ clientEvs then
        .error (.keyError key)
      else
        let clientEvs := clientEvs.discard key
        .ok { server with
          clientToEvents :=
            if clientEvs.toList = [] then
              server.clientToEvents.erase client
            else
              server.clientToEvents.set client clientEvs }

/-- An `UnSubscribe` message; the result has the error that is sent back, if any. -/
def unSubscribe
    (allEvProviders : List EventKey)
    (server : EventServer Client Data)
    (client : Client)
    (key : EventKey) :
    PyResult (EventServer Client Data × Option PyError) :=
  if key ∉ allEvProviders then
    .ok (server, some (.keyError "service id not found"))
  else
    match server.eventToClients.get? key with
    | none => .ok (server, none)
    | some clients =>
        if client ∉ clients then
          .ok (server, some (.keyError s!"you haven't sub event {key} yet."))
        else do
          let removed := server.removeSubscriber client key clients
          let noClients : Bool := (clients.discard client).toList = []
          let server ← removeEvent (removed.triggerDelete noClients) client key
          .ok (server, none)

/-- The loop over the events of a closed connection. -/
def dropEvents
    (client : Client) :
    List EventKey → EventServer Client Data → PyResult (EventServer Client Data)
  | [], server => .ok server
  | key :: rest, server => do
      let clients ← server.clientsOf key
      if client ∉ clients then
        .error (.keyError "client")
      else
        dropEvents client rest (server.removeSubscriber client key clients)

/-- Remove a client from both tables. -/
def dropClient
    (server : EventServer Client Data)
    (client : Client) :
    PyResult (EventServer Client Data) :=
  match server.clientToEvents.get? client with
  | none => .ok server
  | some events => do
      let dropped ← dropEvents client events.toList server
      .ok { dropped with clientToEvents := dropped.clientToEvents.erase client }

/-- The cleanup of a connection when it is closed. -/
def disconnect
    (server : EventServer Client Data)
    (client : Client) :
    PyResult (EventServer Client Data) := do
  let dropped ← server.dropClient client
  .ok (dropped.triggerDelete (dropped.deleteEvents.toList ≠ []))

end EventServer

/-!
# The event executor

`event_provide_executor` waits for its provider tasks and for the two flags of
the handlers, then decides without waiting which tasks go on, are started anew or
are cancelled and which messages are sent, and waits again until the messages are
sent.  Handlers and tasks run whenever the executor waits.
-/

variable {Client Data : Type}

/-! ## Which tasks are waited for next -/

/-- `new_tasks` and `new_task_to_ev`, with the number of the next task. -/
structure Scheduling where
  newTasks : Dict EventKey Nat
  newTaskToEv : Dict Nat EventKey
  nextTask : Nat

namespace Scheduling

/-- Keep a task for an event. -/
def keep (scheduling : Scheduling) (key : EventKey) (task : Nat) : Scheduling :=
  { scheduling with
    newTasks := scheduling.newTasks.set key task
    newTaskToEv := scheduling.newTaskToEv.set task key }

/-- `asyncio.create_task(ev.fn(), name=key)` for an event. -/
def create (scheduling : Scheduling) (key : EventKey) : Scheduling :=
  { scheduling.keep key scheduling.nextTask with
    nextTask := scheduling.nextTask + 1 }

end Scheduling

/-- The loop over `_new_events`. -/
def scheduleNew (scheduling : Scheduling) (newEvents : List EventKey) : Scheduling :=
  newEvents.foldl Scheduling.create scheduling

/-- The loop over `done`: start again, or forget the tasks of deleted events. -/
def scheduleDone
    (deleteEvents : PySet EventKey) :
    List Nat → Scheduling → Dict Nat EventKey → Scheduling × Dict Nat EventKey
  | [], scheduling, taskToEv => (scheduling, taskToEv)
  | task :: rest, scheduling, taskToEv =>
      match taskToEv.get? task with
      | none => scheduleDone deleteEvents rest scheduling taskToEv
      | some key =>
          if key ∉ deleteEvents then
            scheduleDone deleteEvents rest (scheduling.create key) taskToEv
          else
            scheduleDone deleteEvents rest scheduling (taskToEv.erase task)

/-- The loop over `pending`: go on waiting, or cancel the tasks of deleted events. -/
def schedulePending
    (deleteEvents : PySet EventKey)
    (taskToEv : Dict Nat EventKey) :
    List Nat → Scheduling → List Nat → Scheduling × List Nat
  | [], scheduling, canceled => (scheduling, canceled)
  | task :: rest, scheduling, canceled =>
      match taskToEv.get? task with
      | none => schedulePending deleteEvents taskToEv rest scheduling canceled
      | some key =>
          if key ∉ deleteEvents then
            schedulePending deleteEvents taskToEv rest (scheduling.keep key task) canceled
          else
            schedulePending deleteEvents taskToEv rest scheduling (canceled ++ [task])

/-! ## Which messages are sent -/

/-- One message to every client of an event. -/
def messagesTo
    (clients : PySet Client)
    (key : EventKey)
    (isError : Bool)
    (dynamicKey : String)
    (data : Data) :
    List (EventMessage Client Data) :=
  clients.toList.map (⟨·, key, isError, dynamicKey, data⟩)

namespace EventServer

/-- The messages for one done task; `DynamicEvents` looks its clients up for each event. -/
def resultMessages
    (server : EventServer Client Data)
    (key : EventKey) :
    EventResult Data → PyResult (List (EventMessage Client Data))
  | .raised exceptionDict => do
      let clients ← server.clientsOf key
      .ok (messagesTo clients key true "" exceptionDict)
  | .dynamicEvents nameAndDatas => do
      let messages ← nameAndDatas.mapM fun nameAndData => do
        let clients ← server.clientsOf key
        .ok (messagesTo clients key false nameAndData.1 nameAndData.2)
      .ok messages.flatten
  | .dynamicEvent name data => do
      let clients ← server.clientsOf key
      .ok (messagesTo clients key false name data)
  | .plain data => do
      let clients ← server.clientsOf key
      .ok (messagesTo clients key false "" data)

/-- The loop over `done` that creates the sending tasks. -/
def sendResults
    (server : EventServer Client Data)
    (taskToEv : Dict Nat EventKey) :
    List (Nat × EventResult Data) → PyResult (List (EventMessage Client Data))
  | [] => .ok []
  | (task, result) :: rest =>
      match taskToEv.get? task with
      | none => server.sendResults taskToEv rest
      | some key => do
          let messages ← server.resultMessages key result
          let others ← server.sendResults taskToEv rest
          .ok (messages ++ others)

/-- `done`: the provider tasks waited for that are done, with their results. -/
def doneTasks (server : EventServer Client Data) : List (Nat × EventResult Data) :=
  server.waitTasks.values.filterMap fun task =>
    (server.finished.get? task).map fun result => (task, result)

/-- `pending`: the provider tasks waited for that are not done. -/
def pendingTasks (server : EventServer Client Data) : List Nat :=
  server.waitTasks.values.filter fun task => (server.finished.get? task).isNone

/-- The scheduling of one iteration, `task_to_ev` after it and the tasks to be cancelled. -/
def schedule
    (server : EventServer Client Data) :
    Scheduling × Dict Nat EventKey × List Nat :=
  let fresh : Scheduling := ⟨.empty, .empty, server.nextTask⟩
  let started :=
    if server.newEventEv then
      scheduleNew fresh server.newEvents.toList
    else
      fresh
  let (restarted, taskToEv) :=
    scheduleDone server.deleteEvents (server.doneTasks.map Prod.fst) started server.taskToEv
  let (scheduling, canceled) :=
    schedulePending server.deleteEvents taskToEv server.pendingTasks restarted []
  (scheduling, taskToEv, canceled)

/-- One iteration from the end of `asyncio.wait` to the next `await`. -/
def iterate
    (server : EventServer Client Data) :
    EventServer Client Data :=
  let (scheduling, taskToEv, canceled) := server.schedule
  let scheduled :=
    { server with
      newEvents := if server.newEventEv then .empty else server.newEvents
      newEventEv := false
      deleteEvents := .empty
      deleteEventEv := false
      waitTasks := scheduling.newTasks
      taskToEv := taskToEv
      nextTask := scheduling.nextTask }
  match server.sendResults taskToEv server.doneTasks with
  | .error raised => { scheduled with phase := .stopped raised }
  | .ok messages =>
      { scheduled with phase := .sending scheduling.newTaskToEv canceled messages }

end EventServer

/-- How a task that sends a message has ended. -/
inductive SendOutcome where
  | sent
  /-- `ConnectionResetError` or `JsonEncodeException`, which the executor handles. -/
  | failed
  /-- Any other exception, which ends the executor. -/
  | raised (error : PyError)
  deriving Repr, DecidableEq

/-- The first outcome that ends the executor. -/
def firstRaised : List SendOutcome → Option PyError
  | [] => none
  | .raised error :: _ => some error
  | _ :: rest => firstRaised rest

/-- The events of the messages that could not be sent. -/
def failedEvents
    (sendingTasks : List (EventMessage Client Data))
    (outcomes : List SendOutcome) :
    List EventKey :=
  ((sendingTasks.zip outcomes).filter (fun sent => sent.2 = .failed)).map
    (fun sent => sent.1.serviceKey)

/-- The end of an iteration, when the messages have been sent or have failed. -/
def EventServer.finishIteration
    (server : EventServer Client Data)
    (newTaskToEv : Dict Nat EventKey)
    (sendingTasks : List (EventMessage Client Data))
    (outcomes : List SendOutcome) :
    EventServer Client Data :=
  match firstRaised outcomes with
  | some error => { server with phase := .sendRaised error }
  | none =>
      -- the clients of the event of every failed message are told of the error
      match (failedEvents sendingTasks outcomes).mapM server.clientsOf with
      | .error raised => { server with phase := .stopped raised }
      | .ok _ => { server with taskToEv := newTaskToEv, phase := .waiting }

/-! ## Steps -/

/-- What can happen while every coroutine waits. -/
inductive ServerEvent (Client Data : Type) where
  | subscribe (client : Client) (key : EventKey)
  | unSubscribe (client : Client) (key : EventKey)
  | disconnect (client : Client)
  /-- A provider task is done. -/
  | taskDone (task : Nat) (result : EventResult Data)
  /-- The executor goes on after `asyncio.wait`. -/
  | iterate
  /-- The messages of an iteration have been sent. -/
  | finishIteration (outcomes : List SendOutcome)

/-- One step; `none` where the event cannot happen. -/
def serverStep
    [DecidableEq Client]
    (allEvProviders : List EventKey)
    (server : EventServer Client Data) :
    ServerEvent Client Data → Option (EventServer Client Data)
  | .subscribe client key => some (server.subscribe allEvProviders client key).1
  | .unSubscribe client key =>
      match server.unSubscribe allEvProviders client key with
      | .error _ => none
      | .ok (after, _) => some after
  | .disconnect client =>
      match server.disconnect client with
      | .error _ => none
      | .ok after => some after
  | .taskDone task result =>
      if task < server.nextTask ∧ server.finished.get? task = none then
        some { server with finished := server.finished.set task result }
      else
        none
  | .iterate =>
      match server.phase with
      | .waiting =>
          if server.newEventEv ∨ server.deleteEventEv ∨ server.doneTasks ≠ [] then
            some server.iterate
          else
            none
      | _ => none
  | .finishIteration outcomes =>
      match server.phase with
      | .sending newTaskToEv _ sendingTasks =>
          if outcomes.length = sendingTasks.length then
            some (server.finishIteration newTaskToEv sendingTasks outcomes)
          else
            none
      | _ => none

end TensorPC.Events
