import TensorPC.Lib.Transition
import Mathlib.Data.List.Basic

namespace TensorPC.Kv

/-!
# Concurrent stream sessions

The transfer store serves several clients at once, each through a pair of
shared buffers.  A step is what one coroutine of the server, one copy job of its
executor or one client does between two await points.  A buffer holds the name
of the chunk that was last copied into it, and nothing usable while a copy is
going on.
-/

/-- `_max_concurrent_clients`. -/
def maxConcurrentClients : Nat :=
  8

/-- The direction of a session: `send_stream` or `receive_stream`. -/
inductive StreamKind where
  | send
  | receive
  deriving Repr, DecidableEq

/-- What one shared buffer holds. -/
inductive Content where
  | untouched
  | copying
  | chunk (session index : Nat)
  deriving Repr, DecidableEq

/-- The place where the coroutine of a session waits. -/
inductive ServerPoint where
  /-- `await self._semaphore.acquire()` -/
  | waiting
  /-- The semaphore has let the coroutine through, which has not run since. -/
  | granted
  /-- The first `yield` of `receive_stream`, before its loop. -/
  | yieldedFirst
  /-- `async for client_ping in iter` -/
  | awaitPing
  /-- `send_stream` saves the first chunk, before sending it. -/
  | savingFirst
  /-- A `yield` of a chunk inside the loop. -/
  | yielded
  /-- `send_stream` saves the chunk after the one just sent. -/
  | savingNext
  /-- `receive_stream` loads the chunk that the client has filled. -/
  | loading
  /-- `yield None` -/
  | leaving
  /-- The `async with` has been left and the buffer pair given back. -/
  | closed
  deriving Repr, DecidableEq

/-- A message to the client: a chunk with the buffer it goes through, or `None`. -/
inductive ChunkMessage where
  | chunk (index side : Nat)
  | finished
  deriving Repr, DecidableEq

/-- A session: the server's coroutine, its client, and the messages between them. -/
structure Session where
  kind : StreamKind
  /-- `len(chunks)` -/
  chunkCount : Nat
  point : ServerPoint
  /-- `aquire_idx`, which names `shm_double_buffer`. -/
  pair : Nat
  chunkIdx : Nat
  toClient : List ChunkMessage
  /-- Answers of the client that the server has not taken. -/
  pings : Nat
  /-- The chunk and the side that the client works on. -/
  working : Option (Nat × Nat)
  /-- What the client has copied out (`send`) or the server has loaded (`receive`). -/
  copied : List Content
  deriving Repr, DecidableEq

namespace Session

/-- A call of a stream method; the client of `send_stream` starts with one ping. -/
def start (kind : StreamKind) (chunkCount : Nat) : Session where
  kind := kind
  chunkCount := chunkCount
  point := .waiting
  pair := 0
  chunkIdx := 0
  toClient := []
  pings :=
    match kind with
    | .send => 1
    | .receive => 0
  working := none
  copied := []

/-- The session holds a buffer pair. -/
def isOpen (session : Session) : Bool :=
  match session.point with
  | .waiting | .granted | .closed => false
  | _ => true

/-- `yield send_data` for the chunk `chunk_idx` through `shm_double_buffer[chunk_idx % 2]`. -/
def sendChunk (session : Session) (point : ServerPoint) : Session :=
  { session with
    point := point
    toClient := session.toClient ++ [.chunk session.chunkIdx (session.chunkIdx % 2)] }

end Session

/-- The two buffers of one pair. -/
abbrev Sides :=
  Nat → Content

/-- A copy into one buffer begins or ends. -/
def Sides.write (sides : Sides) (side : Nat) (content : Content) : Sides :=
  Function.update sides side content

/-- What a session does without the other sessions. -/
inductive LocalEvent where
  /-- The server takes a ping. -/
  | ping
  /-- A copy job of the executor is done and its coroutine goes on. -/
  | jobDone
  /-- The generator goes on after a `yield`. -/
  | resume
  /-- The client takes the next message. -/
  | take
  /-- The client is done with its chunk and answers. -/
  | answer
  deriving Repr, DecidableEq

/-- The server takes a ping and goes on to its next await point. -/
def takePing (session : Session) (sides : Sides) : Option (Session × Sides) :=
  if session.pings = 0 ∨ session.point ≠ .awaitPing then
    none
  else
    let session := { session with pings := session.pings - 1 }
    match session.kind with
    | .send =>
        if session.chunkCount ≤ session.chunkIdx then
          -- `chunks[chunk_idx]` raises an `IndexError`
          some ({ session with point := .closed }, sides)
        else if session.chunkIdx = 0 then
          some ({ session with point := .savingFirst },
            sides.write (session.chunkIdx % 2) .copying)
        else
          some (session.sendChunk .yielded, sides)
    | .receive =>
        if session.chunkIdx < session.chunkCount then
          some (session.sendChunk .yielded, sides)
        else
          some ({ session with point := .loading }, sides)

/-- A copy job ends and the coroutine that waits for it goes on. -/
def finishJob
    (id : Nat)
    (session : Session)
    (sides : Sides) :
    Option (Session × Sides) :=
  match session.point with
  | .savingFirst =>
      some (session.sendChunk .yielded,
        sides.write (session.chunkIdx % 2) (.chunk id session.chunkIdx))
  | .savingNext =>
      some ({ session with point := .awaitPing },
        sides.write (session.chunkIdx % 2) (.chunk id session.chunkIdx))
  | .loading =>
      let loaded :=
        { session with
          copied := session.copied ++ [sides ((session.chunkIdx + 1) % 2)] }
      if session.chunkCount ≤ session.chunkIdx then
        some ({ loaded with
          point := .leaving
          toClient := loaded.toClient ++ [.finished] }, sides)
      else
        some ({ loaded with
          point := .awaitPing
          chunkIdx := loaded.chunkIdx + 1 }, sides)
  | _ => none

/-- The generator goes on after a `yield`. -/
def resumeGenerator (session : Session) (sides : Sides) : Option (Session × Sides) :=
  match session.point, session.kind with
  | .yieldedFirst, _ => some ({ session with point := .awaitPing }, sides)
  | .yielded, .send =>
      let prepareSide := (session.chunkIdx + 1) % 2
      let session := { session with chunkIdx := session.chunkIdx + 1 }
      if session.chunkIdx < session.chunkCount then
        some ({ session with point := .savingNext }, sides.write prepareSide .copying)
      else
        some ({ session with
          point := .leaving
          toClient := session.toClient ++ [.finished] }, sides)
  | .yielded, .receive => some ({ session with point := .loading }, sides)
  | .leaving, _ => some ({ session with point := .closed }, sides)
  | _, _ => none

/-- The client takes a message when it is done with the one before. -/
def clientTake (session : Session) (sides : Sides) : Option (Session × Sides) :=
  match session.working, session.toClient with
  | none, .chunk index side :: rest =>
      let session := { session with working := some (index, side), toClient := rest }
      match session.kind with
      | .send => some (session, sides)
      | .receive => some (session, sides.write side .copying)
  | none, .finished :: rest => some ({ session with toClient := rest }, sides)
  | _, _ => none

/-- The client has copied its chunk and answers. -/
def clientAnswer
    (id : Nat)
    (session : Session)
    (sides : Sides) :
    Option (Session × Sides) :=
  match session.working with
  | none => none
  | some (index, side) =>
      let answered := { session with working := none, pings := session.pings + 1 }
      match session.kind with
      | .send => some ({ answered with copied := answered.copied ++ [sides side] }, sides)
      | .receive => some (answered, sides.write side (.chunk id index))

/-- One step inside a session. -/
def localStep
    (id : Nat)
    (session : Session)
    (sides : Sides) :
    LocalEvent → Option (Session × Sides)
  | .ping => takePing session sides
  | .jobDone => finishJob id session sides
  | .resume => resumeGenerator session sides
  | .take => clientTake session sides
  | .answer => clientAnswer id session sides

/-- `async with self._acquire_shm_double_buffer()` is entered with a pair. -/
def enter (session : Session) (pair : Nat) : Session :=
  let session := { session with pair := pair }
  match session.kind with
  | .send => { session with point := .awaitPing }
  | .receive =>
      if session.chunkCount ≤ session.chunkIdx then
        -- `chunks[chunk_idx]` raises an `IndexError`
        { session with point := .closed }
      else
        { session.sendChunk .yieldedFirst with chunkIdx := session.chunkIdx + 1 }

/-- The server with all its sessions. -/
structure StreamState where
  /-- A session is known by its place in the list. -/
  sessions : List Session
  /-- The counter of `_semaphore`. -/
  permits : Nat
  /-- `_shm_state_is_idle` -/
  idle : List Bool
  shm : Nat → Sides

namespace StreamState

/-- The state after `__init__` and `_lazy_init_buffer`. -/
def initial : StreamState where
  sessions := []
  permits := maxConcurrentClients
  idle := List.replicate maxConcurrentClients true
  shm := fun _ _ => .untouched

/-- `aquire_idx`; without an idle pair it stays `-1`, which indexes the last pair. -/
def acquireIdx (state : StreamState) : Nat :=
  (state.idle.findIdx? (fun idle => idle)).getD (state.idle.length - 1)

/-- The `finally` block of `_acquire_shm_double_buffer` once a session has closed. -/
def releaseIfClosed (state : StreamState) (session : Session) : StreamState :=
  match session.point with
  | .closed =>
      { state with
        idle := state.idle.set session.pair true
        permits := state.permits + 1 }
  | _ => state

end StreamState

/-- The steps of the server and its clients. -/
inductive StreamEvent where
  /-- A client calls a stream method. -/
  | call (kind : StreamKind) (chunkCount : Nat)
  /-- The semaphore lets a session through. -/
  | grant (id : Nat)
  /-- A session that was let through takes the first idle pair. -/
  | acquire (id : Nat)
  | inside (id : Nat) (event : LocalEvent)
  deriving Repr, DecidableEq

/-- One step; `none` where the event cannot happen. -/
def streamStep (state : StreamState) : StreamEvent → Option StreamState
  | .call kind chunkCount =>
      some { state with sessions := state.sessions ++ [.start kind chunkCount] }
  | .grant id =>
      match state.sessions[id]? with
      | none => none
      | some session =>
          if session.point = .waiting ∧ 0 < state.permits then
            some { state with
              permits := state.permits - 1
              sessions := state.sessions.set id { session with point := .granted } }
          else
            none
  | .acquire id =>
      match state.sessions[id]? with
      | none => none
      | some session =>
          if session.point = .granted then
            let session := enter session state.acquireIdx
            let state :=
              { state with
                idle := state.idle.set state.acquireIdx false
                sessions := state.sessions.set id session }
            some (state.releaseIfClosed session)
          else
            none
  | .inside id event =>
      match state.sessions[id]? with
      | none => none
      | some session =>
          match localStep id session (state.shm session.pair) event with
          | none => none
          | some (after, sides) =>
              let state' :=
                { state with
                  sessions := state.sessions.set id after
                  shm := Function.update state.shm session.pair sides }
              if session.isOpen then
                some (state'.releaseIfClosed after)
              else
                some state'

end TensorPC.Kv
