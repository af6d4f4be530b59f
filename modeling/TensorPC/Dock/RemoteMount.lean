import TensorPC.Lib.Transition
import Mathlib.Data.List.Basic

namespace TensorPC.Dock

/-!
# Mounting a remote component

One registered app of `RemoteComponentService`: its send loop, the generators
that mount it, the requests to unmount it, and the events put on its queue.
Between two suspension points a coroutine runs alone, so a run is a sequence of
such stretches.  What was taken from the queue, yielded and confirmed is
recorded.
-/

/-- `RemoteCompEvent`. -/
structure RemoteCompEvent (α : Type) where
  key : String
  data : α
  deriving DecidableEq

/-- `AppEvent`; `sent_event` is named by a number. -/
structure AppEvent (α : Type) where
  typeEventTuple : List α
  sentEvent : Option Nat
  additionalEvents : List (RemoteCompEvent α)
  isLoopback : Bool
  deriving DecidableEq

/-- What the queue of a generator holds, and what the generator yields. -/
inductive GenItem (α : Type)
  | appEvent (event : AppEvent α)
  | remoteCompEvent (event : RemoteCompEvent α)
  deriving DecidableEq

/-- `MountedAppMeta` of a mount by a generator, whose queue has the generator's number. -/
structure MountedAppMeta where
  url : String
  port : Int
  prefixes : List String
  remoteGenQueue : Nat
  deriving DecidableEq

/-- `MountedAppMeta.url_with_port`. -/
def MountedAppMeta.urlWithPort (mounted : MountedAppMeta) : String :=
  mounted.url ++ ":" ++ toString mounted.port

/-- Where a `mount_app_generator` stands. -/
inductive GenPhase (α : Type)
  /-- The app is mounted and `get_layout_dict` runs. -/
  | mounting
  /-- Suspended at the `yield` of the layout. -/
  | atLayout
  /-- In `asyncio.wait` for its queue and the shutdown event. -/
  | waiting
  /-- Suspended at the `yield` of an item. -/
  | atItem (item : GenItem α)
  /-- In the `finally` clause, where `unmount_app` emits its event. -/
  | unmounting
  | ended
  deriving DecidableEq

/-- A `mount_app_generator`; `queue` includes what its `queue.get()` task holds. -/
structure Generator (α : Type) where
  mount : MountedAppMeta
  phase : GenPhase α
  queue : List (GenItem α)
  yielded : List (GenItem α)
  deriving DecidableEq

/-- `AppObject`, with its coroutines and a record of what they did. -/
structure AppObject (α : Type) where
  shutdownEv : Bool
  mountEv : Bool
  mountedAppMeta : Option MountedAppMeta
  remoteGrpcUrl : Option String
  sendLoopQueue : List (AppEvent α)
  sendLoopRuns : Bool
  generators : List (Generator α)
  /-- The `sent_event`s that are set. -/
  sent : List Nat
  /-- The events taken from the app's queue, with the generator mounted then. -/
  taken : List (Option Nat × AppEvent α)
  removed : Bool
  deriving DecidableEq

/-- What happens to one generator. -/
inductive GeneratorEvent
  | layoutReady
  | layoutFails
  /-- The consumer asks for the next value. -/
  | read
  /-- `asyncio.wait` returns, with or without the shutdown task among the done ones. -/
  | wake (sawShutdown : Bool)
  | cancel
  /-- The consumer closes the generator at a `yield`. -/
  | close
  /-- `unmount_app` comes back from emitting its event. -/
  | unmounted
  deriving DecidableEq

/-- A stretch between two suspension points, or what comes from outside. -/
inductive MountEvent (α : Type)
  | appEvent (event : AppEvent α)
  | sendLoop (sawShutdown : Bool)
  | mountAppGenerator (url : String) (port : Int) (prefixes : List String)
  | generator (number : Nat) (event : GeneratorEvent)
  | unmountApp
  | removeLayoutObject
  deriving DecidableEq

variable {α : Type}

/-- What the send loop puts on the queue of the mounted generator for an event. -/
def AppEvent.items (event : AppEvent α) : List (GenItem α) :=
  (if event.typeEventTuple.isEmpty then [] else [.appEvent event]) ++
    event.additionalEvents.map .remoteCompEvent

namespace AppObject

/-- A registered app before its first mount. -/
def init : AppObject α where
  shutdownEv := false
  mountEv := false
  mountedAppMeta := none
  remoteGrpcUrl := none
  sendLoopQueue := []
  sendLoopRuns := true
  generators := []
  sent := []
  taken := []
  removed := false

/-- A generator's record is replaced. -/
def setGenerator
    (app : AppObject α)
    (number : Nat)
    (generator : Generator α) :
    AppObject α :=
  { app with generators := app.generators.set number generator }

/-- `if ev.sent_event is not None: ev.sent_event.set()`. -/
def setSent (app : AppObject α) (event : AppEvent α) : AppObject α :=
  { app with sent := app.sent ++ event.sentEvent.toList }

/-- A turn of `_send_loop`. -/
def sendLoop (app : AppObject α) (sawShutdown : Bool) : Option (AppObject α) :=
  if ¬app.sendLoopRuns then
    none
  else if sawShutdown then
    if app.shutdownEv then
      some { app with sendLoopRuns := false, mountedAppMeta := none }
    else
      none
  else
    match app.sendLoopQueue with
    | [] => none
    | event :: rest =>
        if event.isLoopback then
          -- `NotImplementedError` ends the loop.
          some { app with sendLoopQueue := rest, sendLoopRuns := false }
        else
          match app.mountedAppMeta with
          | none =>
              some ({ app with
                sendLoopQueue := rest
                taken := app.taken ++ [(none, event)] }.setSent event)
          | some mounted =>
              match app.generators[mounted.remoteGenQueue]? with
              | none => none
              | some generator =>
                  let delivered :=
                    { app with
                      sendLoopQueue := rest
                      taken := app.taken ++ [(some mounted.remoteGenQueue, event)] }
                      |>.setGenerator mounted.remoteGenQueue
                        { generator with queue := generator.queue ++ event.items }
                  if event.typeEventTuple.isEmpty then
                    some (delivered.setSent event)
                  else
                    some delivered

/-- `mount_app_generator` up to its first suspension, with `mount_app`. -/
def mountAppGenerator
    (app : AppObject α)
    (url : String)
    (port : Int)
    (prefixes : List String) :
    AppObject α :=
  let mount : MountedAppMeta :=
    { url := url
      port := port
      prefixes := prefixes
      remoteGenQueue := app.generators.length }
  match app.mountedAppMeta with
  | some _ =>
      -- `ValueError("app is already mounted")`: the `finally` clause runs.
      { app with
        generators :=
          app.generators ++
            [{ mount := mount, phase := .unmounting, queue := [], yielded := [] }] }
  | none =>
      { app with
        mountedAppMeta := some mount
        mountEv := true
        remoteGrpcUrl := some mount.urlWithPort
        generators :=
          app.generators ++
            [{ mount := mount, phase := .mounting, queue := [], yielded := [] }] }

/-- `unmount_app`, called from outside. -/
def unmountApp (app : AppObject α) : AppObject α :=
  match app.mountedAppMeta with
  | some _ => { app with shutdownEv := true }
  | none => app

/-- The end of `unmount_app(is_local_call=True)` in the `finally` clause. -/
def unmountLocal (app : AppObject α) : AppObject α :=
  { app with mountedAppMeta := none, mountEv := false, remoteGrpcUrl := none }

/-- `_remove_layout_object_internal`. -/
def removeLayoutObject (app : AppObject α) : AppObject α :=
  { app with
    shutdownEv := true
    mountedAppMeta := none
    mountEv := false
    remoteGrpcUrl := none
    removed := true }

/-- What a generator does to the app while it goes on. -/
def effect
    (app : AppObject α)
    (generator : Generator α) :
    GeneratorEvent → AppObject α
  | .read =>
      match generator.phase with
      | .atItem (.appEvent event) => app.setSent event
      | _ => app
  | .unmounted => app.unmountLocal
  | _ => app

end AppObject

/-- Where the code of a generator goes on from one of its phases. -/
def Generator.advance
    (generator : Generator α)
    (shutdownEv : Bool) :
    GeneratorEvent → Option (Generator α)
  | .layoutReady =>
      match generator.phase with
      | .mounting => some { generator with phase := .atLayout }
      | _ => none
  | .layoutFails =>
      match generator.phase with
      | .mounting => some { generator with phase := .unmounting }
      | _ => none
  | .read =>
      match generator.phase with
      | .atLayout | .atItem _ => some { generator with phase := .waiting }
      | _ => none
  | .wake sawShutdown =>
      match generator.phase with
      | .waiting =>
          if sawShutdown then
            if shutdownEv then
              some { generator with phase := .unmounting }
            else
              none
          else
            match generator.queue with
            | [] => none
            | item :: rest =>
                some { generator with
                  phase := .atItem item
                  queue := rest
                  yielded := generator.yielded ++ [item] }
      | _ => none
  | .cancel =>
      match generator.phase with
      | .mounting | .waiting => some { generator with phase := .unmounting }
      -- Cancelled inside `emit_async`, `unmount_app` does not go on.
      | .unmounting => some { generator with phase := .ended }
      | _ => none
  | .close =>
      match generator.phase with
      | .atLayout | .atItem _ => some { generator with phase := .unmounting }
      | _ => none
  | .unmounted =>
      match generator.phase with
      | .unmounting => some { generator with phase := .ended }
      | _ => none

/-- The next state. -/
def AppObject.step (app : AppObject α) : MountEvent α → Option (AppObject α)
  | .appEvent event => some { app with sendLoopQueue := app.sendLoopQueue ++ [event] }
  | .sendLoop sawShutdown => app.sendLoop sawShutdown
  | .mountAppGenerator url port prefixes => some (app.mountAppGenerator url port prefixes)
  | .unmountApp => some app.unmountApp
  | .removeLayoutObject => some app.removeLayoutObject
  | .generator number event =>
      match app.generators[number]? with
      | none => none
      | some generator =>
          (generator.advance app.shutdownEv event).map fun next =>
            (app.effect generator event).setGenerator number next

end TensorPC.Dock
