import TensorPC.Dock.RemoteMount

namespace TensorPC.Dock

/-!
# The life cycle of a mount

While nobody disturbs it, the mounted generator is the only one, it receives
what the send loop takes from the app's queue, in order, and its end leaves the
app ready for the next mount.  The disturbances are those that the shared
shutdown event, the unconditional `finally` clause and the lost queues of ended
generators make harmful.
-/

variable {α : Type}

namespace Generator

/-- The generator is mounted and goes on. -/
def IsLive (generator : Generator α) : Prop :=
  generator.phase ≠ .unmounting ∧ generator.phase ≠ .ended

/-- The item that was yielded last, until the consumer comes back. -/
def inHand (generator : Generator α) : List (GenItem α) :=
  match generator.phase with
  | .atItem item => [item]
  | _ => []

/-- What was put on the queue and not confirmed. -/
def parked (generator : Generator α) : List (GenItem α) :=
  generator.inHand ++ generator.queue

end Generator

/-- Somebody waits for the `sent_event` of the item. -/
def GenItem.Waits : GenItem α → Prop
  | .appEvent event => event.sentEvent.isSome
  | .remoteCompEvent _ => False

/-- Nobody waits for what is parked at the generator. -/
def Generator.Idle (generator : Generator α) : Prop :=
  ∀ item ∈ generator.parked, ¬item.Waits

/-- The items of the events that were taken while one generator was mounted. -/
def AppObject.itemsTaken (app : AppObject α) (number : Nat) : List (GenItem α) :=
  (app.taken.filter (·.1 = some number)).flatMap (·.2.items)

/-- The event is set, or its generator is live and holds it. -/
def AppObject.Pending
    (app : AppObject α)
    (entry : Option Nat × AppEvent α)
    (sentEvent : Nat) : Prop :=
  sentEvent ∈ app.sent ∨
    ∃ number generator,
      entry.1 = some number ∧
        app.generators[number]? = some generator ∧
          generator.IsLive ∧ .appEvent entry.2 ∈ generator.parked

/-- What the undisturbed steps keep. -/
structure MountInv (app : AppObject α) : Prop where
  notShut : app.shutdownEv = false
  loopRuns : app.sendLoopRuns = true
  notLoopback : ∀ event ∈ app.sendLoopQueue, event.isLoopback = false
  unmounted :
    app.mountedAppMeta = none →
      app.mountEv = false ∧ app.remoteGrpcUrl = none ∧
        ∀ generator ∈ app.generators, generator.phase = .ended
  mounted :
    ∀ mount, app.mountedAppMeta = some mount →
      app.mountEv = true ∧ app.remoteGrpcUrl = some mount.urlWithPort ∧
        (∃ generator,
          app.generators[mount.remoteGenQueue]? = some generator ∧
            generator.phase ≠ .ended ∧ generator.mount = mount) ∧
          ∀ number generator,
            app.generators[number]? = some generator →
            number ≠ mount.remoteGenQueue →
            generator.phase = .ended
  known :
    ∀ entry ∈ app.taken, ∀ number, entry.1 = some number →
      number < app.generators.length
  inOrder :
    ∀ number generator, app.generators[number]? = some generator →
      generator.yielded ++ generator.queue = app.itemsTaken number
  notStuck :
    ∀ entry ∈ app.taken, ∀ sentEvent, entry.2.sentEvent = some sentEvent →
      app.Pending entry sentEvent

theorem mountInv_init : MountInv (AppObject.init : AppObject α) where
  notShut := rfl
  loopRuns := rfl
  notLoopback _ member := nomatch member
  unmounted _ := ⟨rfl, rfl, fun _ member => nomatch member⟩
  mounted _ isMounted := nomatch isMounted
  known _ member := nomatch member
  inOrder number _ found := by
    simp [AppObject.init] at found
  notStuck _ member := nomatch member

/-- The steps that disturb no mount. -/
def Undisturbed (app : AppObject α) : MountEvent α → Prop
  | .appEvent event => event.isLoopback = false
  -- Nothing that somebody waits for goes to a generator that is leaving.
  | .sendLoop _ =>
      ∀ mount ∈ app.mountedAppMeta,
      ∀ generator ∈ app.generators[mount.remoteGenQueue]?,
      generator.phase = .unmounting →
      ∀ event ∈ app.sendLoopQueue.head?,
      event.typeEventTuple.isEmpty ∨ event.sentEvent = none
  -- A refused attempt unmounts what is mounted.
  | .mountAppGenerator _ _ _ => app.mountedAppMeta = none
  -- The request sets the shutdown event for good.
  | .unmountApp => app.mountedAppMeta = none
  -- An ended generator takes its queue along.
  | .generator number .cancel =>
      ∀ generator ∈ app.generators[number]?,
        generator.phase ≠ .unmounting ∧ generator.Idle
  | .generator number .close
  | .generator number .layoutFails =>
      ∀ generator ∈ app.generators[number]?, generator.Idle
  | _ => True

instance (item : GenItem α) : Decidable item.Waits := by
  cases item <;> unfold GenItem.Waits <;> infer_instance

instance (generator : Generator α) : Decidable generator.Idle :=
  inferInstanceAs (Decidable (∀ item ∈ generator.parked, _))

instance [DecidableEq α] (app : AppObject α) (event : MountEvent α) :
    Decidable (Undisturbed app event) := by
  cases event with
  | generator number event =>
      cases event <;> unfold Undisturbed <;> infer_instance
  | _ =>
      unfold Undisturbed
      infer_instance

namespace MountInv

variable {app : AppObject α} {number : Nat} {generator next : Generator α}

/-- A generator that has not ended is the mounted one. -/
theorem mounted_of_ne_ended
    (inv : MountInv app)
    (found : app.generators[number]? = some generator)
    (notEnded : generator.phase ≠ .ended) :
    ∃ mount,
      app.mountedAppMeta = some mount ∧ mount.remoteGenQueue = number ∧
        generator.mount = mount := by
  cases isMounted : app.mountedAppMeta with
  | none =>
      have ended :=
        (inv.unmounted isMounted).2.2 generator (List.mem_of_getElem? found)
      exact absurd ended notEnded
  | some mount =>
      obtain ⟨_, _, ⟨other, otherFound, _, sameMount⟩, others⟩ := inv.mounted mount isMounted
      have same : mount.remoteGenQueue = number := by
        by_contra different
        exact notEnded (others number generator found (Ne.symm different))
      subst same
      rw [found] at otherFound
      cases otherFound
      exact ⟨mount, rfl, rfl, sameMount⟩

theorem getElem?_setGenerator
    (found : app.generators[number]? = some generator)
    (query : Nat) :
    (app.setGenerator number next).generators[query]? =
      if query = number then some next else app.generators[query]? := by
  have bound := (List.getElem?_eq_some_iff.mp found).1
  by_cases same : query = number
  · subst same
    simp [AppObject.setGenerator, bound]
  · simp [AppObject.setGenerator, same, Ne.symm same]

/-- A generator that stays mounted goes on. -/
theorem advance
    (inv : MountInv app)
    (found : app.generators[number]? = some generator)
    (notEnded : generator.phase ≠ .ended)
    (nextNotEnded : next.phase ≠ .ended)
    (sameMount : next.mount = generator.mount)
    (sameItems :
      next.yielded ++ next.queue = generator.yielded ++ generator.queue)
    (sent : List Nat)
    (keeps :
      generator.IsLive →
      ∀ event sentEvent,
        .appEvent event ∈ generator.parked →
        event.sentEvent = some sentEvent →
        sentEvent ∈ sent ∨ (next.IsLive ∧ .appEvent event ∈ next.parked)) :
    MountInv ({ app with sent := app.sent ++ sent }.setGenerator number next) := by
  obtain ⟨mount, isMounted, isNumber, generatorMount⟩ :=
    inv.mounted_of_ne_ended found notEnded
  have lookup (query : Nat) :
      ({ app with sent := app.sent ++ sent }.setGenerator number next).generators[query]? =
        if query = number then some next else app.generators[query]? :=
    @getElem?_setGenerator _ { app with sent := app.sent ++ sent } _ _ _ found query
  constructor
  · exact inv.notShut
  · exact inv.loopRuns
  · exact inv.notLoopback
  · intro notMounted
    have wasMounted : app.mountedAppMeta = none := notMounted
    rw [isMounted] at wasMounted
    cases wasMounted
  · intro other otherMounted
    have same : app.mountedAppMeta = some other := otherMounted
    rw [isMounted] at same
    cases same
    obtain ⟨mountEv, url, _, others⟩ := inv.mounted mount isMounted
    refine ⟨mountEv, url, ⟨next, ?_, nextNotEnded, ?_⟩, ?_⟩
    · rw [lookup, if_pos isNumber]
    · rw [sameMount, generatorMount]
    · intro query queried queriedFound different
      rw [lookup, if_neg (isNumber ▸ different)] at queriedFound
      exact others query queried queriedFound different
  · intro entry member query isQuery
    have bound := inv.known entry member query isQuery
    simpa [AppObject.setGenerator] using bound
  · intro query queried queriedFound
    rw [lookup] at queriedFound
    split at queriedFound
    · rename_i isThis
      cases queriedFound
      rw [sameItems, isThis]
      exact inv.inOrder number generator found
    · exact inv.inOrder query queried queriedFound
  · intro entry member sentEvent waits
    rcases inv.notStuck entry member sentEvent waits with
      isSent | ⟨query, queried, isQuery, queriedFound, live, isParked⟩
    · exact .inl (List.mem_append_left _ isSent)
    · by_cases isThis : query = number
      · subst isThis
        rw [found] at queriedFound
        cases queriedFound
        rcases keeps live entry.2 sentEvent isParked waits with isSent | ⟨nextLive, stays⟩
        · exact .inl (List.mem_append_right _ isSent)
        · refine .inr ⟨query, next, isQuery, ?_, nextLive, stays⟩
          rw [lookup, if_pos rfl]
      · refine .inr ⟨query, queried, isQuery, ?_, live, isParked⟩
        rw [lookup, if_neg isThis]
        exact queriedFound

/-- A generator that sets nothing goes on. -/
theorem advanceQuietly
    (inv : MountInv app)
    (found : app.generators[number]? = some generator)
    (notEnded : generator.phase ≠ .ended)
    (nextNotEnded : next.phase ≠ .ended)
    (sameMount : next.mount = generator.mount)
    (sameItems :
      next.yielded ++ next.queue = generator.yielded ++ generator.queue)
    (keeps :
      generator.IsLive →
      ∀ event sentEvent,
        .appEvent event ∈ generator.parked →
        event.sentEvent = some sentEvent →
        next.IsLive ∧ .appEvent event ∈ next.parked) :
    MountInv (app.setGenerator number next) := by
  have advanced :=
    inv.advance found notEnded nextNotEnded sameMount sameItems []
      fun live event sentEvent isParked waits =>
        .inr (keeps live event sentEvent isParked waits)
  rw [List.append_nil] at advanced
  exact advanced

theorem leave
    (inv : MountInv app)
    (found : app.generators[number]? = some generator)
    (notEnded : generator.phase ≠ .ended)
    (idle : generator.Idle) :
    MountInv (app.setGenerator number { generator with phase := .unmounting }) := by
  apply inv.advanceQuietly found notEnded
  · simp
  · rfl
  · rfl
  · intro _ event sentEvent isParked waits
    have nobody := idle _ isParked
    simp [GenItem.Waits, waits] at nobody

/-- The end of `unmount_app` leaves the app ready for the next mount. -/
theorem release
    (inv : MountInv app)
    (found : app.generators[number]? = some generator)
    (leaving : generator.phase = .unmounting) :
    MountInv
      (app.unmountLocal.setGenerator number { generator with phase := .ended }) := by
  have notEnded : generator.phase ≠ .ended := by
    simp [leaving]
  obtain ⟨mount, isMounted, isNumber, _⟩ := inv.mounted_of_ne_ended found notEnded
  subst isNumber
  obtain ⟨_, _, _, others⟩ := inv.mounted mount isMounted
  have lookup (query : Nat) :
      (app.unmountLocal.setGenerator mount.remoteGenQueue
          { generator with phase := .ended }).generators[query]? =
        if query = mount.remoteGenQueue then
          some { generator with phase := .ended }
        else
          app.generators[query]? :=
    @getElem?_setGenerator _ app.unmountLocal _ _ _ found query
  constructor
  · exact inv.notShut
  · exact inv.loopRuns
  · exact inv.notLoopback
  · intro _
    refine ⟨rfl, rfl, fun other member => ?_⟩
    obtain ⟨query, queriedFound⟩ := List.mem_iff_getElem?.mp member
    rw [lookup] at queriedFound
    split at queriedFound
    · cases queriedFound
      rfl
    · rename_i different
      exact others query other queriedFound different
  · intro other otherMounted
    cases otherMounted
  · intro entry member query isQuery
    have bound := inv.known entry member query isQuery
    simpa [AppObject.setGenerator, AppObject.unmountLocal] using bound
  · intro query queried queriedFound
    rw [lookup] at queriedFound
    split at queriedFound
    · rename_i isThis
      cases queriedFound
      rw [isThis]
      exact inv.inOrder _ generator found
    · exact inv.inOrder query queried queriedFound
  · intro entry member sentEvent waits
    rcases inv.notStuck entry member sentEvent waits with
      isSent | ⟨query, queried, isQuery, queriedFound, live, isParked⟩
    · exact .inl isSent
    · by_cases isThis : query = mount.remoteGenQueue
      · subst isThis
        rw [found] at queriedFound
        cases queriedFound
        exact absurd leaving live.1
      · exact absurd (others query queried queriedFound isThis) live.2

/-- A new mount of an app that is not mounted. -/
theorem mount
    (inv : MountInv app)
    (notMounted : app.mountedAppMeta = none)
    (url : String)
    (port : Int)
    (prefixes : List String) :
    MountInv (app.mountAppGenerator url port prefixes) := by
  obtain ⟨_, _, ended⟩ := inv.unmounted notMounted
  have older
      (query : Nat)
      (queried fresh : Generator α)
      (queriedFound : (app.generators ++ [fresh])[query]? = some queried)
      (different : query ≠ app.generators.length) :
      app.generators[query]? = some queried := by
    have bound := (List.getElem?_eq_some_iff.mp queriedFound).1
    rw [List.length_append, List.length_singleton] at bound
    rwa [List.getElem?_append_left (by omega)] at queriedFound
  simp only [AppObject.mountAppGenerator, notMounted]
  constructor
  · exact inv.notShut
  · exact inv.loopRuns
  · exact inv.notLoopback
  · intro stillNot
    cases stillNot
  · intro other otherMounted
    cases otherMounted
    refine ⟨rfl, rfl, ⟨_, List.getElem?_concat_length, by simp, rfl⟩, ?_⟩
    intro query queried queriedFound different
    exact ended queried
      (List.mem_of_getElem? (older query queried _ queriedFound different))
  · intro entry member query isQuery
    have bound := inv.known entry member query isQuery
    rw [List.length_append, List.length_singleton]
    omega
  · intro query queried queriedFound
    by_cases isNew : query = app.generators.length
    · subst isNew
      rw [List.getElem?_concat_length] at queriedFound
      cases queriedFound
      have none : ∀ entry ∈ app.taken, entry.1 ≠ some app.generators.length := by
        intro entry member isNew
        exact absurd (inv.known entry member _ isNew) (by omega)
      have nothing :
          app.taken.filter (fun entry => entry.1 = some app.generators.length) = [] := by
        simpa [List.filter_eq_nil_iff] using none
      simp [AppObject.itemsTaken, nothing]
    · exact inv.inOrder query queried (older query queried _ queriedFound isNew)
  · intro entry member sentEvent waits
    rcases inv.notStuck entry member sentEvent waits with
      isSent | ⟨query, queried, isQuery, queriedFound, live, isParked⟩
    · exact .inl isSent
    · have bound := (List.getElem?_eq_some_iff.mp queriedFound).1
      refine .inr ⟨query, queried, isQuery, ?_, live, isParked⟩
      rw [List.getElem?_append_left bound]
      exact queriedFound

/-- What was pending stays pending when more is set and more is parked. -/
theorem pending_mono
    {after : AppObject α}
    {entry : Option Nat × AppEvent α}
    {sentEvent : Nat}
    (pending : app.Pending entry sentEvent)
    (sent : ∀ event ∈ app.sent, event ∈ after.sent)
    (parked :
      ∀ (number : Nat) (generator : Generator α),
        app.generators[number]? = some generator →
        ∃ next : Generator α,
          after.generators[number]? = some next ∧ next.phase = generator.phase ∧
            ∀ item ∈ generator.queue, item ∈ next.queue) :
    after.Pending entry sentEvent := by
  rcases pending with isSent | ⟨number, generator, isNumber, found, live, isParked⟩
  · exact .inl (sent _ isSent)
  · obtain ⟨next, nextFound, samePhase, more⟩ := parked number generator found
    refine .inr ⟨number, next, isNumber, nextFound, ?_, ?_⟩
    · simpa only [Generator.IsLive, samePhase] using live
    · simp only [Generator.parked, Generator.inHand, samePhase] at isParked ⊢
      rcases List.mem_append.mp isParked with inHand | queued
      · exact List.mem_append_left _ inHand
      · exact List.mem_append_right _ (more _ queued)

/-- An event taken while nothing is mounted is confirmed at once. -/
theorem dropEvent
    (inv : MountInv app)
    {event : AppEvent α}
    {rest : List (AppEvent α)}
    (queued : app.sendLoopQueue = event :: rest) :
    MountInv
      ({ app with
        sendLoopQueue := rest
        taken := app.taken ++ [(none, event)] }.setSent event) := by
  constructor
  · exact inv.notShut
  · exact inv.loopRuns
  · intro other member
    apply inv.notLoopback
    rw [queued]
    exact List.mem_cons_of_mem _ member
  · exact inv.unmounted
  · exact inv.mounted
  · intro entry member number isNumber
    rcases List.mem_append.mp member with older | isNew
    · exact inv.known entry older number isNumber
    · rw [List.mem_singleton.mp isNew] at isNumber
      cases isNumber
  · intro number generator found
    have ordered := inv.inOrder number generator found
    simpa [AppObject.itemsTaken, AppObject.setSent] using ordered
  · intro entry member sentEvent waits
    rcases List.mem_append.mp member with older | isNew
    · apply pending_mono (inv.notStuck entry older sentEvent waits)
      · exact fun _ => List.mem_append_left _
      · exact fun number generator found => ⟨generator, found, rfl, fun _ => id⟩
    · left
      rw [List.mem_singleton.mp isNew] at waits
      simp only at waits
      simp [AppObject.setSent, waits]

/-- An event taken while a generator is mounted goes to its queue. -/
theorem deliver
    (inv : MountInv app)
    {event : AppEvent α}
    {rest : List (AppEvent α)}
    {mount : MountedAppMeta}
    (queued : app.sendLoopQueue = event :: rest)
    (isMounted : app.mountedAppMeta = some mount)
    (found : app.generators[mount.remoteGenQueue]? = some generator)
    (undisturbed :
      generator.phase = .unmounting →
      event.typeEventTuple.isEmpty ∨ event.sentEvent = none)
    (sent : List Nat)
    (confirmed :
      event.typeEventTuple.isEmpty →
      ∀ sentEvent, event.sentEvent = some sentEvent → sentEvent ∈ sent) :
    MountInv
      ({ app with
        sendLoopQueue := rest
        sent := app.sent ++ sent
        taken := app.taken ++ [(some mount.remoteGenQueue, event)] }.setGenerator
          mount.remoteGenQueue
          { generator with queue := generator.queue ++ event.items }) := by
  have lookup (query : Nat) :=
    @getElem?_setGenerator _
      { app with
        sendLoopQueue := rest
        sent := app.sent ++ sent
        taken := app.taken ++ [(some mount.remoteGenQueue, event)] }
      _ _ { generator with queue := generator.queue ++ event.items } found query
  obtain ⟨mountEv, url, ⟨current, currentFound, notEnded, sameMount⟩, others⟩ :=
    inv.mounted mount isMounted
  rw [found] at currentFound
  cases currentFound
  constructor
  · exact inv.notShut
  · exact inv.loopRuns
  · intro other member
    apply inv.notLoopback
    rw [queued]
    exact List.mem_cons_of_mem _ member
  · intro notMounted
    have wasMounted : app.mountedAppMeta = none := notMounted
    rw [isMounted] at wasMounted
    cases wasMounted
  · intro other otherMounted
    have same : app.mountedAppMeta = some other := otherMounted
    rw [isMounted] at same
    cases same
    refine ⟨mountEv, url, ⟨_, (lookup _).trans (if_pos rfl), notEnded, sameMount⟩, ?_⟩
    intro query queried queriedFound different
    rw [lookup, if_neg different] at queriedFound
    exact others query queried queriedFound different
  · intro entry member number isNumber
    have bound : number < app.generators.length := by
      rcases List.mem_append.mp member with older | isNew
      · exact inv.known entry older number isNumber
      · rw [List.mem_singleton.mp isNew] at isNumber
        cases isNumber
        exact (List.getElem?_eq_some_iff.mp found).1
    simpa [AppObject.setGenerator] using bound
  · intro query queried queriedFound
    rw [lookup] at queriedFound
    split at queriedFound
    · rename_i isThis
      cases queriedFound
      have ordered := inv.inOrder mount.remoteGenQueue generator found
      simp only [AppObject.itemsTaken] at ordered
      simp [AppObject.itemsTaken, AppObject.setGenerator, isThis, ← ordered]
    · rename_i different
      have ordered := inv.inOrder query queried queriedFound
      have notThis : mount.remoteGenQueue ≠ query := Ne.symm different
      simpa [AppObject.itemsTaken, AppObject.setGenerator, notThis] using ordered
  · intro entry member sentEvent waits
    rcases List.mem_append.mp member with older | isNew
    · apply pending_mono (inv.notStuck entry older sentEvent waits)
      · exact fun _ => List.mem_append_left _
      · intro query queried queriedFound
        rw [lookup]
        split
        · rename_i isThis
          rw [isThis, found] at queriedFound
          cases queriedFound
          exact ⟨_, rfl, rfl, fun _ => List.mem_append_left _⟩
        · exact ⟨queried, queriedFound, rfl, fun _ => id⟩
    · rw [List.mem_singleton.mp isNew] at waits ⊢
      by_cases isEmpty : event.typeEventTuple.isEmpty
      · exact .inl (List.mem_append_right _ (confirmed isEmpty sentEvent waits))
      · refine .inr ⟨mount.remoteGenQueue, _, rfl, (lookup _).trans (if_pos rfl), ?_, ?_⟩
        · refine ⟨fun leaving => ?_, notEnded⟩
          rcases undisturbed leaving with empty | nobody
          · exact isEmpty empty
          · have waiting : event.sentEvent = some sentEvent := waits
            rw [nobody] at waiting
            cases waiting
        · simp [Generator.parked, AppEvent.items, isEmpty]

/-- A turn of the send loop takes an event, which it drops or delivers. -/
theorem sendLoop_cases
    {after : AppObject α}
    {sawShutdown : Bool}
    (inv : MountInv app)
    (stepped : app.sendLoop sawShutdown = some after) :
    ∃ event rest,
      app.sendLoopQueue = event :: rest ∧
        (after =
            { app with
              sendLoopQueue := rest
              taken := app.taken ++ [(none, event)] }.setSent event ∨
          ∃ mount generator sent,
            app.mountedAppMeta = some mount ∧
              app.generators[mount.remoteGenQueue]? = some generator ∧
                (event.typeEventTuple.isEmpty → sent = event.sentEvent.toList) ∧
                  after =
                    { app with
                      sendLoopQueue := rest
                      sent := app.sent ++ sent
                      taken := app.taken ++ [(some mount.remoteGenQueue, event)] }.setGenerator
                        mount.remoteGenQueue
                        { generator with queue := generator.queue ++ event.items }) := by
  have notShut : ¬app.shutdownEv := by
    simp [inv.notShut]
  rw [AppObject.sendLoop, if_neg (not_not_intro inv.loopRuns)] at stepped
  split at stepped
  · cases stepped
  · split at stepped
    · cases stepped
    · rename_i event rest queued
      have notLoopback : event.isLoopback = false := by
        apply inv.notLoopback
        rw [queued]
        exact List.mem_cons_self
      rw [if_neg (by simp [notLoopback])] at stepped
      refine ⟨event, rest, queued, ?_⟩
      split at stepped
      · cases stepped
        exact .inl rfl
      · rename_i mount isMounted
        right
        split at stepped
        · cases stepped
        · rename_i generator found
          split at stepped
          · cases stepped
            exact
              ⟨mount, generator, event.sentEvent.toList, isMounted, found, fun _ => rfl, rfl⟩
          · rename_i notEmpty
            cases stepped
            refine
              ⟨mount, generator, [], isMounted, found, fun empty => absurd empty notEmpty, ?_⟩
            rw [List.append_nil]

theorem sendLoop
    {after : AppObject α}
    {sawShutdown : Bool}
    (inv : MountInv app)
    (undisturbed : Undisturbed app (.sendLoop sawShutdown))
    (stepped : app.sendLoop sawShutdown = some after) :
    MountInv after := by
  obtain ⟨event, rest, queued, rfl | ⟨mount, generator, sent, isMounted, found, confirms, rfl⟩⟩ :=
    inv.sendLoop_cases stepped
  · exact inv.dropEvent queued
  · apply inv.deliver queued isMounted found
    · intro leaving
      apply undisturbed mount isMounted generator found leaving event
      rw [queued]
      rfl
    · intro empty sentEvent waits
      rw [confirms empty, waits]
      exact List.mem_singleton_self sentEvent

/-- The consumer comes back, and the item that it was given is confirmed. -/
theorem confirm
    {item : GenItem α}
    (inv : MountInv app)
    (found : app.generators[number]? = some generator)
    (atItem : generator.phase = .atItem item) :
    MountInv
      ((app.effect generator .read).setGenerator number
        { generator with phase := .waiting }) := by
  have notEnded : generator.phase ≠ .ended := by
    simp [atItem]
  have nextNotEnded : (GenPhase.waiting : GenPhase α) ≠ .ended := by
    simp
  cases item with
  | appEvent event =>
      simp only [AppObject.effect, atItem]
      refine
        @advance _ app number generator { generator with phase := .waiting } inv found
          notEnded nextNotEnded rfl rfl event.sentEvent.toList ?_
      intro _ parkedEvent sentEvent isParked waits
      simp only [Generator.parked, Generator.inHand, atItem, List.cons_append,
        List.nil_append, List.mem_cons] at isParked ⊢
      rcases isParked with isEvent | queued
      · cases isEvent
        simp [waits]
      · exact .inr ⟨by simp [Generator.IsLive], queued⟩
  | remoteCompEvent event =>
      simp only [AppObject.effect, atItem]
      refine
        @advanceQuietly _ app number generator { generator with phase := .waiting } inv
          found notEnded nextNotEnded rfl rfl ?_
      intro _ parkedEvent sentEvent isParked _
      simp only [Generator.parked, Generator.inHand, atItem, List.cons_append,
        List.nil_append, List.mem_cons, reduceCtorEq, false_or] at isParked ⊢
      exact ⟨by simp [Generator.IsLive], isParked⟩

/-- What happens to one generator. -/
theorem generatorStep
    {after : AppObject α}
    {event : GeneratorEvent}
    (inv : MountInv app)
    (undisturbed : Undisturbed app (.generator number event))
    (stepped : app.step (.generator number event) = some after) :
    MountInv after := by
  simp only [AppObject.step] at stepped
  split at stepped
  · cases stepped
  · rename_i generator found
    obtain ⟨next, advanced, rfl⟩ := Option.map_eq_some_iff.mp stepped
    cases event with
    | layoutReady =>
        simp only [Generator.advance] at advanced
        split at advanced
        · rename_i mounting
          cases advanced
          apply inv.advanceQuietly found
          · simp [mounting]
          · simp
          · rfl
          · rfl
          · intro _ event sentEvent isParked _
            refine ⟨by simp [Generator.IsLive], ?_⟩
            simpa [Generator.parked, Generator.inHand, mounting] using isParked
        · cases advanced
    | layoutFails =>
        simp only [Generator.advance] at advanced
        split at advanced
        · rename_i mounting
          cases advanced
          exact inv.leave found (by simp [mounting]) (undisturbed generator found)
        · cases advanced
    | read =>
        simp only [Generator.advance] at advanced
        split at advanced
        · rename_i atLayout
          cases advanced
          simp only [AppObject.effect, atLayout]
          apply inv.advanceQuietly found
          · simp [atLayout]
          · simp
          · rfl
          · rfl
          · intro _ event sentEvent isParked _
            refine ⟨by simp [Generator.IsLive], ?_⟩
            simpa [Generator.parked, Generator.inHand, atLayout] using isParked
        · rename_i item atItem
          cases advanced
          exact inv.confirm found atItem
        · cases advanced
    | wake sawShutdown =>
        simp only [Generator.advance, inv.notShut] at advanced
        split at advanced
        · rename_i waiting
          split at advanced
          · simp at advanced
          · split at advanced
            · cases advanced
            · rename_i item rest queue
              cases advanced
              apply inv.advanceQuietly found
              · simp [waiting]
              · simp
              · rfl
              · simp [queue]
              · intro _ event sentEvent isParked _
                refine ⟨by simp [Generator.IsLive], ?_⟩
                simpa [Generator.parked, Generator.inHand, waiting, queue] using isParked
        · cases advanced
    | cancel =>
        obtain ⟨notLeaving, idle⟩ := undisturbed generator found
        simp only [Generator.advance] at advanced
        split at advanced
        · rename_i mounting
          cases advanced
          exact inv.leave found (by simp [mounting]) idle
        · rename_i waiting
          cases advanced
          exact inv.leave found (by simp [waiting]) idle
        · rename_i leaving
          exact absurd leaving notLeaving
        · cases advanced
    | close =>
        simp only [Generator.advance] at advanced
        split at advanced
        · rename_i atLayout
          cases advanced
          exact inv.leave found (by simp [atLayout]) (undisturbed generator found)
        · rename_i item atItem
          cases advanced
          exact inv.leave found (by simp [atItem]) (undisturbed generator found)
        · cases advanced
    | unmounted =>
        simp only [Generator.advance] at advanced
        split at advanced
        · rename_i leaving
          cases advanced
          exact inv.release found leaving
        · cases advanced

end MountInv

/-! ## Runs -/

/-- Every undisturbed step but the removal of the layout object keeps the invariant. -/
theorem MountInv.step
    {app after : AppObject α}
    {event : MountEvent α}
    (inv : MountInv app)
    (undisturbed : Undisturbed app event)
    (stepped : app.step event = some after) :
    after.removed = true ∨ MountInv after := by
  cases event with
  | appEvent event =>
      cases stepped
      right
      exact
        { inv with
          notLoopback := by
            intro other member
            rcases List.mem_append.mp member with older | isNew
            · exact inv.notLoopback other older
            · rw [List.mem_singleton.mp isNew]
              exact undisturbed }
  | sendLoop sawShutdown =>
      exact .inr (inv.sendLoop undisturbed stepped)
  | mountAppGenerator url port prefixes =>
      cases stepped
      exact .inr (inv.mount undisturbed url port prefixes)
  | generator number event =>
      exact .inr (inv.generatorStep undisturbed stepped)
  | unmountApp =>
      cases stepped
      have notMounted : app.mountedAppMeta = none := undisturbed
      simp only [AppObject.unmountApp, notMounted]
      exact .inr inv
  | removeLayoutObject =>
      cases stepped
      exact .inl rfl

/-- A turn of the send loop does not remove the layout object. -/
theorem removed_of_sendLoop
    {app after : AppObject α}
    {sawShutdown : Bool}
    (stepped : app.sendLoop sawShutdown = some after) :
    after.removed = app.removed := by
  unfold AppObject.sendLoop at stepped
  split at stepped
  · cases stepped
  · split at stepped
    · split at stepped
      · cases stepped
        rfl
      · cases stepped
    · split at stepped
      · cases stepped
      · split at stepped
        · cases stepped
          rfl
        · split at stepped
          · cases stepped
            rfl
          · split at stepped
            · cases stepped
            · split at stepped <;> cases stepped <;> rfl

theorem sent_effect
    {app : AppObject α}
    {sentEvent : Nat}
    (isSent : sentEvent ∈ app.sent)
    (generator : Generator α)
    (event : GeneratorEvent) :
    sentEvent ∈ (app.effect generator event).sent := by
  unfold AppObject.effect
  split
  · split
    · exact List.mem_append_left _ isSent
    · exact isSent
  · exact isSent
  · exact isSent

theorem generators_effect
    (app : AppObject α)
    (generator : Generator α)
    (event : GeneratorEvent) :
    (app.effect generator event).generators = app.generators := by
  unfold AppObject.effect
  split
  · split <;> rfl
  · rfl
  · rfl

theorem removed_effect
    (app : AppObject α)
    (generator : Generator α)
    (event : GeneratorEvent) :
    (app.effect generator event).removed = app.removed := by
  unfold AppObject.effect
  split
  · split <;> rfl
  · rfl
  · rfl

/-- The removal of the layout object is for good. -/
theorem removed_of_step
    {app after : AppObject α}
    {event : MountEvent α}
    (removed : app.removed = true)
    (stepped : app.step event = some after) :
    after.removed = true := by
  cases event with
  | appEvent event =>
      cases stepped
      exact removed
  | sendLoop sawShutdown =>
      exact (removed_of_sendLoop stepped).trans removed
  | mountAppGenerator url port prefixes =>
      cases stepped
      unfold AppObject.mountAppGenerator
      split <;> exact removed
  | generator number event =>
      simp only [AppObject.step] at stepped
      split at stepped
      · cases stepped
      · obtain ⟨next, _, rfl⟩ := Option.map_eq_some_iff.mp stepped
        exact (removed_effect app _ event).trans removed
  | unmountApp =>
      cases stepped
      unfold AppObject.unmountApp
      split <;> exact removed
  | removeLayoutObject =>
      cases stepped
      rfl

/-- The layout object is removed, or the invariant holds. -/
def InvUntilRemoved (app : AppObject α) : Prop :=
  app.removed = true ∨ MountInv app

theorem InvUntilRemoved.run
    {app after : AppObject α}
    {events : List (MountEvent α)}
    (inv : InvUntilRemoved app)
    (run : Transition.Run AppObject.step Undisturbed app events after) :
    InvUntilRemoved after := by
  apply Transition.Run.invariant inv _ run
  rintro before event next (removed | inv) undisturbed stepped
  · exact .inl (removed_of_step removed stepped)
  · exact inv.step undisturbed stepped

/-! ## What is parked is confirmed -/

/-- How many times the consumer of a generator comes back before an item is confirmed. -/
def Generator.readsBefore (generator : Generator α) (position : Nat) : Nat :=
  match generator.phase with
  | .mounting | .atLayout => position + 2
  | _ => position + 1

/-- How many times a list of events asks one generator for its next value. -/
def readsOf (number : Nat) (events : List (MountEvent α)) : Nat :=
  events.countP fun event =>
    match event with
    | .generator reader .read => reader = number
    | _ => false

/-- A parked item is confirmed, or so close that the reads still to come are enough. -/
def Approaches
    (number sentEvent total : Nat)
    (event : AppEvent α)
    (app : AppObject α)
    (reads : Nat) : Prop :=
  sentEvent ∈ app.sent ∨
    ∃ generator position,
      app.generators[number]? = some generator ∧
        generator.IsLive ∧
          generator.parked[position]? = some (.appEvent event) ∧
            generator.readsBefore position + reads ≤ total

theorem Generator.Idle.absurd
    {generator : Generator α}
    {position sentEvent : Nat}
    {event : AppEvent α}
    (idle : generator.Idle)
    (isParked : generator.parked[position]? = some (.appEvent event))
    (waits : event.sentEvent = some sentEvent) :
    False := by
  have nobody := idle _ (List.mem_of_getElem? isParked)
  simp [GenItem.Waits, waits] at nobody

namespace Approaches

variable {app after : AppObject α} {event : AppEvent α} {number sentEvent total reads : Nat}

theorem mono
    (approaches : Approaches number sentEvent total event app reads)
    (sent : ∀ other ∈ app.sent, other ∈ after.sent)
    (parked :
      ∀ generator : Generator α, app.generators[number]? = some generator →
        ∃ (next : Generator α) (more : List (GenItem α)),
          after.generators[number]? = some next ∧ next.phase = generator.phase ∧
            next.queue = generator.queue ++ more) :
    Approaches number sentEvent total event after reads := by
  rcases approaches with isSent | ⟨generator, position, found, live, isParked, close⟩
  · exact .inl (sent _ isSent)
  · obtain ⟨next, more, nextFound, samePhase, queue⟩ := parked generator found
    refine .inr ⟨next, position, nextFound, ?_, ?_, ?_⟩
    · simpa only [Generator.IsLive, samePhase] using live
    · have extended : next.parked = generator.parked ++ more := by
        simp [Generator.parked, Generator.inHand, samePhase, queue]
      have bound := (List.getElem?_eq_some_iff.mp isParked).1
      rw [extended, List.getElem?_append_left bound]
      exact isParked
    · simpa only [Generator.readsBefore, samePhase] using close

theorem otherGenerator
    {acting : Nat}
    {generator next : Generator α}
    (approaches : Approaches number sentEvent total event app reads)
    (different : number ≠ acting)
    (acts : GeneratorEvent) :
    Approaches number sentEvent total event
      ((app.effect generator acts).setGenerator acting next) reads := by
  apply approaches.mono
  · exact fun other isSent => sent_effect isSent generator acts
  · intro current found
    refine ⟨current, [], ?_, rfl, (List.append_nil _).symm⟩
    simpa [AppObject.setGenerator, generators_effect, Ne.symm different] using found

/-- What happens to the generator that parks the item. -/
theorem ownGenerator
    {generator next : Generator α}
    {acts : GeneratorEvent}
    (approaches : Approaches number sentEvent total event app reads)
    (inv : MountInv app)
    (waits : event.sentEvent = some sentEvent)
    (found : app.generators[number]? = some generator)
    (undisturbed : Undisturbed app (.generator number acts))
    (advanced : generator.advance app.shutdownEv acts = some next) :
    Approaches number sentEvent total event
      ((app.effect generator acts).setGenerator number next)
      (reads + if acts = .read then 1 else 0) := by
  have bound := (List.getElem?_eq_some_iff.mp found).1
  have setNext :
      ((app.effect generator acts).setGenerator number next).generators[number]? =
        some next := by
    simp [AppObject.setGenerator, generators_effect, bound]
  rcases approaches with isSent | ⟨current, position, currentFound, live, isParked, close⟩
  · exact .inl (sent_effect isSent generator acts)
  · rw [found] at currentFound
    cases currentFound
    cases acts with
    | layoutReady =>
        simp only [Generator.advance] at advanced
        split at advanced
        · rename_i mounting
          cases advanced
          refine .inr ⟨_, position, setNext, by simp [Generator.IsLive], ?_, ?_⟩
          · simpa [Generator.parked, Generator.inHand, mounting] using isParked
          · simpa [Generator.readsBefore, mounting] using close
        · cases advanced
    | layoutFails =>
        exact ((undisturbed generator found).absurd isParked waits).elim
    | read =>
        simp only [Generator.advance] at advanced
        split at advanced
        · rename_i atLayout
          cases advanced
          refine .inr ⟨_, position, setNext, by simp [Generator.IsLive], ?_, ?_⟩
          · simpa [Generator.parked, Generator.inHand, atLayout] using isParked
          · simp only [Generator.readsBefore, atLayout] at close ⊢
            simp only [if_true]
            omega
        · rename_i item atItem
          cases advanced
          simp only [Generator.parked, Generator.inHand, atItem, List.cons_append,
            List.nil_append] at isParked
          simp only [Generator.readsBefore, atItem] at close
          cases position with
          | zero =>
              left
              simp only [List.getElem?_cons_zero, Option.some.injEq] at isParked
              subst isParked
              simp [AppObject.effect, atItem, AppObject.setSent, AppObject.setGenerator, waits]
          | succ position =>
              refine .inr ⟨_, position, setNext, by simp [Generator.IsLive], ?_, ?_⟩
              · simpa [Generator.parked, Generator.inHand] using isParked
              · simp only [Generator.readsBefore, if_true]
                omega
        · cases advanced
    | wake sawShutdown =>
        simp only [Generator.advance, inv.notShut] at advanced
        split at advanced
        · rename_i waiting
          split at advanced
          · simp at advanced
          · split at advanced
            · cases advanced
            · rename_i item rest queue
              cases advanced
              refine .inr ⟨_, position, setNext, by simp [Generator.IsLive], ?_, ?_⟩
              · simpa [Generator.parked, Generator.inHand, waiting, queue] using isParked
              · simpa [Generator.readsBefore, waiting] using close
        · cases advanced
    | cancel =>
        exact ((undisturbed generator found).2.absurd isParked waits).elim
    | close =>
        exact ((undisturbed generator found).absurd isParked waits).elim
    | unmounted =>
        simp only [Generator.advance] at advanced
        split at advanced
        · rename_i leaving
          exact absurd leaving live.1
        · cases advanced

/-- What one step does to a parked item. -/
theorem step
    {happens : MountEvent α}
    (approaches : Approaches number sentEvent total event app reads)
    (inv : MountInv app)
    (waits : event.sentEvent = some sentEvent)
    (undisturbed : Undisturbed app happens)
    (stepped : app.step happens = some after) :
    after.removed = true ∨
      Approaches number sentEvent total event after (reads + readsOf number [happens]) := by
  cases happens with
  | appEvent other =>
      cases stepped
      right
      apply approaches.mono
      · exact fun _ => id
      · exact fun generator found => ⟨generator, [], found, rfl, (List.append_nil _).symm⟩
  | sendLoop sawShutdown =>
      right
      obtain ⟨other, rest, _, rfl | ⟨mount, generator, sent, _, found, _, rfl⟩⟩ :=
        inv.sendLoop_cases stepped
      · apply approaches.mono
        · exact fun _ => List.mem_append_left _
        · exact fun generator found => ⟨generator, [], found, rfl, (List.append_nil _).symm⟩
      · apply approaches.mono
        · exact fun _ => List.mem_append_left _
        · intro current currentFound
          have lookup :=
            @MountInv.getElem?_setGenerator _
              { app with
                sendLoopQueue := rest
                sent := app.sent ++ sent
                taken := app.taken ++ [(some mount.remoteGenQueue, other)] }
              _ _ { generator with queue := generator.queue ++ other.items } found number
          rw [lookup]
          split
          · rename_i isMounted
            rw [isMounted, found] at currentFound
            cases currentFound
            exact ⟨_, other.items, rfl, rfl, rfl⟩
          · exact ⟨current, [], currentFound, rfl, (List.append_nil _).symm⟩
  | mountAppGenerator url port prefixes =>
      cases stepped
      right
      have notMounted : app.mountedAppMeta = none := undisturbed
      simp only [AppObject.mountAppGenerator, notMounted]
      apply approaches.mono
      · exact fun _ => id
      · intro generator found
        have bound := (List.getElem?_eq_some_iff.mp found).1
        refine ⟨generator, [], ?_, rfl, (List.append_nil _).symm⟩
        rw [List.getElem?_append_left bound]
        exact found
  | generator acting acts =>
      right
      simp only [AppObject.step] at stepped
      split at stepped
      · cases stepped
      · rename_i generator found
        obtain ⟨next, advanced, rfl⟩ := Option.map_eq_some_iff.mp stepped
        by_cases isThis : number = acting
        · subst isThis
          have closer := approaches.ownGenerator inv waits found undisturbed advanced
          cases acts <;> simpa [readsOf] using closer
        · have counted : readsOf number [(.generator acting acts : MountEvent α)] = 0 := by
            cases acts <;> simp [readsOf, Ne.symm isThis]
          rw [counted]
          exact approaches.otherGenerator isThis acts
  | unmountApp =>
      cases stepped
      right
      have notMounted : app.mountedAppMeta = none := undisturbed
      simp only [AppObject.unmountApp, notMounted]
      exact approaches
  | removeLayoutObject =>
      cases stepped
      exact .inl rfl

theorem run
    {events : List (MountEvent α)}
    (approaches : Approaches number sentEvent total event app 0)
    (inv : InvUntilRemoved app)
    (waits : event.sentEvent = some sentEvent)
    (run : Transition.Run AppObject.step Undisturbed app events after) :
    after.removed = true ∨
      Approaches number sentEvent total event after (readsOf number events) := by
  induction run with
  | start =>
      exact .inr approaches
  | next earlier undisturbed stepped inductionHypothesis =>
      rcases inv.run earlier with removed | invBefore
      · exact .inl (removed_of_step removed stepped)
      · rcases inductionHypothesis with removed | before
        · exact .inl (removed_of_step removed stepped)
        · have counted := before.step invBefore waits undisturbed stepped
          rwa [readsOf, List.countP_append]

end Approaches

/-! ## What is promised -/

/-- What is promised about the mounts in a reached state, and from it on. -/
structure MountsHold
    (allowed : AppObject α → MountEvent α → Prop)
    (app : AppObject α) : Prop where
  /-- At most one generator is mounted. -/
  oneLive :
    ∀ (first second : Nat) (generator other : Generator α),
      app.generators[first]? = some generator →
      app.generators[second]? = some other →
      generator.IsLive →
      other.IsLive →
      first = second
  /-- As long as a generator goes on, its mount, its url and its delivery stand. -/
  standing :
    ∀ (number : Nat) (generator : Generator α),
      app.generators[number]? = some generator →
      generator.IsLive →
      app.mountedAppMeta = some generator.mount ∧
        generator.mount.remoteGenQueue = number ∧
          app.remoteGrpcUrl = some generator.mount.urlWithPort ∧
            app.mountEv = true ∧ app.shutdownEv = false ∧ app.sendLoopRuns = true
  /-- Once its generators have ended the app is unmounted. -/
  released :
    (∀ generator ∈ app.generators, generator.phase = .ended) →
    app.mountedAppMeta = none ∧ app.mountEv = false ∧ app.remoteGrpcUrl = none
  /-- A later mount succeeds, yields the layout and waits for events. -/
  remountable :
    app.mountedAppMeta = none →
    ∀ url port prefixes,
      ∃ mounted shown reading generator,
        app.step (.mountAppGenerator url port prefixes) = some mounted ∧
          mounted.step (.generator app.generators.length .layoutReady) = some shown ∧
            shown.step (.generator app.generators.length .read) = some reading ∧
              reading.generators[app.generators.length]? = some generator ∧
                generator.phase = .waiting ∧
                  reading.mountedAppMeta = some generator.mount ∧
                    reading.shutdownEv = false ∧ reading.sendLoopRuns = true
  /-- What was taken during a mount is yielded by its generator, once and in order. -/
  inOrder :
    ∀ (number : Nat) (generator : Generator α),
      app.generators[number]? = some generator →
      generator.yielded ++ generator.queue = app.itemsTaken number
  /-- Whoever waits for a taken event waits for a generator that goes on. -/
  notStuck :
    ∀ entry ∈ app.taken, ∀ sentEvent,
      entry.2.sentEvent = some sentEvent →
      app.Pending entry sentEvent
  /-- An event that a generator holds is set once the generator is read often enough. -/
  confirmed :
    ∀ (number position : Nat) (generator : Generator α) (event : AppEvent α) (sentEvent : Nat),
      app.generators[number]? = some generator →
      generator.IsLive →
      generator.parked[position]? = some (.appEvent event) →
      event.sentEvent = some sentEvent →
      ∀ events after,
        Transition.Run AppObject.step allowed app events after →
        after.removed = false →
        position + 2 ≤ readsOf number events →
        sentEvent ∈ after.sent

/-- A mount that delivers one event, ends, and is followed by another one. -/
def sampleMountEvents : List (MountEvent Nat) :=
  [ .mountAppGenerator "localhost" 50051 ["a"],
    .generator 0 .layoutReady,
    .appEvent {
      typeEventTuple := [7]
      sentEvent := some 0
      additionalEvents := [{ key := "k", data := 8 }]
      isLoopback := false },
    .generator 0 .read,
    .sendLoop false,
    .generator 0 (.wake false),
    .generator 0 .read,
    .generator 0 (.wake false),
    .generator 0 .read,
    .generator 0 .cancel,
    .generator 0 .unmounted,
    .mountAppGenerator "localhost" 50052 ["b"] ]

end TensorPC.Dock
