import TensorPC.Kv.SessionInvariant

namespace TensorPC.Kv

/-!
# Safety of the double buffers

No two open sessions share a buffer pair, and as long as a pair is acquired only
when no client works on it any more, every chunk a client sees or fills is the
chunk of its own session.  `send_stream` gives its pair back right after naming
the last chunk, so the condition can fail.
-/

/-! ## The statement -/

namespace Session

/-- The buffer into which the server is saving a chunk. -/
def serverWrites (session : Session) (side : Nat) : Prop :=
  (session.point = .savingFirst ∨ session.point = .savingNext) ∧
    side = session.chunkIdx % 2

/-- The buffer from which the server is loading a chunk. -/
def serverReads (session : Session) (side : Nat) : Prop :=
  session.point = .loading ∧ side = (session.chunkIdx + 1) % 2

/-- The buffer from which the client is copying a chunk. -/
def clientReads (session : Session) (index side : Nat) : Prop :=
  session.kind = .send ∧ session.working = some (index, side)

/-- The buffer into which the client is copying a chunk. -/
def clientWrites (session : Session) (index side : Nat) : Prop :=
  session.kind = .receive ∧ session.working = some (index, side)

end Session

/-- What double buffering promises in one state. -/
structure BuffersSafe (state : StreamState) : Prop where
  /-- No two open sessions hold the same buffer pair. -/
  exclusive :
    ∀ {id other : Nat} {session second : Session},
      state.sessions[id]? = some session →
      state.sessions[other]? = some second →
      session.isOpen = true →
      second.isOpen = true →
      session.pair = second.pair →
      id = other
  /-- The server never writes a buffer that a client is reading. -/
  notOverwritten :
    ∀ {id other : Nat} {session second : Session} {index side : Nat},
      state.sessions[id]? = some session →
      state.sessions[other]? = some second →
      session.serverWrites side →
      second.clientReads index side →
      session.pair ≠ second.pair
  /-- The server never reads a buffer that a client is writing. -/
  notReadEarly :
    ∀ {id other : Nat} {session second : Session} {index side : Nat},
      state.sessions[id]? = some session →
      state.sessions[other]? = some second →
      session.serverReads side →
      second.clientWrites index side →
      session.pair ≠ second.pair
  /-- The chunk that a client reads is the chunk the server named. -/
  readsItsChunk :
    ∀ {id : Nat} {session : Session} {index side : Nat},
      state.sessions[id]? = some session →
      session.clientReads index side →
      state.shm session.pair side = .chunk id index
  /-- The chunk that the server loads is the one it asked for. -/
  loadsItsChunk :
    ∀ {id : Nat} {session : Session} {side : Nat},
      state.sessions[id]? = some session →
      session.serverReads side →
      state.shm session.pair side = .chunk id (session.chunkIdx - 1)
  /-- The chunks copied so far are the first ones of the session, in order. -/
  copiedInOrder :
    ∀ {id : Nat} {session : Session},
      state.sessions[id]? = some session →
      session.copied = chunksUpTo id session.copied.length

/-- A pair is acquired only when no client has still a chunk in it to finish. -/
def AcquiresFreePair (state : StreamState) : StreamEvent → Prop
  | .acquire _ =>
      ∀ session ∈ state.sessions,
        session.HasChunk → session.pair ≠ state.acquireIdx
  | _ => True

/-! ## The invariant of the server -/

/-- What every step keeps true of the sessions, the semaphore and the idle flags. -/
structure StreamInv (state : StreamState) : Prop where
  sessionInv :
    ∀ {id : Nat} {session : Session},
      state.sessions[id]? = some session →
      session.Inv id (state.shm session.pair)
  separate :
    ∀ {id other : Nat} {session second : Session},
      state.sessions[id]? = some session →
      state.sessions[other]? = some second →
      session.Uses →
      second.Uses →
      session.pair = second.pair →
      id = other
  holds :
    ∀ {id : Nat} {session : Session},
      state.sessions[id]? = some session →
      session.isOpen = true →
      state.idle[session.pair]? = some false
  /-- Every permit that is not in the counter is with a session. -/
  counted :
    state.permits + state.sessions.countP (fun session => session.point = .granted) +
      state.idle.countP (fun idle => !idle) = state.idle.length

theorem StreamInv.initial : StreamInv StreamState.initial where
  sessionInv := by
    intro id session found
    simp [StreamState.initial] at found
  separate := by
    intro id other session second found
    simp [StreamState.initial] at found
  holds := by
    intro id session found
    simp [StreamState.initial] at found
  counted := by
    decide

theorem getElem?_set_session
    {sessions : List Session}
    {id other : Nat}
    {old session second : Session}
    (present : sessions[id]? = some old)
    (found : (sessions.set id session)[other]? = some second) :
    (other = id ∧ second = session) ∨
      (other ≠ id ∧ sessions[other]? = some second) := by
  rw [List.getElem?_set] at found
  by_cases same : id = other
  · subst same
    have inside : id < sessions.length :=
      (List.getElem?_eq_some_iff.mp present).1
    rw [if_pos rfl, if_pos inside] at found
    exact .inl ⟨rfl, (Option.some.inj found).symm⟩
  · rw [if_neg same] at found
    exact .inr ⟨fun equal => same equal.symm, found⟩

/-- A session that uses no pair keeps its invariant whatever the buffers hold. -/
theorem Session.Inv.ofUnused
    {id : Nat}
    {session : Session}
    {sides : Sides}
    (inv : session.Inv id sides)
    (unused : ¬ session.Uses)
    (other : Sides) :
    session.Inv id other := by
  have notOpen : session.isOpen = false := by
    cases isOpen : session.isOpen
    · rfl
    · exact absurd (.inl isOpen) unused
  have noChunk : ¬ session.HasChunk := fun hasChunk => unused (.inr hasChunk)
  cases isKind : session.kind <;> simp only [Session.Inv, isKind] at inv ⊢
  · cases atPoint : session.point <;>
      simp only [Session.isOpen, atPoint, reduceCtorEq] at notOpen <;>
      simp only [Session.SendInv, atPoint] at inv ⊢
    case waiting | granted =>
      exact inv
    case closed =>
      rcases inv with ⟨index, tail, endTail, pending | answered⟩ | quiet
      · refine absurd ?_ noChunk
        rcases pending.1.2 with ⟨queued, _⟩ | ⟨_, works⟩
        · exact .inr ⟨_, _, by rw [queued]; exact List.mem_cons_self⟩
        · exact .inl (by simp [works])
      · exact .inl ⟨index, tail, endTail, .inr answered⟩
      · exact .inr quiet
  · cases atPoint : session.point <;>
      simp only [Session.isOpen, atPoint, reduceCtorEq] at notOpen <;>
      simp only [Session.ReceiveInv, atPoint] at inv ⊢ <;>
      exact inv

theorem countP_set_add
    {α : Type}
    {p : α → Bool}
    {items : List α}
    {index : Nat}
    {old new : α}
    (present : items[index]? = some old) :
    (items.set index new).countP p + (if p old then 1 else 0) =
      items.countP p + (if p new then 1 else 0) := by
  obtain ⟨inside, atIndex⟩ := List.getElem?_eq_some_iff.mp present
  rw [List.countP_set inside, atIndex]
  have counted : p old = true → 0 < items.countP p := fun holds =>
    List.countP_pos_iff.mpr ⟨old, List.mem_of_getElem? present, holds⟩
  by_cases holds : p old = true
  · have := counted holds
    simp only [holds, if_true]
    omega
  · simp [holds]

theorem idle_acquireIdx
    {state : StreamState}
    (someIdle : state.idle.countP (fun idle => !idle) < state.idle.length) :
    state.idle[state.acquireIdx]? = some true := by
  cases found : state.idle.findIdx? (fun idle => idle) with
  | none =>
      have noneIdle := List.findIdx?_eq_none_iff.mp found
      have allBusy : state.idle.countP (fun idle => !idle) = state.idle.length :=
        List.countP_eq_length.mpr fun idle member => by
          simp [noneIdle idle member]
      omega
  | some index =>
      obtain ⟨inside, isIdle, _⟩ := List.findIdx?_eq_some_iff_getElem.mp found
      have atIndex : state.acquireIdx = index := by
        simp [StreamState.acquireIdx, found]
      rw [atIndex, List.getElem?_eq_getElem inside, isIdle]

section GlobalSteps

variable {state after : StreamState}

/-- A new call keeps the invariant. -/
theorem StreamInv.call
    (inv : StreamInv state)
    (kind : StreamKind)
    (chunkCount : Nat) :
    StreamInv
      { state with sessions := state.sessions ++ [.start kind chunkCount] } := by
  have found :
      ∀ {id : Nat} {session : Session},
        (state.sessions ++ [Session.start kind chunkCount])[id]? = some session →
        state.sessions[id]? = some session ∨ session = .start kind chunkCount := by
    intro id session found
    rw [List.getElem?_append] at found
    split at found
    · exact .inl found
    · right
      simpa using List.mem_of_getElem? found
  have unused : ¬ (Session.start kind chunkCount).Uses := by
    rintro (isOpen | works | ⟨index, side, member⟩)
    · simp [Session.start, Session.isOpen] at isOpen
    · simp [Session.start] at works
    · simp [Session.start] at member
  refine ⟨?_, ?_, ?_, ?_⟩
  · intro id session isSession
    rcases found isSession with earlier | rfl
    · exact inv.sessionInv earlier
    · cases kind
      · exact ⟨rfl, ⟨rfl, rfl, rfl⟩, rfl⟩
      · exact ⟨rfl, ⟨rfl, rfl, rfl⟩, rfl⟩
  · intro id other session second isSession isSecond uses secondUses samePair
    rcases found isSession with earlier | rfl
    · rcases found isSecond with secondEarlier | rfl
      · exact inv.separate earlier secondEarlier uses secondUses samePair
      · exact absurd secondUses unused
    · exact absurd uses unused
  · intro id session isSession isOpen
    rcases found isSession with earlier | rfl
    · exact inv.holds earlier isOpen
    · exact absurd (.inl isOpen) unused
  · simpa [Session.start] using inv.counted

/-- The invariant after one session and the state around it changed. -/
theorem StreamInv.replace
    (inv : StreamInv state)
    {id : Nat}
    {session next : Session}
    (present : state.sessions[id]? = some session)
    (replaced : after.sessions = state.sessions.set id next)
    (nextInv : next.Inv id (after.shm next.pair))
    (otherInv :
      ∀ {other : Nat} {second : Session},
        other ≠ id →
        state.sessions[other]? = some second →
        second.Inv other (after.shm second.pair))
    (nextSeparate :
      ∀ {other : Nat} {second : Session},
        other ≠ id →
        state.sessions[other]? = some second →
        next.Uses →
        second.Uses →
        next.pair ≠ second.pair)
    (nextHolds : next.isOpen = true → after.idle[next.pair]? = some false)
    (otherHolds :
      ∀ {other : Nat} {second : Session},
        other ≠ id →
        state.sessions[other]? = some second →
        second.isOpen = true →
        after.idle[second.pair]? = some false)
    (counted :
      after.permits +
          after.sessions.countP (fun session => session.point = .granted) +
          after.idle.countP (fun idle => !idle) =
        after.idle.length) :
    StreamInv after where
  sessionInv := by
    intro other second found
    rw [replaced] at found
    rcases getElem?_set_session present found with ⟨rfl, rfl⟩ | ⟨different, earlier⟩
    · exact nextInv
    · exact otherInv different earlier
  separate := by
    intro first second firstSession secondSession isFirst isSecond uses secondUses samePair
    rw [replaced] at isFirst isSecond
    rcases getElem?_set_session present isFirst with ⟨rfl, rfl⟩ | ⟨different, earlier⟩
    · rcases getElem?_set_session present isSecond with
        ⟨rfl, rfl⟩ | ⟨secondDifferent, secondEarlier⟩
      · rfl
      · exact absurd samePair (nextSeparate secondDifferent secondEarlier uses secondUses)
    · rcases getElem?_set_session present isSecond with
        ⟨rfl, rfl⟩ | ⟨_, secondEarlier⟩
      · exact absurd samePair.symm (nextSeparate different earlier secondUses uses)
      · exact inv.separate earlier secondEarlier uses secondUses samePair
  holds := by
    intro other second found isOpen
    rw [replaced] at found
    rcases getElem?_set_session present found with ⟨rfl, rfl⟩ | ⟨different, earlier⟩
    · exact nextHolds isOpen
    · exact otherHolds different earlier isOpen
  counted := counted

/-- Letting a session through the semaphore keeps the invariant. -/
theorem StreamInv.grant
    (inv : StreamInv state)
    {id : Nat}
    {session : Session}
    (present : state.sessions[id]? = some session)
    (waiting : session.point = .waiting)
    (available : 0 < state.permits) :
    StreamInv
      { state with
        permits := state.permits - 1
        sessions := state.sessions.set id { session with point := .granted } } := by
  have usesBefore :
      Session.Uses { session with point := .granted } → session.Uses := by
    rintro (isOpen | hasChunk)
    · simp [Session.isOpen] at isOpen
    · exact .inr hasChunk
  refine inv.replace present rfl ?_ ?_ ?_ ?_ ?_ ?_
  · have before := inv.sessionInv present
    cases isKind : session.kind <;>
      simp only [Session.Inv, Session.SendInv, Session.ReceiveInv, isKind, waiting]
        at before ⊢ <;>
      exact before
  · intro other second _ earlier
    exact inv.sessionInv earlier
  · intro other second different earlier uses secondUses samePair
    exact different
      (inv.separate present earlier (usesBefore uses) secondUses samePair).symm
  · intro isOpen
    simp [Session.isOpen] at isOpen
  · intro other second _ earlier isOpen
    exact inv.holds earlier isOpen
  · have counted := inv.counted
    have replaced :=
      @countP_set_add _ (fun session => decide (session.point = .granted)) _ _ _
        { session with point := .granted } present
    simp only [waiting, reduceCtorEq, decide_false, decide_true, if_true,
      Bool.false_eq_true, if_false] at replaced
    dsimp only
    omega

theorem StreamInv.counted_release
    {permits granted : Nat}
    {idle : List Bool}
    {pair : Nat}
    (counted : permits + granted + idle.countP (fun idle => !idle) = idle.length)
    (busy : idle[pair]? = some false) :
    permits + 1 + granted + (idle.set pair true).countP (fun idle => !idle) =
      (idle.set pair true).length := by
  have replaced := @countP_set_add _ (fun idle => !idle) _ _ _ true busy
  simp only [Bool.not_false, Bool.not_true, if_true, Bool.false_eq_true, if_false]
    at replaced
  rw [List.length_set]
  omega

/-- A step inside a session keeps the invariant. -/
theorem StreamInv.inside
    (inv : StreamInv state)
    {id : Nat}
    {session next : Session}
    {sides : Sides}
    {event : LocalEvent}
    (present : state.sessions[id]? = some session)
    (stepped :
      localStep id session (state.shm session.pair) event = some (next, sides)) :
    StreamInv
      (let changed :=
        { state with
          sessions := state.sessions.set id next
          shm := Function.update state.shm session.pair sides }
      if session.isOpen then
        changed.releaseIfClosed next
      else
        changed) := by
  have frame := localStep_frame stepped
  have nextInv :
      next.Inv id (Function.update state.shm session.pair sides next.pair) := by
    rw [frame.pair, Function.update_self]
    exact localStep_inv (inv.sessionInv present) stepped
  have otherInv :
      ∀ {other : Nat} {second : Session},
        other ≠ id →
        state.sessions[other]? = some second →
        second.Inv other
          (Function.update state.shm session.pair sides second.pair) := by
    intro other second different earlier
    have before := inv.sessionInv earlier
    by_cases samePair : second.pair = session.pair
    · rw [samePair, Function.update_self]
      rw [samePair] at before
      by_cases uses : session.Uses
      · by_cases secondUses : second.Uses
        · exact absurd
            (inv.separate earlier present secondUses uses samePair) different
        · exact before.ofUnused secondUses sides
      · rw [frame.sides uses]
        exact before
    · rw [Function.update_of_ne samePair]
      exact before
  have nextSeparate :
      ∀ {other : Nat} {second : Session},
        other ≠ id →
        state.sessions[other]? = some second →
        next.Uses →
        second.Uses →
        next.pair ≠ second.pair := by
    intro other second different earlier uses secondUses samePair
    rw [frame.pair] at samePair
    exact different
      (inv.separate present earlier (frame.uses uses) secondUses samePair).symm
  have sameGranted :
      (state.sessions.set id next).countP
          (fun session => decide (session.point = .granted)) =
        state.sessions.countP (fun session => decide (session.point = .granted)) := by
    have replaced :=
      @countP_set_add _ (fun session => decide (session.point = .granted)) _ _ _
        next present
    simp only [frame.granted] at replaced
    omega
  have counted := inv.counted
  rw [← sameGranted] at counted
  have otherHolds :
      ∀ {other : Nat} {second : Session},
        other ≠ id →
        state.sessions[other]? = some second →
        second.isOpen = true →
        state.idle[second.pair]? = some false := fun _ earlier isOpen =>
    inv.holds earlier isOpen
  cases isOpen : session.isOpen with
  | false =>
      rw [if_neg (by decide)]
      refine inv.replace present rfl nextInv otherInv nextSeparate ?_ otherHolds counted
      intro nextOpen
      rw [frame.staysClosed isOpen] at nextOpen
      cases nextOpen
  | true =>
      rw [if_pos rfl]
      have busy := inv.holds present isOpen
      by_cases closes : next.point = .closed
      · simp only [StreamState.releaseIfClosed, closes]
        refine inv.replace present rfl nextInv otherInv nextSeparate ?_ ?_ ?_
        · intro nextOpen
          simp [Session.isOpen, closes] at nextOpen
        · intro other second different earlier secondOpen
          have otherPair : next.pair ≠ second.pair := by
            rw [frame.pair]
            intro samePair
            exact different
              (inv.separate present earlier (.inl isOpen) (.inl secondOpen) samePair).symm
          dsimp only
          rw [List.getElem?_set_ne otherPair]
          exact inv.holds earlier secondOpen
        · dsimp only
          rw [frame.pair]
          exact StreamInv.counted_release counted busy
      · have notReleased :
            ∀ changed : StreamState, changed.releaseIfClosed next = changed := by
          intro changed
          unfold StreamState.releaseIfClosed
          split
          · exact absurd ‹_› closes
          · rfl
        rw [notReleased]
        refine inv.replace present rfl nextInv otherInv nextSeparate ?_ otherHolds counted
        intro _
        dsimp only
        rw [frame.pair]
        exact busy

/-- Entering with a pair does not move the client, and opens or closes the session. -/
theorem enter_inv
    {id : Nat}
    {session : Session}
    {sides : Sides}
    (pair : Nat)
    (inv : session.Inv id sides)
    (granted : session.point = .granted)
    (other : Sides) :
    (enter session pair).Inv id other ∧
      (enter session pair).pair = pair ∧
      ((enter session pair).isOpen = true ∨
        ((enter session pair).point = .closed ∧ ¬ (enter session pair).Uses)) := by
  cases isKind : session.kind <;>
    simp only [Session.Inv, Session.SendInv, Session.ReceiveInv, isKind, granted] at inv
  · refine ⟨?_, ?_, .inl ?_⟩ <;> simp only [enter, isKind]
    · exact .inl inv
    · rfl
  · obtain ⟨isFirst, ⟨empty, idle, noPing⟩, copied⟩ := inv
    by_cases someChunk : 0 < session.chunkCount
    · have entered :
          enter session pair =
            { session.sendChunk .yieldedFirst with
              kind := .receive
              pair := pair
              chunkIdx := 1 } := by
        have notNone : session.chunkCount ≠ 0 :=
          Nat.pos_iff_ne_zero.mp someChunk
        simp [enter, isKind, notNone, isFirst, Session.sendChunk]
      rw [entered]
      refine ⟨⟨0, rfl, someChunk, .inl ⟨noPing, .inl ⟨?_, idle⟩⟩, copied⟩, rfl, .inl rfl⟩
      simp [Session.sendChunk, empty, isFirst]
    · have entered :
          enter session pair =
            { session with kind := .receive, pair := pair, point := .closed } := by
        have none : session.chunkCount ≤ session.chunkIdx := by
          omega
        simp [enter, isKind, none]
      rw [entered]
      refine ⟨⟨.inl empty, idle, noPing, 0, copied⟩, rfl, .inr ⟨rfl, ?_⟩⟩
      rintro (isOpen | works | ⟨index, side, member⟩)
      · simp [Session.isOpen] at isOpen
      · exact works idle
      · simp [empty] at member

/-- Acquiring a pair that no client works on keeps the invariant. -/
theorem StreamInv.acquire
    (inv : StreamInv state)
    {id : Nat}
    {session : Session}
    (present : state.sessions[id]? = some session)
    (granted : session.point = .granted)
    (free :
      ∀ session ∈ state.sessions,
        session.HasChunk → session.pair ≠ state.acquireIdx) :
    StreamInv
      (StreamState.releaseIfClosed
        { state with
          idle := state.idle.set state.acquireIdx false
          sessions := state.sessions.set id (enter session state.acquireIdx) }
        (enter session state.acquireIdx)) := by
  have counted := inv.counted
  have isCounted :
      0 < state.sessions.countP (fun session => decide (session.point = .granted)) :=
    List.countP_pos_iff.mpr
      ⟨session, List.mem_of_getElem? present, by simp [granted]⟩
  have wasIdle : state.idle[state.acquireIdx]? = some true :=
    idle_acquireIdx (by omega)
  have inside : state.acquireIdx < state.idle.length :=
    (List.getElem?_eq_some_iff.mp wasIdle).1
  obtain ⟨entered, pairEq, opened⟩ :=
    enter_inv state.acquireIdx (inv.sessionInv present) granted
      (state.shm state.acquireIdx)
  have nextInv :
      (enter session state.acquireIdx).Inv id
        (state.shm (enter session state.acquireIdx).pair) := by
    rw [pairEq]
    exact entered
  have otherPair :
      ∀ {other : Nat} {second : Session},
        state.sessions[other]? = some second →
        second.Uses →
        second.pair ≠ state.acquireIdx := by
    rintro other second earlier (isOpen | hasChunk) samePair
    · have held := inv.holds earlier isOpen
      rw [samePair, wasIdle] at held
      cases held
    · exact free second (List.mem_of_getElem? earlier) hasChunk samePair
  have notGranted : (enter session state.acquireIdx).point ≠ .granted := by
    intro stillGranted
    rcases opened with isOpen | ⟨closed, _⟩
    · simp [Session.isOpen, stillGranted] at isOpen
    · simp [stillGranted] at closed
  have fewer :
      (state.sessions.set id (enter session state.acquireIdx)).countP
          (fun session => decide (session.point = .granted)) + 1 =
        state.sessions.countP (fun session => decide (session.point = .granted)) := by
    have replaced :=
      @countP_set_add _ (fun session => decide (session.point = .granted)) _ _ _
        (enter session state.acquireIdx) present
    simpa [granted, notGranted] using replaced
  have busier :
      (state.idle.set state.acquireIdx false).countP (fun idle => !idle) =
        state.idle.countP (fun idle => !idle) + 1 := by
    simpa using @countP_set_add _ (fun idle => !idle) _ _ _ false wasIdle
  have nowBusy :
      (state.idle.set state.acquireIdx false)[state.acquireIdx]? = some false := by
    rw [List.getElem?_set_self inside]
  have countedAfter :
      state.permits +
          (state.sessions.set id (enter session state.acquireIdx)).countP
            (fun session => decide (session.point = .granted)) +
          (state.idle.set state.acquireIdx false).countP (fun idle => !idle) =
        (state.idle.set state.acquireIdx false).length := by
    rw [busier, List.length_set]
    omega
  have otherHolds :
      ∀ {other : Nat} {second : Session},
        state.sessions[other]? = some second →
        second.isOpen = true →
        (state.idle.set state.acquireIdx false)[second.pair]? = some false := by
    intro other second earlier isOpen
    rw [List.getElem?_set_ne (otherPair earlier (.inl isOpen)).symm]
    exact inv.holds earlier isOpen
  rcases opened with isOpen | ⟨closes, unused⟩
  · have notReleased :
        ∀ changed : StreamState,
          changed.releaseIfClosed (enter session state.acquireIdx) = changed := by
      intro changed
      unfold StreamState.releaseIfClosed
      split
      · rename_i closed
        simp [Session.isOpen, closed] at isOpen
      · rfl
    rw [notReleased]
    refine inv.replace present rfl nextInv (fun _ earlier => inv.sessionInv earlier)
      ?_ ?_ (fun _ => otherHolds) countedAfter
    · intro other second _ earlier _ secondUses
      rw [pairEq]
      exact (otherPair earlier secondUses).symm
    · intro _
      rw [pairEq]
      exact nowBusy
  · simp only [StreamState.releaseIfClosed, closes]
    refine inv.replace present rfl nextInv (fun _ earlier => inv.sessionInv earlier)
      (fun _ _ uses => absurd uses unused) ?_ ?_ ?_
    · intro isOpen
      exact absurd (.inl isOpen) unused
    · intro other second _ earlier isOpen
      dsimp only
      rw [pairEq, List.getElem?_set_ne (otherPair earlier (.inl isOpen)).symm]
      exact otherHolds earlier isOpen
    · dsimp only
      rw [pairEq]
      exact StreamInv.counted_release countedAfter nowBusy

end GlobalSteps

/-- Every step that acquires only free pairs keeps the invariant. -/
theorem streamStep_inv
    {before after : StreamState}
    {event : StreamEvent}
    (inv : StreamInv before)
    (permitted : AcquiresFreePair before event)
    (stepped : streamStep before event = some after) :
    StreamInv after := by
  cases event with
  | call kind chunkCount =>
      cases stepped
      exact inv.call kind chunkCount
  | grant id =>
      simp only [streamStep] at stepped
      split at stepped
      · cases stepped
      · rename_i session present
        split at stepped
        · rename_i able
          cases stepped
          exact inv.grant present able.1 able.2
        · cases stepped
  | acquire id =>
      simp only [streamStep] at stepped
      split at stepped
      · cases stepped
      · rename_i session present
        split at stepped
        · rename_i granted
          cases stepped
          exact inv.acquire present granted permitted
        · cases stepped
  | inside id event =>
      simp only [streamStep] at stepped
      split at stepped
      · cases stepped
      · rename_i session present
        split at stepped
        · cases stepped
        · rename_i next sides moved
          have kept := inv.inside present moved
          dsimp only at kept
          split at stepped <;> cases stepped
          · rename_i isOpen
            rw [if_pos isOpen] at kept
            exact kept
          · rename_i notOpen
            rw [if_neg notOpen] at kept
            exact kept

/-! ## What the invariant says of the buffers -/

namespace Session

variable {id : Nat} {session : Session} {sides : Sides}

theorem Delivering.reading
    {index chunk side : Nat}
    {tail : List ChunkMessage}
    (delivering : session.Delivering id sides index tail)
    (works : session.working = some (chunk, side)) :
    chunk = index ∧ side = index % 2 ∧ sides side = .chunk id chunk := by
  rcases delivering with ⟨⟨_, ⟨_, idle⟩ | ⟨_, working⟩⟩, held, _⟩ | ⟨answered, _⟩
  · simp [idle] at works
  · rw [works] at working
    cases working
    exact ⟨rfl, rfl, held⟩
  · simp [answered.2.1] at works

/-- A working client of `send_stream` is in the middle of a delivery. -/
theorem SendInv.delivering
    {chunk side : Nat}
    (inv : session.SendInv id sides)
    (works : session.working = some (chunk, side)) :
    ∃ index tail, session.Delivering id sides index tail := by
  cases atPoint : session.point <;> simp only [SendInv, atPoint] at inv
  case waiting | granted =>
    simp [inv.2.1.2.1] at works
  case awaitPing =>
    rcases inv with ⟨_, answered, _⟩ | ⟨index, _, _, _, delivering⟩
    · simp [answered.2.1] at works
    · exact ⟨index, [], delivering⟩
  case savingFirst =>
    simp [inv.2.2.1.2.1] at works
  case yielded =>
    exact ⟨_, [], inv.2⟩
  case savingNext =>
    obtain ⟨index, _, _, delivering⟩ := inv
    exact ⟨index, [], delivering⟩
  case leaving =>
    obtain ⟨index, tail, _, delivering⟩ := inv
    exact ⟨index, tail, delivering⟩
  case closed =>
    rcases inv with ⟨index, tail, _, delivering⟩ | ⟨quiet, _⟩
    · exact ⟨index, tail, delivering⟩
    · simp [quiet.2.1] at works

theorem SendInv.notOverwritten
    {chunk side : Nat}
    (inv : session.SendInv id sides)
    (works : session.working = some (chunk, side))
    (writes : session.serverWrites side) :
    False := by
  obtain ⟨isFirst | isNext, sideEq⟩ := writes
  · simp only [SendInv, isFirst] at inv
    simp [inv.2.2.1.2.1] at works
  · simp only [SendInv, isNext] at inv
    obtain ⟨index, isIndex, _, delivering⟩ := inv
    obtain ⟨_, parity, _⟩ := delivering.reading works
    omega

/-- The server of `receive_stream` loads the chunk that the buffer holds. -/
theorem ReceiveInv.loads
    {side : Nat}
    (inv : session.ReceiveInv id sides)
    (reads : session.serverReads side) :
    sides side = .chunk id (session.chunkIdx - 1) ∧
      ∀ chunk other, session.working = some (chunk, other) → other ≠ side := by
  obtain ⟨isLoading, sideEq⟩ := reads
  simp only [ReceiveInv, isLoading] at inv
  obtain ⟨index, isIndex, held, _, progress⟩ := inv
  have parity : side = index % 2 := by
    omega
  constructor
  · rw [parity, held, isIndex, Nat.add_sub_cancel]
  · intro chunk other works sameSide
    rcases progress with ⟨_, filling⟩ | ⟨_, quiet⟩
    · rcases filling with ⟨_, ⟨_, idle⟩ | ⟨_, working⟩⟩ | ⟨answered, _⟩
      · simp [idle] at works
      · rw [works] at working
        cases working
        omega
      · simp [answered.2.1] at works
    · simp [quiet.2.1] at works

/-- What was copied so far are the first chunks. -/
theorem Inv.copied_eq
    (inv : session.Inv id sides) :
    ∃ count, session.copied = chunksUpTo id count := by
  have ofDelivering :
      ∀ {index tail}, session.Delivering id sides index tail →
        ∃ count, session.copied = chunksUpTo id count := by
    rintro index tail (⟨_, _, copied⟩ | ⟨_, copied⟩)
    · exact ⟨index, copied⟩
    · exact ⟨index + 1, copied⟩
  cases isKind : session.kind <;> simp only [Inv, isKind] at inv
  · cases atPoint : session.point <;> simp only [SendInv, atPoint] at inv
    case waiting | granted =>
      exact ⟨0, inv.2.2⟩
    case awaitPing =>
      rcases inv with ⟨_, _, copied⟩ | ⟨index, _, _, _, delivering⟩
      · exact ⟨0, copied⟩
      · exact ofDelivering delivering
    case savingFirst =>
      exact ⟨0, inv.2.2.2⟩
    case yielded =>
      exact ofDelivering inv.2
    case savingNext =>
      obtain ⟨index, _, _, delivering⟩ := inv
      exact ofDelivering delivering
    case leaving =>
      obtain ⟨index, tail, _, delivering⟩ := inv
      exact ofDelivering delivering
    case closed =>
      rcases inv with ⟨index, tail, _, delivering⟩ | ⟨_, copied⟩
      · exact ofDelivering delivering
      · exact ⟨0, copied⟩
  · cases atPoint : session.point <;> simp only [ReceiveInv, atPoint] at inv
    case waiting | granted =>
      exact ⟨0, inv.2.2⟩
    case yieldedFirst | awaitPing =>
      obtain ⟨index, _, _, _, copied⟩ := inv
      exact ⟨index, copied⟩
    case yielded =>
      obtain ⟨index, _, _, _, _, copied⟩ := inv
      exact ⟨index, copied⟩
    case loading =>
      obtain ⟨index, _, _, copied, _⟩ := inv
      exact ⟨index, copied⟩
    case leaving | closed =>
      exact inv.2.2.2

end Session

theorem Session.isOpen_of_server
    {session : Session}
    {side : Nat}
    (acts : session.serverWrites side ∨ session.serverReads side) :
    session.isOpen = true := by
  rcases acts with ⟨isFirst | isNext, _⟩ | ⟨isLoading, _⟩
  · simp [Session.isOpen, isFirst]
  · simp [Session.isOpen, isNext]
  · simp [Session.isOpen, isLoading]

/-- The invariant makes the buffers safe. -/
theorem StreamInv.safe
    {state : StreamState}
    (inv : StreamInv state) :
    BuffersSafe state where
  exclusive := fun isSession isSecond isOpen secondOpen =>
    inv.separate isSession isSecond (.inl isOpen) (.inl secondOpen)
  notOverwritten := by
    intro id other session second index side isSession isSecond writes reads samePair
    have same :=
      inv.separate isSession isSecond (.inl (Session.isOpen_of_server (.inl writes)))
        (.inr (.inl (by simp [reads.2]))) samePair
    subst same
    rw [isSession] at isSecond
    cases isSecond
    have held := inv.sessionInv isSession
    simp only [Session.Inv, reads.1] at held
    exact held.notOverwritten reads.2 writes
  notReadEarly := by
    intro id other session second index side isSession isSecond reads writes samePair
    have same :=
      inv.separate isSession isSecond (.inl (Session.isOpen_of_server (.inr reads)))
        (.inr (.inl (by simp [writes.2]))) samePair
    subst same
    rw [isSession] at isSecond
    cases isSecond
    have held := inv.sessionInv isSession
    simp only [Session.Inv, writes.1] at held
    exact (held.loads reads).2 index side writes.2 rfl
  readsItsChunk := by
    intro id session index side isSession reads
    have held := inv.sessionInv isSession
    simp only [Session.Inv, reads.1] at held
    obtain ⟨chunk, tail, delivering⟩ := held.delivering reads.2
    exact (delivering.reading reads.2).2.2
  loadsItsChunk := by
    intro id session side isSession reads
    have held := inv.sessionInv isSession
    cases isKind : session.kind <;> simp only [Session.Inv, isKind] at held
    · simp [Session.SendInv, reads.1] at held
    · exact (held.loads reads).1
  copiedInOrder := by
    intro id session isSession
    obtain ⟨count, copied⟩ := (inv.sessionInv isSession).copied_eq
    rw [copied]
    simp [chunksUpTo]

/-- Over every run that acquires only free pairs, the double buffers are safe. -/
theorem streamRun_safe
    {events : List StreamEvent}
    {state : StreamState}
    (run :
      Transition.Run streamStep AcquiresFreePair StreamState.initial events state) :
    BuffersSafe state :=
  (run.invariant StreamInv.initial fun _ _ _ inv permitted stepped =>
    streamStep_inv inv permitted stepped).safe

/-! ## Runs -/

/-- A message names a chunk. -/
def ChunkMessage.isChunk : ChunkMessage → Bool
  | .chunk _ _ => true
  | .finished => false

theorem Session.hasChunk_iff (session : Session) :
    (session.working ≠ none ∨ session.toClient.any ChunkMessage.isChunk = true) ↔
      session.HasChunk := by
  refine or_congr_right ?_
  rw [List.any_eq_true]
  constructor
  · rintro ⟨message, member, isChunk⟩
    cases message with
    | chunk index side =>
        exact ⟨index, side, member⟩
    | finished =>
        cases isChunk
  · rintro ⟨index, side, member⟩
    exact ⟨_, member, rfl⟩

instance (session : Session) : Decidable session.HasChunk :=
  decidable_of_iff _ session.hasChunk_iff

instance (state : StreamState) (event : StreamEvent) :
    Decidable (AcquiresFreePair state event) :=
  match event with
  | .acquire _ =>
      inferInstanceAs (Decidable (∀ session ∈ state.sessions,
        session.HasChunk → session.pair ≠ state.acquireIdx))
  | .call _ _ => isTrue trivial
  | .grant _ => isTrue trivial
  | .inside _ _ => isTrue trivial

/-- Two sessions at once: one client reads its second chunk, the other fills its first. -/
def twoSessionEvents : List StreamEvent :=
  [.call .send 3, .call .receive 2, .grant 0, .acquire 0, .grant 1, .acquire 1,
    .inside 0 .ping, .inside 0 .jobDone, .inside 0 .take, .inside 0 .resume,
    .inside 1 .take, .inside 0 .jobDone, .inside 0 .answer, .inside 0 .ping,
    .inside 0 .resume, .inside 0 .take]

/-- The two sessions work on different pairs and nothing is overwritten. -/
theorem streamRun_safe_twoSessions :
    ∃ state,
      Transition.Run streamStep AcquiresFreePair StreamState.initial twoSessionEvents
        state ∧
      state.sessions.map Session.working = [some (1, 1), some (0, 0)] ∧
      BuffersSafe state := by
  have executes :
      (Transition.execute streamStep AcquiresFreePair StreamState.initial
          twoSessionEvents).any
        (fun state =>
          state.sessions.map Session.working = [some (1, 1), some (0, 0)]) = true := by
    decide +kernel
  obtain ⟨state, executed, works⟩ := (Option.any_eq_true _ _).mp executes
  have run := Transition.Run.of_execute executed
  exact ⟨state, run, by simpa using works, streamRun_safe run⟩

/-- The second session acquires the pair while the first client reads its only chunk. -/
def earlyReleaseEvents : List StreamEvent :=
  [.call .send 1, .grant 0, .acquire 0, .inside 0 .ping, .inside 0 .jobDone,
    .inside 0 .take, .inside 0 .resume, .inside 0 .resume,
    .call .send 1, .grant 1, .acquire 1, .inside 1 .ping]

/-- Without the condition the server overwrites a buffer that a client is reading. -/
theorem streamRun_not_safe :
    ∃ state,
      Transition.Run streamStep (fun _ _ => True) StreamState.initial earlyReleaseEvents
        state ∧
      ¬ BuffersSafe state := by
  have overwrites :
      (Transition.execute streamStep (fun _ _ => True) StreamState.initial
          earlyReleaseEvents).any
        (fun state =>
          (state.sessions[0]?).any fun reader =>
            (state.sessions[1]?).any fun writer =>
              reader.kind = .send && reader.working = some (0, 0) &&
                writer.point = .savingFirst && writer.chunkIdx = 0 &&
                writer.pair = reader.pair) = true := by
    decide +kernel
  obtain ⟨state, executed, overwritten⟩ := (Option.any_eq_true _ _).mp overwrites
  refine ⟨state, .of_execute executed, ?_⟩
  intro safe
  obtain ⟨reader, isFirstSession, overwritten⟩ := (Option.any_eq_true _ _).mp overwritten
  obtain ⟨writer, isSecondSession, overwritten⟩ := (Option.any_eq_true _ _).mp overwritten
  simp only [Bool.and_eq_true, decide_eq_true_eq] at overwritten
  obtain ⟨⟨⟨⟨isSend, works⟩, saving⟩, isFirst⟩, samePair⟩ := overwritten
  exact @BuffersSafe.notOverwritten state safe 1 0 writer reader 0 0 isSecondSession
    isFirstSession ⟨.inl saving, by rw [isFirst]⟩ ⟨isSend, works⟩ samePair

end TensorPC.Kv
