import TensorPC.Kv.StreamSessions
import Mathlib.Data.List.Range

namespace TensorPC.Kv

/-!
# The invariant of one stream session

At each place where the server waits, the invariant says how far the client is
with the chunk it was sent last and which chunks the two buffers hold.  The
server prepares or loads the chunk on the other side, because neighbouring chunk
indices have different parities.
-/

/-- The first chunks of a session in order. -/
def chunksUpTo (id count : Nat) : List Content :=
  (List.range count).map (.chunk id)

theorem chunksUpTo_succ (id count : Nat) :
    chunksUpTo id (count + 1) = chunksUpTo id count ++ [.chunk id count] := by
  simp [chunksUpTo, List.range_succ]

@[simp] theorem chunksUpTo_zero (id : Nat) :
    chunksUpTo id 0 = [] :=
  rfl

namespace Session

/-- Nothing is on its way between server and client. -/
def Quiet (session : Session) : Prop :=
  session.toClient = [] ∧ session.working = none ∧ session.pings = 0

/-- The client has still to finish a chunk, and `tail` is sent behind it. -/
def Pending
    (session : Session)
    (index : Nat)
    (tail : List ChunkMessage) :
    Prop :=
  session.pings = 0 ∧
    ((session.toClient = .chunk index (index % 2) :: tail ∧ session.working = none) ∨
      (session.toClient = tail ∧ session.working = some (index, index % 2)))

/-- The client has finished and its ping is on the way. -/
def Answered (session : Session) (tail : List ChunkMessage) : Prop :=
  session.toClient = tail ∧ session.working = none ∧ session.pings = 1

/-- A chunk was sent: the client copies it from its buffer, or has copied it. -/
def Delivering
    (id : Nat)
    (session : Session)
    (sides : Sides)
    (index : Nat)
    (tail : List ChunkMessage) :
    Prop :=
  (session.Pending index tail ∧
      sides (index % 2) = .chunk id index ∧
      session.copied = chunksUpTo id index) ∨
    (session.Answered tail ∧ session.copied = chunksUpTo id (index + 1))

/-- A chunk was asked for: the client fills its buffer, or has filled it. -/
def Filling
    (id : Nat)
    (session : Session)
    (sides : Sides)
    (index : Nat) :
    Prop :=
  session.Pending index [] ∨
    (session.Answered [] ∧ sides (index % 2) = .chunk id index)

/-- What may be left in the message queue of a session that has ended. -/
def EndTail (tail : List ChunkMessage) : Prop :=
  tail = [] ∨ tail = [.finished]

/-- The invariant of a `send_stream` session. -/
def SendInv (id : Nat) (session : Session) (sides : Sides) : Prop :=
  match session.point with
  | .waiting | .granted =>
      session.chunkIdx = 0 ∧ session.Answered [] ∧ session.copied = []
  | .awaitPing =>
      (session.chunkIdx = 0 ∧ session.Answered [] ∧ session.copied = []) ∨
        ∃ index,
          session.chunkIdx = index + 1 ∧
          index + 1 < session.chunkCount ∧
          sides ((index + 1) % 2) = .chunk id (index + 1) ∧
          session.Delivering id sides index []
  | .savingFirst =>
      session.chunkIdx = 0 ∧ 0 < session.chunkCount ∧ session.Quiet ∧
        session.copied = []
  | .yielded =>
      session.chunkIdx < session.chunkCount ∧
        session.Delivering id sides session.chunkIdx []
  | .savingNext =>
      ∃ index,
        session.chunkIdx = index + 1 ∧
        index + 1 < session.chunkCount ∧
        session.Delivering id sides index []
  | .leaving =>
      ∃ index tail, EndTail tail ∧ session.Delivering id sides index tail
  | .closed =>
      (∃ index tail, EndTail tail ∧ session.Delivering id sides index tail) ∨
        (session.Quiet ∧ session.copied = [])
  | .yieldedFirst | .loading => False

/-- The invariant of a `receive_stream` session. -/
def ReceiveInv (id : Nat) (session : Session) (sides : Sides) : Prop :=
  match session.point with
  | .waiting | .granted =>
      session.chunkIdx = 0 ∧ session.Quiet ∧ session.copied = []
  | .yieldedFirst | .awaitPing =>
      ∃ index,
        session.chunkIdx = index + 1 ∧
        index + 1 ≤ session.chunkCount ∧
        session.Filling id sides index ∧
        session.copied = chunksUpTo id index
  | .yielded =>
      ∃ index,
        session.chunkIdx = index + 1 ∧
        index + 1 < session.chunkCount ∧
        session.Filling id sides (index + 1) ∧
        sides (index % 2) = .chunk id index ∧
        session.copied = chunksUpTo id index
  | .loading =>
      ∃ index,
        session.chunkIdx = index + 1 ∧
        sides (index % 2) = .chunk id index ∧
        session.copied = chunksUpTo id index ∧
        ((index + 1 < session.chunkCount ∧ session.Filling id sides (index + 1)) ∨
          (index + 1 = session.chunkCount ∧ session.Quiet))
  | .leaving | .closed =>
      EndTail session.toClient ∧ session.working = none ∧ session.pings = 0 ∧
        ∃ count, session.copied = chunksUpTo id count
  | .savingFirst | .savingNext => False

/-- The invariant of a session with the buffers of its pair. -/
def Inv (id : Nat) (session : Session) (sides : Sides) : Prop :=
  match session.kind with
  | .send => session.SendInv id sides
  | .receive => session.ReceiveInv id sides

end Session

theorem succ_mod_two_ne (index : Nat) :
    (index + 1) % 2 ≠ index % 2 := by
  omega

theorem Sides.write_self
    (sides : Sides)
    (side : Nat)
    (content : Content) :
    sides.write side content side = content :=
  Function.update_self ..

theorem Sides.write_ne
    (sides : Sides)
    {side other : Nat}
    (content : Content)
    (different : other ≠ side) :
    sides.write side content other = sides other :=
  Function.update_of_ne different ..

theorem Session.Delivering.write
    {id : Nat}
    {session : Session}
    {sides : Sides}
    {index side : Nat}
    {tail : List ChunkMessage}
    {content : Content}
    (delivering : session.Delivering id sides index tail)
    (other : index % 2 ≠ side) :
    session.Delivering id (sides.write side content) index tail := by
  rcases delivering with ⟨pending, held, copied⟩ | answered
  · exact .inl ⟨pending, (sides.write_ne content other).trans held, copied⟩
  · exact .inr answered

section SendSteps

variable {id : Nat} {session after : Session} {sides sidesAfter : Sides}

/-- Taking a ping keeps the invariant of `send_stream`. -/
theorem takePing_sendInv
    (isSend : session.kind = .send)
    (inv : session.SendInv id sides)
    (stepped : takePing session sides = some (after, sidesAfter)) :
    after.SendInv id sidesAfter := by
  simp only [takePing, isSend] at stepped
  split at stepped
  · cases stepped
  · rename_i able
    rw [not_or, not_not] at able
    obtain ⟨someping, atPing⟩ := able
    simp only [Session.SendInv, atPing] at inv
    split at stepped
    · -- no chunk at all
      rename_i noChunk
      cases stepped
      rcases inv with ⟨_, answered, copied⟩ | ⟨index, isIndex, inside, _⟩
      · exact .inr ⟨⟨answered.1, answered.2.1, by simp [answered.2.2]⟩, copied⟩
      · omega
    · rename_i someChunk
      split at stepped
      · rename_i isFirst
        cases stepped
        rcases inv with ⟨_, answered, copied⟩ | ⟨index, isIndex, _⟩
        · exact ⟨isFirst, Nat.pos_of_ne_zero (by simpa [isFirst] using someChunk),
            ⟨answered.1, answered.2.1, by simp [answered.2.2]⟩, copied⟩
        · omega
      · rename_i notFirst
        cases stepped
        rcases inv with ⟨isZero, _⟩ | ⟨index, isIndex, inside, saved, delivering⟩
        · exact absurd isZero notFirst
        · rcases delivering with ⟨pending, _⟩ | ⟨answered, copied⟩
          · exact absurd pending.1 someping
          · refine ⟨by simpa [Session.sendChunk, isIndex] using inside, .inl ⟨?_, ?_, ?_⟩⟩
            · exact ⟨by simp [Session.sendChunk, answered.2.2],
                .inl ⟨by simp [Session.sendChunk, answered.1], answered.2.1⟩⟩
            · simpa [Session.sendChunk, isIndex] using saved
            · simpa [Session.sendChunk, isIndex] using copied

/-- The end of a copy job keeps the invariant of `send_stream`. -/
theorem finishJob_sendInv
    (inv : session.SendInv id sides)
    (stepped : finishJob id session sides = some (after, sidesAfter)) :
    after.SendInv id sidesAfter := by
  cases atPoint : session.point <;>
    simp only [finishJob, atPoint, reduceCtorEq] at stepped <;>
    simp only [Session.SendInv, atPoint] at inv
  case savingFirst =>
    cases stepped
    obtain ⟨isFirst, some, quiet, copied⟩ := inv
    refine ⟨by simpa [Session.sendChunk, isFirst] using some, .inl ⟨?_, ?_, ?_⟩⟩
    · exact ⟨quiet.2.2, .inl ⟨by simp [Session.sendChunk, quiet.1], quiet.2.1⟩⟩
    · exact Sides.write_self ..
    · simpa [Session.sendChunk, isFirst] using copied
  case savingNext =>
    cases stepped
    obtain ⟨index, isIndex, inside, delivering⟩ := inv
    refine .inr ⟨index, isIndex, inside, ?_, ?_⟩
    · rw [isIndex]
      exact Sides.write_self ..
    · rw [isIndex]
      exact delivering.write (succ_mod_two_ne index).symm

/-- Going on after a `yield` keeps the invariant of `send_stream`. -/
theorem resumeGenerator_sendInv
    (isSend : session.kind = .send)
    (inv : session.SendInv id sides)
    (stepped : resumeGenerator session sides = some (after, sidesAfter)) :
    after.SendInv id sidesAfter := by
  cases atPoint : session.point <;>
    simp only [resumeGenerator, atPoint, isSend, reduceCtorEq] at stepped <;>
    simp only [Session.SendInv, atPoint] at inv
  case yielded =>
    obtain ⟨inside, delivering⟩ := inv
    split at stepped
    · rename_i another
      cases stepped
      exact ⟨session.chunkIdx, rfl, another,
        delivering.write (succ_mod_two_ne session.chunkIdx).symm⟩
    · cases stepped
      refine ⟨session.chunkIdx, [.finished], .inr rfl, ?_⟩
      rcases delivering with ⟨⟨noPing, sent⟩, held, copied⟩ | ⟨⟨taken, idle, ping⟩, copied⟩
      · refine .inl ⟨⟨noPing, ?_⟩, held, copied⟩
        rcases sent with ⟨queued, idle⟩ | ⟨taken, works⟩
        · exact .inl ⟨by simp [queued], idle⟩
        · exact .inr ⟨by simp [taken], works⟩
      · exact .inr ⟨⟨by simp [taken], idle, ping⟩, copied⟩
  case leaving =>
    cases stepped
    exact .inl inv

end SendSteps

/-! ## Steps of the client -/

section ClientSteps

variable {id : Nat} {session after : Session} {sides sidesAfter : Sides}

/-- A client step leaves the server's coroutine where it is. -/
structure SameServer (session after : Session) : Prop where
  kind : after.kind = session.kind
  point : after.point = session.point
  pair : after.pair = session.pair
  chunkIdx : after.chunkIdx = session.chunkIdx
  chunkCount : after.chunkCount = session.chunkCount

theorem clientTake_sameServer
    (stepped : clientTake session sides = some (after, sidesAfter)) :
    SameServer session after := by
  simp only [clientTake] at stepped
  split at stepped
  · split at stepped <;> cases stepped <;> exact ⟨rfl, rfl, rfl, rfl, rfl⟩
  · cases stepped
    exact ⟨rfl, rfl, rfl, rfl, rfl⟩
  · cases stepped

theorem clientAnswer_sameServer
    (stepped : clientAnswer id session sides = some (after, sidesAfter)) :
    SameServer session after := by
  simp only [clientAnswer] at stepped
  split at stepped
  · cases stepped
  · split at stepped <;> cases stepped <;> exact ⟨rfl, rfl, rfl, rfl, rfl⟩

theorem clientTake_eq_none
    (empty : session.toClient = []) :
    clientTake session sides = none := by
  simp [clientTake, empty]

theorem clientAnswer_eq_none
    (idle : session.working = none) :
    clientAnswer id session sides = none := by
  simp [clientAnswer, idle]

/-- Taking a message while a chunk is delivered. -/
theorem Session.Delivering.take
    {index : Nat}
    {tail : List ChunkMessage}
    (isSend : session.kind = .send)
    (endTail : EndTail tail)
    (delivering : session.Delivering id sides index tail)
    (stepped : clientTake session sides = some (after, sidesAfter)) :
    sidesAfter = sides ∧
      ∃ rest,
        EndTail rest ∧ (tail = [] → rest = []) ∧
          after.Delivering id sides index rest := by
  rcases delivering with ⟨⟨noPing, sent⟩, held, copied⟩ | ⟨⟨taken, idle, ping⟩, copied⟩
  · rcases sent with ⟨queued, idle⟩ | ⟨taken, works⟩
    · simp only [clientTake, idle, queued, isSend] at stepped
      cases stepped
      exact ⟨rfl, tail, endTail, fun empty => empty,
        .inl ⟨⟨noPing, .inr ⟨rfl, rfl⟩⟩, held, copied⟩⟩
    · simp [clientTake, works] at stepped
  · rcases endTail with rfl | rfl
    · simp [clientTake, idle, taken] at stepped
    · simp only [clientTake, idle, taken] at stepped
      cases stepped
      exact ⟨rfl, [], .inl rfl, fun _ => rfl, .inr ⟨⟨rfl, rfl, ping⟩, copied⟩⟩

theorem Session.Delivering.answer
    {index : Nat}
    {tail : List ChunkMessage}
    (isSend : session.kind = .send)
    (delivering : session.Delivering id sides index tail)
    (stepped : clientAnswer id session sides = some (after, sidesAfter)) :
    sidesAfter = sides ∧ after.Delivering id sides index tail := by
  rcases delivering with ⟨⟨noPing, sent⟩, held, copied⟩ | ⟨⟨_, idle, _⟩, _⟩
  · rcases sent with ⟨_, idle⟩ | ⟨taken, works⟩
    · simp [clientAnswer_eq_none idle] at stepped
    · simp only [clientAnswer, works, isSend] at stepped
      cases stepped
      refine ⟨rfl, .inr ⟨⟨taken, rfl, by simp [noPing]⟩, ?_⟩⟩
      simp [chunksUpTo_succ, copied, held]
  · simp [clientAnswer_eq_none idle] at stepped

/-- A client step keeps the invariant of `send_stream` when it keeps the delivery. -/
theorem Session.SendInv.ofClient
    (inv : session.SendInv id sides)
    (same : SameServer session after)
    (notQuiet : session.working = none → session.toClient ≠ [])
    (delivers :
      ∀ index tail,
        EndTail tail →
        session.Delivering id sides index tail →
        sidesAfter = sides ∧
          ∃ rest,
            EndTail rest ∧ (tail = [] → rest = []) ∧
              after.Delivering id sides index rest) :
    after.SendInv id sidesAfter := by
  have deliversChunk :
      ∀ index,
        session.Delivering id sides index [] →
        sidesAfter = sides ∧ after.Delivering id sides index [] := by
    intro index delivering
    obtain ⟨unchanged, rest, _, isEmpty, delivers⟩ :=
      delivers index [] (.inl rfl) delivering
    exact ⟨unchanged, isEmpty rfl ▸ delivers⟩
  have deliversEnd :
      (∃ index tail, EndTail tail ∧ session.Delivering id sides index tail) →
      sidesAfter = sides ∧
        ∃ index tail, EndTail tail ∧ after.Delivering id sides index tail := by
    rintro ⟨index, tail, endTail, delivering⟩
    obtain ⟨unchanged, rest, endRest, _, delivers⟩ :=
      delivers index tail endTail delivering
    exact ⟨unchanged, index, rest, endRest, delivers⟩
  cases atPoint : session.point <;>
    simp only [Session.SendInv, same.point, same.chunkIdx, same.chunkCount, atPoint]
      at inv ⊢
  case waiting | granted =>
    exact absurd inv.2.1.1 (notQuiet inv.2.1.2.1)
  case awaitPing =>
    rcases inv with ⟨_, answered, _⟩ | ⟨index, isIndex, inside, saved, delivering⟩
    · exact absurd answered.1 (notQuiet answered.2.1)
    · obtain ⟨rfl, delivers⟩ := deliversChunk index delivering
      exact .inr ⟨index, isIndex, inside, saved, delivers⟩
  case savingFirst =>
    exact absurd inv.2.2.1.1 (notQuiet inv.2.2.1.2.1)
  case yielded =>
    obtain ⟨rfl, delivers⟩ := deliversChunk _ inv.2
    exact ⟨inv.1, delivers⟩
  case savingNext =>
    obtain ⟨index, isIndex, inside, delivering⟩ := inv
    obtain ⟨rfl, delivers⟩ := deliversChunk index delivering
    exact ⟨index, isIndex, inside, delivers⟩
  case leaving =>
    obtain ⟨rfl, delivers⟩ := deliversEnd inv
    exact delivers
  case closed =>
    rcases inv with ended | ⟨quiet, _⟩
    · obtain ⟨rfl, delivers⟩ := deliversEnd ended
      exact .inl delivers
    · exact absurd quiet.1 (notQuiet quiet.2.1)

theorem Session.Filling.take
    {index : Nat}
    (isReceive : session.kind = .receive)
    (filling : session.Filling id sides index)
    (stepped : clientTake session sides = some (after, sidesAfter)) :
    sidesAfter = sides.write (index % 2) .copying ∧
      after.Filling id sidesAfter index ∧ after.copied = session.copied := by
  rcases filling with ⟨noPing, sent⟩ | ⟨answered, _⟩
  · rcases sent with ⟨queued, idle⟩ | ⟨_, works⟩
    · simp only [clientTake, idle, queued, isReceive] at stepped
      cases stepped
      exact ⟨rfl, .inl ⟨noPing, .inr ⟨rfl, rfl⟩⟩, rfl⟩
    · simp [clientTake, works] at stepped
  · simp [clientTake_eq_none answered.1] at stepped

theorem Session.Filling.answer
    {index : Nat}
    (isReceive : session.kind = .receive)
    (filling : session.Filling id sides index)
    (stepped : clientAnswer id session sides = some (after, sidesAfter)) :
    sidesAfter = sides.write (index % 2) (.chunk id index) ∧
      after.Filling id sidesAfter index ∧ after.copied = session.copied := by
  rcases filling with ⟨noPing, sent⟩ | ⟨answered, _⟩
  · rcases sent with ⟨_, idle⟩ | ⟨taken, works⟩
    · simp [clientAnswer_eq_none idle] at stepped
    · simp only [clientAnswer, works, isReceive] at stepped
      cases stepped
      exact ⟨rfl, .inr ⟨⟨taken, rfl, by simp [noPing]⟩, Sides.write_self ..⟩, rfl⟩
  · simp [clientAnswer_eq_none answered.2.1] at stepped

/-- A client step keeps the invariant of `receive_stream` when it keeps the filling. -/
theorem Session.ReceiveInv.ofClient
    (inv : session.ReceiveInv id sides)
    (same : SameServer session after)
    (notQuiet : session.working = none → session.toClient ≠ [])
    (fills :
      ∀ index,
        session.Filling id sides index →
        (∃ content, sidesAfter = sides.write (index % 2) content) ∧
          after.Filling id sidesAfter index ∧ after.copied = session.copied)
    (ends :
      EndTail session.toClient →
      session.working = none →
      EndTail after.toClient ∧ after.working = none ∧
        after.pings = session.pings ∧ after.copied = session.copied) :
    after.ReceiveInv id sidesAfter := by
  cases atPoint : session.point <;>
    simp only [Session.ReceiveInv, same.point, same.chunkIdx, same.chunkCount, atPoint]
      at inv ⊢
  case waiting | granted =>
    exact absurd inv.2.1.1 (notQuiet inv.2.1.2.1)
  case yieldedFirst | awaitPing =>
    obtain ⟨index, isIndex, inside, filling, copied⟩ := inv
    obtain ⟨_, fills, unchanged⟩ := fills index filling
    exact ⟨index, isIndex, inside, fills, unchanged.trans copied⟩
  case yielded =>
    obtain ⟨index, isIndex, inside, filling, held, copied⟩ := inv
    obtain ⟨⟨content, rfl⟩, fills, unchanged⟩ := fills (index + 1) filling
    exact ⟨index, isIndex, inside, fills,
      (sides.write_ne content (succ_mod_two_ne index).symm).trans held,
      unchanged.trans copied⟩
  case loading =>
    obtain ⟨index, isIndex, held, copied, ⟨inside, filling⟩ | ⟨_, quiet⟩⟩ := inv
    · obtain ⟨⟨content, rfl⟩, fills, unchanged⟩ := fills (index + 1) filling
      exact ⟨index, isIndex,
        (sides.write_ne content (succ_mod_two_ne index).symm).trans held,
        unchanged.trans copied, .inl ⟨inside, fills⟩⟩
    · exact absurd quiet.1 (notQuiet quiet.2.1)
  case leaving | closed =>
    obtain ⟨endTail, idle, noPing, count, copied⟩ := inv
    obtain ⟨endAfter, idleAfter, pingsAfter, unchanged⟩ := ends endTail idle
    exact ⟨endAfter, idleAfter, pingsAfter.trans noPing, count,
      unchanged.trans copied⟩

end ClientSteps

/-! ## Server steps of `receive_stream` -/

section ReceiveSteps

variable {id : Nat} {session after : Session} {sides sidesAfter : Sides}

/-- Taking a ping keeps the invariant of `receive_stream`. -/
theorem takePing_receiveInv
    (isReceive : session.kind = .receive)
    (inv : session.ReceiveInv id sides)
    (stepped : takePing session sides = some (after, sidesAfter)) :
    after.ReceiveInv id sidesAfter := by
  simp only [takePing, isReceive] at stepped
  split at stepped
  · cases stepped
  · rename_i able
    rw [not_or, not_not] at able
    obtain ⟨someping, atPing⟩ := able
    simp only [Session.ReceiveInv, atPing] at inv
    obtain ⟨index, isIndex, inside, filling, copied⟩ := inv
    rcases filling with pending | ⟨answered, held⟩
    · exact absurd pending.1 someping
    · split at stepped
      · rename_i another
        cases stepped
        refine ⟨index, isIndex, by simpa [isIndex, Session.sendChunk] using another,
          .inl ⟨?_, .inl ?_⟩,
          held, copied⟩
        · simp [Session.sendChunk, answered.2.2]
        · simp [Session.sendChunk, answered.1, answered.2.1, isIndex]
      · rename_i noOther
        cases stepped
        refine ⟨index, isIndex, held, copied, .inr ⟨?_, ?_⟩⟩
        · simp only [isIndex] at noOther
          change index + 1 = session.chunkCount
          omega
        · exact ⟨answered.1, answered.2.1, by simp [answered.2.2]⟩

/-- The end of a load keeps the invariant of `receive_stream`. -/
theorem finishJob_receiveInv
    (inv : session.ReceiveInv id sides)
    (stepped : finishJob id session sides = some (after, sidesAfter)) :
    after.ReceiveInv id sidesAfter := by
  cases atPoint : session.point <;>
    simp only [finishJob, atPoint, reduceCtorEq] at stepped <;>
    simp only [Session.ReceiveInv, atPoint] at inv
  case loading =>
    obtain ⟨index, isIndex, held, copied, progress⟩ := inv
    have loadedSide : (session.chunkIdx + 1) % 2 = index % 2 := by
      omega
    have loaded :
        session.copied ++ [sides ((session.chunkIdx + 1) % 2)] =
          chunksUpTo id (index + 1) := by
      rw [loadedSide, held, copied, chunksUpTo_succ]
    split at stepped
    · rename_i noOther
      cases stepped
      rcases progress with ⟨inside, _⟩ | ⟨_, quiet⟩
      · omega
      · exact ⟨.inr (by simp [quiet.1]), quiet.2.1, quiet.2.2, index + 1, loaded⟩
    · rename_i another
      cases stepped
      rcases progress with ⟨inside, filling⟩ | ⟨isLast, _⟩
      · exact ⟨index + 1, by simp [isIndex], Nat.succ_le_of_lt inside, filling, loaded⟩
      · omega

theorem resumeGenerator_receiveInv
    (isReceive : session.kind = .receive)
    (inv : session.ReceiveInv id sides)
    (stepped : resumeGenerator session sides = some (after, sidesAfter)) :
    after.ReceiveInv id sidesAfter := by
  cases atPoint : session.point <;>
    simp only [resumeGenerator, atPoint, isReceive, reduceCtorEq] at stepped <;>
    simp only [Session.ReceiveInv, atPoint] at inv
  case yieldedFirst =>
    cases stepped
    exact inv
  case yielded =>
    cases stepped
    obtain ⟨index, isIndex, inside, filling, held, copied⟩ := inv
    exact ⟨index, isIndex, held, copied, .inl ⟨inside, filling⟩⟩
  case leaving =>
    cases stepped
    exact inv

end ReceiveSteps

/-! ## What a step leaves alone -/

/-- The client has a chunk to work on, or one is on its way. -/
def Session.HasChunk (session : Session) : Prop :=
  session.working ≠ none ∨ ∃ index side, .chunk index side ∈ session.toClient

/-- The session or its client may use the buffers of its pair. -/
def Session.Uses (session : Session) : Prop :=
  session.isOpen = true ∨ session.HasChunk

/-- How a step moves a session with respect to its buffer pair. -/
structure LocalFrame
    (session after : Session)
    (sides sidesAfter : Sides) :
    Prop where
  kind : after.kind = session.kind
  pair : after.pair = session.pair
  staysClosed : session.isOpen = false → after.isOpen = false
  staysOpen : session.isOpen = true → after.isOpen = true ∨ after.point = .closed
  uses : after.Uses → session.Uses
  sides : ¬ session.Uses → sidesAfter = sides
  granted : after.point = .granted ↔ session.point = .granted

section Frames

variable {id : Nat} {session after : Session} {sides sidesAfter : Sides}

theorem LocalFrame.ofServer
    (kind : after.kind = session.kind)
    (pair : after.pair = session.pair)
    (isOpen : session.isOpen = true)
    (stillOpen : after.isOpen = true ∨ after.point = .closed) :
    LocalFrame session after sides sidesAfter where
  kind := kind
  pair := pair
  staysClosed := fun notOpen => absurd (notOpen.symm.trans isOpen) (by decide)
  staysOpen := fun _ => stillOpen
  uses := fun _ => .inl isOpen
  sides := fun unused => absurd (.inl isOpen) unused
  granted := by
    constructor
    · intro granted
      rcases stillOpen with stillOpen | closed
      · simp [Session.isOpen, granted] at stillOpen
      · simp [granted] at closed
    · intro granted
      simp [Session.isOpen, granted] at isOpen

theorem takePing_frame
    (stepped : takePing session sides = some (after, sidesAfter)) :
    LocalFrame session after sides sidesAfter := by
  simp only [takePing] at stepped
  split at stepped
  · cases stepped
  · rename_i able
    rw [not_or, not_not] at able
    have isOpen : session.isOpen = true := by
      simp [Session.isOpen, able.2]
    split at stepped
    · split at stepped
      · cases stepped
        exact .ofServer rfl rfl isOpen (.inr rfl)
      · split at stepped <;> cases stepped <;>
          exact .ofServer rfl rfl isOpen (.inl rfl)
    · split at stepped <;> cases stepped <;>
        exact .ofServer rfl rfl isOpen (.inl rfl)

theorem finishJob_frame
    (stepped : finishJob id session sides = some (after, sidesAfter)) :
    LocalFrame session after sides sidesAfter := by
  cases atPoint : session.point <;>
    simp only [finishJob, atPoint, reduceCtorEq] at stepped
  case savingFirst | savingNext =>
    cases stepped
    exact .ofServer rfl rfl (by simp [Session.isOpen, atPoint]) (.inl rfl)
  case loading =>
    split at stepped <;> cases stepped <;>
      exact .ofServer rfl rfl (by simp [Session.isOpen, atPoint]) (.inl rfl)

theorem resumeGenerator_frame
    (stepped : resumeGenerator session sides = some (after, sidesAfter)) :
    LocalFrame session after sides sidesAfter := by
  cases atPoint : session.point <;>
    simp only [resumeGenerator, atPoint, reduceCtorEq] at stepped
  case yieldedFirst =>
    cases stepped
    exact .ofServer rfl rfl (by simp [Session.isOpen, atPoint]) (.inl rfl)
  case yielded =>
    cases isKind : session.kind <;> simp only [isKind] at stepped
    · split at stepped <;> cases stepped <;>
        exact .ofServer isKind.symm rfl (by simp [Session.isOpen, atPoint]) (.inl rfl)
    · cases stepped
      exact .ofServer isKind.symm rfl (by simp [Session.isOpen, atPoint]) (.inl rfl)
  case leaving =>
    cases stepped
    exact .ofServer rfl rfl (by simp [Session.isOpen, atPoint]) (.inr rfl)

/-- A step of the client uses the buffers only for a chunk. -/
theorem LocalFrame.ofClient
    (same : SameServer session after)
    (chunks : after.HasChunk → session.HasChunk)
    (unused : ¬ session.HasChunk → sidesAfter = sides) :
    LocalFrame session after sides sidesAfter where
  kind := same.kind
  pair := same.pair
  staysClosed := by
    intro notOpen
    simpa [Session.isOpen, same.point] using notOpen
  staysOpen := by
    intro isOpen
    left
    simpa [Session.isOpen, same.point] using isOpen
  uses := by
    rintro (isOpen | hasChunk)
    · left
      simpa [Session.isOpen, same.point] using isOpen
    · exact .inr (chunks hasChunk)
  sides := fun notUsing => unused fun hasChunk => notUsing (.inr hasChunk)
  granted := by
    rw [same.point]

theorem clientTake_frame
    (stepped : clientTake session sides = some (after, sidesAfter)) :
    LocalFrame session after sides sidesAfter := by
  refine .ofClient (clientTake_sameServer stepped) ?_ ?_
  all_goals
    simp only [clientTake] at stepped
    split at stepped
  · rename_i queued
    exact fun _ => .inr ⟨_, _, by rw [queued]; exact List.mem_cons_self⟩
  · rename_i idle queued
    cases stepped
    rintro (works | ⟨index, side, member⟩)
    · exact absurd idle works
    · exact .inr ⟨index, side, by rw [queued]; exact List.mem_cons_of_mem _ member⟩
  · cases stepped
  · rename_i queued
    exact fun unused => absurd
      (.inr ⟨_, _, by rw [queued]; exact List.mem_cons_self⟩) unused
  · cases stepped
    exact fun _ => rfl
  · cases stepped

theorem clientAnswer_frame
    (stepped : clientAnswer id session sides = some (after, sidesAfter)) :
    LocalFrame session after sides sidesAfter := by
  have works : session.working ≠ none := by
    intro idle
    simp [clientAnswer_eq_none idle] at stepped
  exact .ofClient (clientAnswer_sameServer stepped) (fun _ => .inl works)
    (fun unused => absurd (.inl works) unused)

theorem localStep_frame
    {event : LocalEvent}
    (stepped : localStep id session sides event = some (after, sidesAfter)) :
    LocalFrame session after sides sidesAfter := by
  cases event with
  | ping =>
      exact takePing_frame stepped
  | jobDone =>
      exact finishJob_frame stepped
  | resume =>
      exact resumeGenerator_frame stepped
  | take =>
      exact clientTake_frame stepped
  | answer =>
      exact clientAnswer_frame stepped

end Frames

/-! ## All steps -/

section LocalSteps

variable {id : Nat} {session after : Session} {sides sidesAfter : Sides}

/-- Taking a message keeps the invariant. -/
theorem clientTake_inv
    (inv : session.Inv id sides)
    (stepped : clientTake session sides = some (after, sidesAfter)) :
    after.Inv id sidesAfter := by
  have same := clientTake_sameServer stepped
  have notQuiet : session.working = none → session.toClient ≠ [] := by
    intro _ empty
    simp [clientTake_eq_none empty] at stepped
  cases isKind : session.kind with
  | send =>
      simp only [Session.Inv, same.kind, isKind] at inv ⊢
      exact inv.ofClient same notQuiet fun index tail endTail delivering =>
        delivering.take isKind endTail stepped
  | receive =>
      simp only [Session.Inv, same.kind, isKind] at inv ⊢
      refine inv.ofClient same notQuiet ?_ ?_
      · intro index filling
        obtain ⟨written, fills, unchanged⟩ := filling.take isKind stepped
        exact ⟨⟨_, written⟩, fills, unchanged⟩
      · rintro (empty | finished) idle
        · exact absurd empty (notQuiet idle)
        · simp only [clientTake, idle, finished] at stepped
          cases stepped
          exact ⟨.inl rfl, rfl, rfl, rfl⟩

/-- Answering keeps the invariant. -/
theorem clientAnswer_inv
    (inv : session.Inv id sides)
    (stepped : clientAnswer id session sides = some (after, sidesAfter)) :
    after.Inv id sidesAfter := by
  have same := clientAnswer_sameServer stepped
  have works : session.working ≠ none := by
    intro idle
    simp [clientAnswer_eq_none idle] at stepped
  cases isKind : session.kind with
  | send =>
      simp only [Session.Inv, same.kind, isKind] at inv ⊢
      refine inv.ofClient same (fun idle => absurd idle works) ?_
      intro index tail endTail delivering
      obtain ⟨unchanged, delivers⟩ := delivering.answer isKind stepped
      exact ⟨unchanged, tail, endTail, fun empty => empty, delivers⟩
  | receive =>
      simp only [Session.Inv, same.kind, isKind] at inv ⊢
      refine inv.ofClient same (fun idle => absurd idle works) ?_ ?_
      · intro index filling
        obtain ⟨written, fills, unchanged⟩ := filling.answer isKind stepped
        exact ⟨⟨_, written⟩, fills, unchanged⟩
      · intro _ idle
        exact absurd idle works

/-- Every step inside a session keeps its invariant. -/
theorem localStep_inv
    {event : LocalEvent}
    (inv : session.Inv id sides)
    (stepped : localStep id session sides event = some (after, sidesAfter)) :
    after.Inv id sidesAfter := by
  cases event with
  | take =>
      exact clientTake_inv inv stepped
  | answer =>
      exact clientAnswer_inv inv stepped
  | ping =>
      cases isKind : session.kind with
      | send =>
          have isSend : after.kind = .send := (takePing_frame stepped).kind.trans isKind
          simp only [Session.Inv, isKind, isSend] at inv ⊢
          exact takePing_sendInv isKind inv stepped
      | receive =>
          have isReceive : after.kind = .receive := (takePing_frame stepped).kind.trans isKind
          simp only [Session.Inv, isKind, isReceive] at inv ⊢
          exact takePing_receiveInv isKind inv stepped
  | jobDone =>
      cases isKind : session.kind with
      | send =>
          have isSend : after.kind = .send := (finishJob_frame stepped).kind.trans isKind
          simp only [Session.Inv, isKind, isSend] at inv ⊢
          exact finishJob_sendInv inv stepped
      | receive =>
          have isReceive : after.kind = .receive := (finishJob_frame stepped).kind.trans isKind
          simp only [Session.Inv, isKind, isReceive] at inv ⊢
          exact finishJob_receiveInv inv stepped
  | resume =>
      cases isKind : session.kind with
      | send =>
          have isSend : after.kind = .send := (resumeGenerator_frame stepped).kind.trans isKind
          simp only [Session.Inv, isKind, isSend] at inv ⊢
          exact resumeGenerator_sendInv isKind inv stepped
      | receive =>
          have isReceive : after.kind = .receive :=
            (resumeGenerator_frame stepped).kind.trans isKind
          simp only [Session.Inv, isKind, isReceive] at inv ⊢
          exact resumeGenerator_receiveInv isKind inv stepped

end LocalSteps

end TensorPC.Kv
