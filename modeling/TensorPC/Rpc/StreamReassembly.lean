import TensorPC.Rpc.Stream

namespace TensorPC.Rpc

/-!
# Reassembly of streamed messages

Between two chunks the receiver holds the arguments that are complete and a prefix
of the bytes of the current one.  Every chunk lengthens that prefix, the last chunk
of an argument completes it, and the last chunk of the last argument returns the
message.
-/

open Wire (Bytes)

/-! ## Counting chunks -/

/-- The raw bytes of an argument. -/
def Buffer.toBytes : Buffer → Bytes
  | .ndarray array => array.data
  | .bytes data => data
  | .arrayBuffer buffer => buffer.data

/-- What the receiver can read back: it never converts an array buffer to an array. -/
def Buffer.isReadBack : Buffer → Bool
  | .ndarray array => array.dtype.isSupported
  | .bytes _ => true
  | .arrayBuffer buffer => !buffer.toUint8Array

theorem Buffer.isReadBack_of_isSupported
    {arg : Buffer}
    (supported : arg.isSupported = true) :
    arg.isReadBack = true := by
  cases arg with
  | ndarray array | bytes content =>
      exact supported
  | arrayBuffer buffer =>
      cases supported

/-- An array has one or more axes. -/
def Buffer.hasAxes : Buffer → Bool
  | .ndarray array => array.shape ≠ []
  | .bytes _ | .arrayBuffer _ => true

theorem numChunks_eq_max (length chunkSize : Nat) :
    numChunks length chunkSize = max 1 (divUp length chunkSize) := by
  unfold numChunks
  rcases Nat.eq_zero_or_pos (divUp length chunkSize) with none | some
  · simp [none]
  · rw [if_neg (by omega), Nat.max_eq_right some]

theorem dataBytes_eq
    {arg : Buffer}
    {data : ArgData}
    (read : arg.argData = .ok data) :
    data.dataBytes = arg.toBytes := by
  cases arg with
  | ndarray array =>
      obtain ⟨dtype, -, made⟩ := PyResult.bind_eq_ok.mp read
      cases made
      rfl
  | bytes content | arrayBuffer content =>
      cases read
      rfl

theorem numChunks_pos (length chunkSize : Nat) :
    0 < numChunks length chunkSize := by
  rw [numChunks_eq_max]
  omega

theorem start_le_length
    {length chunkSize i : Nat}
    (inside : i < numChunks length chunkSize) :
    i * chunkSize ≤ length := by
  rw [numChunks_eq_max] at inside
  have first : i < 1 ∨ i < divUp length chunkSize := by omega
  rcases first with first | inside
  · obtain rfl : i = 0 := by omega
    simp
  · rcases Nat.eq_zero_or_pos chunkSize with rfl | positive
    · simp
    · have below : (i + 1) * chunkSize ≤ length + chunkSize - 1 :=
        (Nat.le_div_iff_mul_le positive).mp inside
      rw [Nat.succ_mul] at below
      omega

theorem length_le_stop
    {length chunkSize : Nat}
    (positive : 0 < chunkSize) :
    length ≤ numChunks length chunkSize * chunkSize := by
  have covered : length + chunkSize - 1 < chunkSize * (divUp length chunkSize + 1) :=
    Nat.lt_mul_div_succ _ positive
  have atLeast : divUp length chunkSize * chunkSize ≤
      numChunks length chunkSize * chunkSize := by
    rw [numChunks_eq_max]
    exact Nat.mul_le_mul_right _ (Nat.le_max_right _ _)
  rw [Nat.mul_succ, Nat.mul_comm] at covered
  omega

/-! ## One chunk -/

namespace FromBufferStream

/-- The receiver holds the arguments `done` and the first `count` bytes of `arg`. -/
def HoldsPrefix
    (self : FromBufferStream)
    (done : List Buffer)
    (arg : Buffer)
    (count : Nat) : Prop :=
  match arg with
  | .ndarray array =>
      self.currentIsNpArr = some true ∧
        ∃ received,
          self.args = done ++ [.ndarray received] ∧
            received.dtype = array.dtype ∧ received.shape = array.shape ∧
              received.data.take count = array.data.take count
  | .bytes data =>
      self.currentIsNpArr = some false ∧
        self.currentDtype = some { type := .customBytes } ∧
          self.args = done ∧ self.currentDatas.flatten = data.take count
  | .arrayBuffer buffer =>
      self.currentIsNpArr = some false ∧
        self.currentDtype = some { type := .base64 } ∧
          self.args = done ∧ self.currentDatas.flatten = buffer.data.take count

/-- The receiver between two chunks of an argument. -/
structure InArgument
    (self : FromBufferStream)
    (done : List Buffer)
    (funcKey : String)
    (arg : Buffer)
    (count : Nat) : Prop where
  holds : self.HoldsPrefix done arg count
  counted : self.accumBufLength = some (count : Int)
  keyed : self.funcKey = some funcKey

theorem length_data_eq
    {first second : NDArray}
    (sameDtype : first.dtype = second.dtype)
    (sameShape : first.shape = second.shape) :
    first.data.length = second.data.length := by
  rw [first.size_eq, second.size_eq, sameDtype, sameShape]

theorem take_append_slice
    {data : Bytes}
    {start stop : Nat}
    (ordered : start ≤ stop) :
    data.take start ++ slice data start stop = data.take stop := by
  simpa [slice] using slice_append_slice data (Nat.zero_le start) ordered

/-- Writing the next slice of the sent bytes lengthens the received prefix. -/
theorem writeBytes_slice
    {received array : NDArray}
    {start stop : Nat}
    (sameDtype : received.dtype = array.dtype)
    (sameShape : received.shape = array.shape)
    (samePrefix : received.data.take start = array.data.take start)
    (inside : start ≤ array.data.length)
    (ordered : start ≤ stop) :
    ∃ written,
      writeBytes received start (slice array.data start stop) = .ok written ∧
        written.dtype = array.dtype ∧ written.shape = array.shape ∧
          written.data.take stop = array.data.take stop := by
  have sameLength := length_data_eq sameDtype sameShape
  have startLength : (received.data.take start).length = start := by
    rw [List.length_take, sameLength]
    omega
  have sliceLength := length_slice array.data start stop
  have assigned := @assignSlice_after _ (received.data.take start)
    (received.data.drop start) (slice array.data start stop)
    (by rw [sliceLength, List.length_drop, sameLength]; omega)
  rw [List.take_append_drop, startLength, samePrefix,
    take_append_slice ordered] at assigned
  have rest : (array.data.take stop ++
      (received.data.drop start).drop (slice array.data start stop).length).take stop =
        array.data.take stop := by
    rw [List.take_append, List.take_take, Nat.min_self, List.length_take, List.drop_drop,
      sliceLength]
    rcases Nat.le_total stop array.data.length with within | beyond
    · simp [Nat.min_eq_left within]
    · rw [List.drop_eq_nil_of_le (by omega)]
      simp
  refine ⟨NDArray.withBytes received _ (length_assignSlice assigned), ?_,
    sameDtype, sameShape, rest⟩
  unfold writeBytes
  split
  · rename_i data written
    rw [assigned] at written
    cases written
    rfl
  · rename_i raised written
    rw [assigned] at written
    cases written

/-! ### The fields that a chunk sets -/

section BeginChunk

variable
  (self : FromBufferStream)
  {buf : RemoteCallStream}

theorem beginChunk_first
    (first : buf.chunkId = 0) :
    ∃ counted,
      self.beginChunk buf =
        { self with
          numArgs := counted
          currentBufShape := some buf.shape
          currentBufLength := some buf.numChunk
          currentDtype := some buf.dtype
          funcKey := some buf.funcKey
          currentIsNpArr :=
            some (decide (buf.dtype.type ≠ .customBytes ∧ buf.dtype.type ≠ .base64))
          currentDatas := []
          accumBufLength := some 0 } := by
  by_cases firstArg : buf.argId = 0
  · exact ⟨some buf.numArgs, by simp [beginChunk, first, firstArg]⟩
  · exact ⟨self.numArgs, by simp [beginChunk, first, firstArg]⟩

theorem beginChunk_later
    (later : buf.chunkId ≠ 0) :
    ∃ counted, self.beginChunk buf = { self with numArgs := counted } := by
  by_cases firstArg : buf.argId = 0
  · exact ⟨some buf.numArgs, by simp [beginChunk, later, firstArg]⟩
  · exact ⟨self.numArgs, by simp [beginChunk, later, firstArg]⟩

end BeginChunk

/-! ### Storing a chunk -/

section Chunk

variable
  (memory : Nat → UInt8)
  {self : FromBufferStream}
  {done : List Buffer}
  {funcKey : String}
  {flags : Int64}
  {chunkSize numArgs argIdx i : Nat}
  {arg : Buffer}
  {data : ArgData}

theorem allocate_eq
    {pbDtype : PbDtype}
    {dtype : NpDtype}
    {shape : List Nat}
    (announced : self.currentDtype = some pbDtype)
    (shaped : self.currentBufShape = some shape)
    (readBack : pbDtype.toNpDtype = .ok dtype) :
    self.allocate memory =
      .ok { self with args := self.args ++ [.ndarray (npEmpty memory shape dtype)] } := by
  simp [allocate, announced, shaped, readBack, bind, Except.bind]

theorem writeChunk_eq
    {received written : NDArray}
    {start : Nat}
    {chunk : Bytes}
    (counted : self.accumBufLength = some (start : Int))
    (held : self.args = done ++ [.ndarray received])
    (writes : writeBytes received start chunk = .ok written) :
    self.writeChunk chunk = .ok { self with args := done ++ [.ndarray written] } := by
  simp [writeChunk, getAttribute, counted, held, writes, bind, Except.bind]

theorem storeChunk_allocates
    {allocated : FromBufferStream}
    {buf : RemoteCallStream}
    (isArray : self.currentIsNpArr = some true)
    (first : buf.chunkId = 0)
    (allocates : self.allocate memory = .ok allocated) :
    self.storeChunk memory buf = allocated.writeChunk buf.chunkedData := by
  simp [storeChunk, getAttribute, isArray, first, allocates, bind, Except.bind]

theorem storeChunk_writes
    {buf : RemoteCallStream}
    (isArray : self.currentIsNpArr = some true)
    (later : buf.chunkId ≠ 0) :
    self.storeChunk memory buf = self.writeChunk buf.chunkedData := by
  simp [storeChunk, getAttribute, isArray, later, bind, Except.bind]

/-- The first chunk of an argument opens it and stores its first bytes. -/
theorem storeChunk_first
    (supported : arg.isReadBack = true)
    (read : arg.argData = .ok data)
    (completed : self.args = done) :
    let buf := chunkMessage funcKey flags chunkSize numArgs argIdx data 0
    ∃ stored,
      (self.beginChunk buf).storeChunk memory buf = .ok stored ∧
        stored.HoldsPrefix done arg ((0 + 1) * chunkSize) ∧
          stored.accumBufLength = some (0 * chunkSize : Nat) ∧
            stored.funcKey = some funcKey := by
  intro buf
  have first : buf.chunkId = 0 := rfl
  obtain ⟨counted, begun⟩ := beginChunk_first self first
  rw [begun, Nat.zero_add, Nat.one_mul, Nat.zero_mul]
  subst completed
  cases arg with
  | ndarray array =>
      obtain ⟨pbDtype, sent, readBack, notBytes, notBase64⟩ :=
        NpDtype.toPb_of_isSupported supported
      obtain ⟨dtype, converted, made⟩ := PyResult.bind_eq_ok.mp read
      rw [sent] at converted
      cases converted
      cases made
      have isArray : decide (pbDtype.type ≠ .customBytes ∧ pbDtype.type ≠ .base64) = true :=
        decide_eq_true ⟨notBytes, notBase64⟩
      obtain ⟨written, writes, sameDtype, sameShape, samePrefix⟩ :=
        @writeBytes_slice (npEmpty memory array.shape array.dtype) array 0 chunkSize
          rfl rfl rfl (Nat.zero_le _) (Nat.zero_le _)
      have allocates := @allocate_eq memory (self.beginChunk buf) pbDtype array.dtype
        array.shape (by rw [begun]; rfl) (by rw [begun]; rfl) readBack
      rw [begun] at allocates
      have stores :=
        @storeChunk_allocates memory _ _ buf (congrArg some isArray) rfl allocates
      have chunk : buf.chunkedData = slice array.data 0 chunkSize := by
        simp [buf, chunkMessage]
      rw [← chunk] at writes
      refine ⟨_, stores.trans (writeChunk_eq rfl rfl writes),
        ⟨?_, written, rfl, sameDtype, sameShape, samePrefix⟩, rfl, rfl⟩
      exact congrArg some isArray
  | bytes content | arrayBuffer buffer =>
      cases read
      refine ⟨_, rfl, ⟨rfl, rfl, rfl, ?_⟩, rfl, rfl⟩
      simp [buf, chunkMessage, slice]

/-- A later chunk lengthens the prefix that is held. -/
theorem storeChunk_later
    (read : arg.argData = .ok data)
    (later : i ≠ 0)
    (inside : i * chunkSize ≤ arg.toBytes.length)
    (inArgument : self.InArgument done funcKey arg (i * chunkSize)) :
    let buf := chunkMessage funcKey flags chunkSize numArgs argIdx data i
    ∃ stored,
      (self.beginChunk buf).storeChunk memory buf = .ok stored ∧
        stored.HoldsPrefix done arg ((i + 1) * chunkSize) ∧
          stored.accumBufLength = some (i * chunkSize : Nat) ∧
            stored.funcKey = some funcKey := by
  intro buf
  have laterChunk : buf.chunkId ≠ 0 := later
  obtain ⟨counted, begun⟩ := beginChunk_later self laterChunk
  have sameBytes := dataBytes_eq read
  have ordered : i * chunkSize ≤ (i + 1) * chunkSize :=
    Nat.mul_le_mul_right _ (Nat.le_succ i)
  obtain ⟨holds, counts, keyed⟩ := inArgument
  rw [begun]
  cases arg with
  | ndarray array =>
      obtain ⟨isArray, received, held, sameDtype, sameShape, samePrefix⟩ := holds
      obtain ⟨written, writes, writtenDtype, writtenShape, writtenPrefix⟩ :=
        writeBytes_slice sameDtype sameShape samePrefix inside ordered
      refine ⟨{ self with numArgs := counted, args := done ++ [.ndarray written] }, ?_,
        ⟨isArray, written, rfl, writtenDtype, writtenShape, writtenPrefix⟩, counts, keyed⟩
      have wrote := @writeChunk_eq { self with numArgs := counted } done received written
        (i * chunkSize) buf.chunkedData counts held
        (by simpa [buf, chunkMessage, sameBytes, Buffer.toBytes] using writes)
      exact (@storeChunk_writes memory { self with numArgs := counted } buf isArray
        later).trans wrote
  | bytes content | arrayBuffer buffer =>
      obtain ⟨notArray, announced, held, samePrefix⟩ := holds
      refine ⟨{ self with
        numArgs := counted
        currentDatas := self.currentDatas ++ [buf.chunkedData] }, ?_,
        ⟨notArray, announced, held, ?_⟩, counts, keyed⟩
      · simp [storeChunk, getAttribute, notArray, bind, Except.bind]
      · rw [List.flatten_append, samePrefix, List.flatten_singleton]
        simpa [buf, chunkMessage, sameBytes, Buffer.toBytes] using take_append_slice ordered

/-- The receiver before chunk `i` of an argument. -/
def Expects
    (self : FromBufferStream)
    (done : List Buffer)
    (funcKey : String)
    (arg : Buffer)
    (chunkSize i : Nat) : Prop :=
  if i = 0 then
    self.args = done
  else
    self.InArgument done funcKey arg (i * chunkSize)

theorem storeChunk_holds
    (supported : arg.isReadBack = true)
    (read : arg.argData = .ok data)
    (inside : i < numChunks arg.toBytes.length chunkSize)
    (expects : self.Expects done funcKey arg chunkSize i) :
    let buf := chunkMessage funcKey flags chunkSize numArgs argIdx data i
    ∃ stored,
      (self.beginChunk buf).storeChunk memory buf = .ok stored ∧
        stored.HoldsPrefix done arg ((i + 1) * chunkSize) ∧
          stored.accumBufLength = some (i * chunkSize : Nat) ∧
            stored.funcKey = some funcKey := by
  unfold Expects at expects
  split at expects
  · subst i
    exact storeChunk_first memory supported read expects
  · exact storeChunk_later memory read ‹_› (start_le_length inside) expects

/-- The last chunk of an argument completes it. -/
theorem endArg_eq
    {count : Nat}
    (supported : arg.isReadBack = true)
    (holds : self.HoldsPrefix done arg count)
    (all : arg.toBytes.length ≤ count) :
    self.endArg =
      .ok { self with
        args := done ++ [arg]
        currentDatas := []
        accumBufLength := some 0
        currentIsNpArr := some false } := by
  cases arg with
  | ndarray array =>
      obtain ⟨isArray, received, held, sameDtype, sameShape, samePrefix⟩ := holds
      have sameLength := length_data_eq sameDtype sameShape
      have complete : array.data.length ≤ count := all
      rw [List.take_of_length_le complete,
        List.take_of_length_le (sameLength ▸ complete)] at samePrefix
      have sameArray : received = array := by
        cases received
        cases array
        simp_all
      simp [endArg, getAttribute, isArray, held, sameArray, bind, Except.bind]
  | bytes content =>
      obtain ⟨notArray, announced, held, samePrefix⟩ := holds
      rw [List.take_of_length_le (show content.length ≤ count from all)] at samePrefix
      simp [endArg, getAttribute, notArray, announced, held, samePrefix, pb2data, bind,
        Except.bind]
  | arrayBuffer buffer =>
      obtain ⟨content, toUint8Array⟩ := buffer
      obtain rfl : toUint8Array = false := by
        simpa [Buffer.isReadBack] using supported
      obtain ⟨notArray, announced, held, samePrefix⟩ := holds
      rw [List.take_of_length_le (show content.length ≤ count from all)] at samePrefix
      simp [endArg, getAttribute, notArray, announced, held, samePrefix, pb2data, bind,
        Except.bind]

theorem call_continues
    {stored : FromBufferStream}
    {buf : RemoteCallStream}
    {count : Int}
    (stores : (self.beginChunk buf).storeChunk memory buf = .ok stored)
    (before : buf.chunkId + 1 ≠ buf.numChunk)
    (counted : stored.accumBufLength = some count) :
    self.call memory buf =
      .ok (none, { stored with
        accumBufLength := some (count + buf.chunkedData.length) }) := by
  simp [call, stores, before, continueMessage, addLength, getAttribute, counted, bind,
    Except.bind]

theorem call_returns
    {stored ended : FromBufferStream}
    {buf : RemoteCallStream}
    (stores : (self.beginChunk buf).storeChunk memory buf = .ok stored)
    (last : buf.chunkId + 1 = buf.numChunk)
    (ends : stored.endArg = .ok ended)
    (lastArg : buf.argId + 1 = buf.numArgs)
    (nonempty : ended.args ≠ []) :
    self.call memory buf =
      .ok (some (ended.args, ended.funcKey), { ended with args := [] }) := by
  simp [call, stores, last, endChunk, ends, lastArg, nonempty, bind, Except.bind]

theorem call_ends
    {stored ended : FromBufferStream}
    {buf : RemoteCallStream}
    {count : Int}
    (stores : (self.beginChunk buf).storeChunk memory buf = .ok stored)
    (last : buf.chunkId + 1 = buf.numChunk)
    (ends : stored.endArg = .ok ended)
    (otherArg : buf.argId + 1 ≠ buf.numArgs)
    (counted : ended.accumBufLength = some count) :
    self.call memory buf =
      .ok (none, { ended with
        accumBufLength := some (count + buf.chunkedData.length) }) := by
  simp [call, stores, last, endChunk, ends, otherArg, continueMessage, addLength,
    getAttribute, counted, bind, Except.bind]

/-- A chunk that does not complete its argument returns nothing. -/
theorem receive_continues
    (supported : arg.isReadBack = true)
    (read : arg.argData = .ok data)
    (before : i + 1 < numChunks arg.toBytes.length chunkSize)
    (expects : self.Expects done funcKey arg chunkSize i) :
    ∃ next,
      self.receive
          ⟨memory, chunkMessage funcKey flags chunkSize numArgs argIdx data i⟩ =
        .ok (none, next) ∧
        next.Expects done funcKey arg chunkSize (i + 1) := by
  obtain ⟨stored, stores, holds, counted, keyed⟩ :=
    @storeChunk_holds memory _ _ _ flags _ numArgs argIdx _ _ _ supported read
      (Nat.lt_of_succ_lt before) expects
  have sameBytes := dataBytes_eq read
  have called := call_continues memory stores
    (by simp only [chunkMessage, sameBytes]; omega) counted
  refine ⟨_, by simp only [receive, called]; rfl, ?_⟩
  have length : ((i * chunkSize : Nat) : Int) +
      (slice data.dataBytes (i * chunkSize) ((i + 1) * chunkSize)).length =
        ((i + 1) * chunkSize : Nat) := by
    rw [length_slice, sameBytes, Nat.min_eq_left (start_le_length before), Nat.succ_mul]
    omega
  exact ⟨holds, congrArg some length, keyed⟩

/-- What the last chunk of an argument returns. -/
def argResult
    (done : List Buffer)
    (funcKey : String)
    (arg : Buffer)
    (lastArg : Bool) :
    Option Received :=
  if lastArg then some (done ++ [arg], some funcKey) else none

/-- The arguments held after the last chunk of an argument. -/
def argsAfter
    (done : List Buffer)
    (arg : Buffer)
    (lastArg : Bool) :
    List Buffer :=
  if lastArg then [] else done ++ [arg]

/-- The last chunk of an argument completes it, and the last argument the message. -/
theorem receive_completes
    (positive : 0 < chunkSize)
    (supported : arg.isReadBack = true)
    (read : arg.argData = .ok data)
    (last : i + 1 = numChunks arg.toBytes.length chunkSize)
    (expects : self.Expects done funcKey arg chunkSize i) :
    let lastArg := decide (argIdx + 1 = numArgs)
    ∃ next,
      self.receive
          ⟨memory, chunkMessage funcKey flags chunkSize numArgs argIdx data i⟩ =
        .ok (argResult done funcKey arg lastArg, next) ∧
        next.args = argsAfter done arg lastArg := by
  obtain ⟨stored, stores, holds, counted, keyed⟩ :=
    @storeChunk_holds memory _ _ _ flags _ numArgs argIdx _ _ _ supported read
      (by omega) expects
  have all : arg.toBytes.length ≤ (i + 1) * chunkSize :=
    last ▸ length_le_stop positive
  have ends := endArg_eq supported holds all
  have lastChunk :
      (chunkMessage funcKey flags chunkSize numArgs argIdx data i).chunkId + 1 =
        (chunkMessage funcKey flags chunkSize numArgs argIdx data i).numChunk := by
    simp only [chunkMessage, dataBytes_eq read]
    exact last
  by_cases lastArg : argIdx + 1 = numArgs
  · have called := call_returns memory stores lastChunk ends lastArg (by simp)
    simp only [lastArg, decide_true, argResult, argsAfter, if_true]
    refine ⟨_, by simp only [receive, called]; rw [keyed]; rfl, rfl⟩
  · have called := call_ends memory stores lastChunk ends lastArg rfl
    simp only [lastArg, decide_false, argResult, argsAfter]
    refine ⟨_, by simp only [receive, called]; rfl, rfl⟩

theorem receiveAll_cons
    {arrival : Arrival}
    {rest : List Arrival}
    {next final : FromBufferStream}
    {res : Option Received}
    {others : List (Option Received)}
    (received : self.receive arrival = .ok (res, next))
    (remaining : next.receiveAll rest = .ok (others, final)) :
    self.receiveAll (arrival :: rest) = .ok (res :: others, final) := by
  simp [receiveAll, received, remaining, bind, Except.bind]

theorem receiveAll_append
    {first second : List Arrival}
    {middle final : FromBufferStream}
    {results others : List (Option Received)}
    (received : self.receiveAll first = .ok (results, middle))
    (remaining : middle.receiveAll second = .ok (others, final)) :
    self.receiveAll (first ++ second) = .ok (results ++ others, final) := by
  induction first generalizing self results with
  | nil =>
      cases received
      exact remaining
  | cons arrival rest inductionHypothesis =>
      obtain ⟨⟨res, next⟩, receivedFirst, following⟩ := PyResult.bind_eq_ok.mp received
      obtain ⟨⟨later, last⟩, receivedRest, made⟩ := PyResult.bind_eq_ok.mp following
      cases made
      exact receiveAll_cons receivedFirst (inductionHypothesis receivedRest)

/-! ## One argument -/

/-- All chunks but the last of an argument return nothing. -/
theorem receiveAll_arg
    {arrivals : List Arrival}
    (positive : 0 < chunkSize)
    (supported : arg.isReadBack = true)
    (read : arg.argData = .ok data)
    (expects : self.Expects done funcKey arg chunkSize i)
    (remaining : i + arrivals.length = numChunks arg.toBytes.length chunkSize)
    (someChunk : arrivals ≠ [])
    (fed :
      arrivals.map Arrival.buf =
        (List.range' i arrivals.length).map
          (chunkMessage funcKey flags chunkSize numArgs argIdx data)) :
    let lastArg := decide (argIdx + 1 = numArgs)
    ∃ final,
      self.receiveAll arrivals =
        .ok (List.replicate (arrivals.length - 1) none ++
          [argResult done funcKey arg lastArg], final) ∧
        final.args = argsAfter done arg lastArg := by
  intro lastArg
  induction arrivals generalizing self i with
  | nil =>
      exact absurd rfl someChunk
  | cons arrival rest inductionHypothesis =>
      obtain ⟨memory, buf⟩ := arrival
      rw [List.length_cons, List.range'_succ, List.map_cons, List.map_cons,
        List.cons.injEq] at fed
      obtain ⟨rfl, fed⟩ := fed
      rw [List.length_cons] at remaining
      rcases rest with _ | ⟨second, others⟩
      · obtain ⟨final, received, held⟩ :=
          @receive_completes memory _ _ _ flags _ numArgs argIdx _ _ _ positive supported read
            remaining expects
        exact ⟨final, receiveAll_cons received rfl, held⟩
      · rw [List.length_cons] at remaining
        obtain ⟨next, received, nextExpects⟩ :=
          @receive_continues memory _ _ _ flags _ numArgs argIdx _ _ _ supported read
            (by omega) expects
        obtain ⟨final, receivedRest, held⟩ :=
          inductionHypothesis nextExpects
            (by rw [List.length_cons]; omega) (List.cons_ne_nil _ _) fed
        exact ⟨final, receiveAll_cons received receivedRest, held⟩

end Chunk

end FromBufferStream

/-! ## One message -/

/-- An argument that can be sent in chunks of the given size. -/
structure Buffer.Sendable
    (arg : Buffer)
    (chunkSize : Nat) : Prop where
  supported : arg.isSupported = true
  axes : arg.hasAxes = true
  chunksFit : numChunks arg.toBytes.length chunkSize < int32Bound

/-- An argument that is sent in chunks of the given size and read back from them. -/
structure Buffer.Streamable
    (arg : Buffer)
    (chunkSize : Nat) : Prop where
  readBack : arg.isReadBack = true
  viewed : arg.viewUint8 = .ok ()
  chunksFit : numChunks arg.toBytes.length chunkSize < int32Bound

theorem Buffer.viewUint8_eq_ok
    {arg : Buffer}
    (axes : arg.hasAxes = true) :
    arg.viewUint8 = .ok () := by
  cases arg with
  | ndarray array =>
      have shaped : array.shape ≠ [] := by simpa [hasAxes] using axes
      simp [viewUint8, shaped]
  | bytes content | arrayBuffer content =>
      rfl

theorem Buffer.Sendable.streamable
    {arg : Buffer}
    {chunkSize : Nat}
    (sendable : arg.Sendable chunkSize) :
    arg.Streamable chunkSize where
  readBack := Buffer.isReadBack_of_isSupported sendable.supported
  viewed := Buffer.viewUint8_eq_ok sendable.axes
  chunksFit := sendable.chunksFit

theorem Buffer.exists_argData
    {arg : Buffer}
    (supported : arg.isReadBack = true) :
    ∃ data, arg.argData = .ok data := by
  cases arg with
  | ndarray array =>
      obtain ⟨pbDtype, sent, -⟩ := NpDtype.toPb_of_isSupported supported
      exact ⟨⟨pbDtype, array.shape, array.data⟩, by simp [argData, sent, bind, Except.bind]⟩
  | bytes content =>
      exact ⟨_, rfl⟩
  | arrayBuffer buffer =>
      exact ⟨_, rfl⟩

/-- The chunks of an argument that can be sent. -/
def argChunks
    (funcKey : String)
    (flags : Int64)
    (chunkSize numArgs : Nat)
    (indexed : Buffer × Nat) :
    List RemoteCallStream :=
  match indexed.1.argData with
  | .error _ => []
  | .ok data =>
      (List.range (numChunks indexed.1.toBytes.length chunkSize)).map
        (chunkMessage funcKey flags chunkSize numArgs indexed.2 data)

/-- An argument that can be sent is sent without an exception. -/
theorem streamArg_eq
    {funcKey : String}
    {flags : Int64}
    {chunkSize numArgs argIdx : Nat}
    {arg : Buffer}
    (positive : 0 < chunkSize)
    (sendable : arg.Streamable chunkSize)
    (argsFit : numArgs < int32Bound)
    (within : argIdx < numArgs) :
    streamArg funcKey flags chunkSize numArgs (arg, argIdx) =
      { yielded := argChunks funcKey flags chunkSize numArgs (arg, argIdx), raised := none } := by
  obtain ⟨data, read⟩ := Buffer.exists_argData sendable.readBack
  have sameBytes := dataBytes_eq read
  have viewed := sendable.viewed
  have chunksFit := sendable.chunksFit
  simp only [streamArg, argChunks, read, viewed, sameBytes]
  rw [if_neg (Nat.pos_iff_ne_zero.mp positive)]
  refine Generated.forEach_yield _ fun i member => ?_
  have inside := List.mem_range.mp member
  rw [yieldMessage, if_pos]
  simp only [chunkMessage, sameBytes]
  omega

/-- A message of the stream. -/
structure Message where
  dataList : List Buffer
  funcKey : String
  flags : Int64

/-- `to_protobuf_stream_gen` of a message. -/
def Message.stream
    (message : Message)
    (chunkSize : Nat) :
    Generated RemoteCallStream :=
  toProtobufStreamGen message.dataList message.funcKey message.flags chunkSize

/-- A message that can be sent in chunks of the given size. -/
structure Message.Sendable
    (message : Message)
    (chunkSize : Nat) : Prop where
  nonempty : message.dataList ≠ []
  argsFit : message.dataList.length < int32Bound
  args : ∀ arg ∈ message.dataList, arg.Sendable chunkSize

/-- A message that is sent in chunks of the given size and read back from them. -/
structure Message.Streamable
    (message : Message)
    (chunkSize : Nat) : Prop where
  nonempty : message.dataList ≠ []
  argsFit : message.dataList.length < int32Bound
  args : ∀ arg ∈ message.dataList, arg.Streamable chunkSize

theorem Message.Sendable.streamable
    {message : Message}
    {chunkSize : Nat}
    (sendable : message.Sendable chunkSize) :
    message.Streamable chunkSize where
  nonempty := sendable.nonempty
  argsFit := sendable.argsFit
  args arg member := (sendable.args arg member).streamable

theorem Message.stream_eq
    {message : Message}
    {chunkSize : Nat}
    (positive : 0 < chunkSize)
    (sendable : message.Streamable chunkSize) :
    message.stream chunkSize =
      { yielded :=
          message.dataList.zipIdx.flatMap
            (argChunks message.funcKey message.flags chunkSize message.dataList.length)
        raised := none } := by
  rw [stream, toProtobufStreamGen, if_neg sendable.nonempty]
  refine Generated.forEach_eq _ fun indexed member => ?_
  obtain ⟨-, inside, same⟩ := List.mem_zipIdx member
  have isArg : indexed.1 ∈ message.dataList := by
    rw [same]
    exact List.getElem_mem _
  exact streamArg_eq positive (sendable.args _ isArg) sendable.argsFit (by omega)

namespace FromBufferStream

theorem replicate_append_replicate
    (result : Option Received)
    {first later : Nat}
    (someFirst : 0 < first)
    (someLater : 0 < later) :
    List.replicate (first - 1) none ++ [none] ++ (List.replicate (later - 1) none ++ [result]) =
      List.replicate (first + later - 1) none ++ [result] := by
  obtain ⟨before, rfl⟩ := Nat.exists_eq_add_of_lt someFirst
  rw [← List.append_assoc, ← List.replicate_succ', List.replicate_append_replicate]
  congr 2
  omega

/-- The arguments from `done` on are returned together with the last chunk. -/
theorem receiveAll_args
    {self : FromBufferStream}
    {done rest : List Buffer}
    {funcKey : String}
    {flags : Int64}
    {chunkSize numArgs : Nat}
    {arrivals : List Arrival}
    (positive : 0 < chunkSize)
    (sendable : ∀ arg ∈ rest, arg.Streamable chunkSize)
    (someArg : rest ≠ [])
    (counts : done.length + rest.length = numArgs)
    (held : self.args = done)
    (fed :
      arrivals.map Arrival.buf =
        (rest.zipIdx done.length).flatMap (argChunks funcKey flags chunkSize numArgs)) :
    ∃ final,
      self.receiveAll arrivals =
        .ok (List.replicate (arrivals.length - 1) none ++
          [some (done ++ rest, some funcKey)], final) ∧
        final.args = [] := by
  induction rest generalizing self done arrivals with
  | nil =>
      exact absurd rfl someArg
  | cons arg others inductionHypothesis =>
      have argSendable := sendable arg List.mem_cons_self
      obtain ⟨data, read⟩ := Buffer.exists_argData argSendable.readBack
      rw [List.zipIdx_cons, List.flatMap_cons] at fed
      obtain ⟨first, later, rfl, fedFirst, fedLater⟩ := List.map_eq_append_iff.mp fed
      simp only [argChunks, read] at fedFirst
      have firstLength : first.length = numChunks arg.toBytes.length chunkSize := by
        simpa using congrArg List.length fedFirst
      have someChunk : first ≠ [] := by
        have positiveLength := numChunks_pos arg.toBytes.length chunkSize
        intro none
        rw [none] at firstLength
        simp only [List.length_nil] at firstLength
        omega
      rw [← firstLength, List.range_eq_range'] at fedFirst
      obtain ⟨middle, received, middleArgs⟩ :=
        @receiveAll_arg self done funcKey flags chunkSize numArgs done.length 0 arg data first
          positive argSendable.readBack read (by simpa [Expects] using held)
          (by omega) someChunk fedFirst
      rw [List.length_cons] at counts
      rcases others with _ | ⟨second, others⟩
      · obtain rfl : later = [] := by simpa using fedLater
        have lastArg : done.length + 1 = numArgs := by simpa using counts
        rw [decide_eq_true lastArg] at received middleArgs
        exact ⟨middle, by simpa [argResult] using received, middleArgs⟩
      · rw [List.length_cons] at counts
        have otherArg : done.length + 1 ≠ numArgs := by omega
        rw [decide_eq_false otherArg] at received middleArgs
        obtain ⟨final, receivedLater, finalArgs⟩ :=
          @inductionHypothesis middle (done ++ [arg]) later
            (fun other member => sendable other (List.mem_cons_of_mem _ member))
            (List.cons_ne_nil _ _)
            (by simp only [List.length_append, List.length_cons, List.length_nil]; omega)
            middleArgs (by simpa using fedLater)
        have someLater : later ≠ [] := by
          rintro rfl
          simp [receiveAll] at receivedLater
        refine ⟨final, ?_, finalArgs⟩
        rw [receiveAll_append received receivedLater, List.length_append,
          show argResult done funcKey arg false = none from rfl, replicate_append_replicate _ (List.length_pos_iff.mpr someChunk)
            (List.length_pos_iff.mpr someLater)]
        simp

end FromBufferStream

/-! ## A sequence of messages -/

/-- What the chunks of a message return: nothing, and at the last one the message. -/
def Message.results
    (message : Message)
    (chunkSize : Nat) :
    List (Option FromBufferStream.Received) :=
  List.replicate ((message.stream chunkSize).yielded.length - 1) none ++
    [some (message.dataList, some message.funcKey)]

namespace FromBufferStream

theorem receiveAll_message
    {self : FromBufferStream}
    {message : Message}
    {chunkSize : Nat}
    {arrivals : List Arrival}
    (positive : 0 < chunkSize)
    (sendable : message.Streamable chunkSize)
    (idle : self.args = [])
    (fed : arrivals.map Arrival.buf = (message.stream chunkSize).yielded) :
    ∃ final,
      self.receiveAll arrivals = .ok (message.results chunkSize, final) ∧
        final.args = [] := by
  have sameLength : arrivals.length = (message.stream chunkSize).yielded.length := by
    simpa using congrArg List.length fed
  rw [Message.stream_eq positive sendable] at fed
  obtain ⟨final, received, finalArgs⟩ :=
    @receiveAll_args self [] message.dataList message.funcKey message.flags chunkSize _ arrivals
      positive sendable.args sendable.nonempty (Nat.zero_add _) idle fed
  exact ⟨final, by rw [received, sameLength]; rfl, finalArgs⟩

/-- The chunks of any further messages. -/
theorem receiveAll_stream
    {self : FromBufferStream}
    {messages : List Message}
    {chunkSize : Nat}
    {arrivals : List Arrival}
    (positive : 0 < chunkSize)
    (sendable : ∀ message ∈ messages, message.Streamable chunkSize)
    (idle : self.args = [])
    (fed :
      arrivals.map Arrival.buf =
        messages.flatMap fun message => (message.stream chunkSize).yielded) :
    ∃ final,
      self.receiveAll arrivals =
        .ok (messages.flatMap fun message => message.results chunkSize, final) := by
  induction messages generalizing self arrivals with
  | nil =>
      obtain rfl : arrivals = [] := by simpa using fed
      exact ⟨self, rfl⟩
  | cons message rest inductionHypothesis =>
      rw [List.flatMap_cons] at fed
      obtain ⟨first, later, rfl, fedFirst, fedLater⟩ := List.map_eq_append_iff.mp fed
      obtain ⟨middle, received, middleIdle⟩ :=
        receiveAll_message positive (sendable message List.mem_cons_self) idle fedFirst
      obtain ⟨final, receivedLater⟩ :=
        inductionHypothesis
          (fun other member => sendable other (List.mem_cons_of_mem _ member))
          middleIdle fedLater
      exact ⟨final, receiveAll_append received receivedLater⟩

end FromBufferStream

/--
The sender yields all chunks of the messages, and a new receiver that is fed with
them returns each message when its last chunk arrives and nothing for the chunks
before.
-/
def StreamsReassemble
    (messages : List Message)
    (chunkSize : Nat) : Prop :=
  (∀ message ∈ messages, (message.stream chunkSize).raised = none) ∧
    ∀ arrivals : List FromBufferStream.Arrival,
      arrivals.map FromBufferStream.Arrival.buf =
        (messages.flatMap fun message => (message.stream chunkSize).yielded) →
      ∃ final,
        FromBufferStream.receiveAll {} arrivals =
          .ok (messages.flatMap fun message => message.results chunkSize, final)

/-- Messages that can be sent are reassembled, whatever the chunk size. -/
theorem streamsReassemble_of_sendable
    (messages : List Message)
    (chunkSize : Nat)
    (positive : 0 < chunkSize)
    (sendable : ∀ message ∈ messages, message.Sendable chunkSize) :
    StreamsReassemble messages chunkSize := by
  have streamable : ∀ message ∈ messages, message.Streamable chunkSize :=
    fun message member => (sendable message member).streamable
  refine ⟨fun message member => ?_, fun arrivals fed =>
    FromBufferStream.receiveAll_stream positive streamable rfl fed⟩
  rw [Message.stream_eq positive (streamable message member)]

/-! ## Examples -/

/-- A message of an array over two chunks, an array of size zero and no bytes. -/
def sampleMessage : Message where
  dataList := [
    .ndarray {
      dtype := .int16, shape := [3], data := [1, 0, 2, 0, 3, 0], size_eq := rfl },
    .ndarray { dtype := .float32, shape := [0, 2], data := [], size_eq := rfl },
    .bytes []]
  funcKey := "app.handler"
  flags := 0

/-- Two messages, in chunks of four bytes. -/
theorem streamsReassemble_of_sendable_sample :
    StreamsReassemble [sampleMessage, { sampleMessage with dataList := [.bytes [7]] }] 4 := by
  refine streamsReassemble_of_sendable _ 4 (by decide) fun message member => ?_
  simp only [List.mem_cons, List.not_mem_nil, or_false] at member
  rcases member with rfl | rfl
  · refine ⟨by decide, by decide, fun arg isArg => ?_⟩
    simp only [sampleMessage, List.mem_cons, List.not_mem_nil, or_false] at isArg
    rcases isArg with rfl | rfl | rfl
    · exact ⟨by decide, by decide, by decide⟩
    · exact ⟨by decide, by decide, by decide⟩
    · exact ⟨by decide, by decide, by decide⟩
  · refine ⟨by decide, by decide, fun arg isArg => ?_⟩
    simp only [List.mem_cons, List.not_mem_nil, or_false] at isArg
    subst isArg
    exact ⟨by decide, by decide, by decide⟩

/-- An argument of too many chunks is not sent. -/
theorem streamArg_overflows
    {funcKey : String}
    {flags : Int64}
    {chunkSize numArgs argIdx : Nat}
    {arg : Buffer}
    {data : ArgData}
    (positive : 0 < chunkSize)
    (read : arg.argData = .ok data)
    (axes : arg.hasAxes = true)
    (tooMany : int32Bound ≤ numChunks arg.toBytes.length chunkSize) :
    streamArg funcKey flags chunkSize numArgs (arg, argIdx) =
      .raise (.valueError "Value out of range") := by
  have sameBytes := dataBytes_eq read
  have viewed := Buffer.viewUint8_eq_ok axes
  obtain ⟨others, count⟩ :=
    Nat.exists_eq_succ_of_ne_zero
      (Nat.pos_iff_ne_zero.mp (numChunks_pos arg.toBytes.length chunkSize))
  simp only [streamArg, read, viewed, sameBytes]
  rw [if_neg (Nat.pos_iff_ne_zero.mp positive), count, List.range_succ_eq_map,
    Generated.forEach, yieldMessage, if_neg]
  · rfl
  · simp only [chunkMessage, sameBytes]
    omega

/-- An array of complex numbers. -/
def complexMessage : Message where
  dataList := [
    .ndarray {
      dtype := .other "complex128" 16, shape := [1], data := List.replicate 16 0,
      size_eq := rfl }]
  funcKey := "app.handler"
  flags := 0

/-- A message of bytes. -/
def bytesMessage (data : Bytes) : Message where
  dataList := [.bytes data]
  funcKey := "app.handler"
  flags := 0

theorem bytesMessage_overflows
    {data : Bytes}
    (tooLong : int32Bound ≤ data.length) :
    (bytesMessage data).stream 1 = .raise (.valueError "Value out of range") := by
  have tooMany : int32Bound ≤ numChunks data.length 1 := by
    rw [numChunks_eq_max, divUp, Nat.div_one]
    omega
  have overflows :=
    @streamArg_overflows "app.handler" 0 1 1 0 (.bytes data) _ Nat.one_pos rfl rfl tooMany
  simp [Message.stream, toProtobufStreamGen, bytesMessage, Generated.forEach, overflows,
    Generated.raise, Generated.andThen]

/--
The sender raises for an array of a dtype that protobuf messages do not carry, and
for an argument whose chunks an `int32` cannot count.
-/
theorem not_streamsReassemble :
    (complexMessage.dataList ≠ [] ∧ (∀ arg ∈ complexMessage.dataList, arg.hasAxes = true) ∧
      ¬ StreamsReassemble [complexMessage] 4) ∧
    ¬ StreamsReassemble [bytesMessage (List.replicate int32Bound 0)] 1 := by
  refine ⟨⟨by decide, by decide, fun reassembles => ?_⟩, fun reassembles => ?_⟩
  · have raised := reassembles.1 _ List.mem_cons_self
    have unsupported :=
      @NpDtype.toPb_of_not_isSupported (.other "complex128" 16) (by decide)
    simp [Message.stream, toProtobufStreamGen, complexMessage, Generated.forEach, streamArg,
      Buffer.argData, unsupported, bind, Except.bind, Generated.raise, Generated.andThen] at raised
  · have raised := reassembles.1 _ List.mem_cons_self
    rw [bytesMessage_overflows (Nat.le_of_eq List.length_replicate.symm)] at raised
    cases raised

end TensorPC.Rpc
