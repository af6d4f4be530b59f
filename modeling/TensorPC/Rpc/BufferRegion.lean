import TensorPC.Lib.Computation
import TensorPC.Lib.Segments
import TensorPC.Rpc.Payload
import TensorPC.Rpc.SkeletonBuffers

namespace TensorPC.Rpc

/-!
# Buffers in a region of bytes

The shared memory transfer and the buffer format write the bytes of all buffers of a
payload one after the other into a region, and behind them the pickled skeleton.  The
reader computes the same positions from the dtypes and shapes alone.
-/

open Computation (bind_of_ok bind_of_error)
open Segments (Placement)
open Wire (Bytes)

/-! ## Metadata -/

/-- `data2pb(array_or_bytes, send_data=False)`. -/
def data2pbMeta (arrayOrBytes : Buffer) : PyResult PbNdarray := do
  let pb ← data2pb arrayOrBytes
  .ok { pb with data := [] }

/-- `pb2meta`; the readers test the dtype for `None`. -/
def pb2meta (buf : PbNdarray) : PyResult (List Nat × Option NpDtype) :=
  if buf.dtype.type = .customBytes then
    .ok (buf.shape, some .uint8)
  else do
    let dtype ← buf.dtype.toNpDtype
    .ok (buf.shape, some dtype)

/-- `align_offset`. -/
def alignOffset (offset n : Nat) : Nat :=
  if n ≤ 0 then
    offset
  else
    n * ((offset + n - 1) / n)

/-! ## Writing -/

/-- An entry of `array_buffers`; its size is the number of its bytes. -/
inductive ArrayBuffer where
  | bytes (data : Bytes)
  /-- The `np.uint8` view of an array. -/
  | view (data : Bytes)

/-- The bytes of an entry. -/
def ArrayBuffer.data : ArrayBuffer → Bytes
  | bytes data => data
  | view data => data

/-- `arr.view(np.uint8)`. -/
def NDArray.viewUint8 (arr : NDArray) : PyResult Bytes :=
  if arr.shape = [] ∧ arr.dtype.itemsize ≠ 1 then
    .error (.valueError
      "Changing the dtype of a 0d array is only supported if the itemsize is unchanged")
  else
    .ok arr.data

/-- The entry of a buffer in `array_buffers`. -/
def Buffer.toArrayBuffer : Buffer → PyResult ArrayBuffer
  | .ndarray arr => do
      let view ← arr.viewUint8
      .ok (.view view)
  | .bytes data => .ok (.bytes data)
  | .arrayBuffer buffer => .ok (.bytes buffer.data)

/-- A one-dimensional `np.uint8` array, with the segments assigned to so far. -/
structure SharedMem where
  bytes : Bytes
  assigned : List (Nat × Nat)

namespace SharedMem

/-- `shared_mem[start:stop] = values`; a slice ends at the end of the array. -/
def assign
    (start stop : Nat)
    (values : Bytes) :
    EStateM PyError SharedMem Unit := do
  let sharedMem ← get
  match assignSlice sharedMem.bytes start stop values with
  | .ok bytes =>
      set {
        bytes := bytes
        assigned := sharedMem.assigned ++
          [(min start sharedMem.bytes.length, min stop sharedMem.bytes.length)]
        : SharedMem }
  | .error raised => throw raised

/-- `memoryview(shared_mem[start:stop])[:] = values`. -/
def assignView
    (start stop : Nat)
    (values : Bytes) :
    EStateM PyError SharedMem Unit := do
  let sharedMem ← get
  if (slice sharedMem.bytes start stop).length = values.length then
    assign start stop values
  else
    throw (.valueError "memoryview assignment: lvalue and rvalue have different structures")

/-- The body of the loop over `array_buffers`. -/
def assignBuffer
    (multiThread : Bool)
    (start : Nat) :
    ArrayBuffer → EStateM PyError SharedMem Unit
  | .view data =>
      if multiThread then
        assign start (start + data.length) data
      else
        assignView start (start + data.length) data
  | .bytes data => assignView start (start + data.length) data

/-- The loop over `array_buffers`, which ends at the position behind them. -/
def assignBuffers
    (multiThread : Bool)
    (alignNbit : Nat) :
    List ArrayBuffer → Nat → EStateM PyError SharedMem Nat
  | [], start => pure start
  | aBuf :: rest, start => do
      assignBuffer multiThread (alignOffset start alignNbit) aBuf
      assignBuffers multiThread alignNbit rest
        (alignOffset start alignNbit + aBuf.data.length)

end SharedMem

/-- Pickling the skeleton and collecting the metadata of all buffers. -/
def prepareMetas
    (pickle : Serializer)
    (data : PyData) :
    PyResult (Bytes × List PbNdarray) := do
  let (arrays, dataSkeleton) := extractArraysFromData data ""
  let dataSkeletonBytes ← pickle.dumps dataSkeleton
  let dataToBeSend ← (arrays ++ [Buffer.bytes dataSkeletonBytes]).mapM data2pbMeta
  .ok (dataSkeletonBytes, dataToBeSend)

/-- The loop that fills `array_buffers`. -/
def prepareBuffers (data : PyData) : PyResult (List ArrayBuffer) :=
  (extractArraysFromData data "").1.mapM Buffer.toArrayBuffer

/-- The value `sum_array_nbytes`. -/
def sumArrayNbytes (arrayBuffers : List ArrayBuffer) : Nat :=
  (arrayBuffers.map fun aBuf => aBuf.data.length).sum

/-- Writing the buffers and behind them the skeleton. -/
def SharedMem.writeRegion
    (multiThread : Bool)
    (alignNbit : Nat)
    (arrayBuffers : List ArrayBuffer)
    (dataSkeletonBytes : Bytes) :
    EStateM PyError SharedMem Unit := do
  let start ← assignBuffers multiThread alignNbit arrayBuffers 0
  assign start (start + dataSkeletonBytes.length) dataSkeletonBytes

/-! ## Reading -/

/-- The value `shape[0]`. -/
def firstAxis : List Nat → PyResult Nat
  | first :: _ => .ok first
  | [] => .error .indexError

/--
The loop over `results_array_metas`; `numItems` multiplies the axes of a shape.  A
copied array has the value of the view.
-/
def readBuffers
    (numItems : List Nat → PyResult Nat)
    (alignNbit : Nat)
    (sharedMem : Bytes) :
    List (List Nat × Option NpDtype) → Nat → PyResult (List Buffer × Nat)
  | [], start => .ok ([], start)
  | (shape, some dtype) :: rest, start => do
      let start := alignOffset start alignNbit
      let items ← numItems shape
      let length := items * dtype.itemsize
      let arr ← frombuffer (slice sharedMem start (start + length)) dtype shape
      let (results, last) ← readBuffers numItems alignNbit sharedMem rest (start + length)
      .ok (.ndarray arr :: results, last)
  | (shape, none) :: rest, start => do
      let start := alignOffset start alignNbit
      let length ← firstAxis shape
      let (results, last) ← readBuffers numItems alignNbit sharedMem rest (start + length)
      .ok (.bytes (slice sharedMem start (start + length)) :: results, last)

/-- Cutting off the metadata of the skeleton, reading the arrays and the skeleton. -/
def readRegion
    (pickle : Serializer)
    (numItems : List Nat → PyResult Nat)
    (alignNbit : Nat)
    (bufs : List PbNdarray)
    (sharedMem : Bytes) :
    PyResult PyData := do
  let resultsMetas ← bufs.mapM pb2meta
  match resultsMetas.getLast? with
  | none => .error .indexError
  | some (skeletonShape, _) => do
      let (resultsArray, start) ←
        readBuffers numItems alignNbit sharedMem resultsMetas.dropLast 0
      let skeletonLength ← firstAxis skeletonShape
      let dataSkeleton ← pickle.loads (slice sharedMem start (start + skeletonLength))
      putArraysToData resultsArray dataSkeleton "__jsonarray_index"

/-! ## What is written -/

theorem le_alignOffset (offset n : Nat) :
    offset ≤ alignOffset offset n := by
  unfold alignOffset
  split
  · exact Nat.le_refl _
  · have parts := Nat.div_add_mod (offset + n - 1) n
    have remainder := Nat.mod_lt (offset + n - 1) (show n > 0 by omega)
    omega

/-- The positions of the buffers. -/
def alignment (alignNbit : Nat) : Placement where
  place offset := alignOffset offset alignNbit
  le_place offset := le_alignOffset offset alignNbit

theorem alignment_zero : alignment 0 = Placement.packed := by
  simp [alignment, Placement.packed, alignOffset]

/-- The memory after buffers were written from a position on. -/
structure Filled
    (alignNbit start : Nat)
    (pieces : List Bytes)
    (before after : SharedMem) : Prop where
  length : after.bytes.length = before.bytes.length
  holds : (alignment alignNbit).Holds after.bytes start pieces
  below :
    ∀ first last,
      last ≤ start → slice after.bytes first last = slice before.bytes first last
  assigned :
    after.assigned =
      before.assigned ++ (alignment alignNbit).spans start (pieces.map List.length)

namespace SharedMem

variable {memory : SharedMem} {start : Nat} {values : Bytes}

theorem assign_eq
    {stop : Nat} :
    assign start stop values memory =
      match assignSlice memory.bytes start stop values with
      | .ok bytes =>
          .ok () {
            bytes := bytes
            assigned := memory.assigned ++
              [(min start memory.bytes.length, min stop memory.bytes.length)] }
      | .error raised => .error raised memory := by
  simp only [assign, bind, EStateM.bind, Computation.get_apply]
  cases assignSlice memory.bytes start stop values <;> rfl

/-- An assignment inside the array stores its values and leaves what lies before. -/
theorem assign_of_fits
    (fits : start + values.length ≤ memory.bytes.length) :
    ∃ after,
      assign start (start + values.length) values memory = .ok () after ∧
        after.bytes.length = memory.bytes.length ∧
        slice after.bytes start (start + values.length) = values ∧
        (∀ first last,
          last ≤ start → slice after.bytes first last = slice memory.bytes first last) ∧
        after.assigned = memory.assigned ++ [(start, start + values.length)] := by
  have width : values.length = (slice memory.bytes start (start + values.length)).length := by
    rw [length_slice]
    omega
  obtain ⟨bytes, assigned⟩ :
      ∃ bytes, assignSlice memory.bytes start (start + values.length) values = .ok bytes := by
    exact ⟨_, if_pos width⟩
  refine ⟨⟨bytes, memory.assigned ++ [(start, start + values.length)]⟩, ?_, ?_, ?_, ?_, rfl⟩
  · have first : min start memory.bytes.length = start := by omega
    have last : min (start + values.length) memory.bytes.length = start + values.length := by
      omega
    simp [assign_eq, assigned, first, last]
  · exact length_assignSlice assigned
  · exact slice_assignSlice_same fits (by omega) (by omega) assigned
  · intro first last before
    exact slice_assignSlice_before (by omega) before assigned

theorem length_of_assign
    {stop : Nat}
    {after : SharedMem}
    (done : assign start stop values memory = .ok () after) :
    after.bytes.length = memory.bytes.length := by
  rw [assign_eq] at done
  split at done
  · rename_i bytes assigned
    cases done
    exact length_assignSlice assigned
  · cases done

/-- The errors of an assignment. -/
def assignmentErrors : List PyError :=
  [.valueError "could not broadcast input array",
    .valueError "memoryview assignment: lvalue and rvalue have different structures"]

theorem assign_error
    {stop : Nat}
    {raised : PyError}
    {after : SharedMem}
    (failed : assign start stop values memory = .error raised after) :
    raised ∈ assignmentErrors := by
  rw [assign_eq] at failed
  split at failed
  · cases failed
  · rename_i cause assigned
    cases failed
    simp only [assignSlice] at assigned
    split at assigned
    · cases assigned
    · split at assigned
      · cases assigned
      · cases assigned
        exact List.mem_cons_self

theorem assign_of_not_fits
    (several : 2 ≤ values.length)
    (outside : memory.bytes.length < start + values.length) :
    ∃ raised ∈ assignmentErrors,
      assign start (start + values.length) values memory = .error raised memory := by
  have width : values.length ≠ (slice memory.bytes start (start + values.length)).length := by
    rw [length_slice]
    omega
  refine ⟨_, List.mem_cons_self, ?_⟩
  have failed :
      assignSlice memory.bytes start (start + values.length) values =
        .error (.valueError "could not broadcast input array") := by
    refine (if_neg width).trans ?_
    rcases values with _ | ⟨first, _ | ⟨second, rest⟩⟩
    · cases several
    · simp at several
    · rfl
  rw [assign_eq, failed]

theorem assignView_eq
    {stop : Nat} :
    assignView start stop values memory =
      if (slice memory.bytes start stop).length = values.length then
        assign start stop values memory
      else
        .error (.valueError
          "memoryview assignment: lvalue and rvalue have different structures") memory := by
  simp only [assignView, bind, EStateM.bind, Computation.get_apply]
  split <;> rfl

variable {multiThread : Bool} {aBuf : ArrayBuffer}

theorem assignBuffer_eq :
    assignBuffer multiThread start aBuf memory =
        assign start (start + aBuf.data.length) aBuf.data memory ∨
      assignBuffer multiThread start aBuf memory =
        assignView start (start + aBuf.data.length) aBuf.data memory := by
  cases aBuf with
  | bytes data =>
      exact .inr rfl
  | view data =>
      cases multiThread with
      | true =>
          exact .inl rfl
      | false =>
          exact .inr rfl

theorem assignBuffer_of_fits
    (fits : start + aBuf.data.length ≤ memory.bytes.length) :
    assignBuffer multiThread start aBuf memory =
      assign start (start + aBuf.data.length) aBuf.data memory := by
  have width :
      (slice memory.bytes start (start + aBuf.data.length)).length = aBuf.data.length := by
    rw [length_slice]
    omega
  rcases @assignBuffer_eq memory start multiThread aBuf with numpy | view
  · exact numpy
  · rw [view, assignView_eq, if_pos width]

theorem length_of_assignBuffer
    {after : SharedMem}
    (done : assignBuffer multiThread start aBuf memory = .ok () after) :
    after.bytes.length = memory.bytes.length := by
  rcases @assignBuffer_eq memory start multiThread aBuf with numpy | view
  · exact length_of_assign (numpy.symm.trans done)
  · rw [view, assignView_eq] at done
    split at done
    · exact length_of_assign done
    · cases done

theorem assignBuffer_error
    {raised : PyError}
    {after : SharedMem}
    (failed : assignBuffer multiThread start aBuf memory = .error raised after) :
    raised ∈ assignmentErrors := by
  rcases @assignBuffer_eq memory start multiThread aBuf with numpy | view
  · exact assign_error (numpy.symm.trans failed)
  · rw [view, assignView_eq] at failed
    split at failed
    · exact assign_error failed
    · cases failed
      exact List.mem_cons_of_mem _ List.mem_cons_self

variable {alignNbit : Nat} {buffers : List ArrayBuffer}

/-- Buffers that end inside the array are all written. -/
theorem assignBuffers_of_fits
    (fits :
      (alignment alignNbit).endOf start (buffers.map fun aBuf => aBuf.data.length) ≤
        memory.bytes.length) :
    ∃ after,
      assignBuffers multiThread alignNbit buffers start memory =
          .ok ((alignment alignNbit).endOf start (buffers.map fun aBuf => aBuf.data.length))
            after ∧
        Filled alignNbit start (buffers.map ArrayBuffer.data) memory after := by
  induction buffers generalizing start memory with
  | nil =>
      refine ⟨memory, rfl, rfl, trivial, fun _ _ _ => rfl, ?_⟩
      simp [Placement.spans]
  | cons aBuf rest inductionHypothesis =>
      have first :
          (alignment alignNbit).place start + aBuf.data.length ≤ memory.bytes.length :=
        Nat.le_trans (Placement.place_add_le_endOf _ _ _) fits
      obtain ⟨middle, written, sameLength, stored, kept, traced⟩ := assign_of_fits first
      obtain ⟨after, others, filled⟩ :=
        @inductionHypothesis middle ((alignment alignNbit).place start + aBuf.data.length)
          (Nat.le_trans fits (Nat.le_of_eq sameLength.symm))
      refine ⟨after, ?_, filled.length.trans sameLength, ⟨?_, filled.holds⟩, ?_, ?_⟩
      · exact (bind_of_ok ((assignBuffer_of_fits first).trans written)).trans others
      · exact (filled.below _ _ (Nat.le_refl _)).trans stored
      · intro from_ last before
        have moved := (alignment alignNbit).le_place start
        exact (filled.below _ _ (by omega)).trans (kept _ _ (by omega))
      · simp only [filled.assigned, traced, List.map_cons, Placement.spans, List.append_assoc,
          List.cons_append, List.nil_append]

theorem assignBuffers_ok
    {last : Nat}
    {after : SharedMem}
    (done : assignBuffers multiThread alignNbit buffers start memory = .ok last after) :
    last = (alignment alignNbit).endOf start (buffers.map fun aBuf => aBuf.data.length) ∧
      after.bytes.length = memory.bytes.length := by
  induction buffers generalizing start memory with
  | nil =>
      cases done
      exact ⟨rfl, rfl⟩
  | cons aBuf rest inductionHypothesis =>
      obtain ⟨_, middle, written, others⟩ := Computation.bind_eq_ok.mp done
      obtain ⟨ends, sameLength⟩ := inductionHypothesis others
      exact ⟨ends, sameLength.trans (length_of_assignBuffer written)⟩

theorem assignBuffers_error
    {raised : PyError}
    {after : SharedMem}
    (failed : assignBuffers multiThread alignNbit buffers start memory = .error raised after) :
    raised ∈ assignmentErrors := by
  induction buffers generalizing start memory with
  | nil =>
      cases failed
  | cons aBuf rest inductionHypothesis =>
      cases written :
          assignBuffer multiThread (alignOffset start alignNbit) aBuf memory with
      | ok result middle =>
          exact inductionHypothesis ((bind_of_ok written).symm.trans failed)
      | error cause middle =>
          have same := (bind_of_error written).symm.trans failed
          cases same
          exact assignBuffer_error written

/-- The position behind the buffers. -/
def regionEnd
    (alignNbit : Nat)
    (buffers : List ArrayBuffer) :
    Nat :=
  (alignment alignNbit).endOf 0 (buffers.map fun aBuf => aBuf.data.length)

/-- The skeleton is written behind the buffers when there is room for all of them. -/
theorem writeRegion_of_fits
    {skeleton : Bytes}
    (fits : regionEnd alignNbit buffers + skeleton.length ≤ memory.bytes.length) :
    ∃ after,
      writeRegion multiThread alignNbit buffers skeleton memory = .ok () after ∧
        after.bytes.length = memory.bytes.length ∧
        (alignment alignNbit).Holds after.bytes 0 (buffers.map ArrayBuffer.data) ∧
        slice after.bytes (regionEnd alignNbit buffers)
          (regionEnd alignNbit buffers + skeleton.length) = skeleton ∧
        after.assigned =
          memory.assigned ++
            ((alignment alignNbit).spans 0 (buffers.map fun aBuf => aBuf.data.length) ++
              [(regionEnd alignNbit buffers,
                regionEnd alignNbit buffers + skeleton.length)]) := by
  obtain ⟨middle, buffersWritten, filled⟩ :=
    @assignBuffers_of_fits memory 0 multiThread alignNbit buffers
      (Nat.le_trans (Nat.le_add_right _ skeleton.length) fits)
  obtain ⟨after, written, sameLength, stored, kept, traced⟩ :=
    @assign_of_fits middle (regionEnd alignNbit buffers) skeleton
      (Nat.le_trans fits (Nat.le_of_eq filled.length.symm))
  refine ⟨after, (bind_of_ok buffersWritten).trans written, sameLength.trans filled.length, ?_,
    stored, ?_⟩
  · refine Placement.Holds.congr ?_ filled.holds
    intro first last inside
    rw [List.map_map] at inside
    exact kept first last inside
  · rw [traced, filled.assigned, List.map_map, List.append_assoc]
    rfl

theorem writeRegion_of_not_fits
    {skeleton : Bytes}
    (several : 2 ≤ skeleton.length)
    (outside : memory.bytes.length < regionEnd alignNbit buffers + skeleton.length) :
    ∃ raised ∈ assignmentErrors,
      ∃ after,
        writeRegion multiThread alignNbit buffers skeleton memory = .error raised after := by
  cases written : assignBuffers multiThread alignNbit buffers 0 memory with
  | error raised after =>
      exact ⟨raised, assignBuffers_error written, after, bind_of_error written⟩
  | ok last after =>
      obtain ⟨ends, sameLength⟩ := assignBuffers_ok written
      subst ends
      obtain ⟨raised, known, failed⟩ :=
        @assign_of_not_fits after (regionEnd alignNbit buffers) skeleton several (by omega)
      exact ⟨raised, known, after, (bind_of_ok written).trans failed⟩

end SharedMem

/-! ## What is read -/

/-- Bytes as an array of `np.uint8`. -/
def NDArray.ofBytes (data : Bytes) : NDArray where
  dtype := .uint8
  shape := [data.length]
  data := data
  size_eq := by simp [NpDtype.itemsize]

/-- What the readers make of a buffer: `pb2meta` has a dtype for bytes as well. -/
def Buffer.asArray : Buffer → NDArray
  | .ndarray arr => arr
  | .bytes data => .ofBytes data
  | .arrayBuffer buffer => .ofBytes buffer.data

/-- The shape and dtype of an array. -/
def NDArray.meta (arr : NDArray) : List Nat × Option NpDtype :=
  (arr.shape, some arr.dtype)

/-- An array of another item size than one byte cannot be viewed when it has no axes. -/
def Buffer.isViewable : Buffer → Bool
  | .ndarray arr => !(arr.shape = [] ∧ arr.dtype.itemsize ≠ 1 : Bool)
  | .bytes _ | .arrayBuffer _ => true

theorem pb2meta_data2pbMeta
    {value : Buffer}
    (supported : value.isSupported = true) :
    ∃ buf, data2pbMeta value = .ok buf ∧ pb2meta buf = .ok value.asArray.meta := by
  cases value with
  | ndarray arr =>
      obtain ⟨pbDtype, sent, read, notBytes, -⟩ := NpDtype.toPb_of_isSupported supported
      refine ⟨⟨arr.shape, pbDtype, []⟩, ?_, ?_⟩
      · simp [data2pbMeta, data2pb, array2pb, sent, bind, Except.bind]
      · simp [pb2meta, notBytes, read, Buffer.asArray, NDArray.meta, bind, Except.bind]
  | bytes data =>
      exact ⟨⟨[data.length], { type := .customBytes }, []⟩, rfl, rfl⟩
  | arrayBuffer buffer =>
      cases supported

theorem mapM_pb2meta_mapM_data2pbMeta
    {buffers : List Buffer}
    (supported : ∀ value ∈ buffers, value.isSupported = true) :
    ∃ bufs,
      buffers.mapM data2pbMeta = .ok bufs ∧
        bufs.mapM pb2meta = .ok (buffers.map fun value => value.asArray.meta) := by
  induction buffers with
  | nil =>
      exact ⟨[], rfl, rfl⟩
  | cons value rest inductionHypothesis =>
      obtain ⟨buf, sent, readBack⟩ := pb2meta_data2pbMeta (supported value List.mem_cons_self)
      obtain ⟨bufs, sentRest, readRest⟩ :=
        inductionHypothesis fun other member =>
          supported other (List.mem_cons_of_mem _ member)
      refine ⟨buf :: bufs, ?_, ?_⟩
      · simp [sent, sentRest, bind, Except.bind, pure, Except.pure]
      · simp [readBack, readRest, bind, Except.bind, pure, Except.pure]

/-- A buffer is written with the bytes of what is read. -/
theorem toArrayBuffer_eq_ok
    {value : Buffer}
    {aBuf : ArrayBuffer}
    (viewed : value.toArrayBuffer = .ok aBuf) :
    value.isViewable = true ∧ aBuf.data = value.asArray.data := by
  cases value with
  | ndarray arr =>
      simp only [Buffer.toArrayBuffer, NDArray.viewUint8] at viewed
      obtain ⟨view, read, made⟩ := PyResult.bind_eq_ok.mp viewed
      cases made
      split at read
      · cases read
      · rename_i axes
        cases read
        refine ⟨?_, rfl⟩
        simpa only [Buffer.isViewable, Bool.not_eq_true', decide_eq_false_iff_not] using axes
  | bytes data =>
      cases viewed
      exact ⟨rfl, rfl⟩
  | arrayBuffer buffer =>
      cases viewed
      exact ⟨rfl, rfl⟩

theorem toArrayBuffer_of_isViewable
    {value : Buffer}
    (viewable : value.isViewable = true) :
    ∃ aBuf, value.toArrayBuffer = .ok aBuf := by
  cases value with
  | ndarray arr =>
      have axes : ¬ (arr.shape = [] ∧ arr.dtype.itemsize ≠ 1) := by
        simpa only [Buffer.isViewable, Bool.not_eq_true', decide_eq_false_iff_not]
          using viewable
      exact ⟨.view arr.data, by
        simp [Buffer.toArrayBuffer, NDArray.viewUint8, axes, bind, Except.bind]⟩
  | bytes data =>
      exact ⟨_, rfl⟩
  | arrayBuffer buffer =>
      exact ⟨_, rfl⟩

theorem mapM_toArrayBuffer_eq_ok
    {buffers : List Buffer}
    {entries : List ArrayBuffer}
    (viewed : buffers.mapM Buffer.toArrayBuffer = .ok entries) :
    (∀ value ∈ buffers, value.isViewable = true) ∧
      entries.map ArrayBuffer.data = buffers.map fun value => value.asArray.data := by
  have related := PyResult.mapM_eq_ok.mp viewed
  clear viewed
  induction related with
  | nil =>
      simp
  | cons head tail inductionHypothesis =>
      obtain ⟨viewable, same⟩ := toArrayBuffer_eq_ok head
      simp only [List.forall_mem_cons, List.map_cons, same, inductionHypothesis.2]
      exact ⟨⟨viewable, inductionHypothesis.1⟩, trivial⟩

theorem mapM_toArrayBuffer_of_isViewable
    {buffers : List Buffer}
    (viewable : ∀ value ∈ buffers, value.isViewable = true) :
    ∃ entries, buffers.mapM Buffer.toArrayBuffer = .ok entries := by
  induction buffers with
  | nil =>
      exact ⟨[], rfl⟩
  | cons value rest inductionHypothesis =>
      obtain ⟨aBuf, viewed⟩ := toArrayBuffer_of_isViewable (viewable value List.mem_cons_self)
      obtain ⟨entries, others⟩ :=
        inductionHypothesis fun other member => viewable other (List.mem_cons_of_mem _ member)
      exact ⟨aBuf :: entries, by
        simp [viewed, others, bind, Except.bind, pure, Except.pure]⟩

section Reading

variable {numItems : List Nat → PyResult Nat} {alignNbit : Nat} {sharedMem : Bytes}
variable {arrays : List NDArray} {start : Nat}

theorem frombuffer_data (arr : NDArray) :
    frombuffer arr.data arr.dtype arr.shape = .ok arr :=
  dif_pos arr.size_eq

/-- Arrays are read from the segments that hold their bytes. -/
theorem readBuffers_of_holds
    (counted : ∀ arr ∈ arrays, numItems arr.shape = .ok arr.shape.prod)
    (holds : (alignment alignNbit).Holds sharedMem start (arrays.map NDArray.data)) :
    readBuffers numItems alignNbit sharedMem (arrays.map NDArray.meta) start =
      .ok (arrays.map Buffer.ndarray,
        (alignment alignNbit).endOf start (arrays.map fun arr => arr.data.length)) := by
  induction arrays generalizing start with
  | nil =>
      rfl
  | cons arr rest inductionHypothesis =>
      obtain ⟨stored, others⟩ := holds
      have width : arr.shape.prod * arr.dtype.itemsize = arr.data.length := by
        rw [arr.size_eq, Nat.mul_comm]
      have found :
          frombuffer
              (slice sharedMem (alignOffset start alignNbit)
                (alignOffset start alignNbit + arr.shape.prod * arr.dtype.itemsize))
              arr.dtype arr.shape =
            .ok arr := by
        have view :
            slice sharedMem (alignOffset start alignNbit)
                (alignOffset start alignNbit + arr.data.length) =
              arr.data :=
          stored
        rw [width, view]
        exact frombuffer_data arr
      have remaining :=
        inductionHypothesis
          (fun other member => counted other (List.mem_cons_of_mem _ member)) others
      refine PyResult.bind_eq_ok.mpr ⟨_, counted arr List.mem_cons_self, ?_⟩
      refine PyResult.bind_eq_ok.mpr ⟨_, found, ?_⟩
      rw [width]
      refine PyResult.bind_eq_ok.mpr ⟨(rest.map Buffer.ndarray, _), remaining, rfl⟩

theorem counted_of_readBuffers
    {results : List Buffer × Nat}
    (read :
      readBuffers numItems alignNbit sharedMem (arrays.map NDArray.meta) start =
        .ok results) :
    ∀ arr ∈ arrays, ∃ items, numItems arr.shape = .ok items := by
  induction arrays generalizing start results with
  | nil =>
      intro arr member
      cases member
  | cons arr rest inductionHypothesis =>
      simp only [List.map_cons, NDArray.meta, readBuffers] at read
      obtain ⟨items, counted, read⟩ := PyResult.bind_eq_ok.mp read
      obtain ⟨first, -, read⟩ := PyResult.bind_eq_ok.mp read
      obtain ⟨others, remaining, -⟩ := PyResult.bind_eq_ok.mp read
      intro other member
      rcases List.mem_cons.mp member with rfl | later
      · exact ⟨items, counted⟩
      · exact inductionHypothesis remaining other later

theorem readRegion_eq
    {pickle : Serializer}
    {bufs : List PbNdarray}
    {skeletonBytes : Bytes}
    (metas :
      bufs.mapM pb2meta =
        .ok (arrays.map NDArray.meta ++ [(NDArray.ofBytes skeletonBytes).meta])) :
    readRegion pickle numItems alignNbit bufs sharedMem =
      (do
        let (resultsArray, start) ←
          readBuffers numItems alignNbit sharedMem (arrays.map NDArray.meta) 0
        let dataSkeleton ←
          pickle.loads (slice sharedMem start (start + skeletonBytes.length))
        putArraysToData resultsArray dataSkeleton "__jsonarray_index") := by
  simp [readRegion, metas, NDArray.ofBytes, NDArray.meta, firstAxis, bind, Except.bind]

variable {pickle : Serializer} {data : PyData} {skeletonBytes : Bytes} {bufs : List PbNdarray}

/-- The arrays that a payload is read with. -/
def PyData.asArrays (data : PyData) : PyData :=
  data.mapBuffers fun value => .ndarray value.asArray

/-- The metadata that are sent for a payload give the shape and dtype of every array. -/
theorem prepareMetas_of_supported
    (supported : ∀ value ∈ data.buffers, value.isSupported = true)
    (pickled : pickle.dumps (extractArraysFromData data "").2 = .ok skeletonBytes) :
    ∃ bufs,
      prepareMetas pickle data = .ok (skeletonBytes, bufs) ∧
        bufs.mapM pb2meta =
          .ok ((data.buffers.map Buffer.asArray).map NDArray.meta ++
            [(NDArray.ofBytes skeletonBytes).meta]) := by
  have all : ∀ value ∈ data.buffers ++ [Buffer.bytes skeletonBytes],
      value.isSupported = true := by
    intro value member
    rcases List.mem_append.mp member with buffer | last
    · exact supported value buffer
    · obtain rfl := List.mem_singleton.mp last
      rfl
  obtain ⟨bufs, sent, metas⟩ := mapM_pb2meta_mapM_data2pbMeta all
  have extracted : (extractArrays "" data []).1 = data.buffers :=
    extractArrays_fst "" data []
  refine ⟨bufs, ?_, ?_⟩
  · refine PyResult.bind_eq_ok.mpr ⟨_, pickled, ?_⟩
    rw [extracted]
    exact PyResult.bind_eq_ok.mpr ⟨_, sent, rfl⟩
  · rw [metas, List.map_append, List.map_map]
    rfl

/-- A region that holds the bytes of all buffers is read as a payload of arrays. -/
theorem readRegion_of_holds
    (payload : data.isPayload = true)
    (avoids : data.avoidsKey (.str "__jsonarray_index") false = true)
    (metas :
      bufs.mapM pb2meta =
        .ok ((data.buffers.map Buffer.asArray).map NDArray.meta ++
          [(NDArray.ofBytes skeletonBytes).meta]))
    (unpickled :
      pickle.loads skeletonBytes = .ok (extractArraysFromData data "").2)
    (counted :
      ∀ value ∈ data.buffers,
        numItems value.asArray.shape = .ok value.asArray.shape.prod)
    {last : Nat}
    (ends :
      last =
        (alignment alignNbit).endOf 0 (data.buffers.map fun value =>
          value.asArray.data.length))
    (holds :
      (alignment alignNbit).Holds sharedMem 0
        (data.buffers.map fun value => value.asArray.data))
    (skeleton : slice sharedMem last (last + skeletonBytes.length) = skeletonBytes) :
    readRegion pickle numItems alignNbit bufs sharedMem = .ok data.asArrays := by
  have arraysCounted :
      ∀ arr ∈ data.buffers.map Buffer.asArray, numItems arr.shape = .ok arr.shape.prod := by
    intro arr member
    obtain ⟨value, buffer, rfl⟩ := List.mem_map.mp member
    exact counted value buffer
  have arraysHeld :
      (alignment alignNbit).Holds sharedMem 0
        ((data.buffers.map Buffer.asArray).map NDArray.data) := by
    rw [List.map_map]
    exact holds
  have read := readBuffers_of_holds arraysCounted arraysHeld
  rw [readRegion_eq metas]
  refine PyResult.bind_eq_ok.mpr ⟨_, read, ?_⟩
  simp only [List.map_map]
  subst ends
  refine PyResult.bind_eq_ok.mpr ⟨_, (congrArg pickle.loads skeleton).trans unpickled, ?_⟩
  exact putArraysToData_map _ payload avoids

theorem counted_of_readRegion
    {result : PyData}
    (metas :
      bufs.mapM pb2meta =
        .ok ((data.buffers.map Buffer.asArray).map NDArray.meta ++
          [(NDArray.ofBytes skeletonBytes).meta]))
    (read : readRegion pickle numItems alignNbit bufs sharedMem = .ok result) :
    ∀ value ∈ data.buffers, ∃ items, numItems value.asArray.shape = .ok items := by
  rw [readRegion_eq metas] at read
  obtain ⟨results, buffersRead, -⟩ := PyResult.bind_eq_ok.mp read
  intro value member
  exact counted_of_readBuffers buffersRead _ (List.mem_map_of_mem member)

end Reading

end TensorPC.Rpc
