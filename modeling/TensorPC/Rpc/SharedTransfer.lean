import TensorPC.Rpc.BufferRegion

namespace TensorPC.Rpc

/-!
# Transfer through shared memory

`data_to_pb_shmem` writes the arrays of a payload into a shared buffer and sends their
metadata only.  Its size check adds up the sizes of all pieces, while the writer also
skips bytes to align them: where the pieces alone fit, the aligned ones may not.
-/

open Computation (bind_of_ok bind_of_error)
open Segments (Placement)
open Wire (Bytes)

/-- The error of the size check. -/
def tooSmall (x y : Nat) : PyError :=
  .valueError ("your shared mem is too small: " ++ toString x ++ " vs " ++ toString y ++ ".")

/-- `data_to_pb_shmem`, from the size check on. -/
def checkAndWrite
    (multiThread : Bool)
    (alignNbit : Nat)
    (dataSkeletonBytes : Bytes)
    (dataToBeSend : List PbNdarray)
    (arrayBuffers : List ArrayBuffer) :
    EStateM PyError SharedMem (List PbNdarray) := do
  let sharedMem ← get
  if sumArrayNbytes arrayBuffers + dataSkeletonBytes.length > sharedMem.bytes.length then
    throw
      (tooSmall (sumArrayNbytes arrayBuffers + dataSkeletonBytes.length)
        sharedMem.bytes.length)
  else do
    SharedMem.writeRegion multiThread alignNbit arrayBuffers dataSkeletonBytes
    pure dataToBeSend

/-- `data_to_pb_shmem`, for a one-dimensional `np.uint8` array. -/
def dataToPbShmem
    (pickle : Serializer)
    (data : PyData)
    (multiThread : Bool)
    (alignNbit : Nat) :
    EStateM PyError SharedMem (List PbNdarray) :=
  match prepareMetas pickle data with
  | .error raised => throw raised
  | .ok (dataSkeletonBytes, dataToBeSend) =>
      match prepareBuffers data with
      | .error raised => throw raised
      | .ok arrayBuffers =>
          checkAndWrite multiThread alignNbit dataSkeletonBytes dataToBeSend arrayBuffers

/-- `np.prod(shape, dtype=np.int64, initial=1)`. -/
def npProd (shape : List Nat) : PyResult Nat :=
  .ok shape.prod

/-- `data_from_pb_shmem`. -/
def dataFromPbShmem
    (pickle : Serializer)
    (bufs : List PbNdarray)
    (sharedMem : Bytes)
    (alignNbit : Nat) :
    PyResult PyData :=
  readRegion pickle npProd alignNbit bufs sharedMem

/-! ## Safe and exact transfers -/

/-- A list of arrays. -/
def arrayList (arrays : List NDArray) : PyData :=
  .list (arrays.map fun arr => .buffer (.ndarray arr))

/-- A shared buffer before the transfer. -/
def freshMem (bytes : Bytes) : SharedMem where
  bytes := bytes
  assigned := []

/--
The writer raises the error of its size check before it writes, or it writes disjoint
segments inside the buffer from which the reader gets the arrays.
-/
def TransfersSafely
    (pickle : Serializer)
    (arrays : List NDArray)
    (bytes : Bytes)
    (multiThread : Bool)
    (alignNbit : Nat) : Prop :=
  (∃ x y,
    dataToPbShmem pickle (arrayList arrays) multiThread alignNbit (freshMem bytes) =
      .error (tooSmall x y) (freshMem bytes)) ∨
  (∃ bufs after,
    dataToPbShmem pickle (arrayList arrays) multiThread alignNbit (freshMem bytes) =
        .ok bufs after ∧
      (∀ segment ∈ after.assigned, segment.1 ≤ segment.2 ∧ segment.2 ≤ bytes.length) ∧
      (after.assigned.Pairwise fun first second => first.2 ≤ second.1) ∧
      after.bytes.length = bytes.length ∧
      dataFromPbShmem pickle bufs after.bytes alignNbit = .ok (arrayList arrays))

/-- A pickle starts with the opcode `PROTO` and ends with `STOP`. -/
def Serializer.IsFramed (pickle : Serializer) : Prop :=
  ∀ data bytes, pickle.dumps data = .ok bytes → 2 ≤ bytes.length

/-- The skeleton of a list of arrays. -/
def arrayListSkeleton (arrays : List NDArray) : PyData :=
  (extractArraysFromData (arrayList arrays) "").2

/-- The length of the pickled skeleton. -/
def skeletonLength
    (pickle : Serializer)
    (arrays : List NDArray) :
    Nat :=
  match pickle.dumps (arrayListSkeleton arrays) with
  | .ok bytes => bytes.length
  | .error _ => 0

/-- The end of the aligned arrays. -/
def alignedEnd
    (alignNbit : Nat)
    (arrays : List NDArray) :
    Nat :=
  (alignment alignNbit).endOf 0 (arrays.map fun arr => arr.data.length)

/--
The dtypes can be sent, an array without axes has items of one byte, and when the sizes
of all pieces fit into the buffer the aligned pieces fit as well.
-/
structure TransferFits
    (pickle : Serializer)
    (arrays : List NDArray)
    (bytes : Bytes)
    (alignNbit : Nat) : Prop where
  supported : ∀ arr ∈ arrays, arr.dtype.isSupported = true
  viewable : ∀ arr ∈ arrays, arr.shape ≠ [] ∨ arr.dtype.itemsize = 1
  aligned :
    (arrays.map fun arr => arr.data.length).sum + skeletonLength pickle arrays ≤ bytes.length →
      alignedEnd alignNbit arrays + skeletonLength pickle arrays ≤ bytes.length

/-! ## The payload -/

section Payload

variable {arrays : List NDArray}

theorem buffers_arrayList :
    (arrayList arrays).buffers = arrays.map Buffer.ndarray := by
  simp only [arrayList, PyData.buffers]
  induction arrays with
  | nil =>
      rfl
  | cons arr rest inductionHypothesis =>
      simp [PyData.buffersList, PyData.buffers, inductionHypothesis]

theorem isPayload_arrayList
    (supported : ∀ arr ∈ arrays, arr.dtype.isSupported = true) :
    (arrayList arrays).isPayload = true := by
  simp only [arrayList, PyData.isPayload]
  induction arrays with
  | nil =>
      rfl
  | cons arr rest inductionHypothesis =>
      simp only [List.map_cons, PyData.isPayloadList, PyData.isPayload, Bool.and_eq_true]
      exact ⟨supported arr List.mem_cons_self,
        inductionHypothesis fun other member => supported other (List.mem_cons_of_mem _ member)⟩

theorem avoidsKey_arrayList
    {key : Kv.Scalar}
    {inside : Bool} :
    (arrayList arrays).avoidsKey key inside = true := by
  simp only [arrayList, PyData.avoidsKey]
  induction arrays with
  | nil =>
      rfl
  | cons arr rest inductionHypothesis =>
      simp [PyData.avoidsKeyList, PyData.avoidsKey, inductionHypothesis]

theorem asArrays_arrayList :
    (arrayList arrays).asArrays = arrayList arrays := by
  refine (PyData.mapBuffers_eq_self_iff _ _).mpr ?_
  rw [buffers_arrayList]
  intro value member
  obtain ⟨arr, -, rfl⟩ := List.mem_map.mp member
  rfl

end Payload

/-! ## Preparation -/

theorem data2pbMeta_eq_error
    {value : Buffer}
    {raised : PyError}
    (failed : data2pbMeta value = .error raised) :
    ∃ key, raised = .keyError key := by
  cases value with
  | ndarray arr =>
      by_cases supported : arr.dtype.isSupported = true
      · obtain ⟨buf, sent, -⟩ := @pb2meta_data2pbMeta (.ndarray arr) supported
        rw [sent] at failed
        cases failed
      · have missing := NpDtype.toPb_of_not_isSupported (Bool.eq_false_iff.mpr supported)
        simp only [data2pbMeta, data2pb, array2pb, missing, bind, Except.bind] at failed
        cases failed
        exact ⟨_, rfl⟩
  | bytes data =>
      cases failed
  | arrayBuffer buffer =>
      cases failed

theorem isSupported_of_data2pbMeta
    {arr : NDArray}
    {buf : PbNdarray}
    (sent : data2pbMeta (.ndarray arr) = .ok buf) :
    arr.dtype.isSupported = true := by
  by_contra unsupported
  have missing := NpDtype.toPb_of_not_isSupported (Bool.eq_false_iff.mpr unsupported)
  simp [data2pbMeta, data2pb, array2pb, missing, bind, Except.bind] at sent

/-- The first letter of the message of a `ValueError`. -/
def messageStart : PyError → Option Char
  | .valueError message => message.toList.head?
  | _ => none

theorem messageStart_tooSmall (x y : Nat) :
    messageStart (tooSmall x y) = some 'y' := by
  simp [messageStart, tooSmall, String.toList_append]

theorem messageStart_of_assignment
    {raised : PyError}
    (assignment : raised ∈ SharedMem.assignmentErrors) :
    messageStart raised ≠ some 'y' := by
  simp only [SharedMem.assignmentErrors, List.mem_cons, List.not_mem_nil, or_false] at assignment
  rcases assignment with rfl | rfl
  · simp [messageStart]
  · simp [messageStart]

theorem messageStart_of_toArrayBuffer
    {value : Buffer}
    {raised : PyError}
    (failed : value.toArrayBuffer = .error raised) :
    messageStart raised ≠ some 'y' := by
  cases value with
  | ndarray arr =>
      simp only [Buffer.toArrayBuffer, NDArray.viewUint8] at failed
      split at failed
      · cases failed
        simp [messageStart]
      · cases failed
  | bytes data =>
      cases failed
  | arrayBuffer buffer =>
      cases failed

section Transfer

variable {pickle : Serializer} {arrays : List NDArray} {skeletonBytes : Bytes}
variable {multiThread : Bool} {alignNbit : Nat} {memory : SharedMem}

theorem extractArrays_arrayList :
    (extractArraysFromData (arrayList arrays) "").1 = arrays.map Buffer.ndarray :=
  (extractArrays_fst "" (arrayList arrays) []).trans buffers_arrayList

theorem prepareBuffers_of_viewable
    (viewable : ∀ arr ∈ arrays, arr.shape ≠ [] ∨ arr.dtype.itemsize = 1) :
    ∃ entries, prepareBuffers (arrayList arrays) = .ok entries := by
  rw [prepareBuffers, extractArrays_arrayList]
  apply mapM_toArrayBuffer_of_isViewable
  intro value member
  obtain ⟨arr, inside, rfl⟩ := List.mem_map.mp member
  simp only [Buffer.isViewable, Bool.not_eq_true', decide_eq_false_iff_not, not_and,
    Decidable.not_not]
  exact fun axes => (viewable arr inside).resolve_left fun some_ => some_ axes

theorem prepareBuffers_eq_ok
    {entries : List ArrayBuffer}
    (viewed : prepareBuffers (arrayList arrays) = .ok entries) :
    (∀ arr ∈ arrays, arr.shape ≠ [] ∨ arr.dtype.itemsize = 1) ∧
      entries.map ArrayBuffer.data = arrays.map NDArray.data := by
  rw [prepareBuffers, extractArrays_arrayList] at viewed
  obtain ⟨viewable, same⟩ := mapM_toArrayBuffer_eq_ok viewed
  refine ⟨?_, ?_⟩
  · intro arr member
    have inside := viewable _ (List.mem_map_of_mem member)
    simp only [Buffer.isViewable, Bool.not_eq_true', decide_eq_false_iff_not, not_and,
      Decidable.not_not] at inside
    by_cases axes : arr.shape = []
    · exact .inr (inside axes)
    · exact .inl axes
  · rw [same, List.map_map]
    rfl

/-- Where an array cannot be sent or viewed, the error is not that of the size check. -/
theorem dataToPbShmem_of_unfit
    (pickled : pickle.dumps (arrayListSkeleton arrays) = .ok skeletonBytes)
    (unfit :
      ¬ ((∀ arr ∈ arrays, arr.dtype.isSupported = true) ∧
        ∀ arr ∈ arrays, arr.shape ≠ [] ∨ arr.dtype.itemsize = 1)) :
    ∃ raised,
      messageStart raised ≠ some 'y' ∧
        dataToPbShmem pickle (arrayList arrays) multiThread alignNbit memory =
          .error raised memory := by
  have metasOf :
      prepareMetas pickle (arrayList arrays) =
        (arrays.map Buffer.ndarray ++ [Buffer.bytes skeletonBytes]).mapM data2pbMeta >>=
          fun dataToBeSend => .ok (skeletonBytes, dataToBeSend) := by
    have extracted : (extractArrays "" (arrayList arrays) []).1 = arrays.map Buffer.ndarray :=
      extractArrays_arrayList
    have dumped :
        pickle.dumps (extractArrays "" (arrayList arrays) []).2 = .ok skeletonBytes :=
      pickled
    simp only [prepareMetas, extractArraysFromData, dumped, extracted, bind, Except.bind]
  cases sent : (arrays.map Buffer.ndarray ++ [Buffer.bytes skeletonBytes]).mapM data2pbMeta with
  | error raised =>
      obtain ⟨value, -, failed⟩ := PyResult.exists_of_mapM_eq_error sent
      obtain ⟨key, rfl⟩ := data2pbMeta_eq_error failed
      refine ⟨.keyError key, by simp [messageStart], ?_⟩
      rw [dataToPbShmem, metasOf, sent]
      rfl
  | ok bufs =>
      have supported : ∀ arr ∈ arrays, arr.dtype.isSupported = true := by
        intro arr member
        obtain ⟨buf, made⟩ :=
          PyResult.exists_of_mapM_eq_ok sent _
            (List.mem_append_left _ (List.mem_map_of_mem member))
        exact isSupported_of_data2pbMeta made
      cases viewed : prepareBuffers (arrayList arrays) with
      | error raised =>
          obtain ⟨value, -, failed⟩ := PyResult.exists_of_mapM_eq_error viewed
          refine ⟨raised, messageStart_of_toArrayBuffer failed, ?_⟩
          rw [dataToPbShmem, metasOf, sent]
          simp only [bind, Except.bind, viewed]
          rfl
      | ok entries =>
          exact absurd ⟨supported, (prepareBuffers_eq_ok viewed).1⟩ unfit

theorem checkAndWrite_eq
    {bufs : List PbNdarray}
    {entries : List ArrayBuffer} :
    checkAndWrite multiThread alignNbit skeletonBytes bufs entries memory =
      if sumArrayNbytes entries + skeletonBytes.length > memory.bytes.length then
        .error
          (tooSmall (sumArrayNbytes entries + skeletonBytes.length) memory.bytes.length) memory
      else
        (do
          SharedMem.writeRegion multiThread alignNbit entries skeletonBytes
          pure bufs : EStateM PyError SharedMem (List PbNdarray)) memory := by
  simp only [checkAndWrite, bind, EStateM.bind, Computation.get_apply]
  split <;> rfl

theorem not_transfersSafely_of_error
    {bytes : Bytes}
    {raised : PyError}
    {after : SharedMem}
    (other : messageStart raised ≠ some 'y')
    (failed :
      dataToPbShmem pickle (arrayList arrays) multiThread alignNbit (freshMem bytes) =
        .error raised after) :
    ¬ TransfersSafely pickle arrays bytes multiThread alignNbit := by
  rintro (⟨x, y, small⟩ | ⟨bufs, final, done, -⟩)
  · rw [failed] at small
    cases small
    exact other (messageStart_tooSmall x y)
  · rw [failed] at done
    cases done

theorem dataToPbShmem_eq
    (pickled : pickle.dumps (arrayListSkeleton arrays) = .ok skeletonBytes)
    (supported : ∀ arr ∈ arrays, arr.dtype.isSupported = true)
    (viewable : ∀ arr ∈ arrays, arr.shape ≠ [] ∨ arr.dtype.itemsize = 1) :
    ∃ bufs entries,
      dataToPbShmem pickle (arrayList arrays) multiThread alignNbit =
          checkAndWrite multiThread alignNbit skeletonBytes bufs entries ∧
        entries.map ArrayBuffer.data = arrays.map NDArray.data ∧
        bufs.mapM pb2meta =
          .ok (((arrayList arrays).buffers.map Buffer.asArray).map NDArray.meta ++
            [(NDArray.ofBytes skeletonBytes).meta]) := by
  have sendable :=
    PyData.isSupported_of_mem_buffers (arrayList arrays) (isPayload_arrayList supported)
  obtain ⟨bufs, sent, metas⟩ := prepareMetas_of_supported sendable pickled
  obtain ⟨entries, viewed⟩ := prepareBuffers_of_viewable viewable
  refine ⟨bufs, entries, ?_, (prepareBuffers_eq_ok viewed).2, metas⟩
  simp only [dataToPbShmem, sent, viewed]

/-- The segments of the pieces and of the skeleton are disjoint and inside the buffer. -/
theorem segments_disjoint
    {entries : List ArrayBuffer}
    {size limit : Nat}
    (room : SharedMem.regionEnd alignNbit entries + size ≤ limit)
    {segments : List (Nat × Nat)}
    (traced :
      segments =
        (alignment alignNbit).spans 0 (entries.map fun aBuf => aBuf.data.length) ++
          [(SharedMem.regionEnd alignNbit entries,
            SharedMem.regionEnd alignNbit entries + size)]) :
    (∀ segment ∈ segments, segment.1 ≤ segment.2 ∧ segment.2 ≤ limit) ∧
      segments.Pairwise fun first second => first.2 ≤ second.1 := by
  subst traced
  constructor
  · intro segment member
    rcases List.mem_append.mp member with piece | skeleton
    · obtain ⟨-, ordered, inside⟩ := Placement.mem_spans piece
      exact ⟨ordered, Nat.le_trans inside (Nat.le_trans (Nat.le_add_right _ size) room)⟩
    · obtain rfl := List.mem_singleton.mp skeleton
      exact ⟨Nat.le_add_right _ _, room⟩
  · refine List.pairwise_append.mpr
      ⟨Placement.pairwise_spans _ _, List.pairwise_singleton _ _, ?_⟩
    intro first member second skeleton
    obtain rfl := List.mem_singleton.mp skeleton
    exact (Placement.mem_spans member).2.2

theorem regionEnd_eq
    {entries : List ArrayBuffer}
    (same : entries.map ArrayBuffer.data = arrays.map NDArray.data) :
    SharedMem.regionEnd alignNbit entries = alignedEnd alignNbit arrays ∧
      sumArrayNbytes entries = (arrays.map fun arr => arr.data.length).sum := by
  have lengths :
      (entries.map fun aBuf => aBuf.data.length) = arrays.map fun arr => arr.data.length := by
    have sizes := congrArg (List.map List.length) same
    rw [List.map_map, List.map_map] at sizes
    exact sizes
  exact ⟨congrArg ((alignment alignNbit).endOf 0) lengths, congrArg List.sum lengths⟩

/-- With room for the aligned pieces the arrays are transferred. -/
theorem transfersSafely_of_room
    {bytes : Bytes}
    (pickled : pickle.dumps (arrayListSkeleton arrays) = .ok skeletonBytes)
    (unpickled : pickle.loads skeletonBytes = .ok (arrayListSkeleton arrays))
    (supported : ∀ arr ∈ arrays, arr.dtype.isSupported = true)
    (viewable : ∀ arr ∈ arrays, arr.shape ≠ [] ∨ arr.dtype.itemsize = 1)
    (checked :
      (arrays.map fun arr => arr.data.length).sum + skeletonBytes.length ≤ bytes.length)
    (room : alignedEnd alignNbit arrays + skeletonBytes.length ≤ bytes.length) :
    TransfersSafely pickle arrays bytes multiThread alignNbit := by
  obtain ⟨bufs, entries, run, same, metas⟩ :=
    @dataToPbShmem_eq pickle arrays skeletonBytes multiThread alignNbit pickled supported viewable
  obtain ⟨ends, sums⟩ := @regionEnd_eq arrays alignNbit entries same
  obtain ⟨after, written, sameLength, holds, skeleton, traced⟩ :=
    @SharedMem.writeRegion_of_fits (freshMem bytes) multiThread alignNbit entries skeletonBytes
      (by rw [ends]; exact room)
  have passed :
      ¬ sumArrayNbytes entries + skeletonBytes.length > (freshMem bytes).bytes.length := by
    rw [sums]
    exact Nat.not_lt.mpr checked
  obtain ⟨inside, disjoint⟩ :=
    @segments_disjoint alignNbit entries skeletonBytes.length bytes.length
      (by rw [ends]; exact room) after.assigned traced
  refine .inr ⟨bufs, after, ?_, inside, disjoint, sameLength, ?_⟩
  · rw [run, checkAndWrite_eq, if_neg passed]
    exact bind_of_ok written
  · have held :
        (alignment alignNbit).Holds after.bytes 0
          ((arrayList arrays).buffers.map fun value => value.asArray.data) := by
      rw [buffers_arrayList, List.map_map]
      rw [same] at holds
      exact holds
    have last :
        SharedMem.regionEnd alignNbit entries =
          (alignment alignNbit).endOf 0
            ((arrayList arrays).buffers.map fun value => value.asArray.data.length) := by
      rw [ends, buffers_arrayList, List.map_map]
      rfl
    have read :=
      @readRegion_of_holds npProd alignNbit after.bytes pickle (arrayList arrays)
        skeletonBytes bufs (isPayload_arrayList supported) avoidsKey_arrayList metas unpickled
        (fun value _ => rfl) _ last held skeleton
    rw [asArrays_arrayList] at read
    exact read

end Transfer

/--
A transfer is safe and exact exactly when the arrays can be sent and viewed and the size
check leaves room for the alignment.
-/
theorem transfersSafely_iff
    (pickle : Serializer)
    (arrays : List NDArray)
    (bytes : Bytes)
    (multiThread : Bool)
    (alignNbit : Nat)
    (faithful : pickle.RoundTrips id)
    (framed : pickle.IsFramed)
    (accepted : pickle.accepts (arrayListSkeleton arrays)) :
    TransfersSafely pickle arrays bytes multiThread alignNbit ↔
      TransferFits pickle arrays bytes alignNbit := by
  obtain ⟨skeletonBytes, pickled, unpickled⟩ := faithful _ accepted
  have length : skeletonLength pickle arrays = skeletonBytes.length := by
    simp only [skeletonLength, pickled]
  constructor
  · intro safe
    by_cases fit :
        (∀ arr ∈ arrays, arr.dtype.isSupported = true) ∧
          ∀ arr ∈ arrays, arr.shape ≠ [] ∨ arr.dtype.itemsize = 1
    · refine ⟨fit.1, fit.2, ?_⟩
      rw [length]
      intro checked
      by_contra outside
      obtain ⟨bufs, entries, run, same, -⟩ :=
        @dataToPbShmem_eq pickle arrays skeletonBytes multiThread alignNbit pickled fit.1 fit.2
      obtain ⟨ends, sums⟩ := @regionEnd_eq arrays alignNbit entries same
      have passed :
          ¬ sumArrayNbytes entries + skeletonBytes.length > (freshMem bytes).bytes.length := by
        rw [sums]
        exact Nat.not_lt.mpr checked
      obtain ⟨raised, assignment, after, failed⟩ :=
        @SharedMem.writeRegion_of_not_fits (freshMem bytes) multiThread alignNbit entries
          skeletonBytes (framed _ _ pickled)
          (by rw [ends]; exact Nat.not_le.mp outside)
      have unsafeError :
          dataToPbShmem pickle (arrayList arrays) multiThread alignNbit (freshMem bytes) =
            .error raised after := by
        rw [run, checkAndWrite_eq, if_neg passed]
        exact bind_of_error failed
      exact not_transfersSafely_of_error (messageStart_of_assignment assignment) unsafeError safe
    · obtain ⟨raised, other, failed⟩ :=
        @dataToPbShmem_of_unfit pickle arrays skeletonBytes multiThread alignNbit
          (freshMem bytes) pickled fit
      exact absurd safe (not_transfersSafely_of_error other failed)
  · intro fits
    by_cases checked :
        (arrays.map fun arr => arr.data.length).sum + skeletonBytes.length ≤ bytes.length
    · have room := fits.aligned
      rw [length] at room
      exact transfersSafely_of_room pickled unpickled fits.supported fits.viewable checked
        (room checked)
    · obtain ⟨bufs, entries, run, same, -⟩ :=
        @dataToPbShmem_eq pickle arrays skeletonBytes multiThread alignNbit pickled
          fits.supported fits.viewable
      obtain ⟨-, sums⟩ := @regionEnd_eq arrays alignNbit entries same
      have small :
          sumArrayNbytes entries + skeletonBytes.length > (freshMem bytes).bytes.length := by
        rw [sums]
        exact Nat.not_le.mp checked
      refine .inl
        ⟨sumArrayNbytes entries + skeletonBytes.length, (freshMem bytes).bytes.length, ?_⟩
      rw [run, checkAndWrite_eq, if_pos small]

/-! ## Two arrays of one byte -/

/-- A byte in an array. -/
def byteArray (value : UInt8) : NDArray where
  dtype := .uint8
  shape := [1]
  data := [value]
  size_eq := rfl

/-- Two arrays. -/
def twoBytes : List NDArray :=
  [byteArray 7, byteArray 8]

/-- The pickled list of the two placeholders. -/
def twoPlaceholdersPickle : Bytes :=
  [128, 4, 149, 116, 0, 0, 0, 0, 0, 0, 0, 93, 148, 40, 140, 21, 116, 101, 110, 115, 111, 114,
    112, 99, 46, 99, 111, 114, 101, 46, 99, 111, 114, 101, 95, 105, 111, 148, 140, 11, 80, 108,
    97, 99, 101, 104, 111, 108, 100, 101, 114, 148, 147, 148, 41, 129, 148, 125, 148, 40, 140, 5,
    105, 110, 100, 101, 120, 148, 75, 0, 140, 6, 110, 98, 121, 116, 101, 115, 148, 75, 1, 140, 4,
    102, 108, 97, 103, 148, 75, 1, 140, 4, 100, 97, 116, 97, 148, 78, 117, 98, 104, 3, 41, 129,
    148, 125, 148, 40, 104, 6, 75, 1, 104, 7, 75, 1, 104, 8, 75, 1, 104, 9, 78, 117, 98, 101, 46]

/-- Pickle on that list. -/
def placeholderPickle : Serializer where
  dumps
    | .list [.placeholder 0 1 1 (.scalar .none), .placeholder 1 1 1 (.scalar .none)] =>
        .ok twoPlaceholdersPickle
    | _ => .error (.typeError "cannot pickle")
  loads bytes :=
    if bytes = twoPlaceholdersPickle then
      .ok (.list [.placeholder 0 1 1 .none, .placeholder 1 1 1 .none])
    else
      .error (.valueError "could not unpickle")
  accepts data := data = .list [.placeholder 0 1 1 .none, .placeholder 1 1 1 .none]

theorem placeholderPickle_roundTrips : placeholderPickle.RoundTrips id := by
  rintro data rfl
  refine ⟨twoPlaceholdersPickle, rfl, ?_⟩
  simp [placeholderPickle]

theorem placeholderPickle_isFramed : placeholderPickle.IsFramed := by
  intro data bytes pickled
  simp only [placeholderPickle] at pickled
  split at pickled
  · cases pickled
    decide +kernel
  · cases pickled

theorem arrayListSkeleton_twoBytes :
    arrayListSkeleton twoBytes =
      .list [.placeholder 0 1 1 .none, .placeholder 1 1 1 .none] := by
  simp [arrayListSkeleton, arrayList, twoBytes, extractArraysFromData, extractArrays,
    extractArraysList, arrayMarker, Buffer.byteSize, byteArray, arrayFlag]

/-- Two aligned bytes and their skeleton need 136 bytes, and with these the transfer is safe. -/
theorem transfersSafely_iff_sample :
    TransfersSafely placeholderPickle twoBytes (List.replicate 136 0) false 8 ↔
      TransferFits placeholderPickle twoBytes (List.replicate 136 0) 8 :=
  transfersSafely_iff _ _ _ _ _ placeholderPickle_roundTrips placeholderPickle_isFramed
    arrayListSkeleton_twoBytes

/-- With 130 bytes the size check passes, and the skeleton does not fit. -/
theorem not_transfersSafely :
    placeholderPickle.RoundTrips id ∧
      placeholderPickle.IsFramed ∧
      placeholderPickle.accepts (arrayListSkeleton twoBytes) ∧
      ¬ TransfersSafely placeholderPickle twoBytes (List.replicate 130 0) false 8 := by
  refine ⟨placeholderPickle_roundTrips, placeholderPickle_isFramed,
    arrayListSkeleton_twoBytes, ?_⟩
  have pickled :
      placeholderPickle.dumps (arrayListSkeleton twoBytes) = .ok twoPlaceholdersPickle := by
    rw [arrayListSkeleton_twoBytes]
    rfl
  obtain ⟨bufs, entries, run, same, -⟩ :=
    @dataToPbShmem_eq placeholderPickle twoBytes _ false 8 pickled (by decide) (by decide)
  obtain ⟨ends, sums⟩ := @regionEnd_eq twoBytes 8 entries same
  have passed :
      ¬ sumArrayNbytes entries + twoPlaceholdersPickle.length >
        (freshMem (List.replicate 130 0)).bytes.length := by
    rw [sums]
    decide +kernel
  have outside :
      (freshMem (List.replicate 130 0)).bytes.length <
        SharedMem.regionEnd 8 entries + twoPlaceholdersPickle.length := by
    rw [ends]
    decide +kernel
  obtain ⟨raised, assignment, after, failed⟩ :=
    @SharedMem.writeRegion_of_not_fits (freshMem (List.replicate 130 0)) false 8 entries
      twoPlaceholdersPickle (by decide +kernel) outside
  have unsafeError :
      dataToPbShmem placeholderPickle (arrayList twoBytes) false 8
          (freshMem (List.replicate 130 0)) =
        .error raised after := by
    rw [run, checkAndWrite_eq, if_neg passed]
    exact bind_of_error failed
  exact not_transfersSafely_of_error (messageStart_of_assignment assignment) unsafeError

end TensorPC.Rpc
