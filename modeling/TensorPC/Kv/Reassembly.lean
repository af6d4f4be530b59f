import TensorPC.Kv.TensorStream

namespace TensorPC.Kv

/-!
# What the client puts together

The pieces of a stream arrive with the bytes of the store, whatever chunks they
were packed into.  A tensor is appended when its last piece ends at the aligned
size of the array, so exactly the arrays whose size is a positive multiple of
the alignment arrive.
-/

/-! ## From shared memory back to the store -/

/-- Receive a piece with the bytes it covers in the store. -/
def receiveStored
    (buffer : List UInt8)
    (state : ClientState)
    (desc : SharedArraySegmentDesc) :
    PyResult ClientState :=
  match desc.metaDtype with
  | none => .error (.assertionError "")
  | some dtype =>
      receivePieceData state desc dtype
        (slice buffer desc.getShmOffsetWithPartial
          (desc.getShmOffsetWithPartial + desc.getPartialSize))

/-- Saving a chunk copies its region to the beginning of the shared memory. -/
theorem saveChunkToShm_region
    {shm buffer : List UInt8}
    {chunk : List SharedArraySegmentDesc}
    {offset : Nat}
    (nonempty : chunk ≠ [])
    (contiguous : Contiguous offset chunk)
    (stored : offset + totalPartialSizeAligned chunk ≤ buffer.length)
    (fits : totalPartialSizeAligned chunk ≤ shm.length) :
    saveChunkToShm shm chunk buffer =
      .ok (slice buffer offset (offset + totalPartialSizeAligned chunk) ++
        shm.drop (totalPartialSizeAligned chunk)) := by
  have width :
      (slice buffer offset (offset + totalPartialSizeAligned chunk)).length =
        totalPartialSizeAligned chunk := by
    rw [length_slice]
    omega
  cases chunk with
  | nil =>
      exact absurd rfl nonempty
  | cons head rest =>
      have assigned :=
        @assignSlice_zero _ shm
          (slice buffer offset (offset + totalPartialSizeAligned (head :: rest)))
          (by omega)
      rw [width] at assigned
      simp only [saveChunkToShm, contiguous.1]
      exact assigned

/-- A saved chunk is the beginning of its shared buffer. -/
theorem saveChunkAt_ok
    {shmSize : Nat}
    {buffer : List UInt8}
    (buffers : DoubleBuffer shmSize)
    (chunkIdx : Nat)
    {chunk : List SharedArraySegmentDesc}
    {offset : Nat}
    (nonempty : chunk ≠ [])
    (contiguous : Contiguous offset chunk)
    (stored : offset + totalPartialSizeAligned chunk ≤ buffer.length)
    (fits : totalPartialSizeAligned chunk ≤ shmSize) :
    ∃ saved rest,
      saveChunkAt buffer buffers chunkIdx chunk = .ok saved ∧
      saved.get chunkIdx =
        slice buffer offset (offset + totalPartialSizeAligned chunk) ++ rest := by
  have size := buffers.length_get chunkIdx
  have room : totalPartialSizeAligned chunk ≤ (buffers.get chunkIdx).length := by
    omega
  have written := saveChunkToShm_region nonempty contiguous stored room
  unfold saveChunkAt
  split
  · rename_i raised failed
    rw [written] at failed
    cases failed
  · rename_i content saved
    rw [written] at saved
    cases saved
    exact ⟨_, _, rfl, DoubleBuffer.get_set_self ..⟩

/-- A piece read through its relative descriptor has its bytes of the store. -/
theorem receivePiece_relative
    {buffer shm rest : List UInt8}
    {base total : Nat}
    {desc : SharedArraySegmentDesc}
    (state : ClientState)
    (shmEq : shm = slice buffer base (base + total) ++ rest)
    (stored : base + total ≤ buffer.length)
    (above : base ≤ desc.getShmOffsetWithPartial)
    (below :
      desc.getShmOffsetWithPartial + desc.getPartialSize ≤ base + total) :
    receivePiece shm state
        { desc with shmOffset := desc.getShmOffsetWithPartial - base } =
      receiveStored buffer state desc := by
  have width : (slice buffer base (base + total)).length = total := by
    rw [length_slice]
    omega
  generalize offsetEq : desc.getShmOffsetWithPartial = offset at *
  have view :
      getArrayViewRaw shm { desc with shmOffset := offset - base } =
        .ok (slice buffer offset (offset + desc.getPartialSize)) := by
    have inside : (offset - base) + desc.getPartialSize ≤ total := by
      omega
    have back : base + (offset - base) = offset := by
      omega
    refine (getArrayViewRaw_ok ?_).trans ?_
    · change offset - base + desc.getPartialSize ≤ shm.length
      rw [shmEq, List.length_append, width]
      omega
    · change Except.ok (slice shm (offset - base)
        (offset - base + desc.getPartialSize)) = _
      rw [shmEq, slice_append_left (by omega), slice_slice (by omega),
        ← Nat.add_assoc, back]
  simp only [receivePiece, view, receiveStored, offsetEq, bind, Except.bind]
  rfl

theorem getPartialSize_le (desc : SharedArraySegmentDesc) :
    desc.getPartialSize ≤ desc.getPartialSizeAligned := by
  simp only [SharedArraySegmentDesc.getPartialSize,
    SharedArraySegmentDesc.getPartialSizeAligned]
  split
  · exact le_alignUp _
  · exact le_alignUp _

/-- The pieces of a saved chunk are received with their bytes of the store. -/
theorem foldlM_receivePiece
    {buffer shm rest : List UInt8}
    {base total offset : Nat}
    {pieces : List SharedArraySegmentDesc}
    (state : ClientState)
    (shmEq : shm = slice buffer base (base + total) ++ rest)
    (stored : base + total ≤ buffer.length)
    (above : base ≤ offset)
    (contiguous : Contiguous offset pieces)
    (below : offset + totalPartialSizeAligned pieces ≤ base + total) :
    (pieces.map fun info =>
        { info with
          shmOffset := info.getShmOffsetWithPartial - base }).foldlM
        (receivePiece shm) state =
      pieces.foldlM (receiveStored buffer) state := by
  induction pieces generalizing offset state with
  | nil =>
      rfl
  | cons desc others inductionHypothesis =>
      obtain ⟨here, later⟩ := contiguous
      rw [totalPartialSizeAligned_cons] at below
      have size := getPartialSize_le desc
      have received :=
        @receivePiece_relative buffer shm rest base total desc state shmEq stored
          (by omega) (by omega)
      rw [List.map_cons, List.foldlM_cons, List.foldlM_cons, received]
      congr 1
      funext next
      exact inductionHypothesis next (by omega) later (by omega)

/-- A message is received like the pieces of its chunk. -/
theorem receiveMessage_relative
    {buffer shm rest : List UInt8}
    {offset : Nat}
    {chunk : List SharedArraySegmentDesc}
    (state : ClientState)
    (sendCounts : Nat)
    (nonempty : chunk ≠ [])
    (shmEq :
      shm = slice buffer offset (offset + totalPartialSizeAligned chunk) ++ rest)
    (stored : offset + totalPartialSizeAligned chunk ≤ buffer.length)
    (contiguous : Contiguous offset chunk) :
    receiveMessage state ⟨shm, relativeDescs chunk, sendCounts⟩ =
      chunk.foldlM (receiveStored buffer) state := by
  cases chunk with
  | nil =>
      exact absurd rfl nonempty
  | cons head others =>
      have received :=
        foldlM_receivePiece state shmEq stored (Nat.le_refl _) contiguous
          (Nat.le_refl _)
      simp only [receiveMessage, relativeDescs, contiguous.1]
      exact received

/-- Every message of a stream is received like the pieces of its chunk. -/
theorem sendStreamLoop_received
    {shmSize : Nat}
    {buffer : List UInt8}
    {chunks : List (List SharedArraySegmentDesc)}
    {chunk : List SharedArraySegmentDesc}
    {buffers : DoubleBuffer shmSize}
    {chunkIdx sendCounts offset : Nat}
    {rest : List UInt8}
    (nonempty : ∀ other ∈ chunk :: chunks, other ≠ [])
    (fits : ∀ other ∈ chunk :: chunks, totalPartialSizeAligned other ≤ shmSize)
    (contiguous : Contiguous offset (chunk :: chunks).flatten)
    (stored :
      offset + totalPartialSizeAligned (chunk :: chunks).flatten ≤ buffer.length)
    (saved :
      buffers.get chunkIdx =
        slice buffer offset (offset + totalPartialSizeAligned chunk) ++ rest) :
    ∃ messages,
      sendStreamLoop buffer (chunk :: chunks) chunkIdx sendCounts buffers =
        .ok messages ∧
      ∀ state,
        messages.foldlM receiveMessage state =
          (chunk :: chunks).flatten.foldlM (receiveStored buffer) state := by
  induction chunks generalizing chunk buffers chunkIdx sendCounts offset rest with
  | nil =>
      refine ⟨_, rfl, ?_⟩
      intro state
      rw [List.flatten_cons, List.flatten_nil, List.append_nil] at contiguous stored ⊢
      have received :=
        receiveMessage_relative state sendCounts (nonempty chunk (by simp)) saved
          stored contiguous
      rw [List.foldlM_cons, received]
      simp
  | cons next others inductionHypothesis =>
      rw [List.flatten_cons, contiguous_append] at contiguous
      rw [List.flatten_cons, totalPartialSizeAligned_append] at stored
      have nextContiguous := contiguous.2
      have nextStored := stored
      rw [List.flatten_cons, contiguous_append] at nextContiguous
      rw [List.flatten_cons, totalPartialSizeAligned_append] at nextStored
      obtain ⟨nextBuffers, nextRest, savedNext, nextContent⟩ :=
        @saveChunkAt_ok _ buffer buffers (chunkIdx + 1) _ _
          (nonempty next (by simp)) nextContiguous.1 (by omega) (fits next (by simp))
      obtain ⟨later, computed, received⟩ :=
        @inductionHypothesis next nextBuffers (chunkIdx + 1)
          (sendCounts + chunk.length) _ nextRest
          (fun other member => nonempty other (List.mem_cons_of_mem _ member))
          (fun other member => fits other (List.mem_cons_of_mem _ member))
          contiguous.2 (by omega) nextContent
      refine ⟨⟨buffers.get chunkIdx, relativeDescs chunk, sendCounts⟩ :: later, ?_, ?_⟩
      · simp only [sendStreamLoop, savedNext, computed, bind, Except.bind]
      · intro state
        rw [List.foldlM_cons,
          receiveMessage_relative state sendCounts (nonempty chunk (by simp)) saved
            (by omega) contiguous.1,
          List.flatten_cons, List.foldlM_append]
        congr 1
        funext next
        exact received next

/-! ## From pieces to tensors -/

/-- The tensor that holds the stored bytes of an array up to `start`. -/
def partlyWritten
    (buffer : List UInt8)
    (desc : SharedArraySegmentDesc)
    (start : Nat) :
    Tensor where
  shape := desc.shape
  dtype := desc.metaDtype.getD desc.dtype
  bytes :=
    (slice buffer desc.shmOffset (desc.shmOffset + start)).map some ++
      List.replicate (desc.getByteSize - start) none

/-- The stored array as a tensor of the client. -/
def StoredItem.tensor
    (item : StoredItem)
    (desc : SharedArraySegmentDesc) :
    Tensor where
  shape := desc.shape
  dtype := desc.metaDtype.getD desc.dtype
  bytes := (item.arrayBytes desc).map some

theorem partlyWritten_full
    (item : StoredItem)
    (desc : SharedArraySegmentDesc) :
    partlyWritten item.buffer desc desc.getByteSize = item.tensor desc := by
  simp [partlyWritten, StoredItem.tensor, StoredItem.arrayBytes]

/-- The sizes for which the client notices that an array is complete. -/
def Completes (desc : SharedArraySegmentDesc) : Prop :=
  0 < desc.getByteSize ∧ desc.getByteSize % alignSize = 0

instance (desc : SharedArraySegmentDesc) : Decidable (Completes desc) :=
  inferInstanceAs (Decidable (_ ∧ _))

/-- Receiving one piece writes its bytes behind those already written. -/
theorem receiveStored_piece
    {buffer : List UInt8}
    {desc : SharedArraySegmentDesc}
    {start length : Nat}
    {tensors : List Tensor}
    {current : Option Tensor}
    (typed : desc.TorchTyped)
    (stored : desc.shmOffset + desc.getByteSize ≤ buffer.length)
    (inside : start + length ≤ desc.getByteSize)
    (begun : start = 0 ∨ current = some (partlyWritten buffer desc start)) :
    receiveStored buffer ⟨tensors, current⟩ (desc.withPartial start length) =
      if start + length = desc.getAlignedByteSize then
        .ok ⟨tensors ++ [partlyWritten buffer desc (start + length)], none⟩
      else
        .ok ⟨tensors, some (partlyWritten buffer desc (start + length))⟩ := by
  obtain ⟨dtype, metaEq, sameSize⟩ := typed
  have target :
      targetTensor (desc.withPartial start length) dtype start current =
        .ok (partlyWritten buffer desc start) := by
    by_cases isStart : start = 0
    · subst isStart
      have emptySlice : slice buffer desc.shmOffset desc.shmOffset = [] := by
        simp [slice]
      simp [targetTensor, Tensor.empty, partlyWritten, metaEq, sameSize, emptySlice,
        TensorInfo.getByteSize]
    · have continued := begun.resolve_left isStart
      simp [targetTensor, isStart, continued]
  have prefixLength :
      ((slice buffer desc.shmOffset (desc.shmOffset + start)).map some).length =
        start := by
    rw [List.length_map, length_slice]
    omega
  have dataLength :
      ((slice buffer (desc.shmOffset + start)
        (desc.shmOffset + start + length)).map some).length = length := by
    rw [List.length_map, length_slice]
    omega
  have assigned :=
    @assignSlice_after _
      ((slice buffer desc.shmOffset (desc.shmOffset + start)).map some)
      (List.replicate (desc.getByteSize - start) none)
      ((slice buffer (desc.shmOffset + start)
        (desc.shmOffset + start + length)).map some)
      (by rw [dataLength, List.length_replicate]; omega)
  rw [prefixLength, dataLength, ← List.map_append,
    slice_append_slice _ (by omega) (by omega), List.drop_replicate,
    Nat.sub_sub] at assigned
  have metaWith : (desc.withPartial start length).metaDtype = some dtype :=
    metaEq
  simp only [receiveStored, metaWith, receivePieceData,
    SharedArraySegmentDesc.withPartial_getPartialInfoChecked,
    SharedArraySegmentDesc.withPartial_getShmOffsetWithPartial,
    SharedArraySegmentDesc.withPartial_getPartialSize,
    SharedArraySegmentDesc.withPartial_isLastPartial, target, bind, Except.bind]
  simp only [partlyWritten, Nat.add_assoc] at assigned ⊢
  simp only [assigned, beq_iff_eq]

/-- The pieces of an array append it exactly when its size is aligned. -/
theorem IsPieces.received
    {buffer : List UInt8}
    {desc : SharedArraySegmentDesc}
    {start : Nat}
    {pieces : List SharedArraySegmentDesc}
    {tensors : List Tensor}
    {current : Option Tensor}
    (isPieces : IsPieces desc start pieces)
    (typed : desc.TorchTyped)
    (stored : desc.shmOffset + desc.getByteSize ≤ buffer.length)
    (remaining : start < desc.getByteSize)
    (begun : start = 0 ∨ current = some (partlyWritten buffer desc start)) :
    ∃ after,
      pieces.foldlM (receiveStored buffer) ⟨tensors, current⟩ =
        .ok ⟨tensors ++
          (if desc.getByteSize % alignSize = 0 then
            [partlyWritten buffer desc desc.getByteSize]
          else
            []), after⟩ := by
  induction isPieces generalizing current with
  | done aligned covered =>
      omega
  | @piece start length rest aligned nonempty inside boundary others inductionHypothesis =>
      rw [List.foldlM_cons, receiveStored_piece typed stored inside begun]
      have sizeLe := le_alignUp desc.getByteSize
      by_cases isLast : start + length = desc.getByteSize
      · -- the last piece: the client compares its end with the aligned size
        have restEmpty : rest = [] := by
          have lengthLe := le_alignUp length
          cases others with
          | done =>
              rfl
          | piece _ restNonempty restInside _ _ =>
              omega
        subst restEmpty
        have alignedIff :
            start + length = desc.getAlignedByteSize ↔
              desc.getByteSize % alignSize = 0 := by
          rw [isLast, ← alignUp_eq_self_iff, eq_comm]
          rfl
        by_cases whole : desc.getByteSize % alignSize = 0
        · rw [if_pos (alignedIff.mpr whole), if_pos whole, isLast]
          exact ⟨_, rfl⟩
        · rw [if_neg (fun equal => whole (alignedIff.mp equal)), if_neg whole]
          exact ⟨some (partlyWritten buffer desc (start + length)), by
            simp [bind, Except.bind, pure, Except.pure]⟩
      · have lengthAligned := boundary.resolve_left isLast
        have notAll : start + length ≠ desc.getAlignedByteSize := by
          have : desc.getByteSize ≤ desc.getAlignedByteSize := sizeLe
          omega
        rw [if_neg notAll]
        rw [(alignUp_eq_self_iff length).mpr lengthAligned] at inductionHypothesis
        exact inductionHypothesis (by omega) (.inr rfl)

/-- All pieces append the arrays whose size is a positive multiple of the alignment. -/
theorem IsPiecesOf.received
    {item : StoredItem}
    {descs pieces : List SharedArraySegmentDesc}
    {tensors : List Tensor}
    {current : Option Tensor}
    (isPieces : IsPiecesOf descs pieces)
    (typed : ∀ desc ∈ descs, desc.TorchTyped)
    (stored :
      ∀ desc ∈ descs, desc.shmOffset + desc.getByteSize ≤ item.buffer.length) :
    ∃ after,
      pieces.foldlM (receiveStored item.buffer) ⟨tensors, current⟩ =
        .ok ⟨tensors ++ (descs.filter Completes).map item.tensor, after⟩ := by
  induction isPieces generalizing tensors current with
  | nil =>
      exact ⟨current, by simp [pure, Except.pure]⟩
  | @cons desc descs pieces rest first others inductionHypothesis =>
      obtain ⟨middle, receivedFirst⟩ :
          ∃ middle,
            pieces.foldlM (receiveStored item.buffer) ⟨tensors, current⟩ =
              .ok ⟨tensors ++ ([desc].filter Completes).map item.tensor, middle⟩ := by
        by_cases positive : 0 < desc.getByteSize
        · obtain ⟨middle, receivedFirst⟩ :=
            @IsPieces.received item.buffer desc 0 pieces tensors current first
              (typed desc (by simp)) (stored desc (by simp)) positive (.inl rfl)
          refine ⟨middle, receivedFirst.trans ?_⟩
          by_cases aligned : desc.getByteSize % alignSize = 0
          · simp [List.filter, Completes, positive, aligned, partlyWritten_full]
          · simp [List.filter, Completes, aligned]
        · cases first with
          | done =>
              refine ⟨current, ?_⟩
              simp [List.filter, Completes, positive, pure, Except.pure]
          | piece _ nonempty inside _ _ =>
              omega
      obtain ⟨after, received⟩ :=
        @inductionHypothesis (tensors ++ ([desc].filter Completes).map item.tensor) middle
          (fun other member => typed other (List.mem_cons_of_mem _ member))
          (fun other member => stored other (List.mem_cons_of_mem _ member))
      refine ⟨after, ?_⟩
      rw [List.foldlM_append, receivedFirst]
      refine Eq.trans received ?_
      rw [List.append_assoc, ← List.map_append, ← List.filter_append]
      rfl

/-! ## The stream of a stored item -/

theorem segmentDescs_inside
    {offset varIdx : Nat}
    {infos : List TensorInfo}
    {desc : SharedArraySegmentDesc}
    (member : desc ∈ segmentDescs offset varIdx infos) :
    desc.shmOffset + desc.getByteSize ≤
      offset + totalAlignedByteSize (segmentDescs offset varIdx infos) := by
  induction infos generalizing offset varIdx with
  | nil =>
      cases member
  | cons info rest inductionHypothesis =>
      simp only [segmentDescs, List.mem_cons, totalAlignedByteSize_cons] at member ⊢
      rcases member with same | later
      · subst same
        have sizeLe : info.getByteSize ≤ info.getAlignedByteSize :=
          le_alignUp _
        change offset + info.getByteSize ≤ offset + (info.getAlignedByteSize + _)
        omega
      · have := inductionHypothesis later
        omega

namespace StoredItem

variable (item : StoredItem)

theorem descs_torchTyped
    {desc : SharedArraySegmentDesc}
    (member : desc ∈ item.descs) :
    desc.TorchTyped := by
  apply item.torchTyped
  rw [← segmentDescs_map_toTensorInfo 0 0 item.infos]
  exact List.mem_map_of_mem member

theorem descs_inside
    {desc : SharedArraySegmentDesc}
    (member : desc ∈ item.descs) :
    desc.shmOffset + desc.getByteSize ≤ item.buffer.length := by
  have inside := segmentDescs_inside member
  rw [item.buffer_length]
  omega

end StoredItem

theorem IsPiecesOf.totalPartialSizeAligned_eq
    {descs pieces : List SharedArraySegmentDesc}
    (isPieces : IsPiecesOf descs pieces) :
    totalPartialSizeAligned pieces = totalAlignedByteSize descs := by
  induction isPieces with
  | nil =>
      rfl
  | cons first others inductionHypothesis =>
      have total := (first.contiguous (Nat.zero_le _)).2
      rw [totalPartialSizeAligned_append, totalAlignedByteSize_cons, inductionHypothesis]
      omega

theorem IsPiecesOf.eq_nil_iff
    {descs pieces : List SharedArraySegmentDesc}
    (isPieces : IsPiecesOf descs pieces) :
    pieces = [] ↔ ∀ desc ∈ descs, desc.getByteSize = 0 := by
  induction isPieces with
  | nil =>
      simp
  | @cons desc descs pieces rest first others inductionHypothesis =>
      have firstIff : pieces = [] ↔ desc.getByteSize = 0 := by
        cases first with
        | done _ covered =>
            simpa using covered
        | piece _ nonempty inside _ _ =>
            simp only [reduceCtorEq, false_iff]
            omega
      simp [firstIff, inductionHypothesis]

section GetTensorTree

variable {shmSize : Nat} (item : StoredItem) (buffers : DoubleBuffer shmSize)

/-- The client raises when there are no bytes at all, and else receives the aligned arrays. -/
theorem getTensorTree_eq
    (positive : 0 < shmSize)
    (aligned : shmSize % alignSize = 0) :
    getTensorTree item buffers =
      if ∀ desc ∈ item.descs, desc.getByteSize = 0 then
        .error .indexError
      else
        .ok ((item.descs.filter Completes).map item.tensor) := by
  obtain ⟨chunks, computed, nonempty, fits, isPieces⟩ :=
    chunkizeArrDescs_spec positive aligned item.descs
  have contiguous := IsPiecesOf.contiguous isPieces
  have total := isPieces.totalPartialSizeAligned_eq
  have buffered : totalAlignedByteSize item.descs = item.buffer.length :=
    item.buffer_length.symm
  have emptyIff := isPieces.eq_nil_iff
  cases chunks with
  | nil =>
      rw [if_pos (emptyIff.mp rfl)]
      simp [getTensorTree, sendStream, computed, bind, Except.bind]
  | cons first rest =>
      have notEmpty : (first :: rest).flatten ≠ [] := by
        have := nonempty first (by simp)
        simp [this]
      rw [if_neg (fun allEmpty => notEmpty (emptyIff.mpr allEmpty))]
      have firstContiguous := contiguous
      have firstTotal := total
      rw [List.flatten_cons, contiguous_append] at firstContiguous
      rw [List.flatten_cons, totalPartialSizeAligned_append] at firstTotal
      obtain ⟨saved, padding, savedFirst, content⟩ :=
        @saveChunkAt_ok _ item.buffer buffers 0 _ _ (nonempty first (by simp))
          firstContiguous.1 (by omega) (fits first (by simp))
      obtain ⟨messages, sent, received⟩ :=
        @sendStreamLoop_received _ item.buffer rest first saved 0 0 0 padding
          nonempty fits contiguous (by omega) content
      obtain ⟨after, appended⟩ :=
        @IsPiecesOf.received item item.descs _ [] none isPieces
          (fun desc => item.descs_torchTyped) (fun desc => item.descs_inside)
      have receivedAll := (received ⟨[], none⟩).trans appended
      simp [getTensorTree, sendStream, computed, savedFirst, sent, receivedAll, bind,
        Except.bind]

/-- The client receives every stored array, once and in order, exactly when there is an
array and the size of each is a positive multiple of the alignment. -/
theorem getTensorTree_complete_iff
    (positive : 0 < shmSize)
    (aligned : shmSize % alignSize = 0) :
    getTensorTree item buffers = .ok (item.descs.map item.tensor) ↔
      item.descs ≠ [] ∧ ∀ desc ∈ item.descs, Completes desc := by
  rw [getTensorTree_eq item buffers positive aligned]
  split
  · rename_i allEmpty
    constructor
    · intro impossible
      cases impossible
    · rintro ⟨someArray, complete⟩
      obtain ⟨desc, rest, shape⟩ := List.exists_cons_of_ne_nil someArray
      have member : desc ∈ item.descs := by
        simp [shape]
      have size := (complete desc member).1
      rw [allEmpty desc member] at size
      exact absurd size (Nat.lt_irrefl 0)
  · rename_i someBytes
    have notNil : item.descs ≠ [] := by
      intro empty
      exact someBytes (by simp [empty])
    constructor
    · intro received
      have same := Except.ok.inj received
      have sameLength :
          (item.descs.filter Completes).length = item.descs.length := by
        simpa using congrArg List.length same
      have kept := List.filter_eq_self.mp
        ((List.filter_sublist).eq_of_length sameLength)
      exact ⟨notNil, fun desc member => by simpa using kept desc member⟩
    · rintro ⟨-, complete⟩
      rw [List.filter_eq_self.mpr (fun desc member => by
        simpa using complete desc member)]

end GetTensorTree

/-- Untouched shared memory of one client. -/
def zeroBuffers (shmSize : Nat) : DoubleBuffer shmSize where
  first := List.replicate shmSize 0
  second := List.replicate shmSize 0
  first_length := List.length_replicate
  second_length := List.length_replicate

/-- A stored vector of at most 32 `float32` elements. -/
def floatVector
    (count : Nat)
    (positive : 0 < count)
    (small : count ≤ 32) :
    StoredItem where
  buffer := List.replicate 128 1
  infos := [⟨[count], ⟨"uint32", 4⟩, some ⟨"torch.float32", 4⟩⟩]
  buffer_length := by
    simp only [segmentDescs, totalAlignedByteSize, TensorInfo.getAlignedByteSize,
      TensorInfo.getByteSize, alignUp, alignSize, List.prod_cons, List.prod_nil,
      List.length_replicate, List.map_cons, List.map_nil, List.sum_cons, List.sum_nil]
    omega
  torchTyped := by
    simp [TensorInfo.TorchTyped]

/-- A vector of 128 bytes arrives through shared memory of 128 bytes. -/
theorem getTensorTree_complete_floatVector :
    getTensorTree (floatVector 32 (by decide) (by decide)) (zeroBuffers 128) =
      .ok ((floatVector 32 (by decide) (by decide)).descs.map
        (floatVector 32 (by decide) (by decide)).tensor) :=
  (getTensorTree_complete_iff (floatVector 32 (by decide) (by decide))
    (zeroBuffers 128) (by decide) (by decide)).mpr (by decide)

/-- A single `float32` does not arrive. -/
theorem getTensorTree_incomplete_floatVector :
    getTensorTree (floatVector 1 (by decide) (by decide)) (zeroBuffers 128) ≠
      .ok ((floatVector 1 (by decide) (by decide)).descs.map
        (floatVector 1 (by decide) (by decide)).tensor) := by
  rw [getTensorTree_eq _ _ (by decide) (by decide)]
  decide

end TensorPC.Kv
