import TensorPC.Kv.ReceivedBytes

namespace TensorPC.Kv

/-!
# The item that a stream leaves behind

The loop that removes the keys of `removed_keys` runs its variable over `key`, so
that the item is stored under the key removed last.  An entry that is taken over
keeps its own descriptors.  These two decide whether a session stores what the
client has sent.
-/

variable {Spec Meta : Type}

/-- What a session is asked to leave in the store. -/
structure StoresStreamed
    (before : TransferStore Spec Meta)
    (request : StreamRequest Spec Meta)
    (after : TransferStore Spec Meta) : Prop where
  streamed :
    ∃ item,
      after.get? request.key = some item ∧
      item.data = request.treespec ∧
      item.metadata = request.metadata ∧
      item.infos = request.clientArrDescs ∧
      item.arrayBytes = request.arrays.map ClientArray.bytes
  removed : ∀ key ∈ request.removed, key ≠ request.key → after.get? key = none
  unchanged :
    ∀ key, key ≠ request.key → key ∉ request.removed →
      after.get? key = before.get? key

/--
The key that is removed last is the requested one.  When no key is left to
remove, the entry that is taken over, if there is one, has the client's shapes
and element types.
-/
def TakesRequestedKey
    (before : TransferStore Spec Meta)
    (request : StreamRequest Spec Meta) :
    Prop :=
  match (before.keysToRemove request).getLast? with
  | some last => last = request.key
  | none =>
      ∀ item,
        (before.afterReuse request).get? request.key = some item →
        item.infos = request.clientArrDescs

/-! ## Sizes -/

/-- Descriptors of the same sizes as the client's arrays. -/
theorem sameSizes_of_validate
    {key : String}
    {infos : List TensorInfo}
    {arrays : List ClientArray}
    {fits : Bool}
    (validated :
      validateTransferDescs key (segmentDescs 0 0 infos)
        (arrays.map ClientArray.info) true = .ok fits) :
    List.Forall₂ (fun info (array : ClientArray) =>
      info.getByteSize = array.info.getByteSize) infos arrays := by
  unfold validateTransferDescs at validated
  split at validated
  · rename_i sameLength
    split at validated
    · rename_i same
      clear validated
      have general :
          ∀ (offset varIdx : Nat) (infos : List TensorInfo)
            (arrays : List ClientArray),
            (arrays.map ClientArray.info).length =
              (segmentDescs offset varIdx infos).length →
            ((arrays.map ClientArray.info).zip
                (segmentDescs offset varIdx infos)).all
              (fun pair => pair.1.getByteSize == pair.2.getByteSize) = true →
            List.Forall₂ (fun info (array : ClientArray) =>
              info.getByteSize = array.info.getByteSize) infos arrays := by
        intro offset varIdx infos
        induction infos generalizing offset varIdx with
        | nil =>
            intro arrays sameLength _
            cases arrays with
            | nil =>
                exact .nil
            | cons array rest =>
                cases sameLength
        | cons info infos inductionHypothesis =>
            intro arrays sameLength same
            cases arrays with
            | nil =>
                cases sameLength
            | cons array rest =>
                simp only [segmentDescs, List.map_cons, List.zip_cons_cons,
                  List.all_cons, Bool.and_eq_true, beq_iff_eq] at same
                exact .cons same.1.symm
                  (inductionHypothesis _ _ rest (Nat.succ.inj sameLength) same.2)
      exact general 0 0 infos arrays sameLength same
    · cases validated
  · cases validated

/-! ## The keys of the store -/

section Keys

variable (before : TransferStore Spec Meta) (request : StreamRequest Spec Meta)

theorem reusedKey_mem
    {reuseKey : String}
    (reused : before.reusedKey request = some reuseKey) :
    reuseKey ∈ request.removed :=
  List.mem_of_find?_eq_some reused

/-- A key of `removed_keys` is removed or taken over. -/
theorem mem_removed_iff (key : String) :
    key ∈ request.removed ↔
      key ∈ before.keysToRemove request ∨ before.reusedKey request = some key := by
  cases removedKeys : request.removedKeys with
  | none =>
      have nothing : request.removed = [] := by
        simp only [StreamRequest.removed, removedKeys]
      simp [TransferStore.keysToRemove, TransferStore.reusedKey, removedKeys,
        nothing]
  | some removed =>
      have keys : request.removed = removed.keys := by
        simp only [StreamRequest.removed, removedKeys]
      cases reused : before.reusedKey request with
      | none =>
          simp only [TransferStore.keysToRemove, removedKeys, reused, keys,
            reduceCtorEq, or_false]
          exact removed.perm.mem_iff.symm
      | some reuseKey =>
          have member := reusedKey_mem before request reused
          simp only [TransferStore.keysToRemove, removedKeys, reused, keys,
            Option.some.injEq]
          rw [keys] at member
          rw [← removed.perm.mem_iff] at member ⊢
          by_cases same : reuseKey = key
          · subst same
            exact iff_of_true member (Or.inr rfl)
          · rw [List.mem_erase_of_ne fun equal => same equal.symm]
            exact (or_iff_left same).symm

/-- The other keys after an entry has been taken over. -/
theorem get?_afterReuse
    {key : String}
    (other : key ≠ request.key) :
    (before.afterReuse request).get? key =
      if before.reusedKey request = some key then
        none
      else
        before.get? key := by
  unfold TransferStore.afterReuse
  cases reused : before.reusedKey request with
  | none =>
      simp
  | some reuseKey =>
      simp only [TransferStore.renameKey, Option.some.injEq]
      by_cases sameKey : reuseKey = request.key
      · have different : reuseKey ≠ key := by
          rw [sameKey]
          exact other.symm
        simp only [sameKey, ↓reduceIte]
        rw [if_neg other.symm]
      · have found := List.find?_some reused
        unfold TransferStore.canReuse at found
        cases stored : before.get? reuseKey with
        | none =>
            rw [stored] at found
            cases found
        | some item =>
            simp only [sameKey, ↓reduceIte]
            rw [Dict.get?_erase, Dict.get?_set, if_neg other]
            by_cases same : reuseKey = key
            · rw [if_pos same, if_pos same.symm]
            · rw [if_neg same, if_neg fun equal => same equal.symm]

theorem get?_afterRemoval
    {key : String}
    (other : key ≠ request.key) :
    (before.afterRemoval request).get? key =
      if key ∈ request.removed then none else before.get? key := by
  unfold TransferStore.afterRemoval
  rw [Dict.get?_eraseAll, get?_afterReuse before request other]
  by_cases isRemoved : key ∈ request.removed
  · rw [if_pos isRemoved]
    rcases (mem_removed_iff before request key).mp isRemoved with erased | reused
    · rw [if_pos erased]
    · rw [if_pos reused]
      split <;> rfl
  · have kept : ¬ _ :=
      (mem_removed_iff before request key).not.mp isRemoved
    rw [not_or] at kept
    rw [if_neg isRemoved, if_neg kept.1, if_neg kept.2]

end Keys

/-! ## What a session does -/

section Session

variable {shmSize : Nat} {empty : EmptyBuffers} {buffers : DoubleBuffer shmSize}
variable {before after : TransferStore Spec Meta} {request : StreamRequest Spec Meta}

/-- The item that a session takes over or makes. -/
def takenItem
    (empty : EmptyBuffers)
    (before : TransferStore Spec Meta)
    (request : StreamRequest Spec Meta) :
    TransferItem Spec Meta :=
  ((before.afterRemoval request).get? (before.keyAfterRemoval request)).getD
    (newTransferItem empty request)

/-- A session that returns stores one item with the bytes of the client. -/
theorem receiveStream_eq_ok
    (positive : 0 < shmSize)
    (aligned : shmSize % alignSize = 0)
    (completed : receiveStream empty buffers before request = .ok after) :
    ∃ item : TransferItem Spec Meta,
      after =
        (before.afterRemoval request).set (before.keyAfterRemoval request) item ∧
      item.data = request.treespec ∧
      item.metadata = request.metadata ∧
      item.infos = (takenItem empty before request).infos ∧
      item.arrayBytes = request.arrays.map ClientArray.bytes := by
  obtain ⟨taken, found, completed⟩ := PyResult.bind_eq_ok.mp completed
  obtain ⟨fits, validated, completed⟩ := PyResult.bind_eq_ok.mp completed
  obtain ⟨item, streamed, built⟩ := PyResult.bind_eq_ok.mp completed
  cases built
  have isTaken : taken = takenItem empty before request := by
    unfold existingOrNewItem at found
    unfold takenItem
    split at found
    · rename_i existing stored
      obtain ⟨_, _, same⟩ := PyResult.bind_eq_ok.mp found
      cases same
      simp only [stored, Option.getD_some]
    · rename_i absent
      cases found
      simp only [absent, Option.getD_none]
  unfold streamInto at streamed
  split at streamed
  · cases streamed
  · rename_i buffer received
    cases streamed
    refine ⟨_, rfl, rfl, rfl, ?_, ?_⟩
    · rw [← isTaken]
    · exact receiveInto_arrayBytes positive aligned
        (sameSizes_of_validate validated) taken.buffer_length received

/--
A session that returns has stored what it was asked to exactly when it stores
under the requested key, in an entry with the client's shapes and types.
-/
theorem storesStreamed_iff
    (positive : 0 < shmSize)
    (aligned : shmSize % alignSize = 0)
    (completed : receiveStream empty buffers before request = .ok after) :
    StoresStreamed before request after ↔ TakesRequestedKey before request := by
  obtain ⟨item, stored, data, metadata, infos, bytes⟩ :=
    receiveStream_eq_ok positive aligned completed
  unfold TakesRequestedKey
  have others :
      before.keyAfterRemoval request = request.key →
      ∀ key, key ≠ request.key →
        after.get? key =
          if key ∈ request.removed then none else before.get? key := by
    intro isRequested key other
    rw [stored, isRequested, Dict.get?_set_ne _ _ other]
    exact get?_afterRemoval before request other
  have leaves :
      before.keyAfterRemoval request = request.key →
      (takenItem empty before request).infos = request.clientArrDescs →
      StoresStreamed before request after := by
    intro isRequested sameInfos
    refine ⟨⟨item, ?_, data, metadata, infos.trans sameInfos, bytes⟩, ?_, ?_⟩
    · rw [stored, isRequested, Dict.get?_set_self]
    · intro key isRemoved other
      rw [others isRequested key other, if_pos isRemoved]
    · intro key other notRemoved
      rw [others isRequested key other, if_neg notRemoved]
  cases lastKey : (before.keysToRemove request).getLast? with
  | some last =>
      have named : before.keyAfterRemoval request = last := by
        simp only [TransferStore.keyAfterRemoval, List.getLastD_eq_getLast?,
          lastKey, Option.getD_some]
      have isRemoved : last ∈ before.keysToRemove request :=
        List.mem_of_getLast? lastKey
      constructor
      · intro stores
        by_contra different
        have gone :=
          stores.removed last
            ((mem_removed_iff before request last).mpr (Or.inl isRemoved))
            different
        rw [stored, named, Dict.get?_set_self] at gone
        cases gone
      · intro isRequested
        refine leaves (named.trans isRequested) ?_
        have absent : (before.afterRemoval request).get? last = none := by
          unfold TransferStore.afterRemoval
          rw [Dict.get?_eraseAll, if_pos isRemoved]
        simp only [takenItem, named, absent, Option.getD_none]
        rfl
  | none =>
      have noKeys : before.keysToRemove request = [] :=
        List.getLast?_eq_none_iff.mp lastKey
      have named : before.keyAfterRemoval request = request.key := by
        simp only [TransferStore.keyAfterRemoval, noKeys, List.getLastD_nil]
      have kept : before.afterRemoval request = before.afterReuse request := by
        simp only [TransferStore.afterRemoval, noKeys]
        rfl
      constructor
      · intro stores taken found
        obtain ⟨other, isStored, _, _, sameInfos, _⟩ := stores.streamed
        rw [stored, named, Dict.get?_set_self] at isStored
        cases isStored
        rw [← sameInfos, infos]
        simp only [takenItem, named, kept, found, Option.getD_some]
      · intro sameInfos
        refine leaves named ?_
        unfold takenItem
        rw [named, kept]
        cases found : (before.afterReuse request).get? request.key with
        | none =>
            rfl
        | some taken =>
            exact sameInfos taken found

end Session

/-! ## Two sessions -/

/-- New memory whose bytes are zero. -/
def zeroAlloc : EmptyBuffers where
  byteAt _ := 0

/-- A vector of 32 `float32` elements, all of whose bytes are the same. -/
def clientVector (byte : UInt8) : ClientArray where
  info := ⟨[32], ⟨"uint32", 4⟩, some ⟨"torch.float32", 4⟩⟩
  bytes := List.replicate 128 byte
  bytes_length := List.length_replicate

/-- A store of one vector, under the key `old`. -/
def oldVectorStore : TransferStore String String :=
  Dict.empty.set "old"
    { metadata := none
      data := "old spec"
      infos := [(clientVector 0).info]
      buffer := List.replicate 128 1
      buffer_length := List.length_replicate }

/-- Store a vector under a key and remove the key `old`. -/
def storeVector (key : String) (removed : RemovedKeys) : StreamRequest String String where
  key := key
  treespec := "new spec"
  arrays := [clientVector 2]
  metadata := some "step 2"
  removedKeys := some removed

/-- The set of one key. -/
def removedKey (key : String) : RemovedKeys where
  keys := [key]
  copied := [key]
  nodup := List.nodup_singleton key
  perm := .refl _

/-- The vector takes over the memory of `old`. -/
theorem storesStreamed_sample :
    ∃ after,
      receiveStream zeroAlloc (zeroBuffers 128) oldVectorStore
          (storeVector "new" (removedKey "old")) = .ok after ∧
        StoresStreamed oldVectorStore (storeVector "new" (removedKey "old"))
          after := by
  have returns :
      (receiveStream zeroAlloc (zeroBuffers 128) oldVectorStore
        (storeVector "new" (removedKey "old"))).toBool = true := by
    decide +kernel
  have takes :
      TakesRequestedKey oldVectorStore
        (storeVector "new" (removedKey "old")) := by
    intro item found
    cases found
    rfl
  cases completed :
      receiveStream zeroAlloc (zeroBuffers 128) oldVectorStore
        (storeVector "new" (removedKey "old")) with
  | error raised =>
      rw [completed] at returns
      cases returns
  | ok after =>
      exact ⟨after, rfl,
        (storesStreamed_iff (by decide) (by decide) completed).mpr takes⟩

/-- Without memory to take over, the vector is stored under the removed key. -/
theorem not_storesStreamed :
    ∃ after,
      receiveStream zeroAlloc (zeroBuffers 128) Dict.empty
          (storeVector "new" (removedKey "old")) = .ok after ∧
        ¬ StoresStreamed Dict.empty (storeVector "new" (removedKey "old"))
          after := by
  have absent :
      (match
          receiveStream zeroAlloc (zeroBuffers 128) Dict.empty
            (storeVector "new" (removedKey "old")) with
        | .ok after => (after.get? "new").isNone
        | .error _ => false) = true := by
    decide +kernel
  cases completed :
      receiveStream zeroAlloc (zeroBuffers 128) Dict.empty
        (storeVector "new" (removedKey "old")) with
  | error raised =>
      rw [completed] at absent
      cases absent
  | ok after =>
      rw [completed] at absent
      refine ⟨after, rfl, fun stores => ?_⟩
      obtain ⟨item, stored, _⟩ := stores.streamed
      change after.get? "new" = some item at stored
      simp only [stored, Option.isNone_some, Bool.false_eq_true] at absent

end TensorPC.Kv
