import TensorPC.Rpc.SkeletonRoundTrip

namespace TensorPC.Rpc

/-!
# Payloads of remote calls

`data_to_pb` turns a payload into protobuf arrays, `data_from_pb` turns these back.  The
serializers of the two standard libraries and of MessagePack are parameters: each has
a set of objects that it accepts and reads back.
-/

open Kv (Scalar jsonIndexKey)
open Wire (Bytes)

/-! ## Methods -/

namespace EncodeMethod

/-- `rpc_message_pb2.Json`. -/
def json : Nat := 0x01

/-- `rpc_message_pb2.Pickle`. -/
def pickle : Nat := 0x02

/-- `rpc_message_pb2.MessagePack`. -/
def messagePack : Nat := 0x03

/-- `rpc_message_pb2.JsonArray`. -/
def jsonArray : Nat := 0x10

/-- `rpc_message_pb2.PickleArray`. -/
def pickleArray : Nat := 0x20

/-- `rpc_message_pb2.MessagePackArray`. -/
def messagePackArray : Nat := 0x30

/-- `rpc_message_pb2.ArrayMask`. -/
def arrayMask : Nat := 0xf0

/-- `rpc_message_pb2.Mask`. -/
def mask : Nat := 0xff

end EncodeMethod

/-- `dumps` and `loads` of a library, and the objects that it can serialize. -/
structure Serializer where
  dumps : PyData → PyResult Bytes
  loads : Bytes → PyResult PyData
  accepts : PyData → Prop

/-- The serializers; JSON text is encoded in ASCII. -/
structure Serializers where
  json : Serializer
  msgpack : Serializer
  pickle : Serializer

variable (serializers : Serializers)

/-- `_METHOD_TO_DUMP`. -/
def methodToDump : Dict Nat (PyData → PyResult Bytes) :=
  Dict.ofList [
    (EncodeMethod.json, serializers.json.dumps),
    (EncodeMethod.jsonArray, serializers.json.dumps),
    (EncodeMethod.messagePack, serializers.msgpack.dumps),
    (EncodeMethod.messagePackArray, serializers.msgpack.dumps),
    (EncodeMethod.pickle, serializers.pickle.dumps),
    (EncodeMethod.pickleArray, serializers.pickle.dumps)]

/-- `_METHOD_TO_LOAD`. -/
def methodToLoad : Dict Nat (Bytes → PyResult PyData) :=
  Dict.ofList [
    (EncodeMethod.json, serializers.json.loads),
    (EncodeMethod.jsonArray, serializers.json.loads),
    (EncodeMethod.messagePack, serializers.msgpack.loads),
    (EncodeMethod.messagePackArray, serializers.msgpack.loads),
    (EncodeMethod.pickle, serializers.pickle.loads),
    (EncodeMethod.pickleArray, serializers.pickle.loads)]

/-- `_enable_json_index`. -/
def enableJsonIndex (method : Nat) : Bool :=
  method = EncodeMethod.jsonArray ∨ method = EncodeMethod.messagePackArray

/-- `JSON_INDEX_KEY if _enable_json_index(method) else ""`. -/
def jsonIndexOf (method : Nat) : String :=
  if enableJsonIndex method then "__jsonarray_index" else ""

/-- `method & _ENCODE_METHOD_ARRAY_MASK`. -/
def usesArrays (method : Nat) : Bool :=
  method &&& EncodeMethod.arrayMask ≠ 0

/-- `data_to_pb`. -/
def dataToPb
    (data : PyData)
    (methodFlags : Nat) :
    PyResult (List PbNdarray) := do
  let method := methodFlags &&& EncodeMethod.mask
  if usesArrays method then
    let (arrays, dataSkeleton) := extractArraysFromData data (jsonIndexOf method)
    let dump ← lookupOrRaise (methodToDump serializers) method
    let dumped ← dump dataSkeleton
    (arrays ++ [Buffer.bytes dumped]).mapM data2pb
  else
    let dump ← lookupOrRaise (methodToDump serializers) method
    let dumped ← dump data
    [Buffer.bytes dumped].mapM data2pb

/-- `results_raw[-1]`, which the loads functions read as bytes. -/
def lastBytes (resultsRaw : List Buffer) : PyResult Bytes :=
  match resultsRaw.getLast? with
  | some (.bytes data) => .ok data
  | some _ => .error (.typeError "a bytes-like object is required")
  | none => .error .indexError

/-- `data_from_pb`. -/
def dataFromPb
    (bufs : List PbNdarray)
    (methodFlags : Nat) :
    PyResult PyData := do
  let method := methodFlags &&& EncodeMethod.mask
  let resultsRaw ← bufs.mapM pb2data
  let dataSkeletonBytes ← lastBytes resultsRaw
  let load ← lookupOrRaise (methodToLoad serializers) method
  let dataSkeleton ← load dataSkeletonBytes
  if usesArrays method then
    putArraysToData resultsRaw.dropLast dataSkeleton (jsonIndexOf method)
  else
    .ok dataSkeleton

/-! ## What a serializer keeps -/

namespace PyData

mutual

/-- JSON and MessagePack read a tuple as a list. -/
def listed : PyData → PyData
  | .list items => .list (listedList items)
  | .tuple items => .list (listedList items)
  | .dict entries => .dict (listedDict entries)
  | .scalar value => .scalar value
  | .buffer value => .buffer value
  | .special data flag => .special data flag
  | .placeholder index nbytes flag data => .placeholder index nbytes flag data

/-- The list and tuple case of `listed`. -/
def listedList : List PyData → List PyData
  | [] => []
  | item :: rest => listed item :: listedList rest

/-- The mapping case of `listed`. -/
def listedDict : List (Scalar × PyData) → List (Scalar × PyData)
  | [] => []
  | (key, value) :: rest => (key, listed value) :: listedDict rest

end

attribute [grind =] listed listedList listedDict

end PyData

/-- A serializer reads what it wrote, up to a conversion of the containers. -/
def Serializer.RoundTrips
    (serializer : Serializer)
    (received : PyData → PyData) : Prop :=
  ∀ data, serializer.accepts data →
    ∃ bytes, serializer.dumps data = .ok bytes ∧ serializer.loads bytes = .ok (received data)

/-- The documented behaviour of the three serializers. -/
structure Serializers.RoundTrip : Prop where
  json : serializers.json.RoundTrips PyData.listed
  msgpack : serializers.msgpack.RoundTrips PyData.listed
  pickle : serializers.pickle.RoundTrips id

/-- The methods of `_METHOD_TO_DUMP`. -/
def encodeMethods : List Nat :=
  [EncodeMethod.json, EncodeMethod.jsonArray, EncodeMethod.messagePack,
    EncodeMethod.messagePackArray, EncodeMethod.pickle, EncodeMethod.pickleArray]

/-- The serializer of a method. -/
def serializerOf (method : Nat) : Serializer :=
  if method = EncodeMethod.json ∨ method = EncodeMethod.jsonArray then
    serializers.json
  else if method = EncodeMethod.messagePack ∨ method = EncodeMethod.messagePackArray then
    serializers.msgpack
  else
    serializers.pickle

/-- A payload as a method delivers it: pickle alone keeps tuples. -/
def received
    (method : Nat)
    (data : PyData) :
    PyData :=
  if method = EncodeMethod.pickle ∨ method = EncodeMethod.pickleArray then
    data
  else
    data.listed

/--
The payloads of a method: no dictionary has the reserved key, and the serializer
accepts the payload, for the array methods with markers in place of the buffers.
-/
def InDomain
    (method : Nat)
    (data : PyData) : Prop :=
  data.avoidsKey jsonIndexKey true = true ∧
    if usesArrays method then
      data.isPayload = true ∧
        (serializerOf serializers method).accepts
          (extractArraysFromData data (jsonIndexOf method)).2
    else
      (serializerOf serializers method).accepts data

/-- Encoding and decoding give back the payload. -/
def PayloadRoundTrips
    (method : Nat)
    (data : PyData) : Prop :=
  ∃ bufs,
    dataToPb serializers data method = .ok bufs ∧
      dataFromPb serializers bufs method = .ok (received method data)

/--
The decoder tells the markers from the payload: with the reserved key, a payload that
is itself a buffer leaves a root dictionary that is not looked at; with `Placeholder`
objects, the decoder still takes a dictionary with the empty key for a marker.
-/
def markersAreClear
    (method : Nat)
    (data : PyData) :
    Bool :=
  if enableJsonIndex method then
    !data.isBuffer
  else if method = EncodeMethod.pickleArray then
    data.avoidsKey (.str "") false
  else
    true

/-! ## Conversion of containers and extraction -/

section Listed

open PyData (listed listedList listedDict avoidsKey avoidsKeyList avoidsKeyDict isPayload
  isPayloadList isPayloadDict)

@[simp] theorem isBuffer_listed (data : PyData) :
    (listed data).isBuffer = data.isBuffer := by
  cases data <;> simp [listed, PyData.isBuffer]

/-- Conversion does not touch the keys. -/
@[simp] theorem map_fst_listedDict (entries : List (Scalar × PyData)) :
    (listedDict entries).map Prod.fst = entries.map Prod.fst := by
  induction entries with
  | nil =>
      simp [listedDict]
  | cons head rest inductionHypothesis =>
      simp [listedDict, inductionHypothesis]

mutual

theorem avoidsKey_listed
    (key : Scalar)
    (inside : Bool) :
    ∀ data : PyData, avoidsKey key inside (listed data) = avoidsKey key inside data
  | .scalar _ | .buffer _ | .special _ _ | .placeholder _ _ _ _ => by
      simp [listed]
  | .list items | .tuple items => by
      simp [listed, avoidsKey, avoidsKeyList_listed key items]
  | .dict entries => by
      simp only [listed, avoidsKey, map_fst_listedDict, avoidsKeyDict_listed key entries]

theorem avoidsKeyList_listed
    (key : Scalar) :
    ∀ items : List PyData, avoidsKeyList key (listedList items) = avoidsKeyList key items
  | [] => by
      simp [listedList]
  | item :: rest => by
      simp [listedList, avoidsKeyList, avoidsKey_listed key true item,
        avoidsKeyList_listed key rest]

theorem avoidsKeyDict_listed
    (key : Scalar) :
    ∀ entries : List (Scalar × PyData),
      avoidsKeyDict key (listedDict entries) = avoidsKeyDict key entries
  | [] => by
      simp [listedDict]
  | (_, value) :: rest => by
      simp [listedDict, avoidsKeyDict, avoidsKey_listed key true value,
        avoidsKeyDict_listed key rest]

end

mutual

theorem isPayload_listed :
    ∀ data : PyData, isPayload (listed data) = isPayload data
  | .scalar _ | .buffer _ | .special _ _ | .placeholder _ _ _ _ => by
      simp [listed]
  | .list items | .tuple items => by
      simp [listed, isPayload, isPayloadList_listed items]
  | .dict entries => by
      simp [listed, isPayload, isPayloadDict_listed entries]

theorem isPayloadList_listed :
    ∀ items : List PyData, isPayloadList (listedList items) = isPayloadList items
  | [] => by
      simp [listedList]
  | item :: rest => by
      simp [listedList, isPayloadList, isPayload_listed item, isPayloadList_listed rest]

theorem isPayloadDict_listed :
    ∀ entries : List (Scalar × PyData),
      isPayloadDict (listedDict entries) = isPayloadDict entries
  | [] => by
      simp [listedDict]
  | (_, value) :: rest => by
      simp [listedDict, isPayloadDict, isPayload_listed value, isPayloadDict_listed rest]

end

theorem listed_arrayMarker
    (jsonIndex : String)
    (index : Nat)
    (value : Buffer) :
    listed (arrayMarker jsonIndex index value) = arrayMarker jsonIndex index value := by
  unfold arrayMarker
  split <;> simp [listed, listedList, listedDict]

mutual

theorem extractArrays_listed
    (jsonIndex : String) :
    ∀ (data : PyData) (arrays : List Buffer),
      isPayload data = true →
      extractArrays jsonIndex (listed data) arrays =
        ((extractArrays jsonIndex data arrays).1,
          listed (extractArrays jsonIndex data arrays).2)
  | .scalar _, _, _ => by
      simp [listed, extractArrays]
  | .buffer _, _, _ => by
      simp [listed, extractArrays, listed_arrayMarker]
  | .special _ _, _, payload | .placeholder _ _ _ _, _, payload => by
      simp [isPayload] at payload
  | .list items, arrays, payload | .tuple items, arrays, payload => by
      simp only [isPayload] at payload
      simp [listed, extractArrays, extractArraysList_listed jsonIndex items arrays payload]
  | .dict entries, arrays, payload => by
      simp only [isPayload] at payload
      simp [listed, extractArrays, extractArraysDict_listed jsonIndex entries arrays payload]

theorem extractArraysList_listed
    (jsonIndex : String) :
    ∀ (items : List PyData) (arrays : List Buffer),
      isPayloadList items = true →
      extractArraysList jsonIndex (listedList items) arrays =
        ((extractArraysList jsonIndex items arrays).1,
          listedList (extractArraysList jsonIndex items arrays).2)
  | [], _, _ => by
      simp [listedList, extractArraysList]
  | item :: rest, arrays, payload => by
      simp only [isPayloadList, Bool.and_eq_true] at payload
      simp [listedList, extractArraysList, extractArrays_listed jsonIndex item arrays payload.1,
        extractArraysList_listed jsonIndex rest _ payload.2]

theorem extractArraysDict_listed
    (jsonIndex : String) :
    ∀ (entries : List (Scalar × PyData)) (arrays : List Buffer),
      isPayloadDict entries = true →
      extractArraysDict jsonIndex (listedDict entries) arrays =
        ((extractArraysDict jsonIndex entries arrays).1,
          listedDict (extractArraysDict jsonIndex entries arrays).2)
  | [], _, _ => by
      simp [listedDict, extractArraysDict]
  | (_, value) :: rest, arrays, payload => by
      simp only [isPayloadDict, Bool.and_eq_true] at payload
      simp [listedDict, extractArraysDict,
        extractArrays_listed jsonIndex value arrays payload.1,
        extractArraysDict_listed jsonIndex rest _ payload.2]

end

end Listed

/-! ## Protobuf arrays -/

mutual

/-- The buffers taken out of a payload can be sent. -/
theorem isSupported_extractArrays
    (jsonIndex : String) :
    ∀ (data : PyData) (arrays : List Buffer),
      data.isPayload = true →
      (∀ value ∈ arrays, value.isSupported = true) →
      ∀ value ∈ (extractArrays jsonIndex data arrays).1, value.isSupported = true
  | .scalar _, _, _, supported => by
      simpa [extractArrays] using supported
  | .buffer value, arrays, payload, supported => by
      simp only [PyData.isPayload] at payload
      intro other member
      simp only [extractArrays, List.mem_append, List.mem_singleton] at member
      rcases member with member | rfl
      · exact supported other member
      · exact payload
  | .special _ _, _, payload, _ | .placeholder _ _ _ _, _, payload, _ => by
      simp [PyData.isPayload] at payload
  | .list items, arrays, payload, supported | .tuple items, arrays, payload, supported => by
      simp only [PyData.isPayload] at payload
      simp only [extractArrays]
      exact isSupported_extractArraysList jsonIndex items arrays payload supported
  | .dict entries, arrays, payload, supported => by
      simp only [PyData.isPayload] at payload
      simp only [extractArrays]
      exact isSupported_extractArraysDict jsonIndex entries arrays payload supported

theorem isSupported_extractArraysList
    (jsonIndex : String) :
    ∀ (items : List PyData) (arrays : List Buffer),
      PyData.isPayloadList items = true →
      (∀ value ∈ arrays, value.isSupported = true) →
      ∀ value ∈ (extractArraysList jsonIndex items arrays).1, value.isSupported = true
  | [], _, _, supported => by
      simpa [extractArraysList] using supported
  | item :: rest, arrays, payload, supported => by
      simp only [PyData.isPayloadList, Bool.and_eq_true] at payload
      simp only [extractArraysList]
      exact isSupported_extractArraysList jsonIndex rest _ payload.2
        (isSupported_extractArrays jsonIndex item arrays payload.1 supported)

theorem isSupported_extractArraysDict
    (jsonIndex : String) :
    ∀ (entries : List (Scalar × PyData)) (arrays : List Buffer),
      PyData.isPayloadDict entries = true →
      (∀ value ∈ arrays, value.isSupported = true) →
      ∀ value ∈ (extractArraysDict jsonIndex entries arrays).1, value.isSupported = true
  | [], _, _, supported => by
      simpa [extractArraysDict] using supported
  | (_, value) :: rest, arrays, payload, supported => by
      simp only [PyData.isPayloadDict, Bool.and_eq_true] at payload
      simp only [extractArraysDict]
      exact isSupported_extractArraysDict jsonIndex rest _ payload.2
        (isSupported_extractArrays jsonIndex value arrays payload.1 supported)

end

theorem mapM_pb2data_mapM_data2pb
    {buffers : List Buffer}
    (supported : ∀ value ∈ buffers, value.isSupported = true) :
    ∃ bufs, buffers.mapM data2pb = .ok bufs ∧ bufs.mapM pb2data = .ok buffers := by
  induction buffers with
  | nil =>
      exact ⟨[], rfl, rfl⟩
  | cons value rest inductionHypothesis =>
      obtain ⟨buf, sent, readBack⟩ := pb2data_data2pb (supported value List.mem_cons_self)
      obtain ⟨bufs, sentRest, readRest⟩ :=
        inductionHypothesis fun other member =>
          supported other (List.mem_cons_of_mem _ member)
      refine ⟨buf :: bufs, ?_, ?_⟩
      · simp [sent, sentRest, bind, Except.bind, pure, Except.pure]
      · simp [readBack, readRest, bind, Except.bind, pure, Except.pure]

/-! ## Round trips -/

section RoundTrip

variable
  {serializers : Serializers}
  {method : Nat}
  {data : PyData}

theorem lookup_of_mem_encodeMethods
    (known : method ∈ encodeMethods) :
    method &&& EncodeMethod.mask = method ∧
      lookupOrRaise (methodToDump serializers) method =
        .ok (serializerOf serializers method).dumps ∧
      lookupOrRaise (methodToLoad serializers) method =
        .ok (serializerOf serializers method).loads := by
  simp only [encodeMethods, List.mem_cons, List.not_mem_nil, or_false] at known
  rcases known with rfl | rfl | rfl | rfl | rfl | rfl <;> exact ⟨rfl, rfl, rfl⟩

theorem roundTrips_serializerOf
    (faithful : serializers.RoundTrip)
    (known : method ∈ encodeMethods) :
    (serializerOf serializers method).RoundTrips (received method) := by
  simp only [encodeMethods, List.mem_cons, List.not_mem_nil, or_false] at known
  rcases known with rfl | rfl | rfl | rfl | rfl | rfl
  · exact faithful.json
  · exact faithful.json
  · exact faithful.msgpack
  · exact faithful.msgpack
  · exact faithful.pickle
  · exact faithful.pickle

theorem payloadRoundTrips_of_plain
    (faithful : serializers.RoundTrip)
    (known : method ∈ encodeMethods)
    (plain : usesArrays method = false)
    (domain : InDomain serializers method data) :
    PayloadRoundTrips serializers method data := by
  obtain ⟨masked, dumpOf, loadOf⟩ := @lookup_of_mem_encodeMethods serializers _ known
  have accepted := domain.2
  simp only [plain, Bool.false_eq_true, if_false] at accepted
  obtain ⟨bytes, dumped, loaded⟩ := roundTrips_serializerOf faithful known data accepted
  obtain ⟨bufs, sent, readBack⟩ :=
    @mapM_pb2data_mapM_data2pb [.bytes bytes] (by simp [Buffer.isSupported])
  refine ⟨bufs, ?_, ?_⟩
  · simp [dataToPb, masked, plain, dumpOf, dumped, sent, bind, Except.bind]
  · simp [dataFromPb, masked, plain, readBack, lastBytes, loadOf, loaded, bind, Except.bind]

/-- An array method puts the buffers back into what its serializer reads. -/
theorem dataFromPb_dataToPb
    (faithful : serializers.RoundTrip)
    (known : method ∈ encodeMethods)
    (arrays : usesArrays method = true)
    (domain : InDomain serializers method data) :
    ∃ bufs,
      dataToPb serializers data method = .ok bufs ∧
        dataFromPb serializers bufs method =
          putArraysToData (extractArraysFromData data (jsonIndexOf method)).1
            (received method (extractArraysFromData data (jsonIndexOf method)).2)
            (jsonIndexOf method) := by
  obtain ⟨masked, dumpOf, loadOf⟩ := @lookup_of_mem_encodeMethods serializers _ known
  have accepted := domain.2
  simp only [arrays, if_true] at accepted
  obtain ⟨payload, accepted⟩ := accepted
  obtain ⟨bytes, dumped, loaded⟩ := roundTrips_serializerOf faithful known _ accepted
  have supported : ∀ value ∈
      (extractArraysFromData data (jsonIndexOf method)).1 ++ [Buffer.bytes bytes],
      value.isSupported = true := by
    intro value member
    rcases List.mem_append.mp member with extracted | last
    · exact isSupported_extractArrays _ data [] payload (by simp) value extracted
    · obtain rfl := List.mem_singleton.mp last
      rfl
  obtain ⟨bufs, sent, readBack⟩ := mapM_pb2data_mapM_data2pb supported
  refine ⟨bufs, ?_, ?_⟩
  · simp only [dataToPb, masked, arrays, if_true, dumpOf, bind, Except.bind, dumped]
    exact sent
  · simp [dataFromPb, masked, arrays, readBack, lastBytes, loadOf, loaded, bind, Except.bind]

theorem extractArraysFromData_received
    (jsonIndex : String)
    (payload : data.isPayload = true) :
    extractArraysFromData (received method data) jsonIndex =
      ((extractArraysFromData data jsonIndex).1,
        received method (extractArraysFromData data jsonIndex).2) := by
  unfold received
  split
  · rfl
  · exact extractArrays_listed jsonIndex data [] payload

theorem putArraysToData_root
    {jsonIndex : String}
    {value : Buffer}
    {all : List Buffer}
    (reserved : jsonIndex ≠ "") :
    ∃ entries,
      putArraysToData all (extractArraysFromData (.buffer value) jsonIndex).2 jsonIndex =
        .ok (.dict entries) := by
  simp [extractArraysFromData, extractArrays, arrayMarker, reserved, putArraysToData, putArrays,
    putArraysDict, putArraysList, bind, Except.bind]

/-- An array method round trips when the delivered payload comes back from its skeleton. -/
theorem payloadRoundTrips_iff_put
    (faithful : serializers.RoundTrip)
    (known : method ∈ encodeMethods)
    (arrays : usesArrays method = true)
    (domain : InDomain serializers method data) :
    PayloadRoundTrips serializers method data ↔
      putArraysToData
          (extractArraysFromData (received method data) (jsonIndexOf method)).1
          (extractArraysFromData (received method data) (jsonIndexOf method)).2
          (jsonIndexOf method) =
        .ok (received method data) := by
  have accepted := domain.2
  simp only [arrays, if_true] at accepted
  obtain ⟨bufs, sent, readBack⟩ := dataFromPb_dataToPb faithful known arrays domain
  rw [extractArraysFromData_received _ accepted.1]
  constructor
  · rintro ⟨others, otherSent, otherRead⟩
    obtain rfl : bufs = others := Except.ok.inj (sent.symm.trans otherSent)
    exact readBack.symm.trans otherRead
  · intro put
    exact ⟨bufs, sent, readBack.trans put⟩

/-- With the reserved key all payloads come back but a buffer. -/
theorem payloadRoundTrips_jsonIndex_iff
    (faithful : serializers.RoundTrip)
    (known : method ∈ encodeMethods)
    (reserved : enableJsonIndex method = true)
    (domain : InDomain serializers method data) :
    PayloadRoundTrips serializers method data ↔ data.isBuffer = false := by
  have methods : method = EncodeMethod.jsonArray ∨ method = EncodeMethod.messagePackArray := by
    simpa [enableJsonIndex] using reserved
  have arrays : usesArrays method = true := by
    rcases methods with rfl | rfl <;> decide
  have delivered : received method data = data.listed := by
    rcases methods with rfl | rfl <;> rfl
  have key : jsonIndexOf method = "__jsonarray_index" := by
    simp [jsonIndexOf, reserved]
  have accepted := domain.2
  simp only [arrays, if_true] at accepted
  rw [payloadRoundTrips_iff_put faithful known arrays domain, delivered, key]
  constructor
  · intro put
    cases data with
    | buffer value =>
        obtain ⟨entries, root⟩ :=
          @putArraysToData_root "__jsonarray_index" value
            (extractArraysFromData (.buffer value) "__jsonarray_index").1 (by decide)
        simp only [PyData.listed] at put
        rw [root] at put
        cases put
    | scalar _ | special _ _ | placeholder _ _ _ _ | list _ | tuple _ | dict _ =>
        rfl
  · intro container
    refine putArraysToData_extractArraysFromData ?_ ?_ (.inr ?_)
    · rw [isPayload_listed]
      exact accepted.1
    · rw [avoidsKey_listed]
      exact PyData.avoidsKey_of_inside false domain.1
    · rw [isBuffer_listed]
      exact container

theorem payloadRoundTrips_pickleArray_iff
    (faithful : serializers.RoundTrip)
    (domain : InDomain serializers EncodeMethod.pickleArray data) :
    PayloadRoundTrips serializers EncodeMethod.pickleArray data ↔
      data.avoidsKey (.str "") false = true := by
  have accepted := domain.2
  rw [if_pos (show usesArrays EncodeMethod.pickleArray = true by decide)] at accepted
  rw [payloadRoundTrips_iff_put faithful (by decide) (by decide) domain]
  constructor
  · intro put
    by_contra reserved
    exact not_putArraysToData_of_emptyKey (Bool.eq_false_iff.mpr reserved) put
  · intro avoids
    exact putArraysToData_extractArraysFromData accepted.1 avoids (.inl rfl)

/--
A payload of a method's domain survives encoding and decoding exactly when the decoder
tells the markers from it.
-/
theorem payloadRoundTrips_iff
    (serializers : Serializers)
    (method : Nat)
    (data : PyData)
    (faithful : serializers.RoundTrip)
    (known : method ∈ encodeMethods)
    (domain : InDomain serializers method data) :
    PayloadRoundTrips serializers method data ↔ markersAreClear method data = true := by
  unfold markersAreClear
  by_cases reserved : enableJsonIndex method = true
  · rw [if_pos reserved, Bool.not_eq_true']
    exact payloadRoundTrips_jsonIndex_iff faithful known reserved domain
  · rw [if_neg reserved]
    by_cases objects : method = EncodeMethod.pickleArray
    · subst objects
      rw [if_pos rfl]
      exact payloadRoundTrips_pickleArray_iff faithful domain
    · rw [if_neg objects]
      have plain : usesArrays method = false := by
        simp only [encodeMethods, List.mem_cons, List.not_mem_nil, or_false] at known
        rcases known with rfl | rfl | rfl | rfl | rfl | rfl
        · decide
        · exact absurd (by decide) reserved
        · decide
        · exact absurd (by decide) reserved
        · decide
        · exact absurd rfl objects
      exact iff_of_true (payloadRoundTrips_of_plain faithful known plain domain) rfl

end RoundTrip

/-! ## Examples -/

/-- `{JSON_INDEX_KEY: [0, 1]}`. -/
def firstMarker : PyData :=
  .dict [(jsonIndexKey, .list [.int 0, .int 1])]

/-- The text of `[{JSON_INDEX_KEY: [0, 1]}, None]`. -/
def nestedText : Bytes :=
  "[\x7b\"__jsonarray_index\": [0, 1]\x7d, null]".toUTF8.toList

/-- The text of `{JSON_INDEX_KEY: [0, 1]}`. -/
def rootText : Bytes :=
  "\x7b\"__jsonarray_index\": [0, 1]\x7d".toUTF8.toList

/-- The pickled `[{"": 1}]`. -/
def emptyKeyPickle : Bytes :=
  [128, 4, 149, 12, 0, 0, 0, 0, 0, 0, 0, 93, 148, 125, 148, 140, 0, 148, 75, 1, 115, 97, 46]

/-- JSON on two skeletons: a tuple of a marker and `None`, and a marker. -/
def sampleJson : Serializer where
  dumps
    | .tuple [
        .dict [(.str "__jsonarray_index", .list [.scalar (.int 0), .scalar (.int 1)])],
        .scalar .none] =>
        .ok nestedText
    | .dict [(.str "__jsonarray_index", .list [.scalar (.int 0), .scalar (.int 1)])] =>
        .ok rootText
    | _ => .error (.typeError "not JSON serializable")
  loads bytes :=
    if bytes = nestedText then
      .ok (.list [firstMarker, .none])
    else if bytes = rootText then
      .ok firstMarker
    else
      .error (.valueError "Expecting value")
  accepts data := data = .tuple [firstMarker, .none] ∨ data = firstMarker

/-- Pickle on one list. -/
def samplePickle : Serializer where
  dumps
    | .list [.dict [(.str "", .scalar (.int 1))]] => .ok emptyKeyPickle
    | _ => .error (.typeError "cannot pickle")
  loads bytes :=
    if bytes = emptyKeyPickle then
      .ok (.list [.dict [(.str "", .int 1)]])
    else
      .error (.valueError "could not unpickle")
  accepts data := data = .list [.dict [(.str "", .int 1)]]

/-- The serializers on these objects; MessagePack is left out. -/
def sampleSerializers : Serializers where
  json := sampleJson
  msgpack := {
    dumps := fun _ => .error (.typeError "can not serialize")
    loads := fun _ => .error (.valueError "Unpack failed")
    accepts := fun _ => False }
  pickle := samplePickle

theorem sampleSerializers_roundTrip : sampleSerializers.RoundTrip where
  json := by
    have different : rootText ≠ nestedText := by
      intro same
      exact absurd (congrArg List.length same) (by decide +kernel)
    rintro data (rfl | rfl)
    · refine ⟨nestedText, rfl, ?_⟩
      simp [sampleSerializers, sampleJson, firstMarker, PyData.listed, PyData.listedList,
        PyData.listedDict]
    · refine ⟨rootText, rfl, ?_⟩
      simp [sampleSerializers, sampleJson, different, firstMarker, PyData.listed,
        PyData.listedList, PyData.listedDict]
  msgpack := fun _ accepted => accepted.elim
  pickle := by
    rintro data rfl
    refine ⟨emptyKeyPickle, rfl, ?_⟩
    simp [sampleSerializers, samplePickle]

/-- A payload with bytes inside a tuple. -/
def nestedPayload : PyData :=
  .tuple [.buffer (.bytes [7]), .none]

/-- The markers are clear in a tuple, and its payload comes back. -/
theorem payloadRoundTrips_iff_sample :
    PayloadRoundTrips sampleSerializers EncodeMethod.jsonArray nestedPayload ↔
      markersAreClear EncodeMethod.jsonArray nestedPayload = true := by
  refine payloadRoundTrips_iff _ _ _ sampleSerializers_roundTrip (by decide) ⟨?_, ?_⟩
  · simp [nestedPayload, PyData.avoidsKey, PyData.avoidsKeyList]
  · rw [if_pos (by decide)]
    refine ⟨?_, .inl ?_⟩
    · simp [nestedPayload, PyData.isPayload, PyData.isPayloadList, Buffer.isSupported]
    · simp [nestedPayload, extractArraysFromData, extractArrays, extractArraysList, arrayMarker,
        jsonIndexOf, enableJsonIndex, firstMarker, jsonIndexKey]

/--
Bytes sent with `JsonArray` come back as a dictionary, and a pickled dictionary with the
empty key raises.
-/
theorem not_payloadRoundTrips :
    sampleSerializers.RoundTrip ∧
      (InDomain sampleSerializers EncodeMethod.jsonArray (.buffer (.bytes [7])) ∧
        ¬ PayloadRoundTrips sampleSerializers EncodeMethod.jsonArray (.buffer (.bytes [7]))) ∧
      (InDomain sampleSerializers EncodeMethod.pickleArray
          (.list [.dict [(.str "", .int 1)]]) ∧
        ¬ PayloadRoundTrips sampleSerializers EncodeMethod.pickleArray
          (.list [.dict [(.str "", .int 1)]])) := by
  have rootDomain :
      InDomain sampleSerializers EncodeMethod.jsonArray (.buffer (.bytes [7])) := by
    refine ⟨by simp [PyData.avoidsKey], ?_⟩
    rw [if_pos (by decide)]
    refine ⟨by simp [PyData.isPayload, Buffer.isSupported], .inr ?_⟩
    simp [extractArraysFromData, extractArrays, arrayMarker, jsonIndexOf, enableJsonIndex,
      firstMarker, jsonIndexKey]
  have keyDomain :
      InDomain sampleSerializers EncodeMethod.pickleArray
        (.list [.dict [(.str "", .int 1)]]) := by
    refine ⟨by simp [PyData.avoidsKey, PyData.avoidsKeyList, PyData.avoidsKeyDict,
      jsonIndexKey], ?_⟩
    rw [if_pos (by decide)]
    refine ⟨by simp [PyData.isPayload, PyData.isPayloadList, PyData.isPayloadDict], ?_⟩
    simp [extractArraysFromData, extractArrays, extractArraysList, extractArraysDict,
      serializerOf, sampleSerializers, samplePickle, EncodeMethod.pickleArray,
      EncodeMethod.json, EncodeMethod.jsonArray, EncodeMethod.messagePack,
      EncodeMethod.messagePackArray]
  refine ⟨sampleSerializers_roundTrip, ⟨rootDomain, fun returns => ?_⟩,
    ⟨keyDomain, fun returns => ?_⟩⟩
  · have container :=
      (payloadRoundTrips_jsonIndex_iff sampleSerializers_roundTrip (by decide) (by decide)
        rootDomain).mp returns
    cases container
  · have avoids :=
      (payloadRoundTrips_pickleArray_iff sampleSerializers_roundTrip keyDomain).mp returns
    simp [PyData.avoidsKey, PyData.avoidsKeyList, PyData.avoidsKeyDict] at avoids

end TensorPC.Rpc
