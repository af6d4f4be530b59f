import TensorPC.Wire.Message

namespace TensorPC.Wire

/-!
# Decoding what the encoder sends

The first binary of every message is a frame whose header carries the JSON
text of `SocketMessageEncoder.get_skeleton`.  The skeleton is a list of three
entries, while both decoders unpack the decoded text into two names.
-/

/-- The header of a message: the request with its skeleton and chunk count. -/
def messageHeader
    (codec : WireCodec)
    (encoder : SocketMessageEncoder)
    (req : Header)
    (chunkIndex : UInt32) :
    Header :=
  { req with
    data := encoder.serSkeleton codec
    chunkIndex := chunkIndex }

/-- A framed header is read back from its binary. -/
theorem TensoRPCHeader.init_frame
    {codec : WireCodec}
    {type : SocketMsgType}
    {header : Header}
    {rest binary : Bytes}
    (parsed :
      codec.parseFromString (codec.serializeToString header) = .ok header)
    (framed : frame codec type header rest = .ok binary) :
    TensoRPCHeader.init codec binary =
      .ok
        { reqLength := codec.byteSize header
          type := type
          req := header } := by
  obtain ⟨size, sizeWritten, body⟩ := PyResult.bind_eq_ok.mp framed
  obtain rfl := Except.ok.inj body
  have sizeLength : size.length = 4 :=
    int32Bytes_length sizeWritten
  have sizeSlice :
      slice
          (type.value :: size ++ codec.serializeToString header ++ rest)
          1 5 =
        size := by
    simp [slice, ← sizeLength]
  have headerSlice :
      slice
          (type.value :: size ++ codec.serializeToString header ++ rest)
          5 (codec.byteSize header + 5) =
        codec.serializeToString header := by
    simp [slice, ← sizeLength, WireCodec.byteSize]
  unfold TensoRPCHeader.init
  rw [sizeSlice, readInt32_int32Bytes sizeWritten]
  simp only [bind, Except.bind]
  rw [headerSlice, parsed]
  simp only [List.cons_append, SocketMsgType.ofValue_value]

/-- Every accepted message begins with a frame of its message header. -/
theorem SocketMessageEncoder.getMessageChunks_head
    {codec : WireCodec}
    {encoder : SocketMessageEncoder}
    {type : SocketMsgType}
    {req : Header}
    {chunkSize : Nat}
    {binaries : List Bytes}
    (accepted :
      encoder.getMessageChunks codec type req chunkSize = .ok binaries) :
    ∃ index body first rest,
      frame codec type (messageHeader codec encoder req index) body =
          .ok first ∧
        binaries = first :: rest := by
  unfold SocketMessageEncoder.getMessageChunks at accepted
  dsimp only at accepted
  split at accepted
  · obtain ⟨binary, framed, last⟩ := PyResult.bind_eq_ok.mp accepted
    obtain rfl := Except.ok.inj last
    exact ⟨req.chunkIndex, _, binary, [], framed, rfl⟩
  · obtain ⟨_, _, accepted⟩ := PyResult.bind_eq_ok.mp accepted
    obtain ⟨_, _, accepted⟩ := PyResult.bind_eq_ok.mp accepted
    obtain ⟨_, _, accepted⟩ := PyResult.bind_eq_ok.mp accepted
    obtain ⟨_, _, accepted⟩ := PyResult.bind_eq_ok.mp accepted
    obtain ⟨_, _, accepted⟩ := PyResult.bind_eq_ok.mp accepted
    obtain ⟨index, _, accepted⟩ := PyResult.bind_eq_ok.mp accepted
    obtain ⟨first, framed, accepted⟩ := PyResult.bind_eq_ok.mp accepted
    obtain ⟨chunks, _, last⟩ := PyResult.bind_eq_ok.mp accepted
    obtain rfl := Except.ok.inj last
    exact ⟨index, [], first, chunks, framed, rfl⟩

theorem unpackTwo_getSkeleton
    (encoder : SocketMessageEncoder) :
    unpackTwo encoder.getSkeleton =
      .error (.valueError "too many values to unpack (expected 2)") :=
  rfl

/-- Both decoders stop at the unpacking when the header carries a skeleton. -/
theorem decodeMessage_of_head
    {codec : WireCodec}
    (encoder : SocketMessageEncoder)
    {first : Bytes}
    {rest : List Bytes}
    {header : TensoRPCHeader}
    (headerRead : TensoRPCHeader.init codec first = .ok header)
    (skeletonRead :
      codec.loads header.req.data = .ok encoder.getSkeleton) :
    decodeMessage codec (first :: rest) =
      .error (.valueError "too many values to unpack (expected 2)") := by
  simp only [decodeMessage, headerRead, bind, Except.bind]
  by_cases unchunked : header.req.chunkIndex = 0
  · simp [unchunked, parseMessageChunks, skeletonRead, bind, Except.bind,
      unpackTwo_getSkeleton]
  · have positive : 0 < header.req.chunkIndex.toNat := by
      rcases Nat.eq_zero_or_pos header.req.chunkIndex.toNat with zero | positive
      · exact (unchunked (UInt32.toNat_inj.mp zero)).elim
      · exact positive
    simp [unchunked, parseArrayOfChunkedMessage, pyAssert, positive,
      skeletonRead, bind, Except.bind, unpackTwo_getSkeleton]

/--
No message survives: whatever the payload, header and chunk size, decoding the
binaries of an accepted message raises instead of returning the payload.
-/
theorem decodeMessage_getMessageChunks
    (codec : WireCodec)
    (payload : Payload)
    (skeletonSizeLimit : Nat)
    (type : SocketMsgType)
    (req : Header)
    (chunkSize : Nat)
    {binaries : List Bytes}
    (json :
      codec.loads
          ((SocketMessageEncoder.init
            codec payload skeletonSizeLimit).serSkeleton codec) =
        .ok
          (SocketMessageEncoder.init
            codec payload skeletonSizeLimit).getSkeleton)
    (protobuf :
      ∀ index,
        codec.parseFromString
            (codec.serializeToString
              (messageHeader codec
                (SocketMessageEncoder.init codec payload skeletonSizeLimit)
                req index)) =
          .ok
            (messageHeader codec
              (SocketMessageEncoder.init codec payload skeletonSizeLimit)
              req index))
    (accepted :
      (SocketMessageEncoder.init
          codec payload skeletonSizeLimit).getMessageChunks
          codec type req chunkSize =
        .ok binaries) :
    decodeMessage codec binaries ≠ .ok payload := by
  obtain ⟨index, body, first, rest, framed, rfl⟩ :=
    SocketMessageEncoder.getMessageChunks_head accepted
  have headerRead :=
    TensoRPCHeader.init_frame (protobuf index) framed
  rw [decodeMessage_of_head
    (SocketMessageEncoder.init codec payload skeletonSizeLimit)
    headerRead json]
  exact fun same => nomatch same

/-! ## A concrete message -/

/-- `skeleton_size_limit`: `int(1024 * 1024 * 3.6)`. -/
def defaultSkeletonSizeLimit : Nat := 3774873

/-- The payload `5`, whose skeleton text is `[0, [], 5]`. -/
def samplePayload : Payload := .int 5

/-- The skeleton text of `samplePayload`. -/
def sampleText : String := "[0, [], 5]"

/-- A request header with no field set. -/
def sampleRequest : Header :=
  { serviceId := 0
    chunkIndex := 0
    rpcId := 0
    data := ""
    serviceKey := ""
    dynamicKey := "" }

/-- The protobuf bytes of field 4, `data`, holding `sampleText`. -/
def sampleDataField : Bytes :=
  [0x22, 10, 91, 48, 44, 32, 91, 93, 44, 32, 53, 93]

/-- The protobuf bytes of field 2, `chunk_index`; zero is not written. -/
def chunkIndexField (index : UInt32) : Bytes :=
  if index = 0 then
    []
  else
    [0x15, UInt8.ofNat index.toNat, UInt8.ofNat (index.toNat / 2 ^ 8),
      UInt8.ofNat (index.toNat / 2 ^ 16), UInt8.ofNat (index.toNat / 2 ^ 24)]

/-- The serializers as they act on the sample message. -/
def sampleCodec : WireCodec where
  dumps _ := sampleText
  loads text :=
    if text = sampleText then
      .ok (.list [.int 0, .list [], .int 5])
    else
      .error (.valueError "Expecting value")
  packb _ := []
  serializeToString header :=
    chunkIndexField header.chunkIndex ++
      if header.data = "" then [] else sampleDataField
  parseFromString
    | 0x15 :: first :: second :: third :: fourth :: rest =>
        if rest = sampleDataField then
          .ok
            { sampleRequest with
              data := sampleText
              chunkIndex :=
                UInt32.ofNat
                  (first.toNat + second.toNat * 2 ^ 8 +
                    third.toNat * 2 ^ 16 + fourth.toNat * 2 ^ 24) }
        else
          .error (.valueError "Error parsing message")
    | bytes =>
        if bytes = sampleDataField then
          .ok { sampleRequest with data := sampleText }
        else
          .error (.valueError "Error parsing message")

/-- The sample codec reads back every header of the sample message. -/
theorem sampleCodec_protobuf
    (index : UInt32) :
    sampleCodec.parseFromString
        (sampleCodec.serializeToString
          (messageHeader sampleCodec
            (SocketMessageEncoder.init
              sampleCodec samplePayload defaultSkeletonSizeLimit)
            sampleRequest index)) =
      .ok
        (messageHeader sampleCodec
          (SocketMessageEncoder.init
            sampleCodec samplePayload defaultSkeletonSizeLimit)
          sampleRequest index) := by
  have dataText :
      (messageHeader sampleCodec
          (SocketMessageEncoder.init
            sampleCodec samplePayload defaultSkeletonSizeLimit)
          sampleRequest index) =
        { sampleRequest with data := sampleText, chunkIndex := index } :=
    rfl
  rw [dataText]
  by_cases zero : index = 0
  · subst index
    rfl
  · have bytesBack :
        UInt32.ofNat
            ((UInt8.ofNat index.toNat).toNat +
              (UInt8.ofNat (index.toNat / 2 ^ 8)).toNat * 2 ^ 8 +
              (UInt8.ofNat (index.toNat / 2 ^ 16)).toNat * 2 ^ 16 +
              (UInt8.ofNat (index.toNat / 2 ^ 24)).toNat * 2 ^ 24) =
          index := by
      apply UInt32.toNat_inj.mp
      have small : index.toNat < 2 ^ 32 :=
        index.toNat_lt
      simp only [UInt8.toNat_ofNat', UInt32.toNat_ofNat']
      omega
    have nonempty : sampleText ≠ "" := by decide
    simp only [sampleCodec, chunkIndexField, zero, nonempty, ↓reduceIte,
      List.cons_append, List.nil_append, bytesBack]

/-- The binary sent for the sample message in an RPC reply. -/
def sampleBinary : Bytes :=
  0x03 :: [12, 0, 0, 0] ++ sampleDataField

/-- The sample message is accepted in one binary, which does not decode. -/
theorem sampleMessage_lost :
    (SocketMessageEncoder.init
        sampleCodec samplePayload defaultSkeletonSizeLimit).getMessageChunks
        sampleCodec .rpc sampleRequest 1000 =
      .ok [sampleBinary] ∧
      decodeMessage sampleCodec [sampleBinary] =
        .error (.valueError "too many values to unpack (expected 2)") := by
  constructor <;> rfl

/-- The general statement at the sample message. -/
theorem decodeMessage_getMessageChunks_sample :
    decodeMessage sampleCodec [sampleBinary] ≠ .ok samplePayload :=
  decodeMessage_getMessageChunks
    sampleCodec samplePayload defaultSkeletonSizeLimit .rpc sampleRequest 1000
    rfl sampleCodec_protobuf rfl

/-!
# The size of a serialized header

Protobuf writes the fields that differ from their default: a tag of one byte and then
the four or eight bytes of a fixed field, or the length of a text as a varint and its
UTF-8 bytes.
-/

/-- The little endian bytes of a fixed field. -/
def fixedBytes : Nat → Nat → Bytes
  | 0, _ => []
  | count + 1, value => UInt8.ofNat value :: fixedBytes count (value / 2 ^ 8)

/-- The bytes of a varint: seven bits each, the low ones first. -/
def varintBytes : Nat → Nat → Bytes
  | 0, value => [UInt8.ofNat value]
  | fuel + 1, value =>
      if value < 128 then
        [UInt8.ofNat value]
      else
        UInt8.ofNat (value % 128 + 128) :: varintBytes fuel (value / 128)

/-- A fixed field; the default value is not written. -/
def fixedField
    (tag : UInt8)
    (count value : Nat) : Bytes :=
  if value = 0 then [] else tag :: fixedBytes count value

/-- A text field; a text has fewer than `2 ^ 35` bytes. -/
def textField
    (tag : UInt8)
    (text : String) : Bytes :=
  if text = "" then
    []
  else
    tag :: varintBytes 4 text.utf8ByteSize ++ text.toUTF8.toList

/-- `Header.SerializeToString`. -/
def Header.protobuf (header : Header) : Bytes :=
  fixedField 0x0d 4 header.serviceId.toNat ++ fixedField 0x15 4 header.chunkIndex.toNat ++
    fixedField 0x19 8 header.rpcId.toNat ++ textField 0x22 header.data ++
      textField 0x2a header.serviceKey ++ textField 0x32 header.dynamicKey

/-- The size of a fixed field. -/
def fixedSize
    (count value : Nat) : Nat :=
  if value = 0 then 0 else count + 1

/-- The size of the header without its chunk index. -/
def Header.sizeWithoutIndex (header : Header) : Nat :=
  fixedSize 4 header.serviceId.toNat + fixedSize 8 header.rpcId.toNat +
    (textField 0x22 header.data).length + (textField 0x2a header.serviceKey).length +
      (textField 0x32 header.dynamicKey).length

/-- A serializer of headers that writes as many bytes as protobuf. -/
def WireCodec.HasProtobufSizes (codec : WireCodec) : Prop :=
  ∀ header,
    codec.byteSize header =
      header.sizeWithoutIndex + fixedSize 4 header.chunkIndex.toNat

theorem length_fixedBytes (count value : Nat) :
    (fixedBytes count value).length = count := by
  induction count generalizing value with
  | zero =>
      rfl
  | succ count inductionHypothesis =>
      exact congrArg Nat.succ (inductionHypothesis _)

theorem length_fixedField
    (tag : UInt8)
    (count value : Nat) :
    (fixedField tag count value).length = fixedSize count value := by
  unfold fixedField fixedSize
  split
  · rfl
  · exact congrArg Nat.succ (length_fixedBytes count value)

theorem Header.length_protobuf (header : Header) :
    header.protobuf.length =
      header.sizeWithoutIndex + fixedSize 4 header.chunkIndex.toNat := by
  simp only [protobuf, sizeWithoutIndex, List.length_append, length_fixedField]
  omega

section Sizes

variable {codec : WireCodec}

theorem byteSize_chunkIndex
    (sizes : codec.HasProtobufSizes)
    (header : Header)
    {index : UInt32}
    (written : index ≠ 0) :
    codec.byteSize { header with chunkIndex := index } = header.sizeWithoutIndex + 5 := by
  have nonzero : index.toNat ≠ 0 := fun zero => written (UInt32.toNat_inj.mp zero)
  rw [sizes, fixedSize, if_neg nonzero]
  rfl

end Sizes

end TensorPC.Wire
