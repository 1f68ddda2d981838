import IronFix.Fixp.Messages
import IronFix.Lib.LittleEndian

/-!
# The FIXP codec

A message is an SBE header, a root block of fields at fixed offsets and the
variable-length fields behind it, each with a two-byte length. Numbers are
little-endian.
-/

namespace IronFix.Fixp

open Lib.Decimal

inductive FixpDecodeError where
  | truncated (needed available : Nat)
  | schemaMismatch (schemaId expected : Nat)
  | unknownTemplate (templateId : Nat)
  | blockLengthTooShort (message : String) (blockLength minimum : Nat)
  | invalidEnumValue (field : String) (value : UInt8)
  | invalidUtf8 (field : String)
  | nullVarDataLength (offset : Nat)
  deriving DecidableEq, Repr

inductive FixpEncodeError where
  | varDataTooLong (field : String) (len max : Nat)
  | bufferTooSmall (needed available : Nat)
  | capacityOverflow (needed : Nat)
  deriving DecidableEq, Repr

def HEADER_LEN : Nat := 8

def VAR_PREFIX_LEN : Nat := 2

/-- The null value of an optional `uint64`. -/
def NULL_U64 : UInt64 := 0xFFFFFFFFFFFFFFFF

def le16 (value : Nat) : Bytes := Lib.LittleEndian.bytes 2 value

def le32 (value : UInt32) : Bytes := Lib.LittleEndian.bytes 4 value.toNat

def le64 (value : UInt64) : Bytes := Lib.LittleEndian.bytes 8 value.toNat

/-- `len` bytes of `buf` at `offset`. -/
def getBytes (buf : Bytes) (offset len : Nat) : Bytes := (buf.drop offset).take len

def getU16 (buf : Bytes) (offset : Nat) : Nat := Lib.LittleEndian.value (getBytes buf offset 2)

/-- Writes `bytes` over `buf` at `offset`. -/
def putBytes (buf : Bytes) (offset : Nat) (bytes : Bytes) : Bytes :=
  buf.take offset ++ bytes ++ buf.drop (offset + bytes.length)

/-! ## Encoding -/

def credentialsBytes (credentials : Option Credentials) : Bytes :=
  match credentials with
  | none => []
  | some credentials => credentials.bytes

/-- A variable-length field: its name and its bytes. -/
abbrev VarField := String × Bytes

namespace SessionMessage

/-- The variable-length fields, in schema order. -/
def varFields : SessionMessage → List VarField
  | .negotiate m => [("Credentials", credentialsBytes m.credentials)]
  | .negotiationResponse m => [("Credentials", credentialsBytes m.credentials)]
  | .negotiationReject m => [("Reason", textBytes m.reason)]
  | .topic m => [("Classification", m.classification)]
  | .establish m => [("Credentials", credentialsBytes m.credentials)]
  | .establishmentAck _ => []
  | .establishmentReject m => [("Reason", textBytes m.reason)]
  | .sequence _ => []
  | .context _ => []
  | .unsequencedHeartbeat => []
  | .retransmitRequest _ => []
  | .retransmission _ => []
  | .retransmitReject m => [("Reason", textBytes m.reason)]
  | .terminate m => [("Reason", textBytes m.reason)]
  | .finishedSending _ => []
  | .finishedReceiving _ => []
  | .applied _ => []
  | .notApplied _ => []
  | .messageTemplate m => [("Version", m.version), ("Template", m.template)]

/-- What `write` puts in the root block, and at which offset of it. -/
def rootBlock : SessionMessage → List (Nat × Bytes)
  | .negotiate m =>
      [(0, m.sessionId.bytes), (16, le64 m.timestamp.nanos), (24, [m.clientFlow.asU8])]
  | .negotiationResponse m =>
      [(0, m.sessionId.bytes), (16, le64 m.requestTimestamp.nanos), (24, [m.serverFlow.asU8])]
  | .negotiationReject m =>
      [(0, m.sessionId.bytes), (16, le64 m.requestTimestamp.nanos), (24, [m.code.asU8])]
  | .topic m => [(0, m.sessionId.bytes), (16, [m.flow.asU8]), (17, le32 m.keepaliveInterval)]
  | .establish m =>
      [(0, m.sessionId.bytes), (16, le64 m.timestamp.nanos), (24, le32 m.keepaliveInterval),
        (28, le64 (m.nextSeqNo.getD NULL_U64))]
  | .establishmentAck m =>
      [(0, m.sessionId.bytes), (16, le64 m.requestTimestamp.nanos), (24, le32 m.keepaliveInterval),
        (28, le64 (m.nextSeqNo.getD NULL_U64))]
  | .establishmentReject m =>
      [(0, m.sessionId.bytes), (16, le64 m.requestTimestamp.nanos), (24, [m.code.asU8])]
  | .sequence m => [(0, le64 m.nextSeqNo)]
  | .context m => [(0, m.sessionId.bytes), (16, le64 m.nextSeqNo)]
  | .unsequencedHeartbeat => []
  | .retransmitRequest m =>
      [(0, m.sessionId.bytes), (16, le64 m.timestamp.nanos), (24, le64 m.fromSeqNo),
        (32, le32 m.count)]
  | .retransmission m =>
      [(0, m.sessionId.bytes), (16, le64 m.requestTimestamp.nanos), (24, le64 m.nextSeqNo),
        (32, le32 m.count)]
  | .retransmitReject m =>
      [(0, m.sessionId.bytes), (16, le64 m.requestTimestamp.nanos), (24, [m.code.asU8])]
  | .terminate m => [(0, m.sessionId.bytes), (16, [m.code.asU8])]
  | .finishedSending m => [(0, m.sessionId.bytes), (16, le64 (m.lastSeqNo.getD NULL_U64))]
  | .finishedReceiving m => [(0, m.sessionId.bytes)]
  | .applied m => [(0, le64 m.fromSeqNo), (8, le32 m.count)]
  | .notApplied m => [(0, le64 m.fromSeqNo), (8, le32 m.count)]
  | .messageTemplate m =>
      [(0, le32 m.encodingType), (4, le64 ((m.effectiveTime.map Nanotime.nanos).getD NULL_U64))]

/-- The check each variable-length field's length passes first. -/
def checkVarField (field : VarField) : Except FixpEncodeError Unit :=
  if field.2.length > MAX_VAR_DATA_LEN then
    .error (.varDataTooLong field.1 field.2.length MAX_VAR_DATA_LEN)
  else .ok ()

/-- The lengths of the variable-length fields, prefixes included. -/
def varFieldsLen : List VarField → Except FixpEncodeError Nat
  | [] => .ok 0
  | field :: fields => do
      checkVarField field
      let rest ← varFieldsLen fields
      return VAR_PREFIX_LEN + field.2.length + rest

def encodedLen (message : SessionMessage) : Except FixpEncodeError Nat := do
  let rest ← varFieldsLen message.varFields
  return HEADER_LEN + message.layout.blockLength + rest

/-- `MessageHeader::encode`, at the start of `buf`. -/
def putHeader (layout : Layout) (buf : Bytes) : Bytes :=
  putBytes buf 0
    (le16 layout.blockLength ++ le16 layout.templateId ++ le16 SCHEMA_ID ++ le16 SCHEMA_VERSION)

/-- Writes the variable-length fields from `position` on. -/
def putVarFields : List VarField → Nat → Bytes → Except FixpEncodeError Bytes
  | [], _, buf => .ok buf
  | field :: fields, position, buf => do
      checkVarField field
      let buf := putBytes buf position (le16 field.2.length)
      let buf := putBytes buf (position + VAR_PREFIX_LEN) field.2
      putVarFields fields (position + (VAR_PREFIX_LEN + field.2.length)) buf

/-- Writes the message into `buf`, which is as long as the message. -/
def write (message : SessionMessage) (buf : Bytes) : Except FixpEncodeError Bytes :=
  let buf := putHeader message.layout buf
  let buf := message.rootBlock.foldl
    (fun buf (field : Nat × Bytes) => putBytes buf (HEADER_LEN + field.1) field.2) buf
  putVarFields message.varFields (HEADER_LEN + message.layout.blockLength) buf

/-- Encodes at the start of `dst`: the result, and `dst` after. -/
def encodeInto (message : SessionMessage) (dst : Bytes) : Except FixpEncodeError Nat × Bytes :=
  match message.encodedLen with
  | .error error => (.error error, dst)
  | .ok len =>
      if dst.length < len then (.error (.bufferTooSmall len dst.length), dst)
      else
        match message.write (dst.take len) with
        | .error error => (.error error, dst)
        | .ok written => (.ok len, written ++ dst.drop len)

/-- Appends to `dst`: the result, and `dst` after. A vector does not grow past
`isizeMax`. -/
def encode (message : SessionMessage) (dst : Bytes) : Except FixpEncodeError Nat × Bytes :=
  match message.encodedLen with
  | .error error => (.error error, dst)
  | .ok len =>
      if isizeMax < dst.length + len then (.error (.capacityOverflow len), dst)
      else
        match message.write (List.replicate len 0) with
        | .error error => (.error error, dst)
        | .ok written => (.ok len, dst ++ written)

end SessionMessage

/-! ## Decoding -/

/-- A reader moves the offset of the next variable-length field. -/
abbrev Decode := EStateM FixpDecodeError Nat

/-- `Reader::open`: the root block as long as this schema version's, and the
offset past the declared one. -/
def openBlock (src : Bytes) (blockLength : Nat) (layout : Layout) : Decode Bytes :=
  if blockLength < layout.blockLength then
    throw (.blockLengthTooShort layout.name blockLength layout.blockLength)
  else if src.length < HEADER_LEN + blockLength then
    throw (.truncated (HEADER_LEN + blockLength) src.length)
  else do
    set (HEADER_LEN + blockLength)
    return getBytes src HEADER_LEN layout.blockLength

/-- The sixteen bytes of a session identifier; the block has them. -/
def sessionIdAt (block : Bytes) (offset : Nat) : SessionId :=
  ⟨List.ofFn fun i : Fin 16 => block.getD (offset + i) 0, List.length_ofFn⟩

def u64At (block : Bytes) (offset : Nat) : UInt64 :=
  UInt64.ofNat (Lib.LittleEndian.value (getBytes block offset 8))

def u32At (block : Bytes) (offset : Nat) : UInt32 :=
  UInt32.ofNat (Lib.LittleEndian.value (getBytes block offset 4))

def u8At (block : Bytes) (offset : Nat) : UInt8 := block.getD offset 0

def nanotimeAt (block : Bytes) (offset : Nat) : Nanotime := ⟨u64At block offset⟩

def optionalU64At (block : Bytes) (offset : Nat) : Option UInt64 :=
  if u64At block offset = NULL_U64 then none else some (u64At block offset)

/-- An enumeration's variant, by its wire value. -/
def variantAt {α : Type} (fromU8 : UInt8 → Option α) (block : Bytes) (offset : Nat)
    (field : String) : Decode α :=
  match fromU8 (u8At block offset) with
  | none => throw (.invalidEnumValue field (u8At block offset))
  | some variant => return variant

def flowAt (block : Bytes) (offset : Nat) (field : String) : Decode FlowType :=
  variantAt FlowType.fromU8 block offset field

/-- The next variable-length field: its length against the bytes there are. -/
def varData (src : Bytes) : Decode Bytes := do
  let position ← get
  let prefixEnd := position + VAR_PREFIX_LEN
  if src.length < prefixEnd then throw (.truncated prefixEnd src.length)
  else
    let len := getU16 src position
    if len = u16Max then throw (.nullVarDataLength position)
    else if src.length < prefixEnd + len then throw (.truncated (prefixEnd + len) src.length)
    else do
      set (prefixEnd + len)
      return getBytes src prefixEnd len

def readCredentials (src : Bytes) : Decode (Option Credentials) := do
  let bytes ← varData src
  return if bytes = [] then none else some ⟨bytes⟩

def readText (src : Bytes) (field : String) : Decode String := do
  let bytes ← varData src
  match textOf bytes with
  | none => throw (.invalidUtf8 field)
  | some text => return text

def decodeNegotiate (src : Bytes) (blockLength : Nat) : Decode SessionMessage := do
  let block ← openBlock src blockLength Negotiate.layout
  let clientFlow ← flowAt block 24 "ClientFlow"
  let credentials ← readCredentials src
  return .negotiate ⟨sessionIdAt block 0, nanotimeAt block 16, clientFlow, credentials⟩

def decodeNegotiationResponse (src : Bytes) (blockLength : Nat) : Decode SessionMessage := do
  let block ← openBlock src blockLength NegotiationResponse.layout
  let serverFlow ← flowAt block 24 "ServerFlow"
  let credentials ← readCredentials src
  return .negotiationResponse ⟨sessionIdAt block 0, nanotimeAt block 16, serverFlow, credentials⟩

def decodeNegotiationReject (src : Bytes) (blockLength : Nat) : Decode SessionMessage := do
  let block ← openBlock src blockLength NegotiationReject.layout
  let code ← variantAt NegotiationRejectCode.fromU8 block 24 "NegotiationRejectCode"
  let reason ← readText src "Reason"
  return .negotiationReject ⟨sessionIdAt block 0, nanotimeAt block 16, code, reason⟩

def decodeTopic (src : Bytes) (blockLength : Nat) : Decode SessionMessage := do
  let block ← openBlock src blockLength Topic.layout
  let flow ← flowAt block 16 "Flow"
  let classification ← varData src
  return .topic ⟨sessionIdAt block 0, flow, u32At block 17, classification⟩

def decodeEstablish (src : Bytes) (blockLength : Nat) : Decode SessionMessage := do
  let block ← openBlock src blockLength Establish.layout
  let credentials ← readCredentials src
  return .establish ⟨sessionIdAt block 0, nanotimeAt block 16, u32At block 24,
    optionalU64At block 28, credentials⟩

def decodeEstablishmentAck (src : Bytes) (blockLength : Nat) : Decode SessionMessage := do
  let block ← openBlock src blockLength EstablishmentAck.layout
  return .establishmentAck ⟨sessionIdAt block 0, nanotimeAt block 16, u32At block 24,
    optionalU64At block 28⟩

def decodeEstablishmentReject (src : Bytes) (blockLength : Nat) : Decode SessionMessage := do
  let block ← openBlock src blockLength EstablishmentReject.layout
  let code ← variantAt EstablishmentRejectCode.fromU8 block 24 "EstablishmentRejectCode"
  let reason ← readText src "Reason"
  return .establishmentReject ⟨sessionIdAt block 0, nanotimeAt block 16, code, reason⟩

def decodeSequence (src : Bytes) (blockLength : Nat) : Decode SessionMessage := do
  let block ← openBlock src blockLength Sequence.layout
  return .sequence ⟨u64At block 0⟩

def decodeContext (src : Bytes) (blockLength : Nat) : Decode SessionMessage := do
  let block ← openBlock src blockLength Context.layout
  return .context ⟨sessionIdAt block 0, u64At block 16⟩

def decodeUnsequencedHeartbeat (src : Bytes) (blockLength : Nat) : Decode SessionMessage := do
  let _ ← openBlock src blockLength UnsequencedHeartbeat.layout
  return .unsequencedHeartbeat

def decodeRetransmitRequest (src : Bytes) (blockLength : Nat) : Decode SessionMessage := do
  let block ← openBlock src blockLength RetransmitRequest.layout
  return .retransmitRequest ⟨sessionIdAt block 0, nanotimeAt block 16, u64At block 24,
    u32At block 32⟩

def decodeRetransmission (src : Bytes) (blockLength : Nat) : Decode SessionMessage := do
  let block ← openBlock src blockLength Retransmission.layout
  return .retransmission ⟨sessionIdAt block 0, nanotimeAt block 16, u64At block 24,
    u32At block 32⟩

def decodeRetransmitReject (src : Bytes) (blockLength : Nat) : Decode SessionMessage := do
  let block ← openBlock src blockLength RetransmitReject.layout
  let code ← variantAt RetransmitRejectCode.fromU8 block 24 "RetransmitRejectCode"
  let reason ← readText src "Reason"
  return .retransmitReject ⟨sessionIdAt block 0, nanotimeAt block 16, code, reason⟩

def decodeTerminate (src : Bytes) (blockLength : Nat) : Decode SessionMessage := do
  let block ← openBlock src blockLength Terminate.layout
  let code ← variantAt TerminationCode.fromU8 block 16 "TerminationCode"
  let reason ← readText src "Reason"
  return .terminate ⟨sessionIdAt block 0, code, reason⟩

def decodeFinishedSending (src : Bytes) (blockLength : Nat) : Decode SessionMessage := do
  let block ← openBlock src blockLength FinishedSending.layout
  return .finishedSending ⟨sessionIdAt block 0, optionalU64At block 16⟩

def decodeFinishedReceiving (src : Bytes) (blockLength : Nat) : Decode SessionMessage := do
  let block ← openBlock src blockLength FinishedReceiving.layout
  return .finishedReceiving ⟨sessionIdAt block 0⟩

def decodeApplied (src : Bytes) (blockLength : Nat) : Decode SessionMessage := do
  let block ← openBlock src blockLength Applied.layout
  return .applied ⟨u64At block 0, u32At block 8⟩

def decodeNotApplied (src : Bytes) (blockLength : Nat) : Decode SessionMessage := do
  let block ← openBlock src blockLength NotApplied.layout
  return .notApplied ⟨u64At block 0, u32At block 8⟩

def decodeMessageTemplate (src : Bytes) (blockLength : Nat) : Decode SessionMessage := do
  let block ← openBlock src blockLength MessageTemplate.layout
  let version ← varData src
  let template ← varData src
  return .messageTemplate ⟨u32At block 0, (optionalU64At block 4).map Nanotime.mk, version,
    template⟩

/-- The decoder of a template. -/
def decodeTemplate (src : Bytes) (blockLength templateId : Nat) : Decode SessionMessage :=
  if templateId = Negotiate.layout.templateId then decodeNegotiate src blockLength
  else if templateId = NegotiationResponse.layout.templateId then
    decodeNegotiationResponse src blockLength
  else if templateId = NegotiationReject.layout.templateId then
    decodeNegotiationReject src blockLength
  else if templateId = Topic.layout.templateId then decodeTopic src blockLength
  else if templateId = Establish.layout.templateId then decodeEstablish src blockLength
  else if templateId = EstablishmentAck.layout.templateId then
    decodeEstablishmentAck src blockLength
  else if templateId = EstablishmentReject.layout.templateId then
    decodeEstablishmentReject src blockLength
  else if templateId = Sequence.layout.templateId then decodeSequence src blockLength
  else if templateId = Context.layout.templateId then decodeContext src blockLength
  else if templateId = UnsequencedHeartbeat.layout.templateId then
    decodeUnsequencedHeartbeat src blockLength
  else if templateId = RetransmitRequest.layout.templateId then
    decodeRetransmitRequest src blockLength
  else if templateId = Retransmission.layout.templateId then decodeRetransmission src blockLength
  else if templateId = RetransmitReject.layout.templateId then
    decodeRetransmitReject src blockLength
  else if templateId = Terminate.layout.templateId then decodeTerminate src blockLength
  else if templateId = FinishedSending.layout.templateId then
    decodeFinishedSending src blockLength
  else if templateId = FinishedReceiving.layout.templateId then
    decodeFinishedReceiving src blockLength
  else if templateId = Applied.layout.templateId then decodeApplied src blockLength
  else if templateId = NotApplied.layout.templateId then decodeNotApplied src blockLength
  else if templateId = MessageTemplate.layout.templateId then
    decodeMessageTemplate src blockLength
  else throw (.unknownTemplate templateId)

/-- The message at the start of `src`, and the bytes it occupies. -/
def SessionMessage.decode (src : Bytes) : Except FixpDecodeError (SessionMessage × Nat) :=
  if src.length < HEADER_LEN then .error (.truncated HEADER_LEN src.length)
  else if getU16 src 4 ≠ SCHEMA_ID then .error (.schemaMismatch (getU16 src 4) SCHEMA_ID)
  else
    match decodeTemplate src (getU16 src 0) (getU16 src 2) 0 with
    | .ok message used => .ok (message, used)
    | .error error _ => .error error

end IronFix.Fixp
