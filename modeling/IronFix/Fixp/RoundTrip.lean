import IronFix.Fixp.Wire

/-!
# FIXP messages read back

A message decodes to itself from its own bytes, up to the values the wire has
no other form for; a strict prefix is truncated; and whatever decodes is a
message that is its own round trip.
-/

namespace IronFix.Fixp

open Lib.Cursor

/-! ## Variable-length fields -/

theorem varData_reads {bytes : Bytes} (carried : bytes.length ≤ MAX_VAR_DATA_LEN) :
    Reads varData (le16 bytes.length ++ bytes) bytes := by
  intro before after
  have small : bytes.length < u16Max := Nat.lt_of_le_of_lt carried (by decide)
  have prefixLength : (le16 bytes.length).length = VAR_PREFIX_LEN :=
    Lib.LittleEndian.length_bytes _ _
  have total : (before ++ (le16 bytes.length ++ bytes ++ after)).length
      = before.length + (VAR_PREFIX_LEN + bytes.length + after.length) := by
    rw [List.length_append, List.length_append, List.length_append, prefixLength]
  have declared : getU16 (before ++ (le16 bytes.length ++ bytes ++ after)) before.length
      = bytes.length := by
    unfold getU16
    have declaration : getBytes (before ++ (le16 bytes.length ++ (bytes ++ after))) before.length 2
        = le16 bytes.length := getBytes_middle rfl rfl
    rw [List.append_assoc (le16 bytes.length), declaration]
    refine Lib.LittleEndian.value_bytes (Nat.lt_trans small ?_)
    decide
  have body : getBytes (before ++ (le16 bytes.length ++ bytes ++ after))
      (before.length + VAR_PREFIX_LEN) bytes.length = bytes := by
    rw [List.append_assoc (le16 bytes.length), ← List.append_assoc before]
    exact getBytes_middle (by rw [List.length_append, prefixLength]) rfl
  show (if (before ++ (le16 bytes.length ++ bytes ++ after)).length
        < before.length + VAR_PREFIX_LEN then throw _
      else if getU16 _ before.length = u16Max then throw _
      else if (before ++ (le16 bytes.length ++ bytes ++ after)).length
        < before.length + VAR_PREFIX_LEN + getU16 _ before.length then throw _
      else do
        set (before.length + VAR_PREFIX_LEN + getU16 _ before.length)
        return getBytes _ (before.length + VAR_PREFIX_LEN) (getU16 _ before.length) :
      Decode Bytes) before.length = _
  rw [declared, total, if_neg (by omega), if_neg (Nat.ne_of_lt small), if_neg (by omega), body]
  show EStateM.Result.ok bytes _ = .ok bytes _
  rw [List.length_append, prefixLength, Nat.add_assoc]

theorem readText_reads {text : String} (carried : (textBytes text).length ≤ MAX_VAR_DATA_LEN)
    (field : String) : Reads (fun data => readText data field)
      (le16 (textBytes text).length ++ textBytes text) text := by
  refine (varData_reads carried).finish ?_
  rw [textOf_textBytes]

/-- Empty credentials are absent. -/
def normalCredentials (credentials : Option Credentials) : Option Credentials :=
  if credentialsBytes credentials = [] then none else credentials

theorem readCredentials_reads {credentials : Option Credentials}
    (carried : (credentialsBytes credentials).length ≤ MAX_VAR_DATA_LEN) :
    Reads readCredentials
      (le16 (credentialsBytes credentials).length ++ credentialsBytes credentials)
      (normalCredentials credentials) := by
  refine (varData_reads carried).finish ?_
  unfold normalCredentials
  split
  · rfl
  · rename_i nonempty
    cases credentials with
    | none => exact absurd rfl nonempty
    | some credentials => rfl

/-- The null value is absent. -/
def normalU64 (value : Option UInt64) : Option UInt64 := if value = some NULL_U64 then none else value

theorem optionalU64At_field {fields : List (Nat × Bytes)} {stop offset : Nat}
    (contiguous : Contiguous 0 fields stop) {value : Option UInt64}
    (member : (offset, le64 (value.getD NULL_U64)) ∈ fields) :
    optionalU64At (fieldBytes fields) offset = normalU64 value := by
  unfold optionalU64At normalU64
  rw [u64At_field contiguous member]
  cases value with
  | none => rfl
  | some value =>
      show (if value = NULL_U64 then none else some value) = _
      by_cases isNull : value = NULL_U64
      · rw [if_pos isNull, if_pos (congrArg some isNull)]
      · rw [if_neg isNull, if_neg fun same => isNull (Option.some.inj same)]

namespace SessionMessage

/-- What the wire has one form for: an absent number and the null value, absent
and empty credentials. -/
def normalise : SessionMessage → SessionMessage
  | .negotiate m => .negotiate { m with credentials := normalCredentials m.credentials }
  | .negotiationResponse m =>
      .negotiationResponse { m with credentials := normalCredentials m.credentials }
  | .establish m =>
      .establish { m with
        nextSeqNo := normalU64 m.nextSeqNo
        credentials := normalCredentials m.credentials }
  | .establishmentAck m => .establishmentAck { m with nextSeqNo := normalU64 m.nextSeqNo }
  | .finishedSending m => .finishedSending { m with lastSeqNo := normalU64 m.lastSeqNo }
  | .messageTemplate m =>
      .messageTemplate { m with
        effectiveTime := (normalU64 (m.effectiveTime.map Nanotime.nanos)).map Nanotime.mk }
  | message => message

variable {message : SessionMessage}

/-- From a message's bytes and whatever follows, `program` gives `result` and
uses the message's bytes. -/
def Decodes (message : SessionMessage) (program : Bytes → Decode SessionMessage)
    (result : SessionMessage) : Prop :=
  ∀ rest, program (message.wire ++ rest) 0 = .ok result message.wire.length

/-- The block of a message's own bytes is opened, and the body reads on behind it. -/
theorem opened {message result : SessionMessage} {body : Bytes → Bytes → Decode SessionMessage}
    (reads : Reads (body (fieldBytes message.rootBlock)) (wireFields message.varFields) result) :
    message.Decodes (fun src => do
      let block ← openBlock src message.layout.blockLength message.layout
      body block src) result := by
  intro rest
  have blockLength := message.blockBytes_length
  have long : ¬ (message.wire ++ rest).length < HEADER_LEN + message.layout.blockLength := by
    rw [List.length_append, wire_length]
    omega
  have parted : message.wire ++ rest
      = headerBytes message.layout ++ fieldBytes message.rootBlock
        ++ (wireFields message.varFields ++ rest) := by
    unfold wire
    rw [List.append_assoc]
  have block : getBytes (message.wire ++ rest) HEADER_LEN message.layout.blockLength
      = fieldBytes message.rootBlock := by
    rw [parted, List.append_assoc]
    exact getBytes_middle rfl blockLength.symm
  have opens : openBlock (message.wire ++ rest) message.layout.blockLength message.layout 0
      = .ok (fieldBytes message.rootBlock) (HEADER_LEN + message.layout.blockLength) := by
    unfold openBlock
    rw [if_neg (Nat.lt_irrefl _), if_neg long]
    show EStateM.Result.ok (getBytes _ _ _) _ = _
    rw [block]
  have position : HEADER_LEN + message.layout.blockLength
      = (headerBytes message.layout ++ fieldBytes message.rootBlock).length := by
    rw [List.length_append, headerBytes_length, blockLength]
  show EStateM.bind _ _ 0 = _
  unfold EStateM.bind
  rw [opens]
  show body _ (message.wire ++ rest) (HEADER_LEN + message.layout.blockLength) = _
  rw [parted, position, reads, wire_length, ← position]

/-- A block's enumeration is read where it was put. -/
theorem variantAt_block {α : Type} {fromU8 : UInt8 → Option α} {value : UInt8} {variant : α}
    (known : fromU8 value = some variant) {offset : Nat} (field : String)
    (member : (offset, [value]) ∈ message.rootBlock) :
    variantAt fromU8 (fieldBytes message.rootBlock) offset field = pure variant := by
  unfold variantAt
  rw [u8At_field message.rootBlock_contiguous member, known]

/-- One field to read behind the block. -/
theorem reads_one {α : Type} {read : Bytes → Decode α} {field : VarField} {a : α}
    (reads : Reads read (le16 field.2.length ++ field.2) a) : Reads read (wireFields [field]) a := by
  have same : wireFields [field] = le16 field.2.length ++ field.2 := List.append_nil _
  rw [same]
  exact reads

theorem nanotimeAt_field {fields : List (Nat × Bytes)} {stop offset : Nat}
    (contiguous : Contiguous 0 fields stop) {time : Nanotime}
    (member : (offset, le64 time.nanos) ∈ fields) : nanotimeAt (fieldBytes fields) offset = time :=
  congrArg Nanotime.mk (u64At_field contiguous member)

/-! Each decoder reads each field where `rootBlock` puts it. -/

theorem negotiate_decodes (m : Negotiate) (fits : (negotiate m).Fits) :
    (negotiate m).Decodes (fun src => decodeNegotiate src Negotiate.layout.blockLength)
      (normalise (negotiate m)) := by
  have block := (negotiate m).rootBlock_contiguous
  have sessionId : sessionIdAt (fieldBytes (negotiate m).rootBlock) 0 = m.sessionId :=
    sessionIdAt_field block (by simp [rootBlock])
  have timestamp : nanotimeAt (fieldBytes (negotiate m).rootBlock) 16 = m.timestamp :=
    nanotimeAt_field block (by simp [rootBlock])
  have clientFlow : variantAt FlowType.fromU8 (fieldBytes (negotiate m).rootBlock) 24 "ClientFlow"
      = pure m.clientFlow :=
    variantAt_block (FlowType.fromU8_asU8 m.clientFlow) _ (by simp [rootBlock])
  unfold decodeNegotiate flowAt
  refine opened ?_
  simp only [sessionId, timestamp, clientFlow, pure_bind]
  exact reads_one ((readCredentials_reads (fits _ List.mem_cons_self)).finish rfl)

theorem negotiationResponse_decodes (m : NegotiationResponse)
    (fits : (negotiationResponse m).Fits) :
    (negotiationResponse m).Decodes
      (fun src => decodeNegotiationResponse src NegotiationResponse.layout.blockLength)
      (normalise (negotiationResponse m)) := by
  have block := (negotiationResponse m).rootBlock_contiguous
  have sessionId : sessionIdAt (fieldBytes (negotiationResponse m).rootBlock) 0 = m.sessionId :=
    sessionIdAt_field block (by simp [rootBlock])
  have requestTimestamp : nanotimeAt (fieldBytes (negotiationResponse m).rootBlock) 16
      = m.requestTimestamp :=
    nanotimeAt_field block (by simp [rootBlock])
  have serverFlow : variantAt FlowType.fromU8
      (fieldBytes (negotiationResponse m).rootBlock) 24 "ServerFlow"
      = pure m.serverFlow :=
    variantAt_block (FlowType.fromU8_asU8 m.serverFlow) _ (by simp [rootBlock])
  unfold decodeNegotiationResponse flowAt
  refine opened ?_
  simp only [sessionId, requestTimestamp, serverFlow, pure_bind]
  exact reads_one ((readCredentials_reads (fits _ List.mem_cons_self)).finish rfl)

theorem negotiationReject_decodes (m : NegotiationReject) (fits : (negotiationReject m).Fits) :
    (negotiationReject m).Decodes
      (fun src => decodeNegotiationReject src NegotiationReject.layout.blockLength)
      (normalise (negotiationReject m)) := by
  have block := (negotiationReject m).rootBlock_contiguous
  have sessionId : sessionIdAt (fieldBytes (negotiationReject m).rootBlock) 0 = m.sessionId :=
    sessionIdAt_field block (by simp [rootBlock])
  have requestTimestamp : nanotimeAt (fieldBytes (negotiationReject m).rootBlock) 16
      = m.requestTimestamp :=
    nanotimeAt_field block (by simp [rootBlock])
  have code : variantAt NegotiationRejectCode.fromU8
      (fieldBytes (negotiationReject m).rootBlock) 24 "NegotiationRejectCode"
      = pure m.code :=
    variantAt_block (NegotiationRejectCode.fromU8_asU8 m.code) _ (by simp [rootBlock])
  unfold decodeNegotiationReject
  refine opened ?_
  simp only [sessionId, requestTimestamp, code, pure_bind]
  exact reads_one ((readText_reads (fits _ List.mem_cons_self) _).finish rfl)

theorem topic_decodes (m : Topic) (fits : (topic m).Fits) :
    (topic m).Decodes (fun src => decodeTopic src Topic.layout.blockLength)
      (normalise (topic m)) := by
  have block := (topic m).rootBlock_contiguous
  have sessionId : sessionIdAt (fieldBytes (topic m).rootBlock) 0 = m.sessionId :=
    sessionIdAt_field block (by simp [rootBlock])
  have flow : variantAt FlowType.fromU8 (fieldBytes (topic m).rootBlock) 16 "Flow"
      = pure m.flow := variantAt_block (FlowType.fromU8_asU8 m.flow) _ (by simp [rootBlock])
  have keepaliveInterval : u32At (fieldBytes (topic m).rootBlock) 17 = m.keepaliveInterval :=
    u32At_field block (by simp [rootBlock])
  unfold decodeTopic flowAt
  refine opened ?_
  simp only [sessionId, flow, keepaliveInterval, pure_bind]
  exact reads_one ((varData_reads (fits _ List.mem_cons_self)).finish rfl)

theorem establish_decodes (m : Establish) (fits : (establish m).Fits) :
    (establish m).Decodes (fun src => decodeEstablish src Establish.layout.blockLength)
      (normalise (establish m)) := by
  have block := (establish m).rootBlock_contiguous
  have sessionId : sessionIdAt (fieldBytes (establish m).rootBlock) 0 = m.sessionId :=
    sessionIdAt_field block (by simp [rootBlock])
  have timestamp : nanotimeAt (fieldBytes (establish m).rootBlock) 16 = m.timestamp :=
    nanotimeAt_field block (by simp [rootBlock])
  have keepaliveInterval : u32At (fieldBytes (establish m).rootBlock) 24 = m.keepaliveInterval :=
    u32At_field block (by simp [rootBlock])
  have nextSeqNo : optionalU64At (fieldBytes (establish m).rootBlock) 28 = normalU64 m.nextSeqNo :=
    optionalU64At_field block (by simp [rootBlock])
  unfold decodeEstablish
  refine opened ?_
  simp only [sessionId, timestamp, keepaliveInterval, nextSeqNo]
  exact reads_one ((readCredentials_reads (fits _ List.mem_cons_self)).finish rfl)

theorem establishmentAck_decodes (m : EstablishmentAck) :
    (establishmentAck m).Decodes
      (fun src => decodeEstablishmentAck src EstablishmentAck.layout.blockLength)
      (normalise (establishmentAck m)) := by
  have block := (establishmentAck m).rootBlock_contiguous
  have sessionId : sessionIdAt (fieldBytes (establishmentAck m).rootBlock) 0 = m.sessionId :=
    sessionIdAt_field block (by simp [rootBlock])
  have requestTimestamp : nanotimeAt (fieldBytes (establishmentAck m).rootBlock) 16
      = m.requestTimestamp :=
    nanotimeAt_field block (by simp [rootBlock])
  have keepaliveInterval : u32At (fieldBytes (establishmentAck m).rootBlock) 24
      = m.keepaliveInterval :=
    u32At_field block (by simp [rootBlock])
  have nextSeqNo : optionalU64At (fieldBytes (establishmentAck m).rootBlock) 28
      = normalU64 m.nextSeqNo :=
    optionalU64At_field block (by simp [rootBlock])
  unfold decodeEstablishmentAck
  refine opened ?_
  simp only [sessionId, requestTimestamp, keepaliveInterval, nextSeqNo]
  exact Reads.returns _

theorem establishmentReject_decodes (m : EstablishmentReject)
    (fits : (establishmentReject m).Fits) :
    (establishmentReject m).Decodes
      (fun src => decodeEstablishmentReject src EstablishmentReject.layout.blockLength)
      (normalise (establishmentReject m)) := by
  have block := (establishmentReject m).rootBlock_contiguous
  have sessionId : sessionIdAt (fieldBytes (establishmentReject m).rootBlock) 0 = m.sessionId :=
    sessionIdAt_field block (by simp [rootBlock])
  have requestTimestamp : nanotimeAt (fieldBytes (establishmentReject m).rootBlock) 16
      = m.requestTimestamp :=
    nanotimeAt_field block (by simp [rootBlock])
  have code : variantAt EstablishmentRejectCode.fromU8
      (fieldBytes (establishmentReject m).rootBlock) 24 "EstablishmentRejectCode"
      = pure m.code :=
    variantAt_block (EstablishmentRejectCode.fromU8_asU8 m.code) _ (by simp [rootBlock])
  unfold decodeEstablishmentReject
  refine opened ?_
  simp only [sessionId, requestTimestamp, code, pure_bind]
  exact reads_one ((readText_reads (fits _ List.mem_cons_self) _).finish rfl)

theorem sequence_decodes (m : Sequence) :
    (sequence m).Decodes (fun src => decodeSequence src Sequence.layout.blockLength)
      (normalise (sequence m)) := by
  have block := (sequence m).rootBlock_contiguous
  have nextSeqNo : u64At (fieldBytes (sequence m).rootBlock) 0 = m.nextSeqNo :=
    u64At_field block (by simp [rootBlock])
  unfold decodeSequence
  refine opened ?_
  simp only [nextSeqNo]
  exact Reads.returns _

theorem context_decodes (m : Context) :
    (context m).Decodes (fun src => decodeContext src Context.layout.blockLength)
      (normalise (context m)) := by
  have block := (context m).rootBlock_contiguous
  have sessionId : sessionIdAt (fieldBytes (context m).rootBlock) 0 = m.sessionId :=
    sessionIdAt_field block (by simp [rootBlock])
  have nextSeqNo : u64At (fieldBytes (context m).rootBlock) 16 = m.nextSeqNo :=
    u64At_field block (by simp [rootBlock])
  unfold decodeContext
  refine opened ?_
  simp only [sessionId, nextSeqNo]
  exact Reads.returns _

theorem retransmitRequest_decodes (m : RetransmitRequest) :
    (retransmitRequest m).Decodes
      (fun src => decodeRetransmitRequest src RetransmitRequest.layout.blockLength)
      (normalise (retransmitRequest m)) := by
  have block := (retransmitRequest m).rootBlock_contiguous
  have sessionId : sessionIdAt (fieldBytes (retransmitRequest m).rootBlock) 0 = m.sessionId :=
    sessionIdAt_field block (by simp [rootBlock])
  have timestamp : nanotimeAt (fieldBytes (retransmitRequest m).rootBlock) 16 = m.timestamp :=
    nanotimeAt_field block (by simp [rootBlock])
  have fromSeqNo : u64At (fieldBytes (retransmitRequest m).rootBlock) 24 = m.fromSeqNo :=
    u64At_field block (by simp [rootBlock])
  have count : u32At (fieldBytes (retransmitRequest m).rootBlock) 32 = m.count :=
    u32At_field block (by simp [rootBlock])
  unfold decodeRetransmitRequest
  refine opened ?_
  simp only [sessionId, timestamp, fromSeqNo, count]
  exact Reads.returns _

theorem retransmission_decodes (m : Retransmission) :
    (retransmission m).Decodes
      (fun src => decodeRetransmission src Retransmission.layout.blockLength)
      (normalise (retransmission m)) := by
  have block := (retransmission m).rootBlock_contiguous
  have sessionId : sessionIdAt (fieldBytes (retransmission m).rootBlock) 0 = m.sessionId :=
    sessionIdAt_field block (by simp [rootBlock])
  have requestTimestamp : nanotimeAt (fieldBytes (retransmission m).rootBlock) 16
      = m.requestTimestamp :=
    nanotimeAt_field block (by simp [rootBlock])
  have nextSeqNo : u64At (fieldBytes (retransmission m).rootBlock) 24 = m.nextSeqNo :=
    u64At_field block (by simp [rootBlock])
  have count : u32At (fieldBytes (retransmission m).rootBlock) 32 = m.count :=
    u32At_field block (by simp [rootBlock])
  unfold decodeRetransmission
  refine opened ?_
  simp only [sessionId, requestTimestamp, nextSeqNo, count]
  exact Reads.returns _

theorem retransmitReject_decodes (m : RetransmitReject) (fits : (retransmitReject m).Fits) :
    (retransmitReject m).Decodes
      (fun src => decodeRetransmitReject src RetransmitReject.layout.blockLength)
      (normalise (retransmitReject m)) := by
  have block := (retransmitReject m).rootBlock_contiguous
  have sessionId : sessionIdAt (fieldBytes (retransmitReject m).rootBlock) 0 = m.sessionId :=
    sessionIdAt_field block (by simp [rootBlock])
  have requestTimestamp : nanotimeAt (fieldBytes (retransmitReject m).rootBlock) 16
      = m.requestTimestamp :=
    nanotimeAt_field block (by simp [rootBlock])
  have code : variantAt RetransmitRejectCode.fromU8
      (fieldBytes (retransmitReject m).rootBlock) 24 "RetransmitRejectCode"
      = pure m.code :=
    variantAt_block (RetransmitRejectCode.fromU8_asU8 m.code) _ (by simp [rootBlock])
  unfold decodeRetransmitReject
  refine opened ?_
  simp only [sessionId, requestTimestamp, code, pure_bind]
  exact reads_one ((readText_reads (fits _ List.mem_cons_self) _).finish rfl)

theorem terminate_decodes (m : Terminate) (fits : (terminate m).Fits) :
    (terminate m).Decodes (fun src => decodeTerminate src Terminate.layout.blockLength)
      (normalise (terminate m)) := by
  have block := (terminate m).rootBlock_contiguous
  have sessionId : sessionIdAt (fieldBytes (terminate m).rootBlock) 0 = m.sessionId :=
    sessionIdAt_field block (by simp [rootBlock])
  have code : variantAt TerminationCode.fromU8
      (fieldBytes (terminate m).rootBlock) 16 "TerminationCode"
      = pure m.code := variantAt_block (TerminationCode.fromU8_asU8 m.code) _ (by simp [rootBlock])
  unfold decodeTerminate
  refine opened ?_
  simp only [sessionId, code, pure_bind]
  exact reads_one ((readText_reads (fits _ List.mem_cons_self) _).finish rfl)

theorem finishedSending_decodes (m : FinishedSending) :
    (finishedSending m).Decodes
      (fun src => decodeFinishedSending src FinishedSending.layout.blockLength)
      (normalise (finishedSending m)) := by
  have block := (finishedSending m).rootBlock_contiguous
  have sessionId : sessionIdAt (fieldBytes (finishedSending m).rootBlock) 0 = m.sessionId :=
    sessionIdAt_field block (by simp [rootBlock])
  have lastSeqNo : optionalU64At (fieldBytes (finishedSending m).rootBlock) 16
      = normalU64 m.lastSeqNo :=
    optionalU64At_field block (by simp [rootBlock])
  unfold decodeFinishedSending
  refine opened ?_
  simp only [sessionId, lastSeqNo]
  exact Reads.returns _

theorem finishedReceiving_decodes (m : FinishedReceiving) :
    (finishedReceiving m).Decodes
      (fun src => decodeFinishedReceiving src FinishedReceiving.layout.blockLength)
      (normalise (finishedReceiving m)) := by
  have block := (finishedReceiving m).rootBlock_contiguous
  have sessionId : sessionIdAt (fieldBytes (finishedReceiving m).rootBlock) 0 = m.sessionId :=
    sessionIdAt_field block (by simp [rootBlock])
  unfold decodeFinishedReceiving
  refine opened ?_
  simp only [sessionId]
  exact Reads.returns _

theorem applied_decodes (m : Applied) :
    (applied m).Decodes (fun src => decodeApplied src Applied.layout.blockLength)
      (normalise (applied m)) := by
  have block := (applied m).rootBlock_contiguous
  have fromSeqNo : u64At (fieldBytes (applied m).rootBlock) 0 = m.fromSeqNo :=
    u64At_field block (by simp [rootBlock])
  have count : u32At (fieldBytes (applied m).rootBlock) 8 = m.count :=
    u32At_field block (by simp [rootBlock])
  unfold decodeApplied
  refine opened ?_
  simp only [fromSeqNo, count]
  exact Reads.returns _

theorem notApplied_decodes (m : NotApplied) :
    (notApplied m).Decodes (fun src => decodeNotApplied src NotApplied.layout.blockLength)
      (normalise (notApplied m)) := by
  have block := (notApplied m).rootBlock_contiguous
  have fromSeqNo : u64At (fieldBytes (notApplied m).rootBlock) 0 = m.fromSeqNo :=
    u64At_field block (by simp [rootBlock])
  have count : u32At (fieldBytes (notApplied m).rootBlock) 8 = m.count :=
    u32At_field block (by simp [rootBlock])
  unfold decodeNotApplied
  refine opened ?_
  simp only [fromSeqNo, count]
  exact Reads.returns _

theorem messageTemplate_decodes (m : MessageTemplate) (fits : (messageTemplate m).Fits) :
    (messageTemplate m).Decodes
      (fun src => decodeMessageTemplate src MessageTemplate.layout.blockLength)
      (normalise (messageTemplate m)) := by
  have block := (messageTemplate m).rootBlock_contiguous
  have encodingType : u32At (fieldBytes (messageTemplate m).rootBlock) 0 = m.encodingType :=
    u32At_field block (by simp [rootBlock])
  have effectiveTime : optionalU64At (fieldBytes (messageTemplate m).rootBlock) 4
      = normalU64 (m.effectiveTime.map Nanotime.nanos) :=
    optionalU64At_field block (by simp [rootBlock])
  have version := varData_reads (fits ("Version", m.version) List.mem_cons_self)
  have template := varData_reads (fits ("Template", m.template) (by simp [varFields]))
  unfold decodeMessageTemplate
  refine opened ?_
  simp only [encodingType, effectiveTime]
  exact version.bind (reads_one (template.finish rfl))

theorem unsequencedHeartbeat_decodes :
    unsequencedHeartbeat.Decodes
      (fun src => decodeUnsequencedHeartbeat src UnsequencedHeartbeat.layout.blockLength)
      unsequencedHeartbeat := by
  unfold decodeUnsequencedHeartbeat
  exact opened (Reads.returns _)

/-- A message's template is dispatched to its own decoder. -/
theorem decodeTemplate_decodes (fits : message.Fits) :
    message.Decodes
      (fun src => decodeTemplate src message.layout.blockLength message.layout.templateId)
      message.normalise := by
  cases message with
  | negotiate m => exact negotiate_decodes m fits
  | negotiationResponse m => exact negotiationResponse_decodes m fits
  | negotiationReject m => exact negotiationReject_decodes m fits
  | topic m => exact topic_decodes m fits
  | establish m => exact establish_decodes m fits
  | establishmentAck m => exact establishmentAck_decodes m
  | establishmentReject m => exact establishmentReject_decodes m fits
  | sequence m => exact sequence_decodes m
  | context m => exact context_decodes m
  | unsequencedHeartbeat => exact unsequencedHeartbeat_decodes
  | retransmitRequest m => exact retransmitRequest_decodes m
  | retransmission m => exact retransmission_decodes m
  | retransmitReject m => exact retransmitReject_decodes m fits
  | terminate m => exact terminate_decodes m fits
  | finishedSending m => exact finishedSending_decodes m
  | finishedReceiving m => exact finishedReceiving_decodes m
  | applied m => exact applied_decodes m
  | notApplied m => exact notApplied_decodes m
  | messageTemplate m => exact messageTemplate_decodes m fits

theorem layout_small (message : SessionMessage) :
    message.layout.blockLength < 256 ^ 2 ∧ message.layout.templateId < 256 ^ 2 := by
  cases message <;> simp only [layout] <;> decide

/-- The header of a message's own bytes names its block length and template. -/
theorem header_read (message : SessionMessage) (rest : Bytes) :
    getU16 (message.wire ++ rest) 0 = message.layout.blockLength ∧
      getU16 (message.wire ++ rest) 2 = message.layout.templateId ∧
      getU16 (message.wire ++ rest) 4 = SCHEMA_ID := by
  obtain ⟨blockSmall, templateSmall⟩ := message.layout_small
  exact ⟨Lib.LittleEndian.value_bytes blockSmall, Lib.LittleEndian.value_bytes templateSmall,
    Lib.LittleEndian.value_bytes (show SCHEMA_ID < 256 ^ 2 by decide)⟩

theorem wire_header (message : SessionMessage) : HEADER_LEN ≤ message.wire.length := by
  rw [wire_length, Nat.add_assoc]
  exact Nat.le_add_right _ _

theorem decode_wire (fits : message.Fits) (rest : Bytes) :
    decode (message.wire ++ rest) = .ok (message.normalise, message.wire.length) := by
  have long : ¬ (message.wire ++ rest).length < HEADER_LEN := by
    have := message.wire_header
    rw [List.length_append]
    omega
  obtain ⟨blockLength, templateId, schemaId⟩ := message.header_read rest
  have decoded : decodeTemplate (message.wire ++ rest) message.layout.blockLength
      message.layout.templateId 0 = .ok message.normalise message.wire.length :=
    decodeTemplate_decodes fits rest
  unfold decode
  rw [if_neg long, blockLength, templateId, schemaId, if_neg (not_not.mpr rfl), decoded]

/-! ## What decodes -/

/-- A message that fits its length prefixes and is its own normal form. -/
def Normal (message : SessionMessage) : Prop := message.Fits ∧ message.normalise = message

end SessionMessage

open SessionMessage

def Truncated (error : FixpDecodeError) : Prop := ∃ needed available, error = .truncated needed available

theorem getBytes_take {src : Bytes} {offset len k : Nat} (inside : offset + len ≤ k) :
    getBytes (src.take k) offset len = getBytes src offset len := by
  unfold getBytes
  rw [List.drop_take, List.take_take, Nat.min_eq_left (by omega)]

theorem varData_delimits :
    Delimits Truncated (fun bytes => bytes.length ≤ MAX_VAR_DATA_LEN) varData := by
  have ran : ∀ (src : Bytes) (offset : Nat), varData src offset
      = (if src.length < offset + VAR_PREFIX_LEN then
          throw (.truncated (offset + VAR_PREFIX_LEN) src.length)
        else if getU16 src offset = u16Max then throw (.nullVarDataLength offset)
        else if src.length < offset + VAR_PREFIX_LEN + getU16 src offset then
          throw (.truncated (offset + VAR_PREFIX_LEN + getU16 src offset) src.length)
        else do
          set (offset + VAR_PREFIX_LEN + getU16 src offset)
          return getBytes src (offset + VAR_PREFIX_LEN) (getU16 src offset) :
        Decode Bytes) offset := fun _ _ => rfl
  intro src offset bytes stop inside read
  rw [ran] at read
  split at read
  · cases read
  · rename_i hasPrefix
    split at read
    · cases read
    · rename_i notNull
      split at read
      · cases read
      · rename_i hasBody
        cases read
        have small : getU16 src offset < 256 ^ 2 :=
          Nat.lt_of_lt_of_le (Lib.LittleEndian.value_lt _)
            (Nat.pow_le_pow_right (by decide) (List.length_take_le _ _))
        have declared : ∀ k, offset + VAR_PREFIX_LEN ≤ k →
            getU16 (src.take k) offset = getU16 src offset := fun k whole =>
          congrArg Lib.LittleEndian.value (getBytes_take whole)
        have length : ∀ k, (src.take k).length = min k src.length := fun k => List.length_take
        refine ⟨?_, by omega, by omega, fun k whole => ?_, fun k above below => ?_⟩
        · refine Nat.le_trans (List.length_take_le _ _) ?_
          unfold u16Max at notNull
          unfold MAX_VAR_DATA_LEN u16Max
          omega
        · rw [ran, declared k (by omega), length, if_neg (by omega), if_neg notNull,
            if_neg (by omega)]
          show EStateM.Result.ok (getBytes (src.take k) _ _) _ = _
          rw [getBytes_take whole]
        · rw [ran]
          by_cases short : k < offset + VAR_PREFIX_LEN
          · rw [if_pos (by rw [length]; omega)]
            exact ⟨_, _, rfl, _, _, rfl⟩
          · rw [declared k (by omega), length, if_neg (by omega), if_neg notNull,
              if_pos (by omega)]
            exact ⟨_, _, rfl, _, _, rfl⟩

theorem readCredentials_delimits :
    Delimits Truncated (fun credentials =>
      (credentialsBytes credentials).length ≤ MAX_VAR_DATA_LEN ∧
        normalCredentials credentials = credentials) readCredentials := by
  refine Delimits.bind varData_delimits fun bytes carried => Delimits.returns ?_
  by_cases none : bytes = []
  · rw [if_pos none]
    exact ⟨Nat.zero_le _, rfl⟩
  · rw [if_neg none]
    exact ⟨carried, if_neg none⟩

theorem readText_delimits (field : String) :
    Delimits Truncated (fun text => (textBytes text).length ≤ MAX_VAR_DATA_LEN)
      (fun src => readText src field) := by
  refine Delimits.bind varData_delimits fun bytes carried => Delimits.settled ?_
  intro offset text stop ran
  cases decoded : textOf bytes with
  | none =>
      rw [decoded] at ran
      cases ran
  | some text' =>
      rw [decoded] at ran
      cases ran
      rw [textBytes_of_textOf decoded]
      exact ⟨rfl, carried⟩

theorem variantAt_delimits {α : Type} (fromU8 : UInt8 → Option α) (block : Bytes) (offset : Nat)
    (field : String) :
    Delimits Truncated (fun _ => True)
      (fun _ : Bytes => variantAt fromU8 block offset field) := by
  refine Delimits.settled fun position variant stop ran => ?_
  unfold variantAt at ran
  cases known : fromU8 (u8At block offset) with
  | none =>
      rw [known] at ran
      cases ran
  | some value =>
      rw [known] at ran
      cases ran
      exact ⟨rfl, trivial⟩

theorem normalU64_optionalU64At (block : Bytes) (offset : Nat) :
    normalU64 (optionalU64At block offset) = optionalU64At block offset := by
  unfold normalU64 optionalU64At
  by_cases isNull : u64At block offset = NULL_U64
  · rw [if_pos isNull]
    rfl
  · rw [if_neg isNull, if_neg fun same => isNull (Option.some.inj same)]

theorem carried_one {name : String} {bytes : Bytes} (carried : bytes.length ≤ MAX_VAR_DATA_LEN) :
    Carried [(name, bytes)] := by
  intro field member
  rw [List.mem_singleton.mp member]
  exact carried

/-- From the start of a message behind its header: what is decoded is normal and
lies in the input, and a prefix that lacks some of it is truncated. -/
def Framed (program : Bytes → Decode SessionMessage) : Prop :=
  ∀ src message used, program src 0 = .ok message used →
    message.Normal ∧ used ≤ src.length ∧
      ∀ k, HEADER_LEN ≤ k → k < used →
        ∃ error left, program (src.take k) 0 = .error error left ∧ Truncated error

/-- A body that delimits itself is framed behind its block. -/
theorem framed {layout : Layout} {blockLength : Nat}
    {body : Bytes → Bytes → Decode SessionMessage}
    (delimits : ∀ block, Delimits Truncated Normal (body block)) :
    Framed (fun src => do
      let block ← openBlock src blockLength layout
      body block src) := by
  intro src message used ran
  dsimp only at ran
  have opens : ∀ input : Bytes, ¬ blockLength < layout.blockLength →
      ¬ input.length < HEADER_LEN + blockLength →
      (do let block ← openBlock input blockLength layout
          body block input) 0
        = body (getBytes input HEADER_LEN layout.blockLength) input
            (HEADER_LEN + blockLength) := by
    intro input long whole
    show EStateM.bind (openBlock input blockLength layout) _ 0 = _
    unfold openBlock
    rw [if_neg long, if_neg whole]
    rfl
  by_cases long : blockLength < layout.blockLength
  · unfold openBlock at ran
    rw [if_pos long] at ran
    cases ran
  · by_cases short : src.length < HEADER_LEN + blockLength
    · unfold openBlock at ran
      rw [if_neg long, if_pos short] at ran
      cases ran
    · rw [opens src long short] at ran
      obtain ⟨normal, -, inside, -, cut⟩ :=
        delimits _ src _ message used (Nat.le_of_not_lt short) ran
      refine ⟨normal, inside, fun k _ below => ?_⟩
      have length : (src.take k).length = k := List.length_take_of_le (by omega)
      by_cases early : k < HEADER_LEN + blockLength
      · refine ⟨.truncated (HEADER_LEN + blockLength) (src.take k).length, 0, ?_, _, _, rfl⟩
        show EStateM.bind (openBlock (src.take k) blockLength layout) _ 0 = _
        unfold openBlock
        rw [if_neg long, if_pos (by omega)]
        rfl
      · have same : getBytes (src.take k) HEADER_LEN layout.blockLength
            = getBytes src HEADER_LEN layout.blockLength := getBytes_take (by omega)
        obtain ⟨error, left, failed, truncated⟩ := cut k (Nat.le_of_not_lt early) below
        refine ⟨error, left, ?_, truncated⟩
        refine (opens (src.take k) long (by omega)).trans ?_
        rw [same]
        exact failed

theorem decodeNegotiate_framed (blockLength : Nat) :
    Framed (fun src => decodeNegotiate src blockLength) := by
  unfold decodeNegotiate flowAt
  refine framed fun block => ?_
  refine Delimits.bind (variantAt_delimits _ _ _ _) fun variant _ => ?_
  refine Delimits.bind readCredentials_delimits fun credentials kept => ?_
  refine Delimits.returns ⟨carried_one kept.1, ?_⟩
  simp only [normalise, kept.2]

theorem decodeNegotiationResponse_framed (blockLength : Nat) :
    Framed (fun src => decodeNegotiationResponse src blockLength) := by
  unfold decodeNegotiationResponse flowAt
  refine framed fun block => ?_
  refine Delimits.bind (variantAt_delimits _ _ _ _) fun variant _ => ?_
  refine Delimits.bind readCredentials_delimits fun credentials kept => ?_
  refine Delimits.returns ⟨carried_one kept.1, ?_⟩
  simp only [normalise, kept.2]

theorem decodeNegotiationReject_framed (blockLength : Nat) :
    Framed (fun src => decodeNegotiationReject src blockLength) := by
  unfold decodeNegotiationReject
  refine framed fun block => ?_
  refine Delimits.bind (variantAt_delimits _ _ _ _) fun variant _ => ?_
  exact Delimits.bind (readText_delimits _) fun reason kept =>
    Delimits.returns ⟨carried_one kept, rfl⟩

theorem decodeTopic_framed (blockLength : Nat) :
    Framed (fun src => decodeTopic src blockLength) := by
  unfold decodeTopic flowAt
  refine framed fun block => ?_
  refine Delimits.bind (variantAt_delimits _ _ _ _) fun variant _ => ?_
  exact Delimits.bind varData_delimits fun bytes kept =>
    Delimits.returns ⟨carried_one kept, rfl⟩

theorem decodeEstablish_framed (blockLength : Nat) :
    Framed (fun src => decodeEstablish src blockLength) := by
  unfold decodeEstablish
  refine framed fun block => ?_
  refine Delimits.bind readCredentials_delimits fun credentials kept => ?_
  refine Delimits.returns ⟨carried_one kept.1, ?_⟩
  simp only [normalise, kept.2, normalU64_optionalU64At]

theorem decodeEstablishmentAck_framed (blockLength : Nat) :
    Framed (fun src => decodeEstablishmentAck src blockLength) := by
  unfold decodeEstablishmentAck
  refine framed fun block => Delimits.returns ⟨nofun, ?_⟩
  simp only [normalise, normalU64_optionalU64At]

theorem decodeEstablishmentReject_framed (blockLength : Nat) :
    Framed (fun src => decodeEstablishmentReject src blockLength) := by
  unfold decodeEstablishmentReject
  refine framed fun block => ?_
  refine Delimits.bind (variantAt_delimits _ _ _ _) fun variant _ => ?_
  exact Delimits.bind (readText_delimits _) fun reason kept =>
    Delimits.returns ⟨carried_one kept, rfl⟩

theorem decodeSequence_framed (blockLength : Nat) :
    Framed (fun src => decodeSequence src blockLength) := by
  unfold decodeSequence
  exact framed fun block => Delimits.returns ⟨nofun, rfl⟩

theorem decodeContext_framed (blockLength : Nat) :
    Framed (fun src => decodeContext src blockLength) := by
  unfold decodeContext
  exact framed fun block => Delimits.returns ⟨nofun, rfl⟩

theorem decodeRetransmitRequest_framed (blockLength : Nat) :
    Framed (fun src => decodeRetransmitRequest src blockLength) := by
  unfold decodeRetransmitRequest
  exact framed fun block => Delimits.returns ⟨nofun, rfl⟩

theorem decodeRetransmission_framed (blockLength : Nat) :
    Framed (fun src => decodeRetransmission src blockLength) := by
  unfold decodeRetransmission
  exact framed fun block => Delimits.returns ⟨nofun, rfl⟩

theorem decodeRetransmitReject_framed (blockLength : Nat) :
    Framed (fun src => decodeRetransmitReject src blockLength) := by
  unfold decodeRetransmitReject
  refine framed fun block => ?_
  refine Delimits.bind (variantAt_delimits _ _ _ _) fun variant _ => ?_
  exact Delimits.bind (readText_delimits _) fun reason kept =>
    Delimits.returns ⟨carried_one kept, rfl⟩

theorem decodeTerminate_framed (blockLength : Nat) :
    Framed (fun src => decodeTerminate src blockLength) := by
  unfold decodeTerminate
  refine framed fun block => ?_
  refine Delimits.bind (variantAt_delimits _ _ _ _) fun variant _ => ?_
  exact Delimits.bind (readText_delimits _) fun reason kept =>
    Delimits.returns ⟨carried_one kept, rfl⟩

theorem decodeFinishedSending_framed (blockLength : Nat) :
    Framed (fun src => decodeFinishedSending src blockLength) := by
  unfold decodeFinishedSending
  refine framed fun block => Delimits.returns ⟨nofun, ?_⟩
  simp only [normalise, normalU64_optionalU64At]

theorem decodeFinishedReceiving_framed (blockLength : Nat) :
    Framed (fun src => decodeFinishedReceiving src blockLength) := by
  unfold decodeFinishedReceiving
  exact framed fun block => Delimits.returns ⟨nofun, rfl⟩

theorem decodeApplied_framed (blockLength : Nat) :
    Framed (fun src => decodeApplied src blockLength) := by
  unfold decodeApplied
  exact framed fun block => Delimits.returns ⟨nofun, rfl⟩

theorem decodeNotApplied_framed (blockLength : Nat) :
    Framed (fun src => decodeNotApplied src blockLength) := by
  unfold decodeNotApplied
  exact framed fun block => Delimits.returns ⟨nofun, rfl⟩

theorem decodeUnsequencedHeartbeat_framed (blockLength : Nat) :
    Framed (fun src => decodeUnsequencedHeartbeat src blockLength) := by
  unfold decodeUnsequencedHeartbeat
  exact framed fun block => Delimits.returns ⟨nofun, rfl⟩

theorem decodeMessageTemplate_framed (blockLength : Nat) :
    Framed (fun src => decodeMessageTemplate src blockLength) := by
  unfold decodeMessageTemplate
  refine framed fun block => ?_
  refine Delimits.bind varData_delimits fun version versionCarried => ?_
  refine Delimits.bind varData_delimits fun template templateCarried => Delimits.returns ⟨?_, ?_⟩
  · intro field member
    rcases List.mem_cons.mp member with rfl | later
    · exact versionCarried
    · rw [List.mem_singleton.mp later]
      exact templateCarried
  · have same : ((optionalU64At block 4).map Nanotime.mk).map Nanotime.nanos
        = optionalU64At block 4 := by
      cases optionalU64At block 4 <;> rfl
    simp only [normalise, same, normalU64_optionalU64At]

theorem Framed.ite {condition : Prop} [Decidable condition]
    {first second : Bytes → Decode SessionMessage} (yes : Framed first) (no : Framed second) :
    Framed (fun src => if condition then first src else second src) := by
  by_cases holds : condition
  · simp only [if_pos holds]
    exact yes
  · simp only [if_neg holds]
    exact no

theorem decodeTemplate_framed (blockLength templateId : Nat) :
    Framed (fun src => decodeTemplate src blockLength templateId) := by
  refine Framed.ite (decodeNegotiate_framed blockLength) ?_
  refine Framed.ite (decodeNegotiationResponse_framed blockLength) ?_
  refine Framed.ite (decodeNegotiationReject_framed blockLength) ?_
  refine Framed.ite (decodeTopic_framed blockLength) ?_
  refine Framed.ite (decodeEstablish_framed blockLength) ?_
  refine Framed.ite (decodeEstablishmentAck_framed blockLength) ?_
  refine Framed.ite (decodeEstablishmentReject_framed blockLength) ?_
  refine Framed.ite (decodeSequence_framed blockLength) ?_
  refine Framed.ite (decodeContext_framed blockLength) ?_
  refine Framed.ite (decodeUnsequencedHeartbeat_framed blockLength) ?_
  refine Framed.ite (decodeRetransmitRequest_framed blockLength) ?_
  refine Framed.ite (decodeRetransmission_framed blockLength) ?_
  refine Framed.ite (decodeRetransmitReject_framed blockLength) ?_
  refine Framed.ite (decodeTerminate_framed blockLength) ?_
  refine Framed.ite (decodeFinishedSending_framed blockLength) ?_
  refine Framed.ite (decodeFinishedReceiving_framed blockLength) ?_
  refine Framed.ite (decodeApplied_framed blockLength) ?_
  refine Framed.ite (decodeNotApplied_framed blockLength) ?_
  refine Framed.ite (decodeMessageTemplate_framed blockLength) ?_
  intro src message used ran
  cases ran

/-! ## The codec -/

/-- A message that fits is small. -/
theorem wire_bounded {message : SessionMessage} (fits : message.Fits) :
    ([] : Bytes).length + message.wire.length ≤ isizeMax := by
  have block := message.layout_small.1
  have fields : (wireFields message.varFields).length
      ≤ message.varFields.length * (VAR_PREFIX_LEN + MAX_VAR_DATA_LEN) := by
    unfold SessionMessage.Fits Carried at fits
    revert fits
    generalize message.varFields = fields
    intro carried
    induction fields with
    | nil => exact Nat.zero_le _
    | cons field fields ih =>
        have head := carried field List.mem_cons_self
        have tail := ih fun other member => carried other (List.mem_cons_of_mem _ member)
        show (wireField field ++ wireFields fields).length ≤ _
        rw [List.length_append, wireField_length, List.length_cons, Nat.succ_mul]
        omega
  have few : message.varFields.length ≤ 2 := by
    cases message <;> simp [SessionMessage.varFields]
  rw [SessionMessage.wire_length]
  unfold isizeMax
  unfold HEADER_LEN VAR_PREFIX_LEN MAX_VAR_DATA_LEN u16Max at *
  have := Nat.mul_le_mul_right (2 + (2 ^ 16 - 1 - 1)) few
  simp only [List.length_nil]
  omega

theorem decode_ok {src : Bytes} {message : SessionMessage} {used : Nat}
    (decoded : SessionMessage.decode src = .ok (message, used)) :
    ¬ src.length < HEADER_LEN ∧ getU16 src 4 = SCHEMA_ID ∧
      decodeTemplate src (getU16 src 0) (getU16 src 2) 0 = .ok message used := by
  unfold SessionMessage.decode at decoded
  split at decoded
  · cases decoded
  · rename_i long
    split at decoded
    · cases decoded
    · rename_i schema
      split at decoded
      · rename_i ran
        cases decoded
        exact ⟨long, not_not.mp schema, ran⟩
      · cases decoded

/-- A prefix that lacks some of a message is truncated. -/
theorem decode_prefix {src : Bytes} {message : SessionMessage} {used k : Nat}
    (decoded : SessionMessage.decode src = .ok (message, used)) (below : k < used) :
    ∃ error, SessionMessage.decode (src.take k) = .error error ∧ Truncated error := by
  obtain ⟨long, schema, ran⟩ := decode_ok decoded
  obtain ⟨-, inside, cut⟩ := decodeTemplate_framed _ _ src message used ran
  have length : (src.take k).length = k := List.length_take_of_le (by omega)
  by_cases header : HEADER_LEN ≤ k
  · have same : ∀ offset, offset + 2 ≤ HEADER_LEN →
        getU16 (src.take k) offset = getU16 src offset := fun offset within =>
      congrArg Lib.LittleEndian.value (getBytes_take (by omega))
    obtain ⟨error, left, failed, truncated⟩ := cut k header below
    refine ⟨error, ?_, truncated⟩
    dsimp only at failed
    unfold SessionMessage.decode
    rw [if_neg (by omega), same 4 (by decide), same 0 (by decide), same 2 (by decide), schema,
      if_neg (not_not.mpr rfl), failed]
  · refine ⟨_, if_pos (by omega), _, _, rfl⟩

/-- A message whose variable-length fields fit encodes to `encodedLen` bytes, in
a vector with room and at the start of a buffer; from these bytes, whatever
follows, decoding gives its normal form back and uses exactly them; a strict
prefix is truncated. A longer message is refused and the destination stays.
And from any bytes decoding fails or stays inside them and gives a message
whose own bytes decode to it. -/
theorem codec_round_trip :
    (∀ message : SessionMessage, message.Fits →
      message.encodedLen = .ok message.wire.length ∧
      (∀ dst : Bytes, dst.length + message.wire.length ≤ isizeMax →
        message.encode dst = (.ok message.wire.length, dst ++ message.wire)) ∧
      (∀ dst : Bytes, message.wire.length ≤ dst.length →
        message.encodeInto dst
          = (.ok message.wire.length, message.wire ++ dst.drop message.wire.length)) ∧
      (∀ rest, SessionMessage.decode (message.wire ++ rest)
        = .ok (message.normalise, message.wire.length)) ∧
      (∀ k, k < message.wire.length → ∃ needed available,
        SessionMessage.decode (message.wire.take k) = .error (.truncated needed available))) ∧
    (∀ message : SessionMessage, ¬ message.Fits → ∀ dst : Bytes,
      ∃ field ∈ message.varFields, MAX_VAR_DATA_LEN < field.2.length ∧
        message.encode dst
          = (.error (.varDataTooLong field.1 field.2.length MAX_VAR_DATA_LEN), dst) ∧
        message.encodeInto dst
          = (.error (.varDataTooLong field.1 field.2.length MAX_VAR_DATA_LEN), dst)) ∧
    ∀ (src : Bytes) (message : SessionMessage) (used : Nat),
      SessionMessage.decode src = .ok (message, used) →
      used ≤ src.length ∧ message.encode [] = (.ok message.wire.length, message.wire) ∧
        SessionMessage.decode message.wire = .ok (message, message.wire.length) := by
  refine ⟨fun message fits => ⟨SessionMessage.encodedLen_wire fits,
    fun dst => SessionMessage.encode_fits fits, fun dst => SessionMessage.encodeInto_fits fits,
    SessionMessage.decode_wire fits, fun k below => ?_⟩,
    fun message tooLong dst => SessionMessage.encode_tooLong tooLong dst,
    fun src message used decoded => ?_⟩
  · have whole := SessionMessage.decode_wire fits []
    rw [List.append_nil] at whole
    obtain ⟨error, failed, needed, available, rfl⟩ := decode_prefix whole below
    exact ⟨needed, available, failed⟩
  · obtain ⟨-, -, ran⟩ := decode_ok decoded
    obtain ⟨⟨fits, normal⟩, inside, -⟩ := decodeTemplate_framed _ _ src message used ran
    have again := SessionMessage.decode_wire fits []
    rw [List.append_nil, normal] at again
    refine ⟨inside, SessionMessage.encode_fits fits ?_, again⟩
    exact wire_bounded fits

end IronFix.Fixp
