import IronFix.Engine.Wire

/-!
# What a stamped message reads back as

The header a factory stamps is always framed; a checked body is framed exactly
when each of its fields is countable. The frame decodes to the header and the
body, and the standard header of what was decoded goes on into the body as far
as the body goes on with standard-header tags.
-/

namespace IronFix.Engine

open Lib.Slice Lib.Decimal Lib.Steps IronFix.TagValue IronFix.Session Outbound

/-! ## The header is always framed -/

namespace SessionHeader

def optional (header : SessionHeader) : List (Option Bytes) :=
  [header.senderSubId, header.targetSubId, header.senderLocationId, header.targetLocationId]

/-- Every identity that is configured is bounded and printable. -/
def Legal (header : SessionHeader) : Prop := ∀ value, some value ∈ header.optional → Bounded value

end SessionHeader

/-- A factory of a configuration that validates. -/
theorem MessageFactory.new_legal {config : SessionConfig} (usable : config.validate = .ok ())
    (version : FixVersion) (maxMessageSize : Nat) :
    (MessageFactory.new config version maxMessageSize).Legal := by
  intro value member
  have configured : ∃ field, (field, some value) ∈ config.optional := by
    simp only [SessionHeader.optional, new, List.mem_cons, List.not_mem_nil, or_false] at member
    rcases member with same | same | same | same
    · exact ⟨"sender_sub_id", by simp [SessionConfig.optional, same]⟩
    · exact ⟨"target_sub_id", by simp [SessionConfig.optional, same]⟩
    · exact ⟨"sender_location_id", by simp [SessionConfig.optional, same]⟩
    · exact ⟨"target_location_id", by simp [SessionConfig.optional, same]⟩
  obtain ⟨field, listed⟩ := configured
  exact config.bounded usable field listed

theorem Bounded.clean {value : Bytes} (bounded : Bounded value) : SOH ∉ value := by
  intro found
  have printable := List.all_eq_true.mp bounded.printable SOH found
  cases printable

/-- A tag the session stamps that is not MsgType's. -/
def Stampable (tag : UInt32) : Prop := TagValue.checkBodyTag tag.toNat = .ok () ∧ tag.toNat ≠ 35

theorem Stampable.accepted {tag : UInt32} (stampable : Stampable tag) {value : Bytes}
    (nonempty : value ≠ []) (clean : SOH ∉ value) : Write.Accepted (.raw tag value) :=
  .raw stampable.1 nonempty clean fun same => absurd same stampable.2

theorem stampable_of_mem {tag : UInt32}
    (member : tag ∈ ([1128, 49, 56, 50, 142, 57, 143, 34, 43, 52, 122] : List UInt32)) :
    Stampable tag := by
  have all : ∀ tag ∈ ([1128, 49, 56, 50, 142, 57, 143, 34, 43, 52, 122] : List UInt32),
      TagValue.checkBodyTag tag.toNat = .ok () ∧ tag.toNat ≠ 35 :=
    List.forall_iff_forall_mem.mp (by decide)
  exact all tag member

theorem msgType_accepted (msgType : MsgType) : Write.Accepted (.raw 35 msgType.code) := by
  have ascii := msgType.ascii_code
  refine .raw rfl msgType.nonempty ?_ fun _ => ?_
  · intro found
    have printable := List.find?_eq_none.mp msgType.printable
    obtain ⟨position, here⟩ := List.mem_iff_getElem?.mp found
    have legal := printable (SOH, position) (List.mem_zipIdx_iff_getElem?.mpr here)
    exact legal rfl
  · unfold checkMsgType
    rw [if_pos (isUtf8_of_ascii ascii), MsgType.new_code]

/-- `formatted` writes 17 or 21 bytes of a UTCTimestamp. -/
def SendingTimePrecision.width : SendingTimePrecision → Nat
  | seconds => 17
  | millis => 21

theorem SendingTimePrecision.formatted_writes (precision : SendingTimePrecision) (calendar : Calendar)
    (instant : Timestamp) : TimestampText precision.width (precision.formatted calendar instant) := by
  cases precision with
  | seconds => exact calendar.formatSeconds_writes instant
  | millis => exact calendar.formatMillis_writes instant

theorem SendingTimePrecision.formatted_ne_nil (precision : SendingTimePrecision) (calendar : Calendar)
    (instant : Timestamp) : precision.formatted calendar instant ≠ [] := by
  cases precision with
  | seconds => exact (calendar.formatSeconds_writes instant).nonempty
  | millis => exact (calendar.formatMillis_writes instant).nonempty

namespace SessionHeader

variable {header : SessionHeader}

theorem configured_accepted {tag : UInt32} (stampable : Stampable tag) {value : Option Bytes}
    (legal : ∀ bytes, value = some bytes → bytes ≠ [] ∧ SOH ∉ bytes) :
    ∀ write ∈ configured tag value, write.Accepted := by
  cases value with
  | none => exact nofun
  | some bytes =>
      intro write member
      rw [List.mem_singleton.mp member]
      exact stampable.accepted (legal bytes rfl).1 (legal bytes rfl).2

theorem applVerId_legal (header : SessionHeader) (msgType : MsgType) (bytes : Bytes)
    (stamped : header.applVerId msgType = some bytes) : bytes ≠ [] ∧ SOH ∉ bytes := by
  unfold applVerId at stamped
  split at stamped
  · cases stamped
  · cases version : header.version <;> rw [version] at stamped <;> cases stamped <;> decide

theorem opening_accepted (legal : header.Legal) (seq : UInt64) (msgType : MsgType) :
    ∀ write ∈ header.opening seq msgType, write.Accepted := by
  have identity : ∀ tag ∈ ([50, 142, 57, 143] : List UInt32), ∀ value ∈ header.optional,
      ∀ write ∈ configured tag value, write.Accepted := by
    intro tag listed value member
    refine configured_accepted (stampable_of_mem ?_) ?_
    · have inside : ([50, 142, 57, 143] : List UInt32) ⊆
          [1128, 49, 56, 50, 142, 57, 143, 34, 43, 52, 122] := by decide
      exact inside listed
    · rintro bytes rfl
      exact ⟨(legal bytes member).nonempty, (legal bytes member).clean⟩
  have company : ∀ tag ∈ ([49, 56] : List UInt32), ∀ id : CompId, Write.Accepted (.raw tag id.value) := by
    intro tag listed id
    have inside : ([49, 56] : List UInt32) ⊆
        [1128, 49, 56, 50, 142, 57, 143, 34, 43, 52, 122] := by decide
    exact (stampable_of_mem (inside listed)).accepted id.bounded.nonempty id.bounded.clean
  intro write member
  unfold opening at member
  simp only [List.append_assoc, List.mem_append, List.mem_cons, List.not_mem_nil, or_false] at member
  rcases member with rfl | applVer | (rfl | rfl) | senderSub | senderLocation | targetSub |
    targetLocation | rfl
  · exact msgType_accepted msgType
  · exact configured_accepted (stampable_of_mem (by decide)) (header.applVerId_legal msgType) _ applVer
  · exact company 49 (by decide) _
  · exact company 56 (by decide) _
  · exact identity 50 (by decide) _ (by simp [optional]) _ senderSub
  · exact identity 142 (by decide) _ (by simp [optional]) _ senderLocation
  · exact identity 57 (by decide) _ (by simp [optional]) _ targetSub
  · exact identity 143 (by decide) _ (by simp [optional]) _ targetLocation
  · exact (stampable_of_mem (by decide)).accepted (decimal_ne_nil _)
      (notMem_of_digits (decimal_digits _) isAsciiDigit_SOH)

/-- The times of a header, from values that have a wire form. -/
theorem times_accepted (possDup : Bool) {sendingTime origTime : Bytes} (sent : sendingTime ≠ [])
    (sentClean : SOH ∉ sendingTime) (orig : origTime ≠ []) (origClean : SOH ∉ origTime) :
    ∀ write ∈ times possDup sendingTime origTime, write.Accepted := by
  have sending : Write.Accepted (.raw 52 sendingTime) :=
    (stampable_of_mem (by decide)).accepted sent sentClean
  intro write member
  cases possDup with
  | false =>
      rw [List.mem_singleton.mp member]
      exact sending
  | true =>
      simp only [times, if_true, List.mem_cons, List.not_mem_nil, or_false] at member
      rcases member with rfl | rfl | rfl
      · exact (stampable_of_mem (by decide)).accepted (by decide) (by decide)
      · exact sending
      · exact (stampable_of_mem (by decide)).accepted orig origClean

theorem stamped_accepted (legal : header.Legal) (calendar : Calendar) (now : Timestamp) (seq : UInt64)
    (pending : PendingMessage) :
    ∀ write ∈ header.stamped calendar now seq pending, write.Accepted := by
  intro write member
  rcases List.mem_append.mp member with before | around
  · exact opening_accepted legal seq _ write before
  · have nonempty := header.precision.formatted_ne_nil calendar now
    have clean := (header.precision.formatted_writes calendar now).clean
    exact times_accepted _ nonempty clean nonempty clean write around

/-- The tags of `opening`. -/
def OPENING_TAGS : List UInt32 := [35, 1128, 49, 56, 50, 142, 57, 143, 34]

theorem opening_raw (header : SessionHeader) (seq : UInt64) (msgType : MsgType) :
    ∀ write ∈ header.opening seq msgType, ∃ tag value, write = .raw tag value ∧ tag ∈ OPENING_TAGS := by
  have optional : ∀ {tag : UInt32} {value : Option Bytes} {write : Write}, tag ∈ OPENING_TAGS →
      write ∈ configured tag value → ∃ tag value, write = .raw tag value ∧ tag ∈ OPENING_TAGS := by
    intro tag value write inside listed
    obtain ⟨bytes, -, rfl⟩ := List.mem_map.mp listed
    exact ⟨tag, bytes, rfl, inside⟩
  intro write member
  unfold opening at member
  simp only [List.append_assoc, List.mem_append, List.mem_cons, List.not_mem_nil, or_false] at member
  rcases member with rfl | applVer | (rfl | rfl) | senderSub | senderLocation | targetSub |
    targetLocation | rfl
  · exact ⟨35, _, rfl, by decide⟩
  · exact optional (by decide) applVer
  · exact ⟨49, _, rfl, by decide⟩
  · exact ⟨56, _, rfl, by decide⟩
  · exact optional (by decide) senderSub
  · exact optional (by decide) senderLocation
  · exact optional (by decide) targetSub
  · exact optional (by decide) targetLocation
  · exact ⟨34, _, rfl, by decide⟩

theorem times_raw {possDup : Bool} {sendingTime origTime : Bytes} :
    ∀ write ∈ times possDup sendingTime origTime,
      ∃ tag value, write = .raw tag value ∧ tag ∈ ([43, 52, 122] : List UInt32) := by
  intro write member
  cases possDup with
  | false =>
      rw [List.mem_singleton.mp member]
      exact ⟨52, _, rfl, by decide⟩
  | true =>
      simp only [times, if_true, List.mem_cons, List.not_mem_nil, or_false] at member
      rcases member with rfl | rfl | rfl
      · exact ⟨43, _, rfl, by decide⟩
      · exact ⟨52, _, rfl, by decide⟩
      · exact ⟨122, _, rfl, by decide⟩

/-- The stamped fields are header fields. -/
theorem stamped_standard (header : SessionHeader) (calendar : Calendar) (now : Timestamp)
    (seq : UInt64) (pending : PendingMessage) :
    ∀ field ∈ fieldsOf (header.stamped calendar now seq pending),
      isStandardHeaderTag field.tag = true := by
  have all : ∀ tag ∈ OPENING_TAGS ++ [43, 52, 122], isStandardHeaderTag tag.toNat = true :=
    List.forall_iff_forall_mem.mp (by decide)
  intro field member
  obtain ⟨fields, among, inside⟩ := List.mem_flatten.mp member
  obtain ⟨write, written, rfl⟩ := List.mem_map.mp among
  have raw : ∃ tag value, write = .raw tag value ∧ tag ∈ OPENING_TAGS ++ [43, 52, 122] := by
    rcases List.mem_append.mp written with before | around
    · obtain ⟨tag, value, same, inside⟩ := opening_raw header seq _ write before
      exact ⟨tag, value, same, List.mem_append_left _ inside⟩
    · obtain ⟨tag, value, same, inside⟩ := times_raw write around
      exact ⟨tag, value, same, List.mem_append_right _ inside⟩
  obtain ⟨tag, value, rfl, listed⟩ := raw
  rw [List.mem_singleton.mp inside]
  exact all tag listed

end SessionHeader

/-! ## What is framed -/

theorem FixVersion.beginString_usable (version : FixVersion) :
    Encoder.Usable version.beginString := by
  cases version <;> exact ⟨by decide, by decide, List.all_eq_true.mp rfl⟩

/-- The frame is a fresh encoder's, whatever was framed before. -/
theorem MessageFactory.encodeStamped_answer (factory : MessageFactory) (calendar : Calendar)
    (now : Timestamp) (seq : UInt64) (pending : PendingMessage) :
    (factory.encodeStamped calendar now seq pending).1 =
      (Encoder.encode factory.version.beginString (factory.writes calendar now seq pending)).map
        fun frame => (frame, now) := by
  unfold encodeStamped Encoder.encode
  dsimp only
  rw [SessionHeader.putMessage_eq, factory.rewinds]
  cases Encoder.finish ((factory.writes calendar now seq pending).foldl Encoder.put
    (Encoder.new factory.version.beginString)) <;> rfl

variable {factory : MessageFactory} {calendar : Calendar} {now : Timestamp} {seq : UInt64}
  {pending : PendingMessage}

/-- What a frame is, once it is built. -/
theorem encodeStamped_written {frame : Bytes} {stamped : Timestamp}
    (framed : (factory.encodeStamped calendar now seq pending).1 = .ok (frame, stamped)) :
    stamped = now ∧ Encoder.Written factory.version.beginString
      (factory.writes calendar now seq pending) frame := by
  rw [MessageFactory.encodeStamped_answer] at framed
  cases encoded : Encoder.encode factory.version.beginString (factory.writes calendar now seq pending) with
  | error error =>
      rw [encoded] at framed
      cases framed
  | ok bytes =>
      rw [encoded] at framed
      cases framed
      exact ⟨rfl, Encoder.encode_written encoded⟩

/-- A checked body is framed exactly when its fields are countable and there is room. -/
theorem encodeStamped_iff (legal : factory.Legal) (checked : checkBody pending.message = .ok ()) :
    (∃ frame, (factory.encodeStamped calendar now seq pending).1 = .ok (frame, now)) ↔
      (∀ field ∈ pending.message.fields, field.Countable) ∧
        (bodyOf (factory.writes calendar now seq pending)).length ≤ usizeMax := by
  have passed := passed_of_checkBody checked
  constructor
  · rintro ⟨frame, framed⟩
    have written := (encodeStamped_written framed).2
    refine ⟨fun field member => (accepted_iff (passed field member)).mp ?_, written.room⟩
    exact written.accepted _ (List.mem_append_right _ (List.mem_map_of_mem member))
  · rintro ⟨countable, room⟩
    obtain ⟨nonempty, bounded, printable⟩ := FixVersion.beginString_usable factory.version
    have accepted : ∀ write ∈ factory.writes calendar now seq pending, write.Accepted := by
      intro write member
      rcases List.mem_append.mp member with header | body
      · exact SessionHeader.stamped_accepted legal calendar now seq pending write header
      · obtain ⟨field, listed, rfl⟩ := List.mem_map.mp body
        exact (accepted_iff (passed field listed)).mpr (countable field listed)
    have encoded := Encoder.encode_of_written
      ⟨nonempty, printable, bounded, accepted, rfl, room, rfl⟩
    refine ⟨Encoder.frameOf factory.version.beginString
      (bodyOf (factory.writes calendar now seq pending)), ?_⟩
    rw [MessageFactory.encodeStamped_answer, encoded]
    rfl

/-! ## What is read back -/

/-- How often some fields carry a tag. -/
def occurrence (fields : List FieldRef) (tag : Nat) : FieldOccurrence :=
  match fields.filter fun field => field.tag = tag with
  | [] => .absent
  | [field] => .once field.value
  | _ => .repeated

/-- The header of a message is its stamped header and the standard-header tags
its body begins with. -/
theorem headerOfFields_front {header : List FieldRef}
    (standard : ∀ field ∈ header, isStandardHeaderTag field.tag = true) (body : List FieldRef) :
    headerOfFields (header ++ body) = header ++ headerOfFields body := by
  unfold headerOfFields
  exact List.takeWhile_append_of_pos standard

theorem headerOfFields_eq_nil (body : List FieldRef) :
    headerOfFields body = [] ↔ ∀ field, body.head? = some field → isStandardHeaderTag field.tag = false := by
  cases body with
  | nil => simp [headerOfFields]
  | cons field fields =>
      by_cases standard : isStandardHeaderTag field.tag = true
      · simp [headerOfFields_cons standard, standard]
      · simp [headerOfFields_stop standard, standard]

/-- The frame of a message reads back as what was written, with its checksum and without. -/
theorem decodeFrame_written {beginString frame : Bytes} {writes : List Write}
    (written : Encoder.Written beginString writes frame)
    (countable : (bodyOf writes).length < 10 ^ MAX_LENGTH_DIGITS) :
    ∃ message last, Decoder.decode (Decoder.new frame) = .ok message last ∧
      last.offset = frame.length ∧ decodeFrame frame = .ok message ∧
      beginStringOf message = .ok beginString ∧
      message.fields = headerFields beginString (decimal (bodyOf writes).length) ++ fieldsOf writes := by
  obtain ⟨message, last, decoded, offset, buffer, span, fields⟩ :=
    Decoder.decode_written_at written countable
  refine ⟨message, last, decoded, offset, ?_, ?_, fields⟩
  · have same := Decoder.decode_unvalidated _ _ _ decoded
    unfold decodeFrame
    unfold Decoder.unvalidated at same
    rw [same]
  · have isAscii : ∀ byte ∈ beginString, byte < 0x80 := by
      intro byte member
      have legal := written.legal byte member
      simp only [isBeginStringByte, isAsciiGraphic, Bool.and_eq_true, decide_eq_true_eq] at legal
      exact UInt8.lt_of_le_of_lt legal.1.2 (by decide)
    have here : slice? message.buffer 2 (2 + beginString.length) = some beginString := by
      have shape : ∀ tail, fieldBytes (ascii "8") beginString ++ tail =
          ascii "8=" ++ beginString ++ (SOH :: tail) := by
        intro tail
        have eight : ascii "8=" = ascii "8" ++ [EQUALS] := rfl
        simp [fieldBytes, eight]
      rw [buffer, written.frame, Encoder.frameOf, TagValue.headerOf, List.append_assoc, shape]
      exact slice?_eq_some_iff.mpr ⟨ascii "8=", _, rfl, rfl, rfl⟩
    unfold beginStringOf
    rw [span]
    dsimp only
    rw [here]
    exact if_pos (isUtf8_of_ascii isAscii)

theorem headerField_eq (message : RawMessage) (tag : Nat) :
    headerField message tag = occurrence (headerOfFields message.fields) tag := by
  exact readHeader_eq tag message.fields

/-- The fields of a stamped header, BeginString (8) and BodyLength (9) included. -/
def stampedFieldsOf (factory : MessageFactory) (calendar : Calendar) (now : Timestamp) (seq : UInt64)
    (pending : PendingMessage) : List FieldRef :=
  headerFields factory.version.beginString
      (decimal (bodyOf (factory.writes calendar now seq pending)).length) ++
    fieldsOf (factory.stamped calendar now seq pending)

/-- The fields of a body. -/
def bodyFieldsOf (message : OutboundMessage) : List FieldRef :=
  fieldsOf (message.fields.map OutboundField.toWrite)

/-- A message is read as a header and a body, its standard header being the
header and the standard-header tags the body begins with. -/
structure ReadAs (header body : List FieldRef) (message : RawMessage) : Prop where
  fields : message.fields = header ++ body
  inHeader : ∀ tag, inStandardHeader message tag = true ↔
    ∃ field ∈ header ++ headerOfFields body, field.tag = tag
  headerField : ∀ tag, headerField message tag = occurrence (header ++ headerOfFields body) tag
  /-- The header that is read ends where the header does. -/
  ends : headerOfFields message.fields = header ↔
    ∀ field, body.head? = some field → isStandardHeaderTag field.tag = false

/-- A frame is read, checksum and all, as the stamped header and the body. -/
theorem framed_reads_back {frame : Bytes} {instant : Timestamp}
    (framed : (factory.encodeStamped calendar now seq pending).1 = .ok (frame, instant))
    (countable : (bodyOf (factory.writes calendar now seq pending)).length < 10 ^ MAX_LENGTH_DIGITS) :
    ∃ message last, Decoder.decode (Decoder.new frame) = .ok message last ∧
      last.offset = frame.length ∧ decodeFrame frame = .ok message ∧
      ReadAs (stampedFieldsOf factory calendar now seq pending) (bodyFieldsOf pending.message)
        message := by
  obtain ⟨message, last, decoded, offset, unchecked, -, fields⟩ :=
    decodeFrame_written (encodeStamped_written framed).2 countable
  have split : message.fields = stampedFieldsOf factory calendar now seq pending ++
      bodyFieldsOf pending.message := by
    rw [fields, stampedFieldsOf, List.append_assoc]
    congr 1
    show ((_ ++ _ : List Write).map Write.fields).flatten = _
    rw [List.map_append, List.flatten_append]
    rfl
  have standard : ∀ field ∈ stampedFieldsOf factory calendar now seq pending,
      isStandardHeaderTag field.tag = true := by
    intro field member
    rcases List.mem_append.mp member with framing | stamped
    · simp only [headerFields, List.mem_cons, List.not_mem_nil, or_false] at framing
      rcases framing with rfl | rfl <;> rfl
    · exact SessionHeader.stamped_standard _ calendar now seq pending field stamped
  have read : headerOfFields message.fields = stampedFieldsOf factory calendar now seq pending ++
      headerOfFields (bodyFieldsOf pending.message) := by
    rw [split, headerOfFields_front standard]
  refine ⟨message, last, decoded, offset, unchecked, split, ?_, ?_, ?_⟩
  · intro tag
    rw [← read]
    exact inHeader_iff tag message.fields
  · intro tag
    rw [← read]
    exact headerField_eq message tag
  · rw [read, ← headerOfFields_eq_nil]
    simp

/-- The calendar at the epoch. -/
def atEpoch : Calendar where
  toDatetime _ := ⟨1970, 1, 1, 0, 0, 0, 0⟩
  inRange _ := ⟨by decide, by decide, by decide, by decide, by decide, by decide, by decide, by decide⟩

/-- A FIX.4.4 session of `A` with `B`. -/
def quoting : MessageFactory :=
  MessageFactory.new
    { beginString := ascii "FIX.4.4"
      senderCompId := ⟨ascii "A", ⟨by decide, by decide, by decide⟩⟩
      targetCompId := ⟨ascii "B", ⟨by decide, by decide, by decide⟩⟩
      senderSubId := none
      targetSubId := none
      senderLocationId := none
      targetLocationId := none
      limits := .ok ()
      features := .ok () }
    .fix44 512

theorem quoting_legal : quoting.Legal := MessageFactory.new_legal (by rfl) _ _

/-- A NewOrderSingle (D). -/
def orderOf (fields : List OutboundField) : PendingMessage :=
  .application ⟨⟨[0x44], by decide, by decide, by decide⟩, fields⟩

/-- An order whose RawData (96) carries SOH. -/
def order : PendingMessage := orderOf [.raw 55 (ascii "X"), .data 95 96 [0x61, SOH, 0x62]]

/-- An order that is sent again, with PossResend (97) = Y. -/
def resubmission : PendingMessage := orderOf [.raw 97 (ascii "Y"), .raw 55 (ascii "X")]

/-- A RawDataLength (95) on its own. -/
def halfPair : PendingMessage := orderOf [.raw 95 (ascii "3")]

end IronFix.Engine
