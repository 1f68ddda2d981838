import IronFix.TagValue.EncoderRuns
import IronFix.Transport.Recovery
import IronFix.Pipeline.Agreement

/-!
# What is written arrives

A finished message is a frame the codec delimits on its own: handed up whole as
soon as it is buffered, with nothing decided before. A stream of messages
therefore yields those frames in any split, and the decoder reads each back.
-/

namespace IronFix.Pipeline

open Lib.Decimal Lib.Incremental IronFix.TagValue IronFix.Transport

section Call

variable {codec : FixCodec}

/-- A call with no resync pending is one framing attempt. -/
theorem pass_settled (settled : codec.resyncState = .settled) (src : Bytes) :
    codec.pass src = FixCodec.afterAttempt src.length (codec.carryOut src (codec.verdict src)) := by
  simp [FixCodec.pass, FixCodec.judged, settled, FixCodec.decodeOne_eq]

theorem poll_wait (settled : codec.resyncState = .settled) {src : Bytes}
    (waits : codec.verdict src = .wait) : codec.poll src = .need codec src := by
  unfold FixCodec.poll
  rw [codec.decode_eq, pass_settled settled, waits]
  rfl

theorem poll_frame (settled : codec.resyncState = .settled) {src : Bytes} {n : Nat}
    (decided : codec.verdict src = .frame n) :
    codec.poll src = .emit (src.take n) codec (src.drop n) := by
  have same : { codec with resyncState := .settled } = codec := by rw [← settled]
  unfold FixCodec.poll
  rw [codec.decode_eq, pass_settled settled, decided]
  simp only [FixCodec.carryOut, FixCodec.afterAttempt, same]

/-- Without recovery a refusal is returned. -/
theorem poll_refused (settled : codec.resyncState = .settled)
    (recovery : codec.garbledRecovery = false) {src : Bytes} {error : CodecError}
    (decided : codec.verdict src = .refused error) : codec.poll src = .fail error codec src := by
  unfold FixCodec.poll
  rw [codec.decode_eq, pass_settled settled, decided]
  simp [FixCodec.carryOut, FixCodec.afterAttempt, recovery]

/-- Frames the codec delimits in turn are handed up in any split. -/
theorem readAll_frames (settled : codec.resyncState = .settled) {frames chunks : List Bytes}
    (delimits : ∀ frame ∈ frames, puller.Delimits codec frame frame)
    (same : chunks.flatten = frames.flatten) : codec.readAll chunks = ⟨frames, none, codec, []⟩ := by
  have idle : puller.poll codec [] = .need codec [] := poll_wait settled rfl
  have whole : ∀ frame ∈ frames, puller.Delimits codec (id frame) frame := delimits
  refine Puller.read_items idle chunks [] frames whole ?_ ?_
  · exact Puller.partial_nil whole
  · rw [List.nil_append, same, List.map_id]

end Call

/-! ## Messages on the stream -/

/-- A message to send. -/
structure Outbound where
  beginString : Bytes
  writes : List Write

/-- `frame` is what `finish` yields for the message: no larger than the codec's
limit, with a body a ten-digit BodyLength can count. -/
structure Outbound.Frames (codec : FixCodec) (message : Outbound) (frame : Bytes) : Prop where
  encoded : Encoder.encode message.beginString message.writes = .ok frame
  fits : frame.length ≤ codec.maxMessageSize
  countable : (bodyOf message.writes).length < 10 ^ TagValue.MAX_LENGTH_DIGITS

section Frame

variable {codec : FixCodec} {beginString : Bytes} {writes : List Write} {frame : Bytes}

/-- The shortest message: the smallest frame the codec looks at. -/
theorem written_least (written : Encoder.Written beginString writes frame) :
    MIN_FRAME_LEN ≤ frame.length := by
  obtain ⟨tag, value, rest, rfl, isMsgType⟩ := Decoder.written_cons written
  have version : 0 < beginString.length := List.length_pos_iff.mpr written.nonempty
  have digits : 0 < (decimal (bodyOf (.raw tag value :: rest)).length).length :=
    List.length_pos_iff.mpr (decimal_ne_nil _)
  have msgType : 5 ≤ (bodyOf (.raw tag value :: rest)).length := by
    cases written.accepted _ List.mem_cons_self with
    | raw legal nonempty clean legalType =>
        have filled : 0 < value.length := List.length_pos_iff.mpr nonempty
        have two : (decimal 35).length = 2 := by decide
        simp only [bodyOf, Write.bytes, Write.fields, Write.canonical, List.map_cons, List.map_nil,
          List.flatten_cons, List.flatten_nil, List.length_append, fieldBytes_length, isMsgType, two]
        omega
  have ten : (ascii "10").length = 2 := rfl
  rw [written.frame, Encoder.frameOf]
  simp only [List.length_append, headerOf_length, fieldBytes_length, formatChecksum_length, ten,
    MIN_FRAME_LEN]
  omega

/-- A finished message is framed as the codec reads it. -/
theorem written_framed (written : Encoder.Written beginString writes frame)
    (fits : frame.length ≤ codec.maxMessageSize)
    (countable : (bodyOf writes).length < 10 ^ TagValue.MAX_LENGTH_DIGITS) (more : Bytes) :
    let header := headerOf beginString (decimal (bodyOf writes).length)
    codec.Framed (frame ++ more) (BEGIN_STRING_PREFIX ++ beginString)
      (decimal (bodyOf writes).length) (bodyOf writes)
      (formatChecksum (calculateChecksum (header ++ bodyOf writes))) more := by
  intro header
  have layout := Decoder.written_layout written countable
  have opening := headerBytes_eq beginString (decimal (bodyOf writes).length)
  have split : frame = headerBytes (BEGIN_STRING_PREFIX ++ beginString)
      (decimal (bodyOf writes).length) ++ bodyOf writes ++
      trailerBytes (formatChecksum (calculateChecksum (header ++ bodyOf writes))) := by
    rw [written.frame, Encoder.frameOf, opening, trailerBytes_eq, List.append_assoc]
  have total : frame.length = (headerBytes (BEGIN_STRING_PREFIX ++ beginString)
      (decimal (bodyOf writes).length) ++ bodyOf writes).length + TRAILER_LEN := by
    rw [split, List.length_append, trailerBytes_length (formatChecksum_length _)]
  have whole : frame.length ≤ usizeMax := by
    have room := layout.room
    rwa [← Encoder.frameOf, ← written.frame] at room
  refine ⟨by rw [split], ?_, List.prefix_append _ _, ?_, ?_, ?_, ?_, ?_, formatChecksum_length _,
    total ▸ fits, total ▸ whole⟩
  · rw [List.length_append]
    exact le_trans (written_least written) (Nat.le_add_right _ _)
  · have eight : SOH ∉ BEGIN_STRING_PREFIX := by decide
    simpa [eight] using Decoder.legal_clean written
  · exact notMem_of_digits (decimal_digits _) isAsciiDigit_SOH
  · have digits : (decimal (bodyOf writes).length).length ≤ 10 :=
      (decimal_length_le_iff (by decide)).mpr countable
    have bounded := written.bounded
    simp only [BEGIN_STRING_MAX_LEN] at bounded
    rw [opening, headerOf_length]
    simp only [MAX_HEADER_LEN]
    omega
  · rw [parseBodyLength_eq]
    exact parseLength_decimal countable
  · rw [opening]
    exact layout.ends

theorem written_delimits (settled : codec.resyncState = .settled)
    (written : Encoder.Written beginString writes frame)
    (fits : frame.length ≤ codec.maxMessageSize)
    (countable : (bodyOf writes).length < 10 ^ TagValue.MAX_LENGTH_DIGITS) :
    puller.Delimits codec frame frame := by
  constructor
  · intro more
    have framed := written_framed written fits countable more
    have opening := headerBytes_eq beginString (decimal (bodyOf writes).length)
    have len := congrArg List.length framed.split
    rw [List.length_append, List.length_append, List.length_append,
      trailerBytes_length framed.len] at len
    have decided : codec.verdict (frame ++ more) = .frame frame.length := by
      have total : (headerBytes (BEGIN_STRING_PREFIX ++ beginString)
          (decimal (bodyOf writes).length) ++ bodyOf writes).length + TRAILER_LEN =
          frame.length := by omega
      rw [FixCodec.verdict_framed framed, parseChecksum_formatChecksum, opening]
      simp only
      rw [if_neg (by simp), ← opening, total]
    have polled := poll_frame settled decided
    rw [List.take_left, List.drop_left] at polled
    exact polled
  · intro part starts differs
    have framed := written_framed written fits countable []
    rw [List.append_nil] at framed
    refine poll_wait settled (FixCodec.verdict_part framed starts ?_)
    exact lt_of_le_of_ne starts.length_le fun same => differs (starts.eq_of_length same)

/-- A body of more than ten digits of length is finished, and refused by a codec
without recovery. -/
theorem long_refused (recovery : codec.garbledRecovery = false)
    (written : Encoder.Written beginString writes frame)
    (long : 10 ^ TagValue.MAX_LENGTH_DIGITS ≤ (bodyOf writes).length) :
    codec.verdict frame = .refused .invalidBodyLength := by
  have opening := headerBytes_eq beginString (decimal (bodyOf writes).length)
  obtain ⟨rest, split⟩ : ∃ rest, frame = headerBytes (BEGIN_STRING_PREFIX ++ beginString)
      (decimal (bodyOf writes).length) ++ rest := ⟨_, by rw [written.frame, Encoder.frameOf, opening]⟩
  have unread : parseBodyLength (decimal (bodyOf writes).length) = none := by
    rw [parseBodyLength, parseDigits, if_pos]
    have digits : ¬(decimal (bodyOf writes).length).length ≤ TagValue.MAX_LENGTH_DIGITS := by
      rw [decimal_length_le_iff (by decide)]
      exact Nat.not_lt.mpr long
    rw [Bool.or_eq_true]
    exact .inr (decide_eq_true (Nat.lt_of_not_le digits))
  have clean : SOH ∉ BEGIN_STRING_PREFIX ++ beginString := by
    have eight : SOH ∉ BEGIN_STRING_PREFIX := by decide
    simpa [eight] using Decoder.legal_clean written
  have within : (headerBytes (BEGIN_STRING_PREFIX ++ beginString)
      (decimal (bodyOf writes).length)).length ≤ MAX_HEADER_LEN := by
    have digits : (decimal (bodyOf writes).length).length ≤ 20 :=
      (decimal_length_le_iff (by decide)).mpr (lt_of_le_of_lt written.room (by decide))
    have bounded := written.bounded
    simp only [BEGIN_STRING_MAX_LEN] at bounded
    rw [opening, headerOf_length]
    simp only [MAX_HEADER_LEN]
    omega
  have scanned : codec.scanHeader frame = .error .invalidBodyLength := by
    rw [split, FixCodec.scanHeader_whole clean
      (notMem_of_digits (decimal_digits _) isAsciiDigit_SOH) within]
    simp only [FixCodec.declaredLayout, unread, okOr_none, bind, Except.bind]
  have starts : Lib.Slice.sliceTo? frame BEGIN_STRING_PREFIX.length = some BEGIN_STRING_PREFIX := by
    rw [split, headerBytes, List.append_assoc, List.append_assoc]
    exact Lib.Slice.sliceTo?_append _ _
  unfold FixCodec.verdict
  rw [if_neg (Nat.not_lt.mpr (written_least written)), if_neg (not_not_intro starts), scanned]
  simp [recovery]

end Frame

theorem frames_delimit {codec : FixCodec} (settled : codec.resyncState = .settled)
    {messages : List Outbound} {frames : List Bytes}
    (sent : List.Forall₂ (Outbound.Frames codec) messages frames) :
    ∀ frame ∈ frames, puller.Delimits codec frame frame := by
  induction sent with
  | nil => simp
  | cons framed _ ih =>
      intro frame member
      rcases List.mem_cons.mp member with rfl | member
      · exact written_delimits settled (Encoder.encode_written framed.encoded) framed.fits
          framed.countable
      · exact ih frame member

/-- What is written arrives: any stream of finished messages, read in any
split, is handed up frame by frame with nothing skipped, and every frame
decodes, consuming all of it, to BeginString, BodyLength and the fields that
were written, in order. -/
theorem written_arrives (codec : FixCodec) (settled : codec.resyncState = .settled) {messages : List Outbound} {frames : List Bytes}
    (sent : List.Forall₂ (Outbound.Frames codec) messages frames)
    (chunks : List Bytes) (same : chunks.flatten = frames.flatten) :
    codec.readAll chunks = ⟨frames, none, codec, []⟩ ∧
    List.Forall₂ (fun message frame => ∃ decoded after,
      Decoder.decode (Decoder.new frame) = .ok decoded after ∧ after.offset = frame.length ∧
      decoded.buffer = frame ∧
      decoded.fields =
        headerFields message.beginString (decimal (bodyOf message.writes).length) ++
          fieldsOf message.writes) messages frames := by
  constructor
  · exact readAll_frames settled (frames_delimit settled sent) same
  · refine sent.imp fun message frame frames => ?_
    exact Decoder.decode_written (Encoder.encode_written frames.encoded) frames.countable

/-- A message without a payload, and one whose payload looks like a trailer. -/
def heartbeat : Outbound := ⟨ascii "FIX.4.4", [.raw 35 (ascii "0")]⟩

def news : Outbound :=
  ⟨ascii "FIXT.1.1", [.raw 35 (ascii "B"), .data 95 96 (ascii "10=000\x01"), .raw 58 (ascii "=")]⟩

def newsFrame : Bytes :=
  ascii "8=FIXT.1.1\x019=26\x0135=B\x0195=7\x0196=10=000\x01\x0158==\x0110=221\x01"

theorem heartbeat_frames (codec : FixCodec) (room : 26 ≤ codec.maxMessageSize) :
    heartbeat.Frames codec plainFrame :=
  ⟨by decide +kernel, le_trans (by decide) room, by decide⟩

theorem heartbeat_news_arrive :
    FixCodec.new.readAll [(plainFrame ++ newsFrame).take 30, (plainFrame ++ newsFrame).drop 30] =
      ⟨[plainFrame, newsFrame], none, FixCodec.new, []⟩ ∧
    List.Forall₂ (fun message frame => ∃ decoded after,
      Decoder.decode (Decoder.new frame) = .ok decoded after ∧ after.offset = frame.length ∧
      decoded.buffer = frame ∧
      decoded.fields =
        headerFields message.beginString (decimal (bodyOf message.writes).length) ++
          fieldsOf message.writes) [heartbeat, news] [plainFrame, newsFrame] :=
  written_arrives FixCodec.new rfl
    (.cons (heartbeat_frames _ (by decide)) (.cons ⟨by decide +kernel, by decide, by decide⟩ .nil))
    _ (by simp)

/-- The tags of a decode, if it succeeds. -/
def decodedTags (input : Bytes) : Option (List Nat) :=
  match Decoder.decode (Decoder.new input) with
  | .ok message _ => some (message.fields.map FieldRef.tag)
  | .error _ _ => none

/-- A message with `n` bytes of payload. -/
def payload (n : Nat) : Outbound :=
  ⟨ascii "FIX.4.4", [.raw 35 (ascii "B"), .data 95 96 (List.replicate n 0x78)]⟩

theorem payload_length (n : Nat) :
    (bodyOf (payload n).writes).length = 13 + (decimal n).length + n := by
  have len : (decimal 35).length = 2 ∧ (decimal 95).length = 2 ∧ (decimal 96).length = 2 := by decide
  have code : (ascii "B").length = 1 := rfl
  simp only [payload, bodyOf, Write.bytes, Write.fields, Write.canonical, List.map_cons, List.map_nil,
    List.flatten_cons, List.flatten_nil, List.length_append, fieldBytes_length, List.length_replicate,
    UInt32.reduceToNat, len, code, List.length_nil]
  omega

theorem payload_written {n : Nat} (positive : 0 < n) (small : n < 10 ^ 19) :
    Encoder.Written (payload n).beginString (payload n).writes
      (Encoder.frameOf (payload n).beginString (bodyOf (payload n).writes)) := by
  have digits : (decimal n).length ≤ 19 := (decimal_length_le_iff (by decide)).mpr small
  have graphic : (ascii "FIX.4.4").all isBeginStringByte = true := by decide
  refine ⟨List.cons_ne_nil _ _, List.all_eq_true.mp graphic, Nat.le_of_ble_eq_true rfl, ?_, rfl, ?_,
    rfl⟩
  · intro write member
    simp only [payload, List.mem_cons, List.not_mem_nil, or_false] at member
    rcases member with rfl | rfl
    · exact .raw (by decide +kernel) (by decide) (by decide) fun _ => by decide +kernel
    · refine .data (by decide +kernel) ?_
      simp only [ne_eq, List.replicate_eq_nil_iff]
      omega
  · rw [payload_length, usizeMax]
    omega

/-- The frame of a payload of 10^10 bytes or more, whose BodyLength no decoder reads. -/
theorem payload_unread {n : Nat} (long : 10 ^ TagValue.MAX_LENGTH_DIGITS ≤ n) (small : n < 10 ^ 19) :
    ∃ frame after last,
      Encoder.finish (Encoder.run (payload n).beginString ((payload n).writes.map .put)).1 =
        .ok frame after ∧
      Decoder.decode (Decoder.new frame) = .error .invalidBodyLength last := by
  have written := payload_written (lt_of_lt_of_le (by decide) long) small
  have len := payload_length n
  have digits : (decimal n).length ≤ 19 := (decimal_length_le_iff (by decide)).mpr small
  have total : (decimal (bodyOf (payload n).writes).length).length ≤ 20 :=
    (decimal_length_le_iff (by decide)).mpr (lt_of_le_of_lt written.room (by decide))
  have room : (Encoder.frameOf (payload n).beginString (bodyOf (payload n).writes)).length ≤
      usizeMax := by
    have version := written.bounded
    have ten : (ascii "10").length = 2 := rfl
    rw [Encoder.frameOf]
    simp only [BEGIN_STRING_MAX_LEN, List.length_append, headerOf_length, fieldBytes_length,
      formatChecksum_length, ten, usizeMax] at version ⊢
    omega
  obtain ⟨last, refused⟩ := Decoder.decode_uncounted written (by omega) room
  have encoded := Encoder.encode_of_written written
  unfold Encoder.encode at encoded
  rw [Encoder.run_encoder, List.foldl_map]
  split at encoded
  · rename_i frame after finished
    cases encoded
    exact ⟨_, after, last, finished, refused⟩
  · cases encoded

/-- Such a payload is taken whole, but no field of it is read back. -/
theorem taken_payload_unread :
    ∃ frame after last,
      Encoder.finish (Encoder.run (payload (10 ^ 10)).beginString
        ((payload (10 ^ 10)).writes.map .put)).1 = .ok frame after ∧
      Decoder.decode (Decoder.new frame) = .error .invalidBodyLength last :=
  payload_unread (le_refl _) (Nat.pow_lt_pow_right (by decide) (by decide))

/-- A payload of 10^10 bytes or more is finished, and refused whatever the size
limit. -/
theorem payload_refused {n : Nat} (long : 10 ^ TagValue.MAX_LENGTH_DIGITS ≤ n) (small : n < 10 ^ 19)
    (codec : FixCodec) (recovery : codec.garbledRecovery = false)
    (settled : codec.resyncState = .settled) :
    ∃ frame, Encoder.encode (payload n).beginString (payload n).writes = .ok frame ∧
      frame.length ≤ n + 100 ∧ (codec.readAll [frame]).error = some .invalidBodyLength := by
  have written := payload_written (lt_of_lt_of_le (by decide) long) small
  have len := payload_length n
  have digits : (decimal n).length ≤ 19 := (decimal_length_le_iff (by decide)).mpr small
  have total : (decimal (bodyOf (payload n).writes).length).length ≤ 20 :=
    (decimal_length_le_iff (by decide)).mpr (lt_of_le_of_lt written.room (by decide))
  refine ⟨_, Encoder.encode_of_written written, ?_, ?_⟩
  · have version := written.bounded
    have ten : (ascii "10").length = 2 := rfl
    rw [Encoder.frameOf]
    simp only [BEGIN_STRING_MAX_LEN, List.length_append, headerOf_length, fieldBytes_length,
      formatChecksum_length, ten] at version ⊢
    omega
  · have decided : codec.verdict _ = _ := long_refused recovery written (by omega)
    have polled := poll_refused settled recovery decided
    rw [readAll_single, Puller.drain_eq]
    simp only [puller, polled]

/-- The CheckSum is no field of the decoded message, and a message with a
payload of 10^10 bytes is refused under a limit of twice that. -/
theorem checksum_unlisted_long_refused :
    (heartbeat.Frames FixCodec.new plainFrame ∧ decodedTags plainFrame = some [8, 9, 35]) ∧
    ∃ frame, Encoder.encode (payload (10 ^ 10)).beginString (payload (10 ^ 10)).writes = .ok frame ∧
      frame.length ≤ 10 ^ 10 + 100 ∧
      ((FixCodec.new.withMaxMessageSize (2 * 10 ^ 10)).readAll [frame]).error =
        some .invalidBodyLength :=
  ⟨⟨heartbeat_frames _ (by decide), by decide +kernel⟩,
    payload_refused (le_refl _) (Nat.pow_lt_pow_right (by decide) (by decide)) _ rfl rfl⟩

end IronFix.Pipeline
