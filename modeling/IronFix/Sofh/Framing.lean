import IronFix.Sofh.Codec

/-!
# Framing in any split

A driver appends what it reads and decodes until more is needed. How the stream
is split into reads decides nothing, the frames are the bytes they were cut
from, and what was framed is read back.
-/

namespace IronFix.Sofh

open Lib.Decimal Lib.Incremental

/-! ## Headers -/

namespace SofhHeader

variable {header : SofhHeader} {chunk src more : Bytes}

@[simp] theorem toBytes_length : header.toBytes.length = LEN := by
  simp [toBytes, LEN]

/-- Six bytes are the words they declare. -/
theorem declared_bytes (six : chunk.length = LEN) :
    Lib.BigEndian.bytes 4 (declared chunk).1.toNat ++ Lib.BigEndian.bytes 2 (declared chunk).2.toNat =
      chunk := by
  unfold LEN at six
  have first : (chunk.take 4).length = 4 := by
    rw [List.length_take]
    omega
  have second : (chunk.drop 4).length = 2 := by
    rw [List.length_drop]
    omega
  have lengthKept : (declared chunk).1.toNat = Lib.BigEndian.value (chunk.take 4) := by
    refine UInt32.toNat_ofNat_of_lt ?_
    have bound := Lib.BigEndian.value_lt (chunk.take 4)
    rw [first] at bound
    exact bound
  have typeKept : (declared chunk).2.toNat = Lib.BigEndian.value (chunk.drop 4) := by
    refine UInt16.toNat_ofNat_of_lt ?_
    have bound := Lib.BigEndian.value_lt (chunk.drop 4)
    rw [second] at bound
    exact bound
  have front := Lib.BigEndian.bytes_value (chunk.take 4)
  have back := Lib.BigEndian.bytes_value (chunk.drop 4)
  rw [first] at front
  rw [second] at back
  rw [lengthKept, typeKept, front, back, List.take_append_drop]

theorem declared_toBytes :
    declared header.toBytes = (header.messageLength, header.encodingType.toU16) := by
  have four : (Lib.BigEndian.bytes 4 header.messageLength.toNat).length = 4 :=
    Lib.BigEndian.length_bytes 4 _
  have front : header.toBytes.take 4 = Lib.BigEndian.bytes 4 header.messageLength.toNat :=
    List.take_left' four
  have back : header.toBytes.drop 4 = Lib.BigEndian.bytes 2 header.encodingType.toU16.toNat :=
    List.drop_left' four
  have length := @Lib.BigEndian.value_bytes 4 _ header.messageLength.toNat_lt
  have raw := @Lib.BigEndian.value_bytes 2 _ header.encodingType.toU16.toNat_lt
  unfold declared
  rw [front, back, length, raw, UInt32.ofNat_toNat, UInt16.ofNat_toNat]

theorem firstChunk_append (found : firstChunk src = some chunk) : firstChunk (src ++ more) = some chunk := by
  unfold firstChunk at found ⊢
  split at found
  · rename_i long
    cases found
    rw [if_pos (by rw [List.length_append]; omega), List.take_append_of_le_length long]
  · cases found

theorem firstChunk_some (found : firstChunk src = some chunk) :
    chunk = src.take LEN ∧ chunk.length = LEN := by
  unfold firstChunk at found
  split at found
  · rename_i long
    cases found
    exact ⟨rfl, List.length_take_of_le long⟩
  · cases found

theorem firstChunk_toBytes (header : SofhHeader) (rest : Bytes) :
    firstChunk (header.toBytes ++ rest) = some header.toBytes := by
  have long : LEN ≤ (header.toBytes ++ rest).length := by
    rw [List.length_append, toBytes_length]
    exact Nat.le_add_right _ _
  unfold firstChunk
  rw [if_pos long, List.take_left' toBytes_length]

/-- A header is built of what it declares. -/
theorem new_declared (header : SofhHeader) :
    new (.fromU16 header.encodingType.toU16) header.messageLength = .ok header := by
  unfold new
  rw [dif_pos header.atLeast, EncodingType.fromU16_toU16]

end SofhHeader

/-! ## One frame -/

/-- A frame as it is on the wire. -/
def SofhFrame.bytes (frame : SofhFrame) : Bytes := frame.header.toBytes ++ frame.payload

theorem SofhFrame.bytes_length (frame : SofhFrame) :
    frame.bytes.length = frame.header.messageLength.toNat := by
  rw [bytes, List.length_append, SofhHeader.toBytes_length, frame.messageLength_eq, Nat.add_comm]

namespace SofhCodec

variable {codec : SofhCodec} {src rest more : Bytes} {frame : SofhFrame} {error : SofhError}

/-- A frame is cut off where it stands in front. -/
theorem decode_frame (within : frame.header.messageLength ≤ codec.maxMessageSize) :
    codec.decode (frame.bytes ++ rest) = .ok (some frame) rest := by
  have declares := frame.header.declared_toBytes
  have framed : codec.frameLen (SofhHeader.declared frame.header.toBytes).1 =
      .ok frame.bytes.length := by
    rw [declares, frame.bytes_length]
    exact if_pos within
  have built : SofhHeader.new (.fromU16 (SofhHeader.declared frame.header.toBytes).2)
      (SofhHeader.declared frame.header.toBytes).1 = .ok frame.header := by
    rw [declares]
    exact frame.header.new_declared
  have legal : ¬(SofhHeader.declared frame.header.toBytes).1 < SofhHeader.MIN_MESSAGE_LENGTH := by
    rw [declares]
    exact UInt32.not_lt.mpr frame.header.atLeast
  have chunk : SofhHeader.firstChunk (frame.bytes ++ rest) = some frame.header.toBytes := by
    rw [SofhFrame.bytes, List.append_assoc, SofhHeader.firstChunk_toBytes]
  have short : ¬(frame.bytes ++ rest).length < frame.bytes.length := by
    rw [List.length_append]
    omega
  have payload : ((frame.bytes ++ rest).take frame.bytes.length).drop SofhHeader.LEN = frame.payload := by
    rw [List.take_left, SofhFrame.bytes, List.drop_left' SofhHeader.toBytes_length]
  unfold decode decodeInner
  rw [chunk]
  dsimp only
  rw [if_neg legal]
  split
  · rename_i refused
    rw [framed] at refused
    cases refused
  · rename_i frameLen framed'
    rw [framed] at framed'
    cases framed'
    rw [dif_neg short]
    split
    · rename_i refused
      rw [built] at refused
      cases refused
    · rename_i header built'
      rw [built] at built'
      cases built'
      have same : ∀ described, (⟨frame.header, _, described⟩ : SofhFrame) = frame := fun described =>
        (SofhFrame.mk.injEq ..).mpr ⟨rfl, payload⟩
      rw [same, List.drop_left]

/-- Why six bytes are no header of a frame. -/
def refusal (codec : SofhCodec) (chunk : Bytes) : Option SofhError :=
  let messageLength := (SofhHeader.declared chunk).1
  if messageLength < SofhHeader.MIN_MESSAGE_LENGTH then some (SofhHeader.lengthTooSmall messageLength)
  else if messageLength ≤ codec.maxMessageSize then none
  else some (.messageTooLarge messageLength codec.maxMessageSize)

theorem decode_headless (short : SofhHeader.firstChunk src = none) : codec.decode src = .ok none src := by
  unfold decode decodeInner
  rw [short]

theorem decode_refused {chunk : Bytes} (found : SofhHeader.firstChunk src = some chunk)
    (refused : codec.refusal chunk = some error) : codec.decode src = .error error src := by
  unfold refusal at refused
  unfold decode decodeInner
  rw [found]
  dsimp only at refused ⊢
  split at refused
  · rename_i small
    cases refused
    rw [if_pos small]
  · rename_i legal
    rw [if_neg legal]
    split at refused
    · cases refused
    · rename_i large
      cases refused
      have fails : codec.frameLen (SofhHeader.declared chunk).1 =
          .error (.messageTooLarge (SofhHeader.declared chunk).1 codec.maxMessageSize) := if_neg large
      split
      · rename_i framed
        rw [fails] at framed
        cases framed
        rfl
      · rename_i framed
        rw [fails] at framed
        cases framed

theorem decode_waits_payload {chunk : Bytes} (found : SofhHeader.firstChunk src = some chunk)
    (legal : codec.refusal chunk = none)
    (short : src.length < (SofhHeader.declared chunk).1.toNat) : codec.decode src = .ok none src := by
  unfold refusal at legal
  unfold decode decodeInner
  rw [found]
  dsimp only at legal ⊢
  split at legal
  · cases legal
  · rename_i notSmall
    rw [if_neg notSmall]
    split at legal
    · rename_i within
      have frames : codec.frameLen (SofhHeader.declared chunk).1 =
          .ok (SofhHeader.declared chunk).1.toNat := if_pos within
      split
      · rename_i framed
        rw [frames] at framed
        cases framed
      · rename_i framed
        rw [frames] at framed
        cases framed
        rw [dif_pos short]
    · cases legal

/-- A buffer with a whole frame begins with it. -/
theorem begins_frame {chunk : Bytes} (found : SofhHeader.firstChunk src = some chunk)
    (legal : codec.refusal chunk = none)
    (whole : (SofhHeader.declared chunk).1.toNat ≤ src.length) :
    ∃ frame rest, src = SofhFrame.bytes frame ++ rest ∧
      frame.header.messageLength ≤ codec.maxMessageSize := by
  obtain ⟨front, six⟩ := SofhHeader.firstChunk_some found
  let messageLength := (SofhHeader.declared chunk).1
  unfold refusal at legal
  dsimp only at legal
  split at legal
  · cases legal
  · rename_i notSmall
    split at legal
    · rename_i within
      let header : SofhHeader :=
        ⟨messageLength, .fromU16 (SofhHeader.declared chunk).2, UInt32.not_lt.mp notSmall⟩
      have described : ((src.take messageLength.toNat).drop SofhHeader.LEN).length = header.payloadLen :=
        split_length (if_pos within) (Nat.not_lt.mpr whole) (dif_pos header.atLeast)
      refine ⟨⟨header, _, described⟩, src.drop messageLength.toNat, ?_, within⟩
      have head : header.toBytes = src.take SofhHeader.LEN := by
        rw [← front, ← SofhHeader.declared_bytes six]
        unfold SofhHeader.toBytes
        rw [EncodingType.toU16_fromU16]
      have least := UInt32.le_iff_toNat_le.mp header.atLeast
      have seven : SofhHeader.MIN_MESSAGE_LENGTH.toNat = 7 := rfl
      have first : (src.take messageLength.toNat).take SofhHeader.LEN = src.take SofhHeader.LEN := by
        rw [List.take_take, Nat.min_eq_left]
        exact le_trans (by decide) least
      unfold SofhFrame.bytes
      dsimp only
      rw [head, ← first, List.take_append_drop, List.take_append_drop]
    · cases legal

/-- What a codec answers to a buffer: more is needed, a frame that stands in
front, or an error that stays. -/
theorem decode_cases (codec : SofhCodec) (src : Bytes) :
    codec.decode src = .ok none src ∨
      (∃ frame rest, src = SofhFrame.bytes frame ++ rest ∧
        frame.header.messageLength ≤ codec.maxMessageSize) ∨
      ∃ error, ∀ more, codec.decode (src ++ more) = .error error (src ++ more) := by
  cases found : SofhHeader.firstChunk src with
  | none => exact .inl (decode_headless found)
  | some chunk =>
      cases refused : codec.refusal chunk with
      | some error =>
          refine .inr (.inr ⟨error, fun more => ?_⟩)
          exact decode_refused (SofhHeader.firstChunk_append found) refused
      | none =>
          by_cases short : src.length < (SofhHeader.declared chunk).1.toNat
          · exact .inl (decode_waits_payload found refused short)
          · exact .inr (.inl (begins_frame found refused (Nat.not_lt.mp short)))

/-- A frame that is decoded stood in front of the buffer. -/
theorem decode_some (decoded : codec.decode src = .ok (some frame) rest) :
    src = frame.bytes ++ rest ∧ frame.header.messageLength ≤ codec.maxMessageSize := by
  rcases codec.decode_cases src with waits | ⟨other, behind, rfl, within⟩ | ⟨error, fails⟩
  · rw [waits] at decoded
    cases decoded
  · rw [decode_frame within] at decoded
    cases decoded
    exact ⟨rfl, within⟩
  · have here := fails []
    rw [List.append_nil, decoded] at here
    cases here

theorem decode_none (decoded : codec.decode src = .ok none rest) : rest = src := by
  rcases codec.decode_cases src with waits | ⟨other, behind, rfl, within⟩ | ⟨error, fails⟩
  · rw [waits] at decoded
    cases decoded
    rfl
  · rw [decode_frame within] at decoded
    cases decoded
  · have here := fails []
    rw [List.append_nil, decoded] at here
    cases here

/-- An error consumes nothing, and stays when more is read. -/
theorem decode_error (failed : codec.decode src = .error error rest) :
    rest = src ∧ ∀ more, codec.decode (src ++ more) = .error error (src ++ more) := by
  rcases codec.decode_cases src with waits | ⟨other, behind, rfl, within⟩ | ⟨_, fails⟩
  · rw [waits] at failed
    cases failed
  · rw [decode_frame within] at failed
    cases failed
  · have here := fails []
    rw [List.append_nil, failed] at here
    cases here
    exact ⟨rfl, fails⟩

/-- The end of the stream consumes a frame or nothing. -/
theorem decodeEof_error (failed : codec.decodeEof src = .error error rest) : rest = src := by
  unfold decodeEof at failed
  cases decoded : codec.decodeInner src with
  | error early left =>
      rw [decoded] at failed
      cases failed
      exact (decode_error decoded).1
  | ok found left =>
      rw [decoded] at failed
      cases found with
      | some frame => cases failed
      | none =>
          have same := decode_none decoded
          dsimp only at failed
          repeat' split at failed
          all_goals first
            | cases failed
              exact same
            | cases failed

/-! ## Streams -/

/-- The codec, called until it needs more. -/
def puller (codec : SofhCodec) : Puller Unit UInt8 SofhFrame SofhError where
  poll _ src :=
    match codec.decode src with
    | .ok none src => .need () src
    | .ok (some frame) src => .emit frame () src
    | .error error src => .fail error () src
  progress := by
    intro state src frame state' rest emitted
    split at emitted
    · cases emitted
    · rename_i decoded
      cases emitted
      obtain ⟨rfl, -⟩ := decode_some decoded
      have atLeast := UInt32.le_iff_toNat_le.mp frame.header.atLeast
      have least : SofhHeader.MIN_MESSAGE_LENGTH.toNat = 7 := rfl
      rw [List.length_append, frame.bytes_length]
      omega
    · cases emitted

theorem puller_stable (codec : SofhCodec) : codec.puller.Stable where
  need := by
    intro state src state' rest needed
    dsimp only [puller] at needed
    split at needed
    · rename_i decoded
      cases needed
      exact ⟨rfl, decode_none decoded⟩
    · cases needed
    · cases needed
  emit := by
    intro state src frame state' rest emitted more
    dsimp only [puller] at emitted ⊢
    split at emitted
    · cases emitted
    · rename_i decoded
      cases emitted
      obtain ⟨rfl, within⟩ := decode_some decoded
      rw [List.append_assoc, decode_frame within]
    · cases emitted
  fail := by
    intro state src error state' rest failed more
    dsimp only [puller] at failed ⊢
    split at failed
    · cases failed
    · cases failed
    · rename_i decoded
      cases failed
      obtain ⟨rfl, stays⟩ := decode_error decoded
      rw [stays more]

/-- What a driver gets out of a stream. -/
structure Received where
  frames : List SofhFrame
  error : Option SofhError
  /-- What was not consumed. -/
  leftover : Bytes
  deriving DecidableEq

/-- Reads the chunks, decoding after each until more is needed, and then ends
the stream. The first error ends it too. -/
def receive (codec : SofhCodec) (chunks : List Bytes) : Received :=
  let got := codec.puller.readAll () [] chunks
  match got.error with
  | some error => ⟨got.items, some error, got.rest⟩
  | none =>
      match codec.decodeEof got.rest with
      | .ok none rest => ⟨got.items, none, rest⟩
      | .ok (some frame) rest => ⟨got.items ++ [frame], none, rest⟩
      | .error error rest => ⟨got.items, some error, rest⟩

/-- Encodes items in turn. The first error ends it. -/
def encodeAll {α : Type} (put : α → Bytes → EStateM.Result SofhError Bytes Unit) :
    List α → Bytes → EStateM.Result SofhError Bytes Unit
  | [], dst => .ok () dst
  | item :: items, dst =>
      match put item dst with
      | .ok () dst => encodeAll put items dst
      | .error error dst => .error error dst

/-- The frames on the wire. -/
def wire (frames : List SofhFrame) : Bytes := (frames.map SofhFrame.bytes).flatten

theorem putFrame_within (within : frame.header.messageLength ≤ codec.maxMessageSize) (dst : Bytes) :
    codec.encode frame dst = .ok () (dst ++ frame.bytes) := by
  have framed : codec.frameLen frame.header.messageLength = .ok _ := if_pos within
  have length := frame.messageLength_eq
  have bound := frame.header.messageLength.toNat_lt
  have counted : checkedAdd usizeMax frame.payload.length SofhHeader.LEN =
      some (frame.payload.length + SofhHeader.LEN) := by
    refine if_pos ?_
    unfold usizeMax
    omega
  unfold encode putFrame
  rw [framed]
  dsimp only
  rw [counted, SofhFrame.bytes, List.append_assoc]

/-- Frames within the ceiling are encoded as they are on the wire. -/
theorem encodeAll_frames {frames : List SofhFrame}
    (within : ∀ frame ∈ frames, frame.header.messageLength ≤ codec.maxMessageSize) (dst : Bytes) :
    encodeAll codec.encode frames dst = .ok () (dst ++ wire frames) := by
  induction frames generalizing dst with
  | nil => exact congrArg _ (List.append_nil dst).symm
  | cons frame frames ih =>
      rw [encodeAll, putFrame_within (within frame List.mem_cons_self)]
      dsimp only
      rw [ih fun other member => within other (List.mem_cons_of_mem _ member), List.append_assoc]
      rfl

/-- Draining cuts frames off the buffer. -/
theorem drain_frames (codec : SofhCodec) (src : Bytes) :
    let got := codec.puller.drain () src
    src = wire got.items ++ got.rest ∧
      (∀ frame ∈ got.items, frame.header.messageLength ≤ codec.maxMessageSize) ∧
      (got.error = none → codec.decode got.rest = .ok none got.rest) := by
  induction len : src.length using Nat.strongRecOn generalizing src with
  | ind n ih =>
      rw [Puller.drain_eq]
      cases decoded : codec.decode src with
      | error error rest =>
          have polled : codec.puller.poll () src = .fail error () rest := by simp [puller, decoded]
          rw [polled]
          obtain ⟨rfl, -⟩ := decode_error decoded
          exact ⟨rfl, by simp, by simp⟩
      | ok found rest =>
          cases found with
          | none =>
              have polled : codec.puller.poll () src = .need () rest := by simp [puller, decoded]
              rw [polled]
              have same := decode_none decoded
              subst same
              exact ⟨rfl, by simp, fun _ => decoded⟩
          | some frame =>
              have polled : codec.puller.poll () src = .emit frame () rest := by simp [puller, decoded]
              have shorter := codec.puller.progress polled
              rw [polled]
              obtain ⟨rfl, within⟩ := decode_some decoded
              obtain ⟨split, others, waits⟩ := ih _ (len ▸ shorter) rest rfl
              refine ⟨?_, ?_, waits⟩
              · show frame.bytes ++ rest = frame.bytes ++ wire _ ++ _
                rw [List.append_assoc, ← split]
              · intro other member
                rcases List.mem_cons.mp member with rfl | behind
                · exact within
                · exact others other behind

/-- A stream that ends where more is needed yields no more frames. -/
theorem decodeEof_waits (waits : codec.decode src = .ok none src) :
    (codec.decodeEof src = .ok none src ∧ src = []) ∨
      (∃ error, codec.decodeEof src = .error error src) := by
  have inner : codec.decodeInner src = .ok none src := waits
  unfold decodeEof
  rw [inner]
  dsimp only
  repeat' split
  · exact .inl ⟨rfl, ‹src = []›⟩
  all_goals exact .inr ⟨_, rfl⟩

/-- What a driver gets is what decoding the whole stream gets. -/
theorem receive_eq (codec : SofhCodec) (chunks : List Bytes) :
    codec.receive chunks =
      let got := codec.puller.drain () chunks.flatten
      match got.error with
      | some error => ⟨got.items, some error, got.rest⟩
      | none =>
          match codec.decodeEof got.rest with
          | .ok none rest => ⟨got.items, none, rest⟩
          | .ok (some frame) rest => ⟨got.items ++ [frame], none, rest⟩
          | .error error rest => ⟨got.items, some error, rest⟩ := by
  unfold receive
  rw [codec.puller_stable.readAll_eq]
  rfl

/-- The frames a driver gets are the bytes it consumed. -/
theorem receive_consumes (codec : SofhCodec) (chunks : List Bytes) :
    chunks.flatten = wire (codec.receive chunks).frames ++ (codec.receive chunks).leftover ∧
      ∀ frame ∈ (codec.receive chunks).frames, frame.header.messageLength ≤ codec.maxMessageSize := by
  obtain ⟨split, within, waits⟩ := codec.drain_frames chunks.flatten
  rw [receive_eq]
  dsimp only
  cases failed : (codec.puller.drain () chunks.flatten).error with
  | some error => exact ⟨split, within⟩
  | none =>
      rcases decodeEof_waits (waits failed) with ⟨ends, -⟩ | ⟨error, ends⟩
      · rw [ends]
        exact ⟨split, within⟩
      · rw [ends]
        exact ⟨split, within⟩

/-- A stream of frames yields them, and nothing else. -/
theorem receive_frames {frames : List SofhFrame}
    (within : ∀ frame ∈ frames, frame.header.messageLength ≤ codec.maxMessageSize)
    {chunks : List Bytes} (stream : chunks.flatten = wire frames) :
    codec.receive chunks = ⟨frames, none, []⟩ := by
  have idle : codec.puller.poll () [] = .need () [] := rfl
  have drained : codec.puller.drain () (wire frames) = ⟨frames, none, (), []⟩ := by
    clear stream
    induction frames with
    | nil => rw [Puller.drain_eq, show wire [] = [] from rfl, idle]
    | cons frame frames ih =>
        have polled : codec.puller.poll () (wire (frame :: frames)) = .emit frame () (wire frames) := by
          have decoded : codec.decode (wire (frame :: frames)) = .ok (some frame) (wire frames) :=
            decode_frame (within frame List.mem_cons_self)
          simp [puller, decoded]
        rw [Puller.drain_eq, polled]
        dsimp only
        rw [ih fun other member => within other (List.mem_cons_of_mem _ member)]
  rw [receive_eq, stream, drained]
  rfl

/-- Payloads that are not empty and fit under the ceiling are framed. -/
theorem encodeAll_payloads {payloads : List (EncodingType × Bytes)}
    (fits : ∀ item ∈ payloads, item.2 ≠ [] ∧
      item.2.length + SofhHeader.LEN ≤ codec.maxMessageSize.toNat) (dst : Bytes) :
    ∃ frames : List SofhFrame,
      encodeAll (fun item dst => codec.encodePayload item.1 item.2 dst) payloads dst =
        .ok () (dst ++ wire frames) ∧
      (∀ frame ∈ frames, frame.header.messageLength ≤ codec.maxMessageSize) ∧
      frames.map (fun frame => (frame.header.encodingType, frame.payload)) = payloads := by
  induction payloads generalizing dst with
  | nil => exact ⟨[], congrArg _ (List.append_nil dst).symm, by simp, rfl⟩
  | cons item payloads ih =>
      obtain ⟨encodingType, payload⟩ := item
      obtain ⟨filled, under⟩ := fits _ List.mem_cons_self
      obtain ⟨header, built, length⟩ := SofhHeader.forPayload_fits encodingType filled
        (under.trans (Nat.le_of_lt_succ codec.maxMessageSize.toNat_lt))
      obtain ⟨-, described, encodes⟩ := SofhHeader.forPayload_ok built
      let frame : SofhFrame := ⟨header, payload, described.symm⟩
      have within : frame.header.messageLength ≤ codec.maxMessageSize := by
        rw [UInt32.le_iff_toNat_le, length]
        exact under
      obtain ⟨frames, encoded, others, back⟩ := ih
        (fun other member => fits other (List.mem_cons_of_mem _ member)) (dst ++ frame.bytes)
      refine ⟨frame :: frames, ?_, ?_, ?_⟩
      · have put : codec.encodePayload encodingType payload dst = .ok () (dst ++ frame.bytes) := by
          unfold encodePayload
          rw [built]
          exact putFrame_within within dst
        rw [encodeAll, put]
        dsimp only
        rw [encoded, List.append_assoc]
        rfl
      · intro other member
        rcases List.mem_cons.mp member with rfl | behind
        · exact within
        · exact others other behind
      · rw [List.map_cons, back]
        exact congrArg (fun kept => (kept, payload) :: payloads) encodes

/-- Framing of any stream under any ceiling. How the stream is split into reads
decides nothing; a frame is as long as its header declares; the frames encode
to the bytes that were consumed; an error consumes nothing; and payloads within
the ceiling are read back from what they were framed to, in any split. -/
theorem framing_round_trip (codec : SofhCodec) :
    (∀ chunks : List Bytes, codec.receive chunks = codec.receive [chunks.flatten]) ∧
    (∀ chunks, ∀ frame ∈ (codec.receive chunks).frames,
      frame.header.messageLength.toNat = frame.payload.length + SofhHeader.LEN) ∧
    (∀ chunks : List Bytes, ∃ consumed,
      chunks.flatten = consumed ++ (codec.receive chunks).leftover ∧
        encodeAll codec.encode (codec.receive chunks).frames [] = .ok () consumed) ∧
    (∀ src error rest, (codec.decode src = .error error rest → rest = src) ∧
      (codec.decodeEof src = .error error rest → rest = src)) ∧
    ∀ payloads : List (EncodingType × Bytes), (∀ item ∈ payloads, item.2 ≠ [] ∧
        item.2.length + SofhHeader.LEN ≤ codec.maxMessageSize.toNat) →
      ∃ stream, encodeAll (fun item dst => codec.encodePayload item.1 item.2 dst) payloads [] =
          .ok () stream ∧
        ∀ chunks : List Bytes, chunks.flatten = stream →
          (codec.receive chunks).frames.map (fun frame => (frame.header.encodingType, frame.payload)) =
              payloads ∧
            (codec.receive chunks).error = none ∧ (codec.receive chunks).leftover = [] := by
  refine ⟨?_, ?_, ?_, ?_, ?_⟩
  · intro chunks
    rw [receive_eq, receive_eq, List.flatten_singleton]
  · intro chunks frame _
    exact frame.messageLength_eq
  · intro chunks
    obtain ⟨split, within⟩ := codec.receive_consumes chunks
    exact ⟨_, split, encodeAll_frames within []⟩
  · intro src error rest
    exact ⟨fun failed => (decode_error failed).1, decodeEof_error⟩
  · intro payloads fits
    obtain ⟨frames, encoded, within, back⟩ := encodeAll_payloads fits []
    refine ⟨_, encoded, fun chunks stream => ?_⟩
    rw [receive_frames within stream]
    exact ⟨back, rfl, rfl⟩

end SofhCodec

end IronFix.Sofh
