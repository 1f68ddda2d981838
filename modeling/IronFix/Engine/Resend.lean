import IronFix.Engine.Stamping

/-!
# A resend is the message again

Rebuilding a frame writes its fields again, one for one, but for the times:
PossDupFlag (43) before SendingTime (52), and OrigSendingTime (122) behind it.
A resend is rebuilt in the same way, so any number of resends differ in their
SendingTime only.
-/

namespace IronFix.Engine

open Lib.Slice Lib.Decimal Lib.Steps IronFix.TagValue IronFix.Session Outbound

/-! ## The rebuild, write by write -/

/-- Every field of the write is copied. -/
def Unmoved (write : Write) : Prop := ∀ field ∈ write.fields, replayField field.tag = .copied

/-- An open encoder takes what is accepted. -/
theorem tryPut_accepted {encoder : Encoder} (opened : encoder.frameStart = none) {write : Write}
    (accepted : write.Accepted) :
    Encoder.tryPut write encoder = .ok () (encoder.put write) ∧ (encoder.put write).frameStart = none := by
  have kept : ∀ tag value (encoder : Encoder), encoder.frameStart = none →
      (Encoder.writeField tag value encoder).frameStart = none := by
    intro tag value encoder opened
    unfold Encoder.writeField
    dsimp only
    split
    · unfold Encoder.record
      split <;> exact opened
    · exact opened
  have taken : Encoder.tryPut write encoder = .ok () (encoder.append write) := by
    cases write with
    | raw tag value =>
        rcases Encoder.tryPutRaw_cases tag value encoder with ⟨error, -, unacceptable⟩ | ⟨taken, -⟩
        · exact absurd accepted (unacceptable opened)
        · exact taken
    | data lengthTag dataTag value =>
        rcases Encoder.tryPutData_cases lengthTag dataTag value encoder with
          ⟨error, -, unacceptable⟩ | ⟨taken, -⟩
        · exact absurd accepted (unacceptable opened)
        · exact taken
  rw [Encoder.put_taken taken]
  refine ⟨taken, ?_⟩
  cases write with
  | raw tag value => exact kept _ _ _ opened
  | data lengthTag dataTag value => exact kept _ _ _ (kept _ _ _ opened)

section Rebuild

variable {sendingTime origTime : Bytes}

/-- A LENGTH tag is not written on its own. -/
theorem tryPutRaw_length {lengthTag : UInt32} {dataTag : Nat}
    (paired : pairedDataTag lengthTag.toNat = some dataTag) (value : Bytes) (encoder : Encoder) :
    ∃ error, Encoder.tryPutRaw lengthTag value encoder = .error error encoder := by
  rcases Encoder.tryPutRaw_cases lengthTag value encoder with ⟨error, refused, -⟩ | ⟨-, accepted⟩
  · exact ⟨error, refused⟩
  · cases accepted with
    | raw legal =>
        have unpaired := (Decoder.checkBodyTag_ok legal).1
        rw [paired] at unpaired
        cases unpaired

/-- A write that is copied is written again as it was. -/
theorem rebuildFields_copied {write : Write} (accepted : write.Accepted) (unmoved : Unmoved write)
    {encoder : Encoder} (opened : encoder.frameStart = none) (fields : List FieldRef) :
    rebuildFields sendingTime origTime (write.fields ++ fields) encoder =
      rebuildFields sendingTime origTime fields (encoder.put write) := by
  have taken := (tryPut_accepted opened accepted).1
  cases write with
  | raw tag value =>
      have copied := unmoved ⟨tag.toNat, value⟩ List.mem_cons_self
      show rebuildFields sendingTime origTime (⟨tag.toNat, value⟩ :: fields) encoder = _
      have same : UInt32.ofNat tag.toNat = tag := UInt32.ofNat_toNat
      rw [rebuildFields, copied]
      dsimp only
      rw [same, show Encoder.tryPutRaw tag value encoder = _ from taken]
  | data lengthTag dataTag value =>
      have copied := unmoved ⟨lengthTag.toNat, decimal value.length⟩ List.mem_cons_self
      cases accepted with
      | data paired nonempty =>
          obtain ⟨error, refused⟩ := tryPutRaw_length paired (decimal value.length) encoder
          show rebuildFields sendingTime origTime
            (⟨lengthTag.toNat, decimal value.length⟩ :: ⟨dataTag.toNat, value⟩ :: fields) encoder = _
          rw [rebuildFields, copied]
          dsimp only
          rw [UInt32.ofNat_toNat, refused]
          dsimp only
          rw [UInt32.ofNat_toNat, show Encoder.tryPutData lengthTag dataTag value encoder = _ from taken]

theorem fieldsOf_cons (write : Write) (writes : List Write) :
    fieldsOf (write :: writes) = write.fields ++ fieldsOf writes := rfl

theorem fieldsOf_append (one two : List Write) : fieldsOf (one ++ two) = fieldsOf one ++ fieldsOf two := by
  unfold fieldsOf
  rw [List.map_append, List.flatten_append]

theorem bodyOf_writes (one two : List Write) : bodyOf (one ++ two) = bodyOf one ++ bodyOf two := by
  unfold bodyOf
  rw [List.map_append, List.flatten_append]

/-- A run of copied writes. -/
theorem rebuildFields_run (sendingTime origTime : Bytes) {writes : List Write} (accepted : ∀ write ∈ writes, write.Accepted)
    (unmoved : ∀ write ∈ writes, Unmoved write) {encoder : Encoder}
    (opened : encoder.frameStart = none) (fields : List FieldRef) :
    rebuildFields sendingTime origTime (fieldsOf writes ++ fields) encoder =
        rebuildFields sendingTime origTime fields (writes.foldl Encoder.put encoder) ∧
      (writes.foldl Encoder.put encoder).frameStart = none := by
  induction writes generalizing encoder with
  | nil => exact ⟨rfl, opened⟩
  | cons write writes ih =>
      have first := accepted write List.mem_cons_self
      obtain ⟨rest, stays⟩ := ih (fun other member => accepted other (List.mem_cons_of_mem _ member))
        (fun other member => unmoved other (List.mem_cons_of_mem _ member))
        (tryPut_accepted opened first).2
      refine ⟨?_, stays⟩
      rw [fieldsOf_cons, List.append_assoc,
        rebuildFields_copied first (unmoved write List.mem_cons_self) opened, rest]
      rfl

/-- The times are written anew, whatever they were. -/
theorem rebuildFields_times (possDup : Bool) (stored storedOrig : Bytes)
    (accepted : ∀ write ∈ SessionHeader.times true sendingTime origTime, write.Accepted)
    {encoder : Encoder} (opened : encoder.frameStart = none) (fields : List FieldRef) :
    rebuildFields sendingTime origTime
        (fieldsOf (SessionHeader.times possDup stored storedOrig) ++ fields) encoder =
        rebuildFields sendingTime origTime fields
          ((SessionHeader.times true sendingTime origTime).foldl Encoder.put encoder) ∧
      ((SessionHeader.times true sendingTime origTime).foldl Encoder.put encoder).frameStart = none := by
  obtain ⟨flag, one⟩ := tryPut_accepted opened (accepted (.raw 43 (ascii "Y")) (by simp [SessionHeader.times]))
  obtain ⟨sending, two⟩ := tryPut_accepted one (accepted (.raw 52 sendingTime) (by simp [SessionHeader.times]))
  obtain ⟨orig, three⟩ := tryPut_accepted two (accepted (.raw 122 origTime) (by simp [SessionHeader.times]))
  have restamped : ∀ fields, rebuildFields sendingTime origTime (⟨52, stored⟩ :: fields) encoder =
      rebuildFields sendingTime origTime fields
        ((SessionHeader.times true sendingTime origTime).foldl Encoder.put encoder) := by
    intro fields
    rw [rebuildFields]
    show (do
      Encoder.tryPutRaw 43 (ascii "Y")
      Encoder.tryPutRaw 52 sendingTime
      Encoder.tryPutRaw 122 origTime
      rebuildFields sendingTime origTime fields : Encode Unit) encoder = _
    simp only [Encoder.tryPut] at flag sending orig
    simp only [bind_apply, flag, sending, orig]
    rfl
  refine ⟨?_, three⟩
  cases possDup with
  | false => exact restamped fields
  | true =>
      show rebuildFields sendingTime origTime
        (⟨43, ascii "Y"⟩ :: ⟨52, stored⟩ :: ⟨122, storedOrig⟩ :: fields) encoder = _
      rw [rebuildFields]
      show rebuildFields sendingTime origTime (⟨52, stored⟩ :: ⟨122, storedOrig⟩ :: fields) encoder = _
      rw [restamped, rebuildFields]
      rfl

end Rebuild

/-! ## One resend -/

/-- The writes of a message with its times. -/
def aroundTimes (front rest : List Write) (possDup : Bool) (sendingTime origTime : Bytes) : List Write :=
  front ++ (SessionHeader.times possDup sendingTime origTime ++ rest)

theorem isUtf8_timestamp {len : Nat} {text : Bytes} (written : TimestampText len text) :
    isUtf8 text = true := by
  refine isUtf8_of_ascii fun byte member => ?_
  have legal := written.legal byte member
  simp only [isTimestampByte, isAsciiDigit, Bool.or_eq_true, Bool.and_eq_true, decide_eq_true_eq,
    beq_iff_eq] at legal
  rcases legal with ((digit | rfl) | rfl) | rfl
  · exact UInt8.lt_of_le_of_lt digit.2 (by decide)
  · decide
  · decide
  · decide

/-- A text of the session's precision is narrow already. -/
theorem SendingTimePrecision.narrow_eq {precision : SendingTimePrecision} {text : Bytes}
    (written : TimestampText precision.width text) : precision.narrow text = text := by
  cases precision with
  | millis => rfl
  | seconds =>
      have short : text[WHOLE_SECONDS_LEN]? = none := by
        rw [List.getElem?_eq_none_iff]
        exact written.length.le
      unfold narrow
      dsimp only
      rw [short]
      exact if_neg fun whole => nomatch whole.1

theorem width_text {precision : SendingTimePrecision} {text : Bytes}
    (written : TimestampText precision.width text) : text ≠ [] ∧ SOH ∉ text := by
  refine ⟨?_, written.clean⟩
  rintro rfl
  have none := written.length
  cases precision <;> cases none

/-- A tag that is not copied is not found among copied fields. -/
theorem find_unmoved {tag : Nat} (moved : replayField tag ≠ .copied) {writes : List Write}
    (unmoved : ∀ write ∈ writes, Unmoved write) (more : List FieldRef) :
    (fieldsOf writes ++ more).find? (fun field => field.tag == tag) =
      more.find? fun field => field.tag == tag := by
  rw [List.find?_append]
  have absent : (fieldsOf writes).find? (fun field => field.tag == tag) = none := by
    rw [List.find?_eq_none]
    intro field member same
    obtain ⟨fields, among, inside⟩ := List.mem_flatten.mp member
    obtain ⟨write, written, rfl⟩ := List.mem_map.mp among
    have copied := unmoved write written field inside
    rw [beq_iff_eq.mp same] at copied
    exact moved copied
  rw [absent, Option.none_or]

section Once

variable {beginString frame : Bytes} {front rest : List Write} {possDup : Bool}
  {stored storedOrig orig : Bytes} {precision : SendingTimePrecision}

/-- The times a rebuild reads. -/
theorem getFieldStr_times {message : RawMessage} {digits : Bytes}
    (fields : message.fields = headerFields beginString digits ++
      fieldsOf (aroundTimes front rest possDup stored storedOrig))
    (frontUnmoved : ∀ write ∈ front, Unmoved write) (restUnmoved : ∀ write ∈ rest, Unmoved write)
    (storedText : isUtf8 stored = true) (origText : isUtf8 storedOrig = true) :
    getFieldStr message 52 = some stored ∧
      getFieldStr message 122 = if possDup then some storedOrig else none := by
  have none_left : ∀ {tag : Nat}, replayField tag ≠ .copied →
      (fieldsOf rest).find? (fun field => field.tag == tag) = none := by
    intro tag moved
    have found := find_unmoved moved restUnmoved []
    rwa [List.append_nil] at found
  have skip : ∀ {tag : Nat}, tag ≠ 8 → tag ≠ 9 → replayField tag ≠ .copied →
      message.fields.find? (fun field => field.tag == tag) =
        (fieldsOf (SessionHeader.times possDup stored storedOrig) ++ fieldsOf rest).find?
          fun field => field.tag == tag := by
    intro tag notBegin notLength moved
    rw [fields, aroundTimes, fieldsOf_append, fieldsOf_append]
    show List.find? _ (⟨8, beginString⟩ :: ⟨9, digits⟩ :: (fieldsOf front ++ _)) = _
    rw [List.find?_cons_of_neg (by simpa using notBegin.symm),
      List.find?_cons_of_neg (by simpa using notLength.symm), find_unmoved moved frontUnmoved]
  unfold getFieldStr getField
  rw [skip (by decide) (by decide) (by decide), skip (by decide) (by decide) (by decide)]
  cases possDup with
  | false =>
      refine ⟨?_, ?_⟩
      · show (if isUtf8 stored = true then some stored else none) = some stored
        exact if_pos storedText
      · show (List.find? _ (⟨52, stored⟩ :: fieldsOf rest)).bind _ = none
        have gone : ((⟨52, stored⟩ : FieldRef) :: fieldsOf rest).find? (fun field => field.tag == 122) =
            none := none_left (by decide)
        rw [gone]
        rfl
  | true =>
      refine ⟨?_, ?_⟩
      · show (if isUtf8 stored = true then some stored else none) = some stored
        exact if_pos storedText
      · show (if isUtf8 storedOrig = true then some storedOrig else none) = some storedOrig
        exact if_pos origText

/-- A message keeps its MsgType in front. -/
theorem aroundTimes_first
    (first : (aroundTimes front rest possDup stored storedOrig).head?.map Write.firstTag = some 35) (again againOrig : Bytes) :
    (aroundTimes front rest true again againOrig).head?.map Write.firstTag = some 35 := by
  cases front with
  | cons write front => exact first
  | nil =>
      cases possDup with
      | false => cases first
      | true => cases first

/-- A frame is rebuilt with its times written anew. -/
theorem resendFrame_times
    (written : Encoder.Written beginString (aroundTimes front rest possDup stored storedOrig) frame)
    (countable : (bodyOf (aroundTimes front rest possDup stored storedOrig)).length < 10 ^ MAX_LENGTH_DIGITS)
    (frontUnmoved : ∀ write ∈ front, Unmoved write) (restUnmoved : ∀ write ∈ rest, Unmoved write)
    (storedText : TimestampText precision.width stored)
    (storedOrigText : TimestampText precision.width storedOrig)
    (isOrig : orig = if possDup then storedOrig else stored) (calendar : Calendar) (now : Timestamp)
    (room : (bodyOf (aroundTimes front rest true (precision.formatted calendar now) orig)).length ≤
      usizeMax) :
    ∃ resent, resendFrame calendar now precision frame = .ok resent ∧
      Encoder.Written beginString (aroundTimes front rest true (precision.formatted calendar now) orig)
        resent := by
  have origText : TimestampText precision.width orig := by
    rw [isOrig]
    split
    · exact storedOrigText
    · exact storedText
  have accepted : ∀ write ∈ aroundTimes front rest true (precision.formatted calendar now) orig,
      write.Accepted := by
    intro write member
    rcases List.mem_append.mp member with before | member
    · exact written.accepted write (List.mem_append_left _ before)
    · rcases List.mem_append.mp member with around | after
      · have nowText := width_text (precision.formatted_writes calendar now)
        have originalText := width_text origText
        exact SessionHeader.times_accepted true nowText.1 nowText.2 originalText.1 originalText.2
          write around
      · exact written.accepted write (List.mem_append_right _ (List.mem_append_right _ after))
  have resent : Encoder.Written beginString
      (aroundTimes front rest true (precision.formatted calendar now) orig)
      (Encoder.frameOf beginString
        (bodyOf (aroundTimes front rest true (precision.formatted calendar now) orig))) :=
    ⟨written.nonempty, written.legal, written.bounded, accepted,
      aroundTimes_first written.first _ _, room, rfl⟩
  refine ⟨_, ?_, resent⟩
  obtain ⟨message, last, -, -, decoded, begins, fields⟩ := decodeFrame_written written countable
  obtain ⟨sending, original⟩ := getFieldStr_times fields frontUnmoved restUnmoved
    (isUtf8_timestamp storedText) (isUtf8_timestamp storedOrigText)
  have narrowed : precision.narrow (origSendingTime (getFieldStr message 122) stored) = orig := by
    have same : origSendingTime (getFieldStr message 122) stored = orig := by
      rw [original, isOrig]
      cases possDup <;> rfl
    rw [same]
    exact precision.narrow_eq origText
  -- the framing fields are dropped, and the rest is written again
  have opened : (Encoder.new beginString).frameStart = none := (Encoder.new_blank beginString).2.2.2.1
  obtain ⟨first, one⟩ := rebuildFields_run (precision.formatted calendar now) orig (fun write member => accepted write (List.mem_append_left _ member)) frontUnmoved
    opened (fieldsOf (SessionHeader.times possDup stored storedOrig) ++ fieldsOf rest)
  obtain ⟨second, two⟩ := rebuildFields_times possDup stored storedOrig
    (fun write member => accepted write (List.mem_append_right _ (List.mem_append_left _ member))) one
    (fieldsOf rest)
  obtain ⟨third, -⟩ := rebuildFields_run (precision.formatted calendar now) orig
    (fun write member => accepted write (List.mem_append_right _ (List.mem_append_right _ member)))
    restUnmoved two []
  have rebuilt : rebuildFields (precision.formatted calendar now) orig message.fields
      (Encoder.new beginString) =
      .ok () ((aroundTimes front rest true (precision.formatted calendar now) orig).foldl Encoder.put
        (Encoder.new beginString)) := by
    rw [fields, aroundTimes, fieldsOf_append, fieldsOf_append]
    show rebuildFields _ _ (⟨8, beginString⟩ :: ⟨9, _⟩ :: (fieldsOf front ++ _)) _ = _
    rw [rebuildFields]
    show rebuildFields _ _ (⟨9, _⟩ :: (fieldsOf front ++ _)) _ = _
    rw [rebuildFields]
    show rebuildFields _ _ (fieldsOf front ++ _) _ = _
    rw [first, second]
    rw [List.append_nil] at third
    rw [third, aroundTimes, List.foldl_append, List.foldl_append]
    rfl
  have encoded := Encoder.encode_of_written resent
  unfold Encoder.encode at encoded
  unfold resendFrame
  simp only [decoded, Except.mapError, begins, sending, okOr_some, narrowed, rebuilt, bind, Except.bind]
  cases finished : Encoder.finish
      ((aroundTimes front rest true (precision.formatted calendar now) orig).foldl Encoder.put
        (Encoder.new beginString)) with
  | ok bytes after =>
      rw [finished] at encoded
      exact congrArg Except.ok (Except.ok.inj encoded)
  | error error after =>
      rw [finished] at encoded
      cases encoded

/-! ## Any number of resends -/

theorem raw_bytes_length (tag : UInt32) (value : Bytes) :
    (bodyOf [.raw tag value]).length = (decimal tag.toNat).length + value.length + 2 := by
  simp [bodyOf, Write.bytes, Write.fields, Write.canonical, fieldBytes_length]

/-- How long the times are. -/
def timesLength (possDup : Bool) (sendingTime origTime : Bytes) : Nat :=
  if possDup then sendingTime.length + origTime.length + 14 else sendingTime.length + 4

theorem times_length (possDup : Bool) (sendingTime origTime : Bytes) :
    (bodyOf (SessionHeader.times possDup sendingTime origTime)).length =
      timesLength possDup sendingTime origTime := by
  have flag : (decimal (43 : UInt32).toNat).length = 2 := by decide +kernel
  have sending : (decimal (52 : UInt32).toNat).length = 2 := by decide +kernel
  have orig : (decimal (122 : UInt32).toNat).length = 3 := by decide +kernel
  cases possDup with
  | false =>
      show (bodyOf [.raw 52 sendingTime]).length = sendingTime.length + 4
      rw [raw_bytes_length, sending]
      omega
  | true =>
      show (bodyOf ([.raw 43 (ascii "Y")] ++ ([.raw 52 sendingTime] ++ [.raw 122 origTime]))).length =
        sendingTime.length + origTime.length + 14
      have yes : (ascii "Y").length = 1 := rfl
      rw [bodyOf_writes, bodyOf_writes, List.length_append, List.length_append, raw_bytes_length,
        raw_bytes_length, raw_bytes_length, flag, sending, orig, yes]
      omega

theorem aroundTimes_length (front rest : List Write) (possDup : Bool) (sendingTime origTime : Bytes) :
    (bodyOf (aroundTimes front rest possDup sendingTime origTime)).length =
      (bodyOf front).length + timesLength possDup sendingTime origTime + (bodyOf rest).length := by
  rw [aroundTimes, bodyOf_writes, bodyOf_writes, List.length_append, List.length_append, times_length,
    Nat.add_assoc]

/-- The frame is rebuilt at each reading of the clock, every time from the last one. -/
def resends (calendar : Calendar) (precision : SendingTimePrecision) (frame : Bytes)
    (clock : List Timestamp) : Except ResendError Bytes :=
  clock.foldlM (fun stored now => resendFrame calendar now precision stored) frame

/-- Every resend has the first sending time, and the last one its own. -/
theorem resends_times (calendar : Calendar) (clock : List Timestamp) (now : Timestamp)
    (written : Encoder.Written beginString (aroundTimes front rest possDup stored storedOrig) frame)
    (frontUnmoved : ∀ write ∈ front, Unmoved write) (restUnmoved : ∀ write ∈ rest, Unmoved write)
    (storedText : TimestampText precision.width stored)
    (storedOrigText : TimestampText precision.width storedOrig)
    (isOrig : orig = if possDup then storedOrig else stored)
    (countable : (bodyOf front).length + (2 * precision.width + 14) + (bodyOf rest).length <
      10 ^ MAX_LENGTH_DIGITS) :
    ∃ resent, resends calendar precision frame (clock ++ [now]) = .ok resent ∧
      Encoder.Written beginString (aroundTimes front rest true (precision.formatted calendar now) orig)
        resent := by
  have origText : TimestampText precision.width orig := by
    rw [isOrig]
    split
    · exact storedOrigText
    · exact storedText
  have again : ∀ now, (bodyOf (aroundTimes front rest true (precision.formatted calendar now) orig)).length <
      10 ^ MAX_LENGTH_DIGITS := by
    intro now
    have nowText := precision.formatted_writes calendar now
    rw [aroundTimes_length, timesLength, if_pos rfl, nowText.length, origText.length, ← Nat.two_mul]
    exact countable
  have before : (bodyOf (aroundTimes front rest possDup stored storedOrig)).length <
      10 ^ MAX_LENGTH_DIGITS := by
    refine lt_of_le_of_lt ?_ countable
    rw [aroundTimes_length, timesLength, storedText.length, storedOrigText.length]
    split <;> omega
  have room : ∀ now,
      (bodyOf (aroundTimes front rest true (precision.formatted calendar now) orig)).length ≤ usizeMax :=
    fun now => (again now).le.trans (by decide)
  induction clock generalizing frame possDup stored storedOrig with
  | nil =>
      obtain ⟨resent, rebuilt, result⟩ := resendFrame_times written before frontUnmoved restUnmoved
        storedText storedOrigText isOrig calendar now (room now)
      refine ⟨resent, ?_, result⟩
      show (resendFrame calendar now precision frame >>= pure) = _
      rw [rebuilt]
      rfl
  | cons first clock ih =>
      obtain ⟨next, rebuilt, result⟩ := resendFrame_times written before frontUnmoved restUnmoved
        storedText storedOrigText isOrig calendar first (room first)
      obtain ⟨resent, rest, final⟩ := ih result (precision.formatted_writes calendar first) origText rfl
        (again first)
      refine ⟨resent, ?_, final⟩
      show (resendFrame calendar first precision frame >>= fun next =>
        resends calendar precision next (clock ++ [now])) = _
      rw [rebuilt]
      exact rest

end Once

/-! ## The message in every resend -/

variable {factory : MessageFactory} {calendar : Calendar} {sent : Timestamp} {seq : UInt64}
  {message : OutboundMessage} {frame : Bytes}

theorem opening_unmoved (header : SessionHeader) (seq : UInt64) (msgType : MsgType) :
    ∀ write ∈ header.opening seq msgType, Unmoved write := by
  have all : ∀ tag ∈ SessionHeader.OPENING_TAGS, replayField tag.toNat = .copied :=
    List.forall_iff_forall_mem.mp (by decide)
  intro write member field inside
  obtain ⟨tag, value, rfl, listed⟩ := header.opening_raw seq msgType write member
  rw [List.mem_singleton.mp inside]
  exact all tag listed

theorem copied_of_free {tag : UInt32} (free : Free tag) : replayField tag.toNat = .copied := by
  have unreserved := (free_toNat free).2
  have other : ∀ reserved ∈ RESERVED_TAGS.map UInt32.toNat, tag.toNat ≠ reserved :=
    fun reserved listed same => unreserved (same ▸ listed)
  unfold replayField
  rw [if_neg, if_neg, if_neg]
  · exact other 52 (by decide)
  · rintro (same | same)
    · exact other 43 (by decide) same
    · exact other 122 (by decide) same
  · rintro (same | same)
    · exact other 8 (by decide) same
    · exact other 9 (by decide) same

theorem body_unmoved (checked : checkBody message = .ok ()) :
    ∀ write ∈ message.fields.map OutboundField.toWrite, Unmoved write := by
  intro write member
  obtain ⟨field, listed, rfl⟩ := List.mem_map.mp member
  have passed := passed_of_checkBody checked field listed
  intro written inside
  cases field with
  | raw tag value =>
      rw [List.mem_singleton.mp inside]
      exact copied_of_free (passed.free tag List.mem_cons_self)
  | data lengthTag dataTag value =>
      rcases List.mem_cons.mp inside with rfl | inside
      · exact copied_of_free (passed.free lengthTag List.mem_cons_self)
      · rw [List.mem_singleton.mp inside]
        exact copied_of_free (passed.free dataTag (List.mem_cons_of_mem _ List.mem_cons_self))

/-- The writes of an application message, around its times. -/
theorem application_writes (factory : MessageFactory) (calendar : Calendar) (sent : Timestamp)
    (seq : UInt64) (message : OutboundMessage) (unused : Bytes) :
    factory.writes calendar sent seq (.application message) =
      aroundTimes (factory.opening seq message.msgType) (message.fields.map OutboundField.toWrite) false
        (factory.precision.formatted calendar sent) unused := by
  unfold SessionHeader.writes SessionHeader.stamped aroundTimes
  rw [List.append_assoc]
  rfl

/-- An order whose Text (58) is `n` bytes. -/
def longOrder (n : Nat) : PendingMessage := orderOf [.raw 58 (List.replicate n 0x41)]

theorem longOrder_checked {n : Nat} (positive : 0 < n) : checkBody (longOrder n).message = .ok () := by
  have nonempty : List.replicate n (0x41 : UInt8) ≠ [] := by
    rw [ne_eq, List.replicate_eq_nil_iff]
    exact Nat.ne_of_gt positive
  have clean : (List.replicate n (0x41 : UInt8)).contains SOH = false := by
    rw [← Bool.not_eq_true, List.contains_iff_mem]
    intro member
    exact absurd (List.eq_of_mem_replicate member) (by decide)
  have field : checkField (.raw 58 (List.replicate n 0x41)) = .ok () := by
    show (if List.replicate n (0x41 : UInt8) = [] then _
      else if (List.replicate n (0x41 : UInt8)).contains SOH = true then _ else Except.ok ()) = _
    rw [if_neg nonempty, if_neg (by rw [clean]; exact Bool.false_ne_true)]
  show ((do checkField (.raw 58 (List.replicate n 0x41)); pure ()) >>= fun _ => Except.ok ()) = _
  rw [field]
  rfl

theorem longOrder_length (n : Nat) :
    (bodyOf (quoting.writes atEpoch .EPOCH 7 (longOrder n))).length =
      (bodyOf (quoting.stamped atEpoch .EPOCH 7 (orderOf []))).length + n + 4 := by
  have tag : (decimal (58 : UInt32).toNat).length = 2 := by decide +kernel
  show (bodyOf (_ ++ [.raw 58 (List.replicate n 0x41)])).length = _
  rw [bodyOf_writes, List.length_append, raw_bytes_length, tag, List.length_replicate]
  show _ = (bodyOf (quoting.stamped atEpoch .EPOCH 7 (longOrder n))).length + n + 4
  omega

/-- From 10^10 bytes on, a message is framed and its frame is not rebuilt. -/
theorem longOrder_unresent {n : Nat} (long : 10 ^ MAX_LENGTH_DIGITS ≤ n) (small : n < 10 ^ 19) :
    checkBody (longOrder n).message = .ok () ∧
      ∃ frame, (quoting.encodeStamped atEpoch .EPOCH 7 (longOrder n)).1 = .ok (frame, .EPOCH) ∧
        resendFrame atEpoch .EPOCH .millis frame = .error (.decode .invalidBodyLength) := by
  have checked : checkBody (longOrder n).message = .ok () :=
    longOrder_checked (lt_of_lt_of_le (by decide) long)
  have header : (bodyOf (quoting.stamped atEpoch .EPOCH 7 (orderOf []))).length ≤ 100 := by
    decide +kernel
  have length := longOrder_length n
  have framable : ∃ frame, (quoting.encodeStamped atEpoch .EPOCH 7 (longOrder n)).1 =
      .ok (frame, .EPOCH) := by
    refine (encodeStamped_iff quoting_legal checked).mpr ⟨?_, ?_⟩
    · intro field member
      rw [List.mem_singleton.mp member]
      exact ⟨by decide, by decide⟩
    · rw [length, usizeMax]
      omega
  obtain ⟨frame, framed⟩ := framable
  have written := (encodeStamped_written framed).2
  have digits : (decimal (bodyOf (quoting.writes atEpoch .EPOCH 7 (longOrder n))).length).length ≤ 20 :=
    (decimal_length_le_iff (by decide)).mpr (lt_of_le_of_lt written.room (by decide))
  have room : frame.length ≤ usizeMax := by
    have version := written.bounded
    rw [written.frame, Encoder.frameOf_length]
    simp only [BEGIN_STRING_MAX_LEN, usizeMax] at version ⊢
    omega
  obtain ⟨last, refused⟩ := Decoder.decode_uncounted_as false written (by omega) room
  refine ⟨checked, frame, framed, ?_⟩
  unfold resendFrame decodeFrame
  rw [refused]
  rfl

end IronFix.Engine
