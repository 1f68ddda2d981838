import IronFix.TagValue.FieldIndex

/-!
# Decoding into an index

`decode` and `decodeInto` on the same decoder: their loops run in step until the
index is full, and where both end, they end as one.
-/

namespace IronFix.TagValue

open Lib.Slice Lib.Decimal Lib.Steps

namespace Decoder

variable {s after : Decoder} {limit : Option Nat} {base : Nat}

/-! ## The loops in step -/

/-- The CheckSum stands behind the fields and is read last; the other fields are
those the loop met. -/
theorem collectFields_onward (room : s.input.length ≤ usizeMax) (inside : s.offset ≤ s.input.length)
    {fuel start : Nat} {fields : List FieldRef} {collected : Collected}
    (ends : collectFields limit fuel fields start s = .ok collected after) :
    collected.fields.length = fields.length + metFields limit fuel s ∧
      after.input = s.input ∧ s.offset ≤ after.offset ∧
      (collected.checksum ≠ none →
        s.offset ≤ collected.checksumStart ∧ collected.checksumStart < after.offset) := by
  induction fuel generalizing s fields with
  | zero =>
      cases ends
      exact ⟨rfl, rfl, le_refl _, fun found => absurd rfl found⟩
  | succ fuel ih =>
      obtain ⟨found, reached, read, rest⟩ := bind_eq_ok.mp (get_bind_eq_ok.mp ends)
      unfold metFields
      rw [read]
      cases found with
      | none =>
          cases rest
          cases reads room inside limit with
          | nothing _ result =>
              rw [result] at read
              cases read
              exact ⟨rfl, rfl, le_refl _, fun found => absurd rfl found⟩
          | fails _ _ result =>
              rw [result] at read
              cases read
          | field _ _ _ _ _ _ _ result =>
              rw [result] at read
              cases read
      | some field =>
          obtain ⟨input, moved, within, -⟩ := read_located room inside (le_refl _) read
          by_cases last : field.tag = 10
          · simp only [if_pos last] at rest ⊢
            cases rest
            exact ⟨rfl, input, moved.le, fun _ => ⟨le_refl _, moved⟩⟩
          · simp only [if_neg last] at rest ⊢
            obtain ⟨count, same, onward, checked⟩ :=
              ih (by rw [input]; exact room) (by rw [input]; exact within) rest
            refine ⟨?_, same.trans input, moved.le.trans onward, fun found => ?_⟩
            · rw [count, List.length_append, List.length_singleton]
              omega
            · exact ⟨moved.le.trans (checked found).1, (checked found).2⟩

/-- One pass of the loop of `decode`. -/
theorem collectFields_succ (limit : Option Nat) (fuel start : Nat) (fields : List FieldRef)
    (s : Decoder) :
    collectFields limit (fuel + 1) fields start s =
      match nextFieldBounded limit s with
      | .ok none after => .ok ⟨fields, none, start⟩ after
      | .ok (some field) after =>
          if field.tag = 10 then .ok ⟨fields, some field, s.offset⟩ after
          else collectFields limit fuel (fields ++ [field]) start after
      | .error error after => .error error after := by
  conv_lhs => unfold collectFields
  simp only [bind_apply, get_apply]
  cases nextFieldBounded limit s with
  | error error after => rfl
  | ok found after =>
      cases found with
      | none => rfl
      | some field =>
          dsimp only
          split <;> rfl

/-- One pass of the loop into the index. -/
theorem indexFields_succ (base : Nat) (limit : Option Nat) (fuel start : Nat) (s : Decoder)
    (index : FieldIndex) :
    indexFields base limit (fuel + 1) start (s, index) =
      match nextFieldBounded limit s with
      | .ok none after => .ok (none, start) (after, index)
      | .ok (some field) after =>
          if field.tag = 10 then .ok (some field, s.offset) (after, index)
          else (do
            pushSpan field (after.valueRange base field.value.length)
            indexFields base limit fuel start : Indexing (Option FieldRef × Nat)) (after, index)
      | .error error after => .error error (after, index) := by
  conv_lhs => unfold indexFields
  simp only [bind_apply, get_apply, alone_apply]
  cases nextFieldBounded limit s with
  | error error after => rfl
  | ok found after =>
      cases found with
      | none => rfl
      | some field =>
          dsimp only
          split <;> rfl

/-- How the two loops end on one decoder: together, or the index is full first. -/
inductive LoopsEnd (input : Bytes) (base : Nat) (index : FieldIndex) (met : Nat)
    (collects : EStateM.Result DecodeError Decoder Collected)
    (indexes : EStateM.Result DecodeError (Decoder × FieldIndex) (Option FieldRef × Nat)) : Prop
  | failed (error : DecodeError) (after : Decoder) (filled : FieldIndex)
      (fits : index.spans.length + met ≤ index.capacity)
      (collected : collects = .error error after)
      (indexed : indexes = .error error (after, filled))
  | ended (result : Collected) (after : Decoder) (filled : FieldIndex)
      (fits : index.spans.length + met ≤ index.capacity)
      (collected : collects = .ok result after)
      (indexed : indexes = .ok (result.checksum, result.checksumStart) (after, filled))
      (located : List.Forall₂ (Located input base after.offset) result.fields filled.spans)
  | full (after : Decoder) (filled : FieldIndex)
      (exceeds : index.capacity < index.spans.length + met)
      (indexed : indexes = .error (.tooManyFields index.capacity) (after, filled))
      (count : filled.spans.length = index.capacity)
      (short : ∀ result last, collects = .ok result last → result.checksum ≠ none →
        after.offset < last.offset)

/-- The loops run in step while the index has room. -/
theorem loops_end (room : s.input.length ≤ usizeMax) (inside : s.offset ≤ s.input.length)
    (onward : base ≤ s.offset) (fuel start : Nat) {fields : List FieldRef} {index : FieldIndex}
    (fits : index.spans.length ≤ index.capacity)
    (located : List.Forall₂ (Located s.input base s.offset) fields index.spans) :
    LoopsEnd s.input base index (metFields limit fuel s)
      (collectFields limit fuel fields start s)
      (indexFields base limit fuel start (s, index)) := by
  induction fuel generalizing s fields index with
  | zero => exact .ended ⟨fields, none, start⟩ s index fits rfl rfl located
  | succ fuel ih =>
      rw [collectFields_succ, indexFields_succ]
      unfold metFields
      cases read : nextFieldBounded limit s with
      | error error after => exact .failed error after index fits rfl rfl
      | ok found after =>
          cases found with
          | none =>
              cases reads room inside limit with
              | nothing _ result =>
                  rw [result] at read
                  cases read
                  exact .ended ⟨fields, none, start⟩ s index fits rfl rfl located
              | fails _ _ result =>
                  rw [result] at read
                  cases read
              | field _ _ _ _ _ _ _ result =>
                  rw [result] at read
                  cases read
          | some field =>
              obtain ⟨input, moved, within, range, lies, found⟩ := read_located room inside onward read
              have later : List.Forall₂ (Located s.input base after.offset) fields index.spans :=
                located.imp fun _ _ place => place.later moved.le
              dsimp only
              by_cases last : field.tag = 10
              · simp only [if_pos last]
                exact .ended ⟨fields, some field, s.offset⟩ after index fits rfl rfl later
              · simp only [if_neg last, bind_apply, lies, pushSpan_apply]
                by_cases full : index.capacity ≤ index.spans.length
                · have refused : index.push field.tag range =
                      .error (.tooManyFields index.capacity) := if_pos full
                  rw [refused]
                  refine .full after index (by omega) rfl (le_antisymm fits full) ?_
                  intro result last ends checked
                  obtain ⟨-, -, -, behind⟩ := collectFields_onward (by rw [input]; exact room)
                    (by rw [input]; exact within) ends
                  exact (behind checked).1.trans_lt (behind checked).2
                · have taken : index.push field.tag range =
                      .ok { index with spans := index.spans ++ [⟨field.tag, range⟩] } := if_neg full
                  rw [taken]
                  have more : List.Forall₂ (Located s.input base after.offset) (fields ++ [field])
                      (index.spans ++ [⟨field.tag, range⟩]) :=
                    List.rel_append later (.cons found .nil)
                  have rest : LoopsEnd after.input base
                      { index with spans := index.spans ++ [⟨field.tag, range⟩] }
                      (metFields limit fuel after)
                      (collectFields limit fuel (fields ++ [field]) start after)
                      (indexFields base limit fuel start
                        (after, { index with spans := index.spans ++ [⟨field.tag, range⟩] })) :=
                    ih (by rw [input]; exact room) (by rw [input]; exact within)
                      (onward.trans moved.le)
                      (by simp only [List.length_append, List.length_singleton]; omega)
                      (by rw [input]; exact more)
                  rw [input] at rest
                  have count : ∀ met, (index.spans ++ [(⟨field.tag, range⟩ : FieldSpan)]).length + met =
                      index.spans.length + (met + 1) := by
                    intro met
                    rw [List.length_append, List.length_singleton]
                    omega
                  cases rest with
                  | failed error after filled fits collected indexed =>
                      exact .failed error after filled (by rw [← count]; exact fits) collected indexed
                  | ended result after filled fits collected indexed located =>
                      exact .ended result after filled (by rw [← count]; exact fits) collected indexed
                        located
                  | full after filled exceeds indexed full short =>
                      exact .full after filled (by rw [← count]; exact exceeds) indexed full short

/-! ## The errors of `decode` -/

/-- `decode` collects into a list, which is never full. -/
def Unfilled (error : DecodeError) : Prop := ∀ capacity, error ≠ .tooManyFields capacity

theorem valueLength_unfilled {offset tag valueStart : Nat} {bytes : Bytes}
    {counted limit : Option Nat} {error : DecodeError}
    (fails : valueLength offset tag valueStart bytes counted limit = .error error) :
    Unfilled error := by
  unfold valueLength at fails
  cases counted with
  | none =>
      obtain ⟨-, rfl⟩ := okOr_eq_error.mp fails
      exact nofun
  | some declared =>
      dsimp only at fails
      cases start : checkedAdd usizeMax offset valueStart with
      | none =>
          simp only [start, okOr_none, bind, Except.bind] at fails
          cases fails
          exact nofun
      | some valueOffset =>
          simp only [start, okOr_some, bind, Except.bind] at fails
          cases limit with
          | none =>
              dsimp only at fails
              split_ifs at fails
              cases fails
              exact nofun
          | some stop =>
              dsimp only at fails
              split_ifs at fails
              all_goals
                cases fails
                exact nofun

theorem rebase_unfilled {span : Span} {messageStart bufferLen : Nat} {error : DecodeError}
    (fails : rebase span messageStart bufferLen = .error error) : Unfilled error := by
  unfold rebase at fails
  dsimp only at fails
  split_ifs at fails
  all_goals
    cases fails
    exact nofun

theorem valueRange_unfilled {s : Decoder} {messageStart valueLen : Nat} {error : DecodeError}
    (fails : s.valueRange messageStart valueLen = .error error) : Unfilled error := by
  unfold valueRange at fails
  dsimp only at fails
  split_ifs at fails
  · cases fails
    exact nofun
  · cases fails
    exact nofun
  · exact rebase_unfilled fails

theorem nextFieldBounded_unfilled (limit : Option Nat) :
    FailsWith Unfilled (nextFieldBounded limit) := by
  unfold nextFieldBounded
  refine .bind .get fun decoder => ?_
  split
  · exact .pure _
  · split
    · exact .pure _
    refine .bind (.orFail nofun _) fun eqPos => .bind (.orFail nofun _) fun tagBytes =>
      .bind (.orFail nofun _) fun tag => .bind (.orFail nofun _) fun valueStart =>
      .bind (.orFail nofun _) fun valueBytes => .bind (.set _) fun _ =>
      .bind (.orThrow fun _ => valueLength_unfilled) fun valueLen =>
      .bind (.orFail nofun _) fun value => .bind (.orFail nofun _) fun consumed =>
      .bind (.orFail nofun _) fun offset => .bind (.set _) fun _ => ?_
    split
    · exact .pure _
    · exact .bind (.orFail nofun _) fun declared => .bind (.set _) fun _ => .pure _

theorem collectFields_unfilled (limit : Option Nat) (fuel : Nat) (fields : List FieldRef)
    (start : Nat) : FailsWith Unfilled (collectFields limit fuel fields start) := by
  induction fuel generalizing fields with
  | zero => exact .pure _
  | succ fuel ih =>
      refine .bind .get fun decoder => .bind (nextFieldBounded_unfilled limit) fun found => ?_
      split
      · exact .pure _
      · split
        · exact .pure _
        · exact ih _

theorem finishFrame_unfilled (startOffset : Nat) (header : Header) (msgType : MsgType)
    (checksum : Option FieldRef) (checksumStart : Nat) :
    FailsWith Unfilled (finishFrame startOffset header msgType checksum checksumStart) := by
  unfold finishFrame
  refine .bind (.orFail nofun _) fun checksumField => .bind (.ensure nofun _) fun _ =>
    .bind .get fun decoder => .bind (.orThrow fun error fails => ?_) fun _ =>
    .bind (.orThrow fun _ => rebase_unfilled) fun body => .bind (.orFail nofun _) fun buffer =>
    .pure _
  split at fails
  · unfold verifyChecksum at fails
    cases read : parseChecksum checksumField.value with
    | none =>
        rw [read] at fails
        cases fails
        exact nofun
    | some declared =>
        rw [read] at fails
        simp only [okOr_some, bind, Except.bind] at fails
        cases cut : slice? decoder.input startOffset checksumStart with
        | none =>
            rw [cut] at fails
            cases fails
            exact nofun
        | some span =>
            rw [cut] at fails
            simp only [okOr_some] at fails
            split at fails
            · cases fails
              exact nofun
            · cases fails
  · cases fails

theorem decodeHeader_unfilled (startOffset : Nat) :
    FailsWith Unfilled (decodeHeader startOffset) := by
  unfold decodeHeader
  exact .bind (nextFieldBounded_unfilled none) fun _ => .bind (.orFail nofun _) fun _ =>
    .bind (.ensure nofun _) fun _ => .bind .get fun _ =>
    .bind (.orThrow fun _ => valueRange_unfilled) fun _ =>
    .bind (nextFieldBounded_unfilled none) fun _ => .bind (.orFail nofun _) fun _ =>
    .bind (.ensure nofun _) fun _ => .bind (.orFail nofun _) fun _ => .bind .get fun _ =>
    .bind (.orThrow fun _ => valueRange_unfilled) fun _ => .bind .get fun _ =>
    .bind (.orFail nofun _) fun _ => .pure _

theorem decodeMsgType_unfilled (limit : Option Nat) :
    FailsWith Unfilled (decodeMsgType limit) := by
  unfold decodeMsgType
  refine .bind (nextFieldBounded_unfilled limit) fun _ => .bind (.orFail nofun _) fun field =>
    .bind (.ensure nofun _) fun _ => .bind (.ensure nofun _) fun _ =>
    .bind (.orThrow fun error fails => ?_) fun _ => .pure _
  cases read : MsgType.new field.value with
  | error raw =>
      rw [read] at fails
      cases fails
      exact nofun
  | ok code =>
      rw [read] at fails
      cases fails

/-! ## The two decodes -/

/-- What a finished frame is made of. -/
theorem finishFrame_ok {header : Header} {msgType : MsgType} {checksum : Option FieldRef}
    {startOffset checksumStart : Nat} {frame : Frame}
    (ends : finishFrame startOffset header msgType checksum checksumStart s = .ok frame after) :
    after = s ∧ checksum ≠ none ∧ header.bodyEnd = checksumStart ∧
      rebase ⟨header.bodyStart, header.bodyEnd⟩ startOffset s.input.length = .ok frame.body ∧
      slice? s.input startOffset s.offset = some frame.buffer ∧
      frame.beginString = header.beginString ∧ frame.msgType = msgType := by
  obtain ⟨field, found, rest⟩ := orFail_bind_eq_ok.mp ends
  obtain ⟨same, rest⟩ := ensure_bind_eq_ok.mp rest
  obtain ⟨-, -, rest⟩ := orThrow_bind_eq_ok.mp (get_bind_eq_ok.mp rest)
  obtain ⟨body, rebased, rest⟩ := orThrow_bind_eq_ok.mp rest
  obtain ⟨buffer, cut, rest⟩ := orFail_bind_eq_ok.mp rest
  cases rest
  exact ⟨rfl, by rw [found]; exact nofun, same, rebased, cut, rfl, rfl⟩

/-- The first three spans. -/
theorem first_spans {α : Type} (first second third : FieldRef) (a b c : Span) (capacity : Nat)
    (rest : Indexing α) (s : Decoder) :
    (do
      pushSpan first (.ok a)
      pushSpan second (.ok b)
      pushSpan third (.ok c)
      rest : Indexing α) (s, ⟨[], capacity⟩) =
      if 3 ≤ capacity then
        rest (s, ⟨[⟨first.tag, a⟩, ⟨second.tag, b⟩, ⟨third.tag, c⟩], capacity⟩)
      else .error (.tooManyFields capacity)
        (s, ⟨[⟨first.tag, a⟩, ⟨second.tag, b⟩, ⟨third.tag, c⟩].take capacity, capacity⟩) := by
  match capacity with
  | 0 => rfl
  | 1 => rfl
  | 2 => rfl
  | capacity + 3 =>
      rw [if_pos (by omega)]
      simp [pushSpan_apply, FieldIndex.push]

/-- The two messages are one: the same frame, and every span resolves to the
bytes of its field. -/
structure SameMessage (message : RawMessage) (indexed : IndexedMessage) : Prop where
  buffer : indexed.buffer = message.buffer
  beginString : indexed.beginString = message.beginString
  body : indexed.body = message.body
  msgType : indexed.msgType = message.msgType
  spans : indexed.index.spans.map indexed.resolve = message.fields.map some
  fields : indexed.fields = message.fields

/-- Two decodes that end at the same offset, in the same error or the same message. -/
inductive SameEnd (decodes : EStateM.Result DecodeError Decoder RawMessage)
    (indexes : EStateM.Result DecodeError (Decoder × FieldIndex) IndexedMessage) : Prop
  | failed (error : DecodeError) (after : Decoder) (filled : FieldIndex)
      (decoded : decodes = .error error after)
      (indexed : indexes = .error error (after, filled))
  | ended (message : RawMessage) (view : IndexedMessage) (after : Decoder) (filled : FieldIndex)
      (decoded : decodes = .ok message after)
      (indexed : indexes = .ok view (after, filled))
      (same : SameMessage message view)

theorem Located.resolves {input : Bytes} {upTo : Nat} {field : FieldRef} {entry : FieldSpan}
    {view : IndexedMessage} (located : Located input base upTo field entry)
    (cut : slice? input base upTo = some view.buffer) : view.resolve entry = some field := by
  have bytes := located.bytes
  rw [← slice?_slice? cut located.within.le] at bytes
  unfold IndexedMessage.resolve
  rw [bytes, Option.map_some, located.tag]

/-- Spans that all lie in the frame resolve to the fields. -/
theorem resolves_all {input : Bytes} {upTo : Nat} {fields : List FieldRef} (view : IndexedMessage)
    (located : List.Forall₂ (Located input base upTo) fields view.index.spans)
    (cut : slice? input base upTo = some view.buffer) :
    view.index.spans.map view.resolve = fields.map some ∧ view.fields = fields := by
  have each : view.index.spans.map view.resolve = fields.map some := by
    generalize view.index.spans = spans at located
    induction located with
    | nil => rfl
    | cons place _ ih => rw [List.map_cons, List.map_cons, place.resolves cut, ih]
  refine ⟨each, ?_⟩
  calc view.index.spans.filterMap view.resolve
      = (view.index.spans.map view.resolve).filterMap id := by rw [List.filterMap_map]; rfl
    _ = (fields.map some).filterMap id := by rw [each]
    _ = fields := by rw [List.filterMap_map]; exact List.filterMap_some

/-- A field is read within the input only. -/
theorem nextField_inside {field : FieldRef}
    (read : nextFieldBounded limit s = .ok (some field) after) : s.offset ≤ s.input.length := by
  by_contra outside
  have none' : sliceFrom? s.input s.offset = none := if_neg outside
  unfold nextFieldBounded at read
  rw [bind_apply, get_apply] at read
  dsimp only at read
  rw [none'] at read
  cases read

theorem openBody_inside {header : Header} {msgTypeField : FieldRef} {msgType : MsgType}
    (opens : s.openBody = .ok (header, msgTypeField, msgType) after) :
    s.offset ≤ s.input.length := by
  obtain ⟨headed, readHeader, -⟩ := openBody_ok opens
  obtain ⟨found, first, readFirst, rest⟩ := bind_eq_ok.mp readHeader
  obtain ⟨begins, rfl, -⟩ := orFail_bind_eq_ok.mp rest
  exact nextField_inside (s := { s with pendingData := none }) readFirst

theorem decode_unfilled : FailsWith Unfilled decode := by
  unfold decode decodeFrame
  simp only [decodeBody_eq]
  unfold collectFrame
  have checked : ∀ {span : Span} {len : Nat} (error : DecodeError),
      checkRange span len = .error error → Unfilled error := by
    intro span len error fails
    unfold checkRange at fails
    split_ifs at fails
    cases fails
    exact nofun
  exact .bind (.bind .get fun s => .bind (.modify _) fun _ => .bind (decodeHeader_unfilled _)
    fun header => .bind (decodeMsgType_unfilled _) fun opening => .bind .get fun _ =>
    .bind (collectFields_unfilled _ _ _ _) fun _ => .bind (finishFrame_unfilled _ _ _ _ _) fun _ => .pure _)
    fun _ => .bind (.orThrow checked) fun _ => .bind (.orThrow checked) fun _ => .pure _

/-- Behind MsgType, a decode is its loop and the frame: the ranges it checks last
are inside the frame. -/
theorem decode_opened {opened : Decoder} {header : Header} {msgTypeField : FieldRef}
    {msgType : MsgType} {lengthRange typeRange : Span} (room : s.input.length ≤ usizeMax)
    (opens : s.openBody = .ok (header, msgTypeField, msgType) opened)
    (opening : Opened s opened header msgTypeField lengthRange typeRange) :
    decode s =
      match collectFields (some header.bodyEnd) (opened.input.length + 1)
        [header.beginStringField, header.bodyLengthField, msgTypeField] opened.offset opened with
      | .error error after => .error error after
      | .ok collected after =>
          match finishFrame s.offset header msgType collected.checksum collected.checksumStart
            after with
          | .error error after => .error error after
          | .ok frame after => .ok ⟨frame.buffer, frame.beginString, frame.body, frame.msgType,
              collected.fields⟩ after := by
  unfold decode
  simp only [bind_apply, decodeFrame_eq, opens]
  unfold collectFrame
  simp only [bind_apply, get_apply, pure_apply]
  cases collects : collectFields (some header.bodyEnd) (opened.input.length + 1)
      [header.beginStringField, header.bodyLengthField, msgTypeField] opened.offset opened with
  | error error after => rfl
  | ok collected after =>
      dsimp only
      cases finishes : finishFrame s.offset header msgType collected.checksum
          collected.checksumStart after with
      | error error after => rfl
      | ok frame after =>
          obtain ⟨rfl, checked, same, rebased, cut, begins, -⟩ := finishFrame_ok finishes
          obtain ⟨-, -, onward, behind⟩ := collectFields_onward (by rw [opening.input]; exact room)
            (by rw [opening.input]; exact opening.inside) collects
          have past := (behind checked).2
          obtain ⟨-, -, -, -, length⟩ := slice?_eq_some_iff.mp cut
          have first : checkRange frame.beginString frame.buffer.length = .ok () := by
            have within : s.offset + header.beginString.stop < opened.offset := opening.begins.within
            have ordered : header.beginString.start ≤ header.beginString.stop :=
              opening.begins.ordered
            rw [begins]
            exact if_neg (by omega)
          have second : checkRange frame.body frame.buffer.length = .ok () := by
            have start := opening.start
            have ends := opening.ends
            unfold rebase at rebased
            dsimp only at rebased
            rw [if_neg (by omega), if_neg (by omega)] at rebased
            rw [← Except.ok.inj rebased]
            refine if_neg ?_
            dsimp only
            omega
          simp only [first, second, orThrow_ok]

/-- A decode that succeeds read the CheckSum, behind every field. -/
theorem decode_opened_ok {opened last : Decoder} {header : Header} {msgTypeField : FieldRef}
    {msgType : MsgType} {lengthRange typeRange : Span} {message : RawMessage}
    (room : s.input.length ≤ usizeMax)
    (opens : s.openBody = .ok (header, msgTypeField, msgType) opened)
    (opening : Opened s opened header msgTypeField lengthRange typeRange)
    (decoded : decode s = .ok message last) :
    ∃ collected, collectFields (some header.bodyEnd) (opened.input.length + 1)
        [header.beginStringField, header.bodyLengthField, msgTypeField] opened.offset opened =
          .ok collected last ∧
      collected.checksum ≠ none ∧ message.fields = collected.fields := by
  rw [decode_opened room opens opening] at decoded
  split at decoded
  · cases decoded
  · rename_i collected after collects
    split at decoded
    · cases decoded
    · rename_i frame reached finishes
      cases decoded
      obtain ⟨rfl, checked, -⟩ := finishFrame_ok finishes
      exact ⟨collected, collects, checked, rfl⟩

/-- The decode of one message, and the decode of the same message into an index:
they end as one while the fields fit. -/
theorem decodes_end (room : s.input.length ≤ usizeMax) (index : FieldIndex) :
    (s.fieldsMet ≤ index.capacity ∧ SameEnd (decode s) (decodeInto (s, index))) ∨
      (index.capacity < s.fieldsMet ∧ ∃ after filled,
        decodeInto (s, index) = .error (.tooManyFields index.capacity) (after, filled) ∧
        filled.spans.length = index.capacity ∧
        ∀ message last, decode s = .ok message last → after.offset < last.offset) := by
  unfold decodeInto
  simp only [bind_apply, modify_apply, get_apply, pure_apply]
  unfold fieldsMet
  cases opens : s.openBody with
  | error error after =>
      refine .inl ⟨Nat.zero_le _, .failed error after index.clear ?_ ?_⟩
      · unfold decode
        simp only [bind_apply, decodeFrame_eq, opens]
      · rw [indexFrame_closed _ opens]
  | ok found opened =>
      obtain ⟨header, msgTypeField, msgType⟩ := found
      obtain ⟨lengthRange, typeRange, opening, indexes⟩ :=
        indexFrame_opened room (openBody_inside opens) index.clear opens
      have input := opening.input
      have reached : opened.offset ≤ opened.input.length := by rw [input]; exact opening.inside
      have roomed : opened.input.length ≤ usizeMax := by rw [input]; exact room
      rw [indexes, show index.clear = ⟨[], index.capacity⟩ from rfl, first_spans]
      dsimp only
      by_cases three : 3 ≤ index.capacity
      · rw [if_pos three]
        have located : List.Forall₂ (Located opened.input s.offset opened.offset)
            [header.beginStringField, header.bodyLengthField, msgTypeField]
            [⟨header.beginStringField.tag, header.beginString⟩,
              ⟨header.bodyLengthField.tag, lengthRange⟩, ⟨msgTypeField.tag, typeRange⟩] := by
          rw [input]
          exact .cons opening.begins (.cons opening.counts (.cons opening.types .nil))
        have ends : LoopsEnd opened.input s.offset
            ⟨[⟨header.beginStringField.tag, header.beginString⟩,
              ⟨header.bodyLengthField.tag, lengthRange⟩, ⟨msgTypeField.tag, typeRange⟩],
              index.capacity⟩ (metFields (some header.bodyEnd) (opened.input.length + 1) opened) _ _ :=
          loops_end roomed reached opening.onward (opened.input.length + 1) opened.offset three located
        simp only [bind_apply]
        cases ends with
        | failed error after filled fits collected indexed =>
            refine .inl ⟨fits, .failed error after filled ?_ ?_⟩
            · rw [decode_opened room opens opening, collected]
            · rw [indexed]
        | ended result after filled fits collected indexed located =>
            refine .inl ⟨fits, ?_⟩
            rw [decode_opened room opens opening, collected, indexed]
            dsimp only
            rw [alone_apply]
            cases finishes : finishFrame s.offset header msgType result.checksum
                result.checksumStart after with
            | error error after => exact .failed error after filled rfl rfl
            | ok frame last =>
                obtain ⟨rfl, -, -, -, cut, -⟩ := finishFrame_ok finishes
                obtain ⟨-, same, -⟩ := collectFields_onward roomed reached collected
                rw [same] at cut
                obtain ⟨spans, fields⟩ := resolves_all
                  ⟨frame.buffer, filled, frame.msgType, frame.beginString, frame.body⟩ located cut
                exact .ended _ _ last filled rfl rfl ⟨rfl, rfl, rfl, rfl, spans, fields⟩
        | full after filled exceeds indexed count short =>
            refine .inr ⟨exceeds, after, filled, ?_, count, ?_⟩
            · rw [indexed]
            · intro message last decoded
              obtain ⟨result, collected, checked, -⟩ := decode_opened_ok room opens opening decoded
              exact short result last collected checked
      · rw [if_neg three]
        refine .inr ⟨by omega, opened, _, rfl, ?_, ?_⟩
        · dsimp only
          rw [List.length_take, List.length_cons, List.length_cons, List.length_singleton]
          omega
        · intro message last decoded
          obtain ⟨result, collected, checked, -⟩ := decode_opened_ok room opens opening decoded
          obtain ⟨-, -, -, behind⟩ := collectFields_onward roomed reached collected
          exact (behind checked).1.trans_lt (behind checked).2

/-- The fields met by a decode that succeeds are those of its message. -/
theorem fieldsMet_decoded {message : RawMessage} (room : s.input.length ≤ usizeMax)
    (decoded : decode s = .ok message after) : s.fieldsMet = message.fields.length := by
  cases opens : s.openBody with
  | error error stopped =>
      unfold decode at decoded
      simp only [bind_apply, decodeFrame_eq, opens] at decoded
      cases decoded
  | ok found opened =>
      obtain ⟨header, msgTypeField, msgType⟩ := found
      obtain ⟨lengthRange, typeRange, opening, -⟩ :=
        indexFrame_opened room (openBody_inside opens) (.withCapacity 0) opens
      obtain ⟨collected, collects, -, fields⟩ := decode_opened_ok room opens opening decoded
      obtain ⟨count, -⟩ := collectFields_onward (by rw [opening.input]; exact room)
        (by rw [opening.input]; exact opening.inside) collects
      unfold fieldsMet
      rw [opens, fields, count]
      rfl

/-- `decode_into` is `decode`, but for the messages whose fields outnumber the
capacity: there, and only there, it fails for the index, before the end of the message. -/
theorem decodeInto_agrees (room : s.input.length ≤ usizeMax) (index : FieldIndex) :
    ((∃ capacity after, decodeInto (s, index) = .error (.tooManyFields capacity) after) ↔
        index.capacity < s.fieldsMet) ∧
      (s.fieldsMet ≤ index.capacity → SameEnd (decode s) (decodeInto (s, index))) ∧
      (index.capacity < s.fieldsMet → ∃ after filled,
        decodeInto (s, index) = .error (.tooManyFields index.capacity) (after, filled) ∧
        filled.spans.length = index.capacity ∧
        ∀ message last, decode s = .ok message last → after.offset < last.offset) ∧
      ∀ message after, decode s = .ok message after → s.fieldsMet = message.fields.length := by
  have counted : ∀ message after, decode s = .ok message after →
      s.fieldsMet = message.fields.length := fun _ _ => fieldsMet_decoded room
  rcases decodes_end room index with ⟨fits, same⟩ | ⟨exceeds, refused⟩
  · refine ⟨⟨fun ⟨capacity, after, full⟩ => ?_, fun exceeds => absurd fits (by omega)⟩,
      fun _ => same, fun exceeds => absurd fits (by omega), counted⟩
    -- `decode` has no such error
    cases same with
    | failed error stopped filled decoded indexed =>
        rw [indexed] at full
        cases full
        exact absurd rfl (decode_unfilled s _ stopped decoded capacity)
    | ended message view stopped filled decoded indexed same =>
        rw [indexed] at full
        cases full
  · refine ⟨⟨fun _ => exceeds, fun _ => ?_⟩, fun fits => absurd fits (by omega), fun _ => refused,
      counted⟩
    obtain ⟨after, filled, full, -⟩ := refused
    exact ⟨_, _, full⟩

/-- `8=A|9=5|35=0|10=057|`: three fields and the CheckSum. -/
theorem decodeInto_agrees_three :
    let decoder := Decoder.new [56, 61, 65, 1, 57, 61, 53, 1, 51, 53, 61, 48, 1, 49, 48, 61, 48, 53, 55, 1]
    (∃ capacity after, decodeInto (decoder, .withCapacity 2) = .error (.tooManyFields capacity) after) ∧
      SameEnd (decode decoder) (decodeInto (decoder, .withCapacity 3)) := by
  intro decoder
  have met : decoder.fieldsMet = 3 := by decide +kernel
  exact ⟨(decodeInto_agrees (by decide) (.withCapacity 2)).1.mpr (by rw [met]; decide),
    (decodeInto_agrees (by decide) (.withCapacity 3)).2.1 (by rw [met]; decide)⟩

/-- `8=A|9=5|`: two fields are read, but an index for one is not full: they are
put there only behind MsgType. -/
theorem decodeInto_counts_behind_msgType :
    let decoder := Decoder.new [56, 61, 65, 1, 57, 61, 53, 1]
    metFields none 9 decoder = 2 ∧
      ∃ after, decodeInto (decoder, .withCapacity 1) = .error .missingMsgType after := by
  refine ⟨by decide +kernel, ({ Decoder.new [56, 61, 65, 1, 57, 61, 53, 1] with offset := 8 },
    .withCapacity 1), by rfl⟩

end Decoder

end IronFix.TagValue
