import Mathlib.Data.List.Induction
import IronFix.TagValue.ReadBack

/-!
# Every run of an encoder

Calls come in any order. The journal keeps what the callers were told since the
last `clear`: the writes that were taken, and whether a `put_*` was rejected.
It decides what `finish` answers (`Journaled`).
-/

namespace IronFix.TagValue

open Lib.Slice Lib.Decimal Lib.Steps

namespace Encoder

/-- A `try_put_*` call. -/
def tryPut : Write → Encode Unit
  | .raw tag value => tryPutRaw tag value
  | .data lengthTag dataTag value => tryPutData lengthTag dataTag value

/-- The encoder a write leaves once it is taken. -/
def append (encoder : Encoder) : Write → Encoder
  | .raw tag value => writeField tag.toNat value encoder
  | .data lengthTag dataTag value =>
      writeField dataTag.toNat value (writeField lengthTag.toNat (decimal value.length) encoder)

theorem put_eq (encoder : Encoder) (write : Write) :
    encoder.put write = recording (tryPut write) encoder := by
  cases write <;> rfl

/-- A write is rejected without an effect, or taken. -/
theorem tryPut_cases (write : Write) (encoder : Encoder) :
    (∃ error, tryPut write encoder = .error error encoder) ∨
      (tryPut write encoder = .ok () (encoder.append write) ∧ write.Accepted) := by
  cases write with
  | raw tag value =>
      rcases tryPutRaw_cases tag value encoder with ⟨error, rejected, -⟩ | taken
      · exact .inl ⟨error, rejected⟩
      · exact .inr taken
  | data lengthTag dataTag value =>
      rcases tryPutData_cases lengthTag dataTag value encoder with ⟨error, rejected, -⟩ | taken
      · exact .inl ⟨error, rejected⟩
      · exact .inr taken

/-- A finished encoder takes nothing. -/
theorem tryPut_finished {encoder : Encoder} {start : Nat} (finished : encoder.frameStart = some start)
    (write : Write) : ∃ error, tryPut write encoder = .error error encoder := by
  have shut : ∀ tag, encoder.checkOpen tag = .error (alreadyFinished tag) := by
    intro tag
    unfold checkOpen
    rw [finished]
  cases write with
  | raw tag value =>
      refine ⟨alreadyFinished tag.toNat, ?_⟩
      simp only [tryPut, tryPutRaw, bind_apply, get_apply, shut, orThrow_error]
  | data lengthTag dataTag value =>
      refine ⟨alreadyFinished dataTag.toNat, ?_⟩
      simp only [tryPut, tryPutData, bind_apply, get_apply, shut, orThrow_error]

/-! ## Runs -/

inductive Call where
  | put (write : Write)
  | tryPut (write : Write)
  | finish
  | clear

/-- The encoder after a step, whether it failed or not. -/
def left {α : Type} : EStateM.Result EncodeError Encoder α → Encoder
  | .ok _ encoder => encoder
  | .error _ encoder => encoder

def call (encoder : Encoder) : Call → Encoder
  | .put write => encoder.put write
  | .tryPut write => left (tryPut write encoder)
  | .finish => left (finish encoder)
  | .clear => encoder.clear

/-- What was answered since the last `clear`. -/
structure Journal where
  /-- The writes that were taken, in order. -/
  accepted : List Write
  /-- A `put_*` was rejected. -/
  rejected : Bool

namespace Journal

def blank : Journal := ⟨[], false⟩

def accept (journal : Journal) (write : Write) : Journal :=
  { journal with accepted := journal.accepted ++ [write] }

/-- The answer to a call. -/
def note (journal : Journal) (encoder : Encoder) : Call → Journal
  | .put write =>
      match Encoder.tryPut write encoder with
      | .ok _ _ => journal.accept write
      | .error _ _ => { journal with rejected := true }
  | .tryPut write =>
      match Encoder.tryPut write encoder with
      | .ok _ _ => journal.accept write
      | .error _ _ => journal
  | .finish => journal
  | .clear => blank

/-- The tag of the first field. -/
def firstTag (journal : Journal) : Option Nat := journal.accepted.head?.map Write.firstTag

end Journal

/-- An encoder and its journal after some calls. -/
def run (beginString : Bytes) (calls : List Call) : Encoder × Journal :=
  calls.foldl (fun (encoder, journal) made => (encoder.call made, journal.note encoder made))
    (new beginString, .blank)

theorem run_append (beginString : Bytes) (calls : List Call) (made : Call) :
    run beginString (calls ++ [made]) =
      ((run beginString calls).1.call made,
        (run beginString calls).2.note (run beginString calls).1 made) := by
  unfold run
  rw [List.foldl_append]
  rfl

theorem run_encoder (beginString : Bytes) (calls : List Call) :
    (run beginString calls).1 = calls.foldl call (new beginString) := by
  induction calls using List.reverseRecOn with
  | nil => rfl
  | append_singleton calls made ih =>
      rw [run_append, List.foldl_append, ← ih]
      rfl

/-! ## The journal decides -/

/-- What the encoder is, by its journal. -/
inductive Stands (encoder : Encoder) (journal : Journal) : Prop
  | failed (error : encoder.error ≠ none)
      (why : journal.rejected = true ∨ usizeMax < (bodyOf journal.accepted).length)
  | opened (unrejected : journal.rejected = false)
      (holds : Holds encoder (bodyOf journal.accepted) journal.firstTag)
  | finished (gap : Bytes) (unrejected : journal.rejected = false) (clean : encoder.error = none)
      (first : journal.firstTag = some 35) (room : (bodyOf journal.accepted).length ≤ usizeMax)
      (buf : encoder.buf = gap ++ frameOf encoder.beginString (bodyOf journal.accepted))
      (start : encoder.frameStart = some gap.length)

/-- An encoder built for `beginString`, as its journal tells. -/
structure Journaled (beginString : Bytes) (encoder : Encoder) (journal : Journal) : Prop where
  version : encoder.beginString = (new beginString).beginString
  versionError : encoder.beginStringError = (new beginString).beginStringError
  accepted : ∀ write ∈ journal.accepted, write.Accepted
  stands : Stands encoder journal

variable {beginString : Bytes} {encoder : Encoder} {journal : Journal}

theorem bodyOf_append (writes : List Write) (write : Write) :
    bodyOf (writes ++ [write]) = bodyOf writes ++ write.bytes := by
  simp [bodyOf]

theorem Journal.accept_firstTag (journal : Journal) (write : Write) :
    (journal.accept write).firstTag = journal.firstTag.or (some write.firstTag) := by
  unfold firstTag accept
  cases journal.accepted <;> rfl

theorem put_taken {write : Write} (taken : tryPut write encoder = .ok () (encoder.append write)) :
    encoder.put write = encoder.append write := by
  rw [put_eq, recording, taken]

/-- A write that is taken: appended, or an overflow. -/
theorem Stands.taken (stands : Stands encoder journal) {write : Write}
    (taken : tryPut write encoder = .ok () (encoder.append write)) (accepted : write.Accepted) :
    Stands (encoder.append write) (journal.accept write) := by
  have same := put_taken taken
  cases stands with
  | failed error why =>
      refine .failed (fun clean => error ?_) ?_
      · rw [← same] at clean
        exact (put_keeps encoder write).failed clean
      · refine why.imp id fun long => long.trans_le ?_
        show _ ≤ (bodyOf (journal.accepted ++ [write])).length
        rw [bodyOf_append, List.length_append]
        exact Nat.le_add_right _ _
  | opened unrejected holds =>
      cases clean : (encoder.append write).error with
      | none =>
          refine .opened unrejected ?_
          show Holds _ (bodyOf (journal.accepted ++ [write])) _
          rw [Journal.accept_firstTag, bodyOf_append, ← same]
          rw [← same] at clean
          exact (put_holds holds write clean).2
      | some error =>
          refine .failed (by rw [clean]; exact nofun) (.inr ?_)
          show _ < (bodyOf (journal.accepted ++ [write])).length
          rw [bodyOf_append]
          by_contra room
          have fits := put_accepts holds accepted (Nat.le_of_not_lt room)
          rw [same, clean] at fits
          cases fits
  | finished gap _ _ _ _ _ start =>
      obtain ⟨error, rejected⟩ := tryPut_finished start write
      rw [rejected] at taken
      cases taken

/-- A BeginString a frame can have. -/
structure Usable (beginString : Bytes) : Prop where
  nonempty : beginString ≠ []
  bounded : beginString.length ≤ BEGIN_STRING_MAX_LEN
  legal : ∀ byte ∈ beginString, isBeginStringByte byte = true

/-- What `finish` answers: a rejection that changes nothing, or the frame of the
writes that were taken. -/
inductive Answers (beginString : Bytes) (encoder : Encoder) (journal : Journal) : Prop
  | refused (error : EncodeError) (answer : finish encoder = .error error encoder)
      (why : journal.rejected = true ∨ journal.firstTag ≠ some 35 ∨ ¬Usable beginString ∨
        usizeMax < (bodyOf journal.accepted).length)
  | framed (after : Encoder)
      (answer : finish encoder = .ok (frameOf beginString (bodyOf journal.accepted)) after)
      (unrejected : journal.rejected = false)
      (written : Written beginString journal.accepted (frameOf beginString (bodyOf journal.accepted)))
      (next : Journaled beginString after journal)

theorem Journaled.answers (journaled : Journaled beginString encoder journal) :
    Answers beginString encoder journal := by
  cases legal : (new beginString).beginStringError with
  | some error =>
      have found : encoder.firstError = some error := by
        rw [firstError, journaled.versionError, legal]
        rfl
      refine .refused error ?_ (.inr (.inr (.inl fun usable => ?_)))
      · simp only [finish, bind_apply, get_apply, found, throw_apply]
      · rw [new_legal usable.nonempty usable.bounded usable.legal] at legal
        cases legal
  | none =>
      obtain ⟨-, same, nonempty, graphic⟩ := new_holds legal
      have version : encoder.beginString = beginString := journaled.version.trans same
      have first : encoder.firstError = encoder.error := by
        rw [firstError, journaled.versionError, legal]
        rfl
      have written : journal.firstTag = some 35 → (bodyOf journal.accepted).length ≤ usizeMax →
          Written beginString journal.accepted (frameOf beginString (bodyOf journal.accepted)) :=
        fun first room =>
          ⟨nonempty, graphic, version ▸ encoder.bounded, journaled.accepted, first, room, rfl⟩
      cases journaled.stands with
      | failed error why =>
          cases found : encoder.error with
          | none => exact absurd found error
          | some error =>
              refine .refused error ?_ (why.imp id fun long => .inr (.inr long))
              simp only [finish, bind_apply, get_apply, first, found, throw_apply]
      | opened unrejected holds =>
          by_cases msgType : journal.firstTag = some 35
          · rw [msgType] at holds
            obtain ⟨gap, stamped⟩ := stamp_holds holds
            refine .framed { encoder with
                buf := gap ++ frameOf encoder.beginString (bodyOf journal.accepted)
                frameStart := some gap.length } ?_ unrejected (written msgType holds.room)
              ⟨journaled.version, journaled.versionError, journaled.accepted,
                .finished gap unrejected holds.clean msgType holds.room rfl rfl⟩
            simp only [finish, bind_apply, get_apply, first, holds.clean, holds.opened,
              Option.isNone_none, if_true, stamped, orFail_some, sliceFrom?_append, version]
          · have missing : stamp encoder = .error (.missingRequiredField 35) encoder := by
              simp only [stamp, bind_apply, get_apply, ensure_not _ (holds.firstTag ▸ msgType)]
            refine .refused (.missingRequiredField 35) ?_ (.inr (.inl msgType))
            simp only [finish, bind_apply, get_apply, first, holds.clean, holds.opened,
              Option.isNone_none, if_true, missing]
      | finished gap unrejected clean msgType room buf start =>
          refine .framed encoder ?_ unrejected (written msgType room) journaled
          simp only [finish, bind_apply, get_apply, first, clean, start, Option.isNone_some,
            Bool.false_eq_true, if_false, orFail_some, buf, sliceFrom?_append, version]

/-- A fresh encoder but for its BeginString. -/
theorem new_blank (beginString : Bytes) :
    (new beginString).buf = List.replicate HEADER_RESERVE 0 ∧ (new beginString).bodyLen = 0 ∧
      (new beginString).firstTag = none ∧ (new beginString).frameStart = none ∧
      (new beginString).error = none := by
  unfold new
  cases copyBeginString beginString with
  | ok kept => exact ⟨rfl, rfl, rfl, rfl, rfl⟩
  | error error => exact ⟨rfl, rfl, rfl, rfl, rfl⟩

/-- `clear` makes a fresh encoder. -/
theorem Journaled.clear (journaled : Journaled beginString encoder journal) :
    encoder.clear = new beginString := by
  obtain ⟨buf, bodyLen, firstTag, frameStart, error⟩ := new_blank beginString
  have version := journaled.version
  have versionError := journaled.versionError
  unfold Encoder.clear
  generalize new beginString = fresh at *
  obtain ⟨⟩ := fresh
  obtain ⟨⟩ := encoder
  simp only at *
  subst buf bodyLen firstTag frameStart error version versionError
  rfl

theorem journaled_new (beginString : Bytes) : Journaled beginString (new beginString) .blank := by
  obtain ⟨buf, bodyLen, firstTag, frameStart, error⟩ := new_blank beginString
  refine ⟨rfl, rfl, nofun, .opened rfl ⟨?_, bodyLen, firstTag, frameStart, error, Nat.zero_le _⟩⟩
  rw [buf]
  exact (List.append_nil _).symm

/-- A `put_*` that is rejected leaves its rejection behind. -/
theorem put_rejected {write : Write} {error : EncodeError}
    (rejected : tryPut write encoder = .error error encoder) : (encoder.put write).error ≠ none := by
  rw [put_eq, recording, rejected]
  exact record_error encoder error

/-- What one call keeps. -/
theorem Journaled.call (journaled : Journaled beginString encoder journal) (made : Call) :
    Journaled beginString (encoder.call made) (journal.note encoder made) := by
  have taken : ∀ {write}, tryPut write encoder = .ok () (encoder.append write) → write.Accepted →
      Journaled beginString (encoder.append write) (journal.accept write) := by
    intro write taken accepted
    have keeps := put_keeps encoder write
    rw [put_taken taken] at keeps
    refine ⟨keeps.beginString.trans journaled.version,
      keeps.beginStringError.trans journaled.versionError, ?_, journaled.stands.taken taken accepted⟩
    intro other member
    rcases List.mem_append.mp member with earlier | last
    · exact journaled.accepted other earlier
    · rw [List.mem_singleton.mp last]
      exact accepted
  cases made with
  | put write =>
      show Journaled _ (encoder.put write) _
      unfold Journal.note
      dsimp only
      rcases tryPut_cases write encoder with ⟨error, rejected⟩ | ⟨result, accepted⟩
      · have keeps := put_keeps encoder write
        rw [rejected]
        exact ⟨keeps.beginString.trans journaled.version,
          keeps.beginStringError.trans journaled.versionError, journaled.accepted,
          .failed (put_rejected rejected) (.inl rfl)⟩
      · rw [put_taken result, result]
        exact taken result accepted
  | tryPut write =>
      show Journaled _ (left (tryPut write encoder)) _
      unfold Journal.note
      dsimp only
      rcases tryPut_cases write encoder with ⟨error, rejected⟩ | ⟨result, accepted⟩
      · rw [rejected]
        exact journaled
      · rw [result]
        exact taken result accepted
  | finish =>
      show Journaled _ (left (Encoder.finish encoder)) journal
      cases journaled.answers with
      | refused error answer why =>
          rw [answer]
          exact journaled
      | framed after answer unrejected written next =>
          rw [answer]
          exact next
  | clear =>
      show Journaled _ encoder.clear .blank
      rw [journaled.clear]
      exact journaled_new beginString

/-- What every run of calls keeps. -/
theorem run_journaled (beginString : Bytes) (calls : List Call) :
    Journaled beginString (run beginString calls).1 (run beginString calls).2 := by
  induction calls using List.reverseRecOn with
  | nil => exact journaled_new beginString
  | append_singleton calls made ih =>
      rw [run_append]
      exact ih.call made

/-- No field injection: after any calls, `finish` refuses exactly what it is said to,
and otherwise a decoder reads back the writes that were taken, in order, and no
other field. A rejected `try_put_*` changes nothing, and `clear` makes a fresh encoder. -/
theorem finish_exact (beginString : Bytes) (calls : List Call) :
    ((∃ error after, finish (run beginString calls).1 = .error error after) ↔
        (run beginString calls).2.rejected = true ∨ (run beginString calls).2.firstTag ≠ some 35 ∨
          ¬Usable beginString ∨ usizeMax < (bodyOf (run beginString calls).2.accepted).length) ∧
      (∀ frame after, finish (run beginString calls).1 = .ok frame after →
        (bodyOf (run beginString calls).2.accepted).length < 10 ^ MAX_LENGTH_DIGITS →
        ∃ message last, Decoder.decode (Decoder.new frame) = .ok message last ∧
          last.offset = frame.length ∧ message.buffer = frame ∧
          message.fields = headerFields beginString
              (decimal (bodyOf (run beginString calls).2.accepted).length) ++
            fieldsOf (run beginString calls).2.accepted) ∧
      (∀ write error after, tryPut write (run beginString calls).1 = .error error after →
        after = (run beginString calls).1) ∧
      (run beginString calls).1.clear = new beginString := by
  have journaled := run_journaled beginString calls
  generalize run beginString calls = reached at *
  obtain ⟨encoder, journal⟩ := reached
  dsimp only at *
  refine ⟨?_, ?_, ?_, journaled.clear⟩
  · cases journaled.answers with
    | refused error answer why => exact ⟨fun _ => why, fun _ => ⟨error, encoder, answer⟩⟩
    | framed after answer unrejected written next =>
        refine ⟨?_, ?_⟩
        · rintro ⟨error, stopped, refused⟩
          rw [answer] at refused
          cases refused
        · rintro (rejected | msgType | unusable | long)
          · rw [unrejected] at rejected
            cases rejected
          · exact absurd written.first msgType
          · exact absurd ⟨written.nonempty, written.bounded, written.legal⟩ unusable
          · exact absurd written.room (Nat.not_le_of_lt long)
  · intro frame after finished countable
    cases journaled.answers with
    | refused error answer why =>
        rw [answer] at finished
        cases finished
    | framed after answer unrejected written next =>
        rw [answer] at finished
        cases finished
        exact Decoder.decode_written written countable
  · intro write error after failed
    rcases tryPut_cases write encoder with ⟨error, rejected⟩ | ⟨result, -⟩
    · rw [rejected] at failed
      cases failed
      rfl
    · rw [result] at failed
      cases failed

end Encoder

end IronFix.TagValue
