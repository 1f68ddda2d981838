import IronFix.Transport.Verdict

/-!
# A decode call

`decodeLoop` goes round until a pass answers. `pass` is one trip, `pass_spec`
says what a trip can do, and since every further trip consumes input the loop
ends: `decode` is total.
-/

namespace IronFix.Transport

open Lib.Slice Lib.Decimal

/-- The result of one trip round the recovery loop. -/
inductive Pass where
  | answer (result : Except CodecError (Option Bytes))
  | again

namespace FixCodec

variable {codec : FixCodec} {src : Bytes}

/-- The judgement of the start of the buffer, if a resync left one pending. -/
def judged (codec : FixCodec) (src : Bytes) : SpanVerdict × FixCodec × Bytes :=
  if codec.garbledRecovery ∧ codec.resyncState ≠ .settled then codec.judgeResyncStart src
  else (.proceed, codec, src)

/-- What the loop does with the result of a framing attempt on `before` bytes. -/
def afterAttempt (before : Nat) :
    Except CodecError (Option Bytes) × FixCodec × Bytes → Pass × FixCodec × Bytes
  | (.ok (some frame), codec, src) =>
      (.answer (.ok (some frame)), { codec with resyncState := .settled }, src)
  | (.ok none, codec, src) => (.answer (.ok none), codec, src)
  | (.error error, codec, src) =>
      if ¬codec.garbledRecovery ∨ ¬error.isRecoverable then (.answer (.error error), codec, src)
      else
        match codec.recordSkip src before error with
        | (.error error, codec, src) => (.answer (.error error), codec, src)
        | (.ok (), codec, src) => (.again, codec, src)

/-- One trip round the recovery loop. -/
def pass (codec : FixCodec) (src : Bytes) : Pass × FixCodec × Bytes :=
  match codec.judged src with
  | (.needMore, codec, src) => (.answer (.ok none), codec, src)
  | (.resynced, codec, src) => (.again, codec, src)
  | (.proceed, codec, src) => afterAttempt src.length (codec.decodeOne src)

theorem decodeLoop_succ (fuel : Nat) (codec : FixCodec) (src : Bytes) :
    decodeLoop (fuel + 1) codec src =
      match codec.pass src with
      | (.answer result, codec, src) => some (result, codec, src)
      | (.again, codec, src) => decodeLoop fuel codec src := by
  rw [decodeLoop, pass, judged]
  simp only
  rcases (if codec.garbledRecovery = true ∧ codec.resyncState ≠ .settled then
    codec.judgeResyncStart src else (.proceed, codec, src)) with ⟨verdict, judgedCodec, judgedSrc⟩
  cases verdict with
  | needMore => rfl
  | resynced => rfl
  | proceed =>
      simp only
      rcases judgedCodec.decodeOne judgedSrc with ⟨result, after, rest⟩
      rcases result with error | found
      · simp only [afterAttempt]
        split
        · rfl
        · rcases after.recordSkip rest judgedSrc.length error with ⟨recorded, counted, left⟩
          rcases recorded with error | done <;> rfl
      · cases found <;> rfl

/-- A pending resync is settled, left as it is, or carried on. -/
theorem judged_cases (codec : FixCodec) (src : Bytes) :
    (codec.judged src = (.needMore, codec, src)) ∨
    (codec.judged src = (.resynced, codec.resync src) ∧ codec.garbledRecovery = true ∧ src ≠ []) ∨
    (∃ settled, codec.judged src = (.proceed, settled, src) ∧ SameConfig settled codec ∧
      settled.garbledCount = codec.garbledCount) := by
  unfold judged
  split
  · rename_i pending
    unfold judgeResyncStart
    split
    · exact .inr (.inr ⟨codec, rfl, .refl _, rfl⟩)
    · simp only
      split
      · exact .inl rfl
      · rename_i nonempty
        split
        · exact .inr (.inr ⟨_, rfl, ⟨rfl, rfl, rfl, rfl⟩, rfl⟩)
        · exact .inl rfl
        · exact .inr (.inl ⟨rfl, pending.1, by simpa using nonempty⟩)
  · exact .inr (.inr ⟨codec, rfl, .refl _, rfl⟩)

/-- A resync leaves a suffix; in recovery mode it consumes something. -/
theorem resync_rest (codec : FixCodec) (src : Bytes) :
    ∃ gone, src = gone ++ (codec.resync src).2 ∧
      (codec.garbledRecovery = true → src ≠ [] → gone ≠ []) := by
  unfold resync
  split
  · refine ⟨_, (List.take_append_drop (recoveryResyncOffset src codec.recoveryAnchors) src).symm,
      fun _ nonempty empty => ?_⟩
    have spec := recoveryResyncOffset_spec codec.anchors_known nonempty
    have zero := congrArg List.length empty
    rw [List.length_take, List.length_nil] at zero
    have := spec.1
    have := spec.2.1
    omega
  · rename_i off
    exact ⟨_, (List.take_append_drop _ src).symm, fun on => absurd on off⟩

/-- What one trip does: it takes `gone` off the front of the buffer. -/
structure PassSpec (codec : FixCodec) (src : Bytes) (outcome : Pass) (after : FixCodec)
    (gone rest : Bytes) : Prop where
  split : src = gone ++ rest
  config : SameConfig after codec
  waits : outcome = .answer (.ok none) → gone = [] ∧ after.garbledCount = codec.garbledCount
  frames : ∀ frame, outcome = .answer (.ok (some frame)) →
    frame = gone ∧ after.garbledCount = codec.garbledCount ∧
      ∃ beginning digits body checksum, IsFrame codec frame beginning digits body checksum
  skips : outcome = .again → codec.garbledRecovery = true ∧ gone ≠ [] ∧
    (after.garbledCount = codec.garbledCount ∨ after.garbledCount = codec.garbledCount + 1)
  fails : ∀ error, outcome = .answer (.error error) →
    after.garbledCount = codec.garbledCount ∧
      (codec.garbledRecovery = true → error.isRecoverable = true → u64Max ≤ codec.garbledCount)

/-- A recoverable failure that consumed something is counted or, at the end of
the counter's range, returned. -/
theorem afterAttempt_error {before : Nat} {error : CodecError} {after : FixCodec}
    {gone rest : Bytes} (split : src = gone ++ rest) (config : SameConfig after codec)
    (count : after.garbledCount = codec.garbledCount) (long : before = src.length)
    (consumed : codec.garbledRecovery = true → error.isRecoverable = true → gone ≠ []) :
    ∃ gone, codec.PassSpec src (afterAttempt before (.error error, after, rest)).1
      (afterAttempt before (.error error, after, rest)).2.1 gone
      (afterAttempt before (.error error, after, rest)).2.2 := by
  unfold afterAttempt
  simp only
  by_cases keeps : ¬after.garbledRecovery = true ∨ ¬error.isRecoverable = true
  · rw [if_pos keeps]
    refine ⟨gone, split, config, by simp, by simp, by simp, ?_⟩
    intro _ same
    cases same
    refine ⟨count, fun recovery recoverable => ?_⟩
    rw [config.garbledRecovery] at keeps
    simp [recovery, recoverable] at keeps
  · rw [if_neg keeps]
    simp only [not_or, not_not] at keeps
    rw [config.garbledRecovery] at keeps
    have nonempty := consumed keeps.1 keeps.2
    have shorter : ¬(rest.length ≥ before ∧ ¬rest.isEmpty = true) := by
      have := List.length_pos_iff.mpr nonempty
      rw [long, split, List.length_append]
      omega
    unfold recordSkip
    cases counted : checkedAdd u64Max after.garbledCount 1 with
    | none =>
        refine ⟨gone, split, config, by simp, by simp, by simp, ?_⟩
        intro _ same
        cases same
        refine ⟨count, fun _ _ => ?_⟩
        unfold checkedAdd at counted
        split at counted
        · cases counted
        · omega
    | some next =>
        simp only [if_neg shorter]
        refine ⟨gone, split, ⟨config.1, config.2, config.3, config.4⟩, by simp, by simp, ?_, by simp⟩
        intro _
        refine ⟨keeps.1, nonempty, .inr ?_⟩
        rw [← count, (checkedAdd_eq_some.mp counted).1]

theorem pass_spec (codec : FixCodec) (src : Bytes) :
    ∃ gone, codec.PassSpec src (codec.pass src).1 (codec.pass src).2.1 gone
      (codec.pass src).2.2 := by
  unfold pass
  rcases codec.judged_cases src with more | ⟨again, recovery, nonempty⟩ |
    ⟨settled, proceeds, same, count⟩
  · rw [more]
    exact ⟨[], rfl, .refl _, fun _ => ⟨rfl, rfl⟩, by simp, by simp, by simp⟩
  · rw [again]
    obtain ⟨gone, split, consumes⟩ := codec.resync_rest src
    exact ⟨gone, split, codec.resync_config src, by simp, by simp,
      fun _ => ⟨recovery, consumes recovery nonempty, .inl (codec.resync_count src)⟩, by simp⟩
  · rw [proceeds]
    simp only [decodeOne_eq, verdict_congr same]
    cases decided : codec.verdict src with
    | wait => exact ⟨[], rfl, same, fun _ => ⟨rfl, count⟩, by simp [carryOut, afterAttempt],
        by simp [carryOut, afterAttempt], by simp [carryOut, afterAttempt]⟩
    | frame n =>
        refine ⟨src.take n, (List.take_append_drop n src).symm, ⟨same.1, same.2, same.3, same.4⟩,
          by simp [carryOut, afterAttempt], ?_, by simp [carryOut, afterAttempt],
          by simp [carryOut, afterAttempt]⟩
        intro frame handed
        simp only [carryOut, afterAttempt, Pass.answer.injEq, Except.ok.injEq,
          Option.some.injEq] at handed
        exact ⟨handed.symm, count, handed ▸ verdict_frame decided⟩
    | garbled error =>
        obtain ⟨recoverable, least⟩ := verdict_garbled decided
        obtain ⟨gone, split, consumes⟩ := settled.resync_rest src
        refine afterAttempt_error split ((settled.resync_config src).trans same)
          ((settled.resync_count src).trans count) rfl fun recovery _ => ?_
        refine consumes (same.garbledRecovery.trans recovery) fun empty => ?_
        rw [empty] at least
        simp [MIN_FRAME_LEN] at least
    | misframed n error =>
        obtain ⟨_, most, least⟩ := verdict_length (.inr ⟨error, decided⟩)
        refine afterAttempt_error (List.take_append_drop n src).symm same count rfl
          fun _ _ empty => ?_
        have := congrArg List.length empty
        simp only [List.length_take, List.length_nil, TRAILER_LEN] at this most
        omega
    | refused error =>
        refine afterAttempt_error (List.nil_append src).symm same count rfl fun recovery recoverable => ?_
        rw [verdict_refused decided recovery] at recoverable
        cases recoverable

/-- Each further trip consumes input, so the buffer's length bounds them. -/
theorem decodeLoop_isSome (fuel : Nat) (codec : FixCodec) (src : Bytes)
    (enough : src.length < fuel) : (codec.decodeLoop fuel src).isSome := by
  induction fuel generalizing codec src with
  | zero => omega
  | succ fuel ih =>
      rw [decodeLoop_succ]
      obtain ⟨gone, spec⟩ := codec.pass_spec src
      rcases trip : codec.pass src with ⟨outcome, after, rest⟩
      rw [trip] at spec
      cases outcome with
      | answer result => rfl
      | again =>
          refine ih after rest ?_
          have := List.length_pos_iff.mpr (spec.skips rfl).2.1
          have := congrArg List.length spec.split
          simp only [List.length_append] at this
          omega

theorem decodeLoop_more {fuel : Nat} {result : Except CodecError (Option Bytes) × FixCodec × Bytes}
    (h : codec.decodeLoop fuel src = some result) :
    codec.decodeLoop (fuel + 1) src = some result := by
  induction fuel generalizing codec src with
  | zero => cases h
  | succ fuel ih =>
      rw [decodeLoop_succ] at h ⊢
      rcases trip : codec.pass src with ⟨outcome, after, rest⟩
      rw [trip] at h
      cases outcome with
      | answer result => exact h
      | again => exact ih h

/-- Extracts one frame from `src`: `Decoder::decode`. -/
def decode (codec : FixCodec) (src : Bytes) : Except CodecError (Option Bytes) × FixCodec × Bytes :=
  (codec.decodeLoop (src.length + 1) src).get
    (decodeLoop_isSome _ codec src (Nat.lt_succ_self _))

theorem decodeLoop_eq_decode {fuel : Nat} (enough : src.length < fuel) :
    codec.decodeLoop fuel src = some (codec.decode src) := by
  have start : codec.decodeLoop (src.length + 1) src = some (codec.decode src) := by simp [decode]
  induction enough with
  | refl => exact start
  | step _ ih => exact decodeLoop_more ih

/-- A decode call answers after its first pass or goes on from there. -/
theorem decode_eq (codec : FixCodec) (src : Bytes) :
    codec.decode src =
      match codec.pass src with
      | (.answer result, codec, src) => (result, codec, src)
      | (.again, codec, src) => codec.decode src := by
  apply Option.some.inj
  rw [← decodeLoop_eq_decode (Nat.lt_succ_self src.length), decodeLoop_succ]
  obtain ⟨gone, spec⟩ := codec.pass_spec src
  rcases trip : codec.pass src with ⟨outcome, after, rest⟩
  rw [trip] at spec
  cases outcome with
  | answer result => rfl
  | again =>
      refine decodeLoop_eq_decode ?_
      have := List.length_pos_iff.mpr (spec.skips rfl).2.1
      have := congrArg List.length spec.split
      simp only [List.length_append] at this
      omega

end FixCodec

end IronFix.Transport
