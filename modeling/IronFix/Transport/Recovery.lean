import IronFix.Transport.Framing
import IronFix.Transport.Scanner

/-!
# Recovery does not depend on the split of the stream

Every pass of the recovery loop is a run of the scanner: a resync is the walk
over the positions it discards, and the resync state it records is the mode
that walk ends in. The codec therefore simulates the scanner, and gives the
same frames, count and error for every split of a stream.
-/

namespace IronFix.Transport

open Lib.Slice Lib.Decimal Lib.Incremental

/-- The scanner mode a recorded resync state stands for. -/
def ResyncState.mode : ResyncState → ScanMode
  | .settled => .aligned
  | .emptiedAfter last => .inSpan (boundaryBefore (some last))
  | .partialOpening => .inSpan true

/-- The codec and the scanner are at the same place. -/
structure InStep (config codec : FixCodec) (scan : Scan) : Prop where
  same : SameConfig codec config
  mode : scan.mode = codec.resyncState.mode
  count : scan.count = codec.garbledCount

/-- One decode call as a poll. -/
def FixCodec.poll (codec : FixCodec) (buffer : Bytes) : Poll FixCodec UInt8 Bytes CodecError :=
  match codec.decode buffer with
  | (.ok none, codec, rest) => .need codec rest
  | (.ok (some frame), codec, rest) => .emit frame codec rest
  | (.error error, codec, rest) => .fail error codec rest

theorem decode_shrinks {codec after : FixCodec} {buffer frame rest : Bytes}
    (h : codec.decode buffer = (.ok (some frame), after, rest)) : rest.length < buffer.length := by
  obtain ⟨⟨segments, counted, split, accounts, _⟩, _, _⟩ := h ▸ decode_answers codec buffer
  have member : ∃ segment ∈ segments, segment.frame? = some frame := by
    have frames := accounts.frames_eq
    simp only [answered, Option.toList_some] at frames
    exact List.mem_filterMap.mp (frames ▸ List.mem_singleton_self frame)
  obtain ⟨segment, inside, _⟩ := member
  have some_taken := List.length_pos_iff.mpr (accounts.nonempty segment inside)
  obtain ⟨front, back, rfl⟩ := List.append_of_mem inside
  have total := congrArg List.length split
  simp only [List.map_append, List.map_cons, List.flatten_append, List.flatten_cons,
    List.length_append] at total
  omega

/-- The codec as a pull decoder. -/
def puller : Puller FixCodec UInt8 Bytes CodecError where
  poll := FixCodec.poll
  progress := by
    intro codec buffer frame after rest h
    unfold FixCodec.poll at h
    split at h
    · cases h
    · rename_i decoded
      cases h
      exact decode_shrinks decoded
    · cases h

section Walk

variable {config : FixCodec} (recovers : Recovers config)

/-- The walk over positions that are no candidates. -/
theorem walk_run (src : Bytes) (count : Nat) (k j : Nat) (pos : 1 ≤ j) (inside : j + k ≤ src.length)
    (clear : ∀ c, j ≤ c → c < j + k → isCandidate src config.recoveryAnchors c = false) :
    (scanner config recovers).Run
      (⟨.inSpan (boundaryBefore src[j - 1]?), count⟩, src.drop j) []
      (⟨.inSpan (boundaryBefore src[j + k - 1]?), count⟩, src.drop (j + k)) := by
  induction k generalizing j with
  | zero => exact .refl _
  | succ k ih =>
      have here : j < src.length := by omega
      have no : isCandidate src config.recoveryAnchors j = false := clear j (le_refl _) (by omega)
      have rejected : Scan.opening config (boundaryBefore src[j - 1]?) (src.drop j) = .rejected := by
        unfold Scan.opening
        unfold isCandidate at no
        cases boundary : boundaryBefore src[j - 1]? with
        | false => rfl
        | true => simpa [boundary] using no
      have moved : Scan.move config ⟨.inSpan (boundaryBefore src[j - 1]?), count⟩ (src.drop j) =
          .take 1 ⟨.inSpan (boundaryBefore src[j]?), count⟩ [] := by
        rw [List.drop_eq_getElem_cons here] at rejected ⊢
        simp only [Scan.move, rejected, Scan.past, List.getElem?_eq_getElem here]
      have later := ih (j + 1) (by omega) (by omega) fun c low high => clear c (by omega) (by omega)
      rw [Nat.add_sub_cancel, show j + 1 + k = j + (k + 1) by omega] at later
      refine Reader.Run.step (o := []) moved ?_
      rw [List.drop_drop]
      exact later

/-- A resync is the walk over what it discards. -/
theorem resync_run {codec : FixCodec} (same : SameConfig codec config) (byte : UInt8)
    (rest : Bytes) (count : Nat) :
    (scanner config recovers).Run (⟨Scan.past byte, count⟩, rest) []
      (⟨(codec.resync (byte :: rest)).1.resyncState.mode, count⟩,
        (codec.resync (byte :: rest)).2) := by
  have nonempty : byte :: rest ≠ [] := List.cons_ne_nil _ _
  have spec := recoveryResyncOffset_spec codec.anchors_known nonempty
  have on : codec.garbledRecovery = true := same.garbledRecovery.trans recovers.recovery
  unfold FixCodec.resync
  rw [if_pos on]
  simp only
  generalize recoveryResyncOffset (byte :: rest) codec.recoveryAnchors = d at spec ⊢
  obtain ⟨low, high, clear, hit⟩ := spec
  have walk := walk_run recovers (byte :: rest) count (d - 1) 1 (le_refl _) (by omega)
    fun c lo hi => same.recoveryAnchors ▸ clear c lo (by omega)
  rw [show 1 + (d - 1) = d by omega] at walk
  have at_last : (byte :: rest)[d - 1]? = some (byte :: rest)[d - 1] :=
    List.getElem?_eq_getElem (by omega)
  by_cases emptied : d = (byte :: rest).length
  · rw [if_pos emptied, if_neg (by omega), at_last]
    rw [at_last] at walk
    exact walk
  · rw [if_neg emptied]
    have candidate := hit (by omega)
    simp only [isCandidate, Bool.and_eq_true, bne_iff_ne] at candidate
    rw [candidate.1] at walk
    cases shape : anchorShape ((byte :: rest).drop d) codec.recoveryAnchors with
    | rejected => exact absurd shape candidate.2
    | partialOpening =>
        rw [if_pos rfl]
        exact walk
    | complete =>
        rw [if_neg (by simp)]
        have moved : Scan.move config ⟨.inSpan true, count⟩ ((byte :: rest).drop d) =
            .take 0 ⟨.aligned, count⟩ [] := by
          have opens : Scan.opening config true ((byte :: rest).drop d) = .complete := by
            rw [Scan.opening, if_pos rfl, ← same.recoveryAnchors, shape]
          rw [List.drop_eq_getElem_cons (by omega)] at opens ⊢
          simp only [Scan.move, opens]
        have last := Reader.Run.single (r := scanner config recovers) moved
        exact walk.trans last

/-- How a pass of the recovery loop is a run of the scanner. -/
def Follows (scan : Scan) (src : Bytes) : Pass × FixCodec × Bytes → Prop
  | (.again, after, rest) =>
      ∃ next, InStep config after next ∧ (scanner config recovers).Run (scan, src) [] (next, rest)
  | (.answer (.ok none), after, rest) =>
      ∃ next, InStep config after next ∧
        (scanner config recovers).Settles (scan, src) [] (next, rest)
  | (.answer (.ok (some frame)), after, rest) =>
      ∃ next, InStep config after next ∧
        (scanner config recovers).Run (scan, src) [.inl frame] (next, rest)
  | (.answer (.error error), after, _) =>
      ∃ next rest, after.garbledCount = next.count ∧
        (scanner config recovers).Run (scan, src) [.inr error] (next, rest) ∧
        ∀ buffer, (scanner config recovers).Waits (next, buffer)

theorem Follows.prepend {first second : Scan} {src rest : Bytes} {result : Pass × FixCodec × Bytes}
    (run : (scanner config recovers).Run (first, src) [] (second, rest))
    (follows : Follows recovers second rest result) : Follows recovers first src result := by
  obtain ⟨outcome, after, left⟩ := result
  cases outcome with
  | again =>
      obtain ⟨next, step, later⟩ := follows
      exact ⟨next, step, run.trans later⟩
  | answer answer =>
      rcases answer with error | found
      · obtain ⟨next, rest, count, later, stuck⟩ := follows
        exact ⟨next, rest, count, run.trans later, stuck⟩
      · cases found with
        | none =>
            obtain ⟨next, step, later, waits⟩ := follows
            exact ⟨next, step, run.trans later, waits⟩
        | some frame =>
            obtain ⟨next, step, later⟩ := follows
            exact ⟨next, step, run.trans later⟩

variable {codec : FixCodec} {src : Bytes} {scan : Scan}

/-- A halted scanner waits. -/
theorem halted_waits (count : Nat) (buffer : Bytes) :
    (scanner config recovers).Waits (⟨.halted, count⟩, buffer) := rfl

/-- A skip of `n` bytes, and the walk to where the codec stands afterwards. -/
theorem skip_follows (n : Nat) (mode : ScanMode) {error : CodecError} {after : FixCodec}
    {rest : Bytes} (same : SameConfig after config) (count : after.garbledCount = scan.count)
    (recoverable : error.isRecoverable = true) (shorter : rest.length < src.length)
    (moved : Scan.move config scan src = scan.skip n mode error)
    (walk : ∀ count, (scanner config recovers).Run (⟨mode, count⟩, src.drop n) []
      (⟨after.resyncState.mode, count⟩, rest)) :
    Follows recovers scan src (FixCodec.afterAttempt src.length (.error error, after, rest)) := by
  have on : after.garbledRecovery = true := same.garbledRecovery.trans recovers.recovery
  have consumed : ¬rest.length ≥ src.length := by omega
  unfold Scan.skip at moved
  unfold FixCodec.afterAttempt FixCodec.recordSkip checkedAdd
  rw [← count] at moved
  simp only
  rw [if_neg (by simp [on, recoverable])]
  by_cases room : after.garbledCount + 1 ≤ u64Max
  · rw [if_pos room] at moved ⊢
    simp only [consumed, false_and, if_false]
    have run := (Reader.Run.single (r := scanner config recovers) moved).trans (walk _)
    exact ⟨_, ⟨⟨same.1, same.2, same.3, same.4⟩, rfl, rfl⟩, run⟩
  · rw [if_neg room] at moved ⊢
    exact ⟨_, _, rfl, Reader.Run.single (r := scanner config recovers) moved,
      halted_waits recovers _⟩

/-- A framing attempt of an aligned codec. -/
theorem attempt_follows (step : InStep config codec scan) (settled : codec.resyncState = .settled) :
    Follows recovers scan src (FixCodec.afterAttempt src.length (codec.decodeOne src)) := by
  obtain ⟨same, mode, count⟩ := step
  have aligned : scan = ⟨.aligned, codec.garbledCount⟩ := by
    rw [settled] at mode
    rw [← count, show ScanMode.aligned = scan.mode from mode.symm]
  have on : codec.garbledRecovery = true := same.garbledRecovery.trans recovers.recovery
  rw [FixCodec.decodeOne_eq]
  have judged := FixCodec.verdict_congr same src
  cases decided : codec.verdict src with
  | wait =>
      rw [decided] at judged
      have waits : (scanner config recovers).Waits (scan, src) := by
        show Scan.move config scan src = .wait
        simp only [aligned, Scan.move, ← judged]
      exact ⟨scan, ⟨same, mode, count⟩, .refl _, waits⟩
  | frame n =>
      rw [decided] at judged
      have moved : Scan.move config scan src =
          .take n ⟨.aligned, codec.garbledCount⟩ [.inl (src.take n)] := by
        simp only [aligned, Scan.move, ← judged]
      exact ⟨_, ⟨⟨same.1, same.2, same.3, same.4⟩, rfl, rfl⟩,
        Reader.Run.single (r := scanner config recovers) moved⟩
  | garbled error =>
      rw [decided] at judged
      obtain ⟨recoverable, least⟩ := FixCodec.verdict_garbled decided
      cases src with
      | nil => simp [MIN_FRAME_LEN] at least
      | cons byte rest =>
          obtain ⟨gone, split, consumes⟩ := codec.resync_rest (byte :: rest)
          have shorter : (codec.resync (byte :: rest)).2.length < (byte :: rest).length := by
            have := List.length_pos_iff.mpr (consumes on (List.cons_ne_nil _ _))
            have := congrArg List.length split
            rw [List.length_append] at this
            omega
          refine skip_follows recovers 1 (Scan.past byte) ((codec.resync_config _).trans same)
            ((codec.resync_count _).trans count.symm) recoverable shorter ?_
            fun total => resync_run recovers same byte rest total
          simp only [aligned, Scan.move, ← judged]
  | misframed n error =>
      rw [decided] at judged
      obtain ⟨_, most, least⟩ := FixCodec.verdict_length (.inr ⟨error, decided⟩)
      refine skip_follows recovers n .aligned same count.symm (FixCodec.verdict_misframed decided) ?_ ?_
        fun total => ?_
      · simp only [List.length_drop, TRAILER_LEN] at most ⊢
        omega
      · simp only [aligned, Scan.move, ← judged]
      · rw [settled]
        exact .refl _
  | refused error =>
      rw [decided] at judged
      have fatal := FixCodec.verdict_refused decided on
      have moved : Scan.move config scan src =
          .take 0 ⟨.halted, codec.garbledCount⟩ [.inr error] := by
        simp only [aligned, Scan.move, ← judged]
      simp only [FixCodec.carryOut, FixCodec.afterAttempt]
      rw [if_pos (.inr (by simp [fatal]))]
      exact ⟨_, _, rfl, Reader.Run.single (r := scanner config recovers) moved,
        halted_waits recovers _⟩

/-- One trip round the recovery loop is a run of the scanner. -/
theorem pass_follows (src : Bytes) (step : InStep config codec scan) :
    Follows recovers scan src (codec.pass src) := by
  obtain ⟨same, mode, count⟩ := step
  have on : codec.garbledRecovery = true := same.garbledRecovery.trans recovers.recovery
  unfold FixCodec.pass FixCodec.judged
  by_cases settled : codec.resyncState = .settled
  · rw [if_neg (by simp [settled])]
    exact attempt_follows recovers ⟨same, mode, count⟩ settled
  · rw [if_pos ⟨on, settled⟩]
    -- the pending state is a place inside a span
    obtain ⟨boundary, pending, judgeEmpty, judge⟩ : ∃ boundary,
        codec.resyncState.mode = .inSpan boundary ∧
        (src = [] → codec.judgeResyncStart src = (.needMore, codec, src)) ∧
        (src ≠ [] →
          (Scan.opening config boundary src = .complete →
            codec.judgeResyncStart src = (.proceed, { codec with resyncState := .settled }, src)) ∧
          (Scan.opening config boundary src = .partialOpening →
            codec.judgeResyncStart src = (.needMore, codec, src)) ∧
          (Scan.opening config boundary src = .rejected →
            codec.judgeResyncStart src = (.resynced, codec.resync src))) := by
      have anchored : codec.recoveryAnchors.isEmpty = false := by
        simpa [same.recoveryAnchors] using recovers.anchored
      simp only [Scan.opening, ← same.recoveryAnchors]
      unfold FixCodec.judgeResyncStart
      cases state : codec.resyncState with
      | settled => exact absurd state settled
      | emptiedAfter last =>
          refine ⟨boundaryBefore (some last), rfl, ?_, ?_⟩
          · rintro rfl
            rfl
          · intro some_left
            have full : src.isEmpty = false := by simpa using some_left
            simp only [anchored, full, Bool.false_eq_true, if_false]
            refine ⟨fun shape => ?_, fun shape => ?_, fun shape => ?_⟩ <;> rw [shape]
      | partialOpening =>
          refine ⟨true, rfl, ?_, ?_⟩
          · rintro rfl
            rfl
          · intro some_left
            have full : src.isEmpty = false := by simpa using some_left
            simp only [anchored, full, Bool.false_eq_true, if_false]
            refine ⟨fun shape => ?_, fun shape => ?_, fun shape => ?_⟩ <;> rw [shape]
    have place : scan = ⟨.inSpan boundary, codec.garbledCount⟩ := by
      rw [← count, ← pending, ← mode]
    cases src with
    | nil =>
        rw [judgeEmpty rfl]
        have waits : (scanner config recovers).Waits (scan, []) := by
          rw [place]
          rfl
        exact ⟨scan, ⟨same, mode, count⟩, .refl _, waits⟩
    | cons byte rest =>
        obtain ⟨onComplete, onPartial, onRejected⟩ := judge (List.cons_ne_nil byte rest)
        cases shape : Scan.opening config boundary (byte :: rest) with
        | complete =>
            rw [onComplete shape]
            have moved : Scan.move config scan (byte :: rest) =
                .take 0 ⟨.aligned, codec.garbledCount⟩ [] := by
              simp only [place, Scan.move, shape]
            have settledStep : InStep config { codec with resyncState := .settled }
                ⟨.aligned, codec.garbledCount⟩ := ⟨⟨same.1, same.2, same.3, same.4⟩, rfl, rfl⟩
            refine Follows.prepend recovers (Reader.Run.single (r := scanner config recovers) moved)
              (attempt_follows recovers settledStep rfl)
        | partialOpening =>
            rw [onPartial shape]
            have waits : (scanner config recovers).Waits (scan, byte :: rest) := by
              show Scan.move config scan (byte :: rest) = .wait
              simp only [place, Scan.move, shape]
            exact ⟨scan, ⟨same, mode, count⟩, .refl _, waits⟩
        | rejected =>
            rw [onRejected shape]
            have moved : Scan.move config scan (byte :: rest) =
                .take 1 ⟨Scan.past byte, codec.garbledCount⟩ [] := by
              simp only [place, Scan.move, shape]
            exact ⟨_, ⟨(codec.resync_config _).trans same, rfl, (codec.resync_count _).symm⟩,
              (Reader.Run.single (r := scanner config recovers) moved).trans
                (resync_run recovers same byte rest _)⟩

/-- A decode call is a run of the scanner. -/
theorem decode_follows (src : Bytes) (step : InStep config codec scan) :
    Follows recovers scan src
      (.answer (codec.decode src).1, (codec.decode src).2.1, (codec.decode src).2.2) := by
  induction len : src.length using Nat.strongRecOn generalizing codec scan src with
  | ind n ih =>
      have first := pass_follows recovers src step
      rw [codec.decode_eq src]
      obtain ⟨gone, spec⟩ := codec.pass_spec src
      rcases trip : codec.pass src with ⟨outcome, after, rest⟩
      rw [trip] at first spec
      cases outcome with
      | answer result => exact first
      | again =>
          obtain ⟨next, inStep, run⟩ := first
          have shorter : rest.length < n := by
            have := List.length_pos_iff.mpr (spec.skips rfl).2.1
            have := congrArg List.length spec.split
            simp only [List.length_append] at this
            omega
          exact Follows.prepend recovers run (ih _ shorter rest inStep rfl)

/-- The codec simulates the scanner. -/
theorem simulates : Simulates puller (scanner config recovers) (InStep config)
    FixCodec.garbledCount Scan.count where
  agree step := step.count.symm
  need := by
    intro codec scan buffer after rest step polled
    have follows := decode_follows recovers buffer step
    simp only [puller, FixCodec.poll] at polled
    split at polled
    · rename_i decoded
      cases polled
      rwa [decoded] at follows
    · cases polled
    · cases polled
  emit := by
    intro codec scan buffer frame after rest step polled
    have follows := decode_follows recovers buffer step
    simp only [puller, FixCodec.poll] at polled
    split at polled
    · cases polled
    · rename_i decoded
      cases polled
      rwa [decoded] at follows
    · cases polled
  fail := by
    intro codec scan buffer error after rest step polled
    have follows := decode_follows recovers buffer step
    simp only [puller, FixCodec.poll] at polled
    split at polled
    · cases polled
    · cases polled
    · rename_i decoded
      cases polled
      rwa [decoded] at follows

end Walk

/-! ## Splits of a stream -/

/-- What a driver has at the end of a stream read in `chunks`, calling `decode`
after each until it needs more: the frames, the error that ended it if any, and
the codec. -/
def FixCodec.readAll (codec : FixCodec) (chunks : List Bytes) :
    Drained FixCodec UInt8 Bytes CodecError :=
  puller.read codec [] chunks

/-- Two splits of a stream agree in what they yield. -/
def SameYield (codec : FixCodec) (chunks₁ chunks₂ : List Bytes) : Prop :=
  (codec.readAll chunks₁).items = (codec.readAll chunks₂).items ∧
  (codec.readAll chunks₁).state.takeGarbledCount.1 =
    (codec.readAll chunks₂).state.takeGarbledCount.1 ∧
  (codec.readAll chunks₁).error = (codec.readAll chunks₂).error

theorem sameYield_of_recovers {codec : FixCodec} (recovers : Recovers codec)
    (fresh : codec.resyncState = .settled) {chunks₁ chunks₂ : List Bytes}
    (same : chunks₁.flatten = chunks₂.flatten) : SameYield codec chunks₁ chunks₂ := by
  have inStep : InStep codec codec ⟨.aligned, codec.garbledCount⟩ :=
    ⟨.refl codec, by rw [fresh]; rfl, rfl⟩
  have waits : (scanner codec recovers).Waits (⟨.aligned, codec.garbledCount⟩, []) := rfl
  obtain ⟨items, error, count⟩ := (simulates recovers).split_irrelevant inStep waits same
  exact ⟨items, count, error⟩

/-! ### A size limit inside the header window -/

section Unframed

variable {codec : FixCodec}

/-- A frame start with no field end, of `n + 2` bytes. -/
def unframed (n : Nat) : Bytes := BEGIN_STRING_PREFIX ++ List.replicate n 0x78

theorem unframed_eq (n : Nat) : unframed n = 0x38 :: 0x3D :: List.replicate n 0x78 := rfl

theorem unframed_length (n : Nat) : (unframed n).length = n + 2 := by simp [unframed_eq]

theorem scanHeader_unframed (n : Nat) :
    codec.scanHeader (unframed n) = codec.headerNeedsMore (n + 2) := by
  rw [FixCodec.scanHeader_noField, unframed_length]
  intro found
  have := List.mem_of_mem_take found
  simp [unframed_eq, SOH] at this

theorem verdict_unframed {n : Nat} (least : MIN_FRAME_LEN ≤ n + 2) :
    codec.verdict (unframed n) =
      match codec.headerNeedsMore (n + 2) with
      | .error error =>
          if codec.garbledRecovery ∧ error.isRecoverable then .garbled error else .refused error
      | .ok _ => .wait := by
  have opens : sliceTo? (unframed n) BEGIN_STRING_PREFIX.length = some BEGIN_STRING_PREFIX :=
    sliceTo?_append _ _
  unfold FixCodec.verdict
  rw [if_neg (by rw [unframed_length]; omega), if_neg (not_not_intro opens), scanHeader_unframed]
  cases waits : codec.headerNeedsMore (n + 2) with
  | error error => rfl
  | ok found =>
      cases found with
      | none => rfl
      | some layout => exact absurd waits (FixCodec.headerNeedsMore_ne_some _ _)

/-- Nothing in them starts a frame: a resync empties the buffer. -/
theorem resync_unframed (recovery : codec.garbledRecovery = true) (n : Nat) :
    (codec.resync (unframed n)).2 = [] := by
  have nonempty : unframed n ≠ [] := by simp [unframed_eq]
  obtain ⟨low, high, _, hit⟩ := recoveryResyncOffset_spec codec.anchors_known nonempty
  have whole : recoveryResyncOffset (unframed n) codec.recoveryAnchors = (unframed n).length := by
    by_contra inside
    have eight := isCandidate_eight codec.anchors_known (by omega) (hit (by omega))
    obtain ⟨k, hk⟩ := Nat.exists_eq_succ_of_ne_zero (Nat.one_le_iff_ne_zero.mp low)
    rw [hk, unframed_eq, List.getElem?_cons_succ] at eight
    have := List.mem_of_getElem? eight
    simp at this
  unfold FixCodec.resync
  rw [if_pos recovery]
  show (unframed n).drop (recoveryResyncOffset (unframed n) codec.recoveryAnchors) = []
  rw [whole, List.drop_length]

theorem decode_nil (codec : FixCodec) : (codec.decode []).1 = .ok none := by
  rw [codec.decode_eq, FixCodec.pass]
  rcases codec.judged_cases [] with more | ⟨_, _, nonempty⟩ | ⟨settled, proceeds, _, _⟩
  · rw [more]
  · exact absurd rfl nonempty
  · rw [proceeds]
    rfl

theorem readAll_single (chunk : Bytes) :
    (codec.readAll [chunk]).error = (puller.drain codec chunk).error := by
  simp only [FixCodec.readAll, Puller.read, List.nil_append]
  cases failed : (puller.drain codec chunk).error with
  | none => rfl
  | some error => simp [failed]

/-- Read whole they are at most a header that is too long. -/
theorem readAll_unframed_whole (recovery : codec.garbledRecovery = true)
    (fresh : codec.resyncState = .settled) :
    (codec.readAll [unframed 62]).error = none ∨
      (codec.readAll [unframed 62]).error = some (.headerTooLong MAX_HEADER_LEN) := by
  have decided : codec.verdict (unframed 62) = .garbled (.headerTooLong MAX_HEADER_LEN) := by
    rw [verdict_unframed (by decide), FixCodec.headerNeedsMore_long (by decide) recovery]
    exact if_pos ⟨recovery, rfl⟩
  have pass : codec.pass (unframed 62) = FixCodec.afterAttempt (unframed 62).length
      (.error (.headerTooLong MAX_HEADER_LEN), codec.resync (unframed 62)) := by
    simp [FixCodec.pass, FixCodec.judged, fresh, FixCodec.decodeOne_eq, decided, FixCodec.carryOut]
  have decoded : (codec.decode (unframed 62)).1 = .ok none ∨
      (codec.decode (unframed 62)).1 = .error (.headerTooLong MAX_HEADER_LEN) := by
    rw [codec.decode_eq, pass]
    have emptied : (codec.resync (unframed 62)).2 = [] := resync_unframed recovery 62
    generalize codec.resync (unframed 62) = resynced at emptied ⊢
    obtain ⟨after, rest⟩ := resynced
    simp only at emptied
    subst emptied
    simp only [FixCodec.afterAttempt, FixCodec.recordSkip]
    by_cases keeps : ¬after.garbledRecovery = true ∨
        ¬(CodecError.headerTooLong MAX_HEADER_LEN).isRecoverable = true
    · rw [if_pos keeps]
      exact .inr rfl
    · rw [if_neg keeps]
      cases checkedAdd u64Max after.garbledCount 1 with
      | none => exact .inr rfl
      | some count =>
          simp only
          rw [if_neg (by simp)]
          exact .inl (decode_nil _)
  rw [readAll_single, puller.drain_eq]
  simp only [puller, FixCodec.poll]
  generalize codec.decode (unframed 62) = answer at decoded ⊢
  obtain ⟨result, after, rest⟩ := answer
  rcases decoded with waits | fails
  · simp only at waits
    subst waits
    exact .inl rfl
  · simp only at fails
    subst fails
    exact .inr rfl

/-- A first read between the size limit and the header window is refused for
its size. -/
theorem readAll_unframed_split {n : Nat} (least : MIN_FRAME_LEN ≤ n + 2)
    (short : n + 2 < MAX_HEADER_LEN) (large : codec.maxMessageSize < n + 2)
    (fresh : codec.resyncState = .settled) (chunks : List Bytes) :
    (codec.readAll (unframed n :: chunks)).error =
      some (.messageTooLarge (n + 2) codec.maxMessageSize) := by
  have needs : codec.headerNeedsMore (n + 2) =
      .error (.messageTooLarge (n + 2) codec.maxMessageSize) := by
    unfold FixCodec.headerNeedsMore
    simp only
    rw [if_neg (by omega), if_pos large]
  have decided : codec.verdict (unframed n) =
      .refused (.messageTooLarge (n + 2) codec.maxMessageSize) := by
    rw [verdict_unframed least, needs]
    exact if_neg (by simp [CodecError.isRecoverable])
  have decoded : codec.decode (unframed n) =
      (.error (.messageTooLarge (n + 2) codec.maxMessageSize), codec, unframed n) := by
    rw [codec.decode_eq]
    simp [FixCodec.pass, FixCodec.judged, fresh, FixCodec.decodeOne_eq, decided,
      FixCodec.carryOut, FixCodec.afterAttempt, CodecError.isRecoverable]
  have drained : (puller.drain codec (unframed n)).error =
      some (.messageTooLarge (n + 2) codec.maxMessageSize) := by
    rw [puller.drain_eq]
    simp only [puller, FixCodec.poll, decoded]
  simp only [FixCodec.readAll, Puller.read, List.nil_append, drained]

theorem unframed_append (n k : Nat) :
    unframed n ++ List.replicate k 0x78 = unframed (n + k) := by
  rw [unframed, unframed, List.append_assoc, List.replicate_append_replicate]

end Unframed

/-- Recovery yields the same frames, count and error for every two splits of
every stream exactly when the size limit is at least one byte short of the
header window. -/
theorem split_irrelevant_iff (codec : FixCodec) (recovery : codec.garbledRecovery = true)
    (anchored : codec.recoveryAnchors ≠ []) (fresh : codec.resyncState = .settled) :
    (∀ chunks₁ chunks₂ : List Bytes, chunks₁.flatten = chunks₂.flatten →
      SameYield codec chunks₁ chunks₂) ↔
    MAX_HEADER_LEN ≤ codec.maxMessageSize + 1 := by
  constructor
  · intro agree
    by_contra small
    have below : codec.maxMessageSize < 63 := by
      simp only [MAX_HEADER_LEN] at small
      omega
    -- the first read ends past the size limit and short of the window
    obtain ⟨n, least, short, large⟩ : ∃ n, 20 ≤ n + 2 ∧ n + 2 < 64 ∧
        codec.maxMessageSize < n + 2 :=
      ⟨max 18 (codec.maxMessageSize - 1), by omega, by omega, by omega⟩
    obtain ⟨_, _, error⟩ := agree [unframed 62] [unframed n, List.replicate (62 - n) 0x78] (by
      simp only [List.flatten_cons, List.flatten_nil, List.append_nil, unframed_append]
      congr 1
      omega)
    rw [readAll_unframed_split least short large fresh] at error
    rcases readAll_unframed_whole recovery fresh with none | tooLong
    · rw [none] at error
      cases error
    · rw [tooLong] at error
      cases error
  · intro room chunks₁ chunks₂ same
    exact sameYield_of_recovers ⟨recovery, anchored, room⟩ fresh same

/-- The default size limit leaves the room. -/
theorem split_irrelevant_iff_default :
    (∀ chunks₁ chunks₂ : List Bytes, chunks₁.flatten = chunks₂.flatten →
      SameYield (FixCodec.new.withGarbledRecovery true) chunks₁ chunks₂) ↔
    MAX_HEADER_LEN ≤ (FixCodec.new.withGarbledRecovery true).maxMessageSize + 1 :=
  split_irrelevant_iff (FixCodec.new.withGarbledRecovery true) rfl (by decide) rfl

/-- With a limit of 40 bytes, a header without a field end is skipped when it
arrives whole and is a fatal error when the first read holds 41 bytes of it. -/
theorem split_matters :
    [unframed 62].flatten = [unframed 39, List.replicate 23 0x78].flatten ∧
    ¬SameYield ((FixCodec.new.withMaxMessageSize 40).withGarbledRecovery true)
      [unframed 62] [unframed 39, List.replicate 23 0x78] := by
  refine ⟨rfl, fun agree => ?_⟩
  have error := agree.2.2
  rw [readAll_unframed_split (n := 39) (by decide) (by decide) (by decide) rfl] at error
  have whole := @readAll_unframed_whole ((FixCodec.new.withMaxMessageSize 40).withGarbledRecovery true)
    rfl rfl
  rcases whole with none | tooLong
  · rw [none] at error
    cases error
  · rw [tooLong] at error
    cases error

end IronFix.Transport
