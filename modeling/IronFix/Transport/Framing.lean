import IronFix.Transport.Decode

/-!
# Framing soundness and progress

A driver reads chunks into the buffer, calls `decode`, and takes the count of
skips, in any order. Whatever it does, the bytes it has read are the frames it
was handed and the spans that were discarded, in order, and then the buffer
(`framing_sound`).
-/

namespace IronFix.Transport

open Lib.Decimal IronFix.TagValue

/-- One action of a driver. -/
inductive Action where
  | read (chunk : Bytes)
  | decode
  | takeGarbledCount

/-- A codec with its read buffer, the answers it has given, each with the skip
count at that time, and the skips that were taken off the counter. -/
structure Link where
  codec : FixCodec
  buffer : Bytes
  answers : List (Except CodecError (Option Bytes) × Nat)
  taken : Nat

def Link.start (codec : FixCodec) : Link := ⟨codec, [], [], 0⟩

namespace Link

def act (link : Link) : Action → Link
  | .read chunk => { link with buffer := link.buffer ++ chunk }
  | .decode =>
      let (result, codec, buffer) := link.codec.decode link.buffer
      { link with
        codec := codec
        buffer := buffer
        answers := link.answers ++ [(result, codec.garbledCount)] }
  | .takeGarbledCount =>
      let (count, codec) := link.codec.takeGarbledCount
      { link with codec := codec, taken := link.taken + count }

def run (link : Link) (actions : List Action) : Link :=
  actions.foldl act link

/-- The frames handed up, in order. -/
def frames (link : Link) : List Bytes :=
  link.answers.filterMap fun answer =>
    match answer.1 with
    | .ok found => found
    | .error _ => none

end Link

/-- The bytes a driver reads. -/
def received (actions : List Action) : Bytes :=
  (actions.map fun
    | .read chunk => chunk
    | _ => []).flatten

/-- A span the codec has taken off the buffer. -/
inductive Segment where
  | frame (bytes : Bytes)
  | skip (bytes : Bytes) (counted : Bool)

namespace Segment

def bytes : Segment → Bytes
  | .frame bytes => bytes
  | .skip bytes _ => bytes

def frame? : Segment → Option Bytes
  | .frame bytes => some bytes
  | .skip _ _ => none

def isCounted : Segment → Bool
  | .frame _ => false
  | .skip _ counted => counted

end Segment

/-- The discarded span, if anything was discarded. -/
def discarded (gone : Bytes) : List Segment :=
  if gone = [] then [] else [.skip gone false]

theorem discarded_bytes (gone : Bytes) :
    ((discarded gone).map Segment.bytes).flatten = gone := by
  unfold discarded
  split
  · rename_i empty
    simp [empty]
  · simp [Segment.bytes]

/-- How the segments account for the bytes between two states of a buffer. -/
structure Accounts (config : FixCodec) (segments : List Segment) (frames : List Bytes)
    (counted : Nat) : Prop where
  frames_eq : segments.filterMap Segment.frame? = frames
  counted_eq : segments.countP Segment.isCounted = counted
  nonempty : ∀ segment ∈ segments, segment.bytes ≠ []
  sound : ∀ frame ∈ frames, ∃ beginning digits body checksum,
    IsFrame config frame beginning digits body checksum

namespace Accounts

variable {config : FixCodec}

theorem nil : Accounts config [] [] 0 := ⟨rfl, rfl, by simp, by simp⟩

theorem append {s₁ s₂ : List Segment} {f₁ f₂ : List Bytes} {n₁ n₂ : Nat}
    (one : Accounts config s₁ f₁ n₁) (two : Accounts config s₂ f₂ n₂) :
    Accounts config (s₁ ++ s₂) (f₁ ++ f₂) (n₁ + n₂) := by
  refine ⟨?_, ?_, ?_, ?_⟩
  · rw [List.filterMap_append, one.frames_eq, two.frames_eq]
  · rw [List.countP_append, one.counted_eq, two.counted_eq]
  · intro segment member
    rcases List.mem_append.mp member with left | right
    · exact one.nonempty segment left
    · exact two.nonempty segment right
  · intro frame member
    rcases List.mem_append.mp member with left | right
    · exact one.sound frame left
    · exact two.sound frame right

theorem skip {gone : Bytes} (nonempty : gone ≠ []) (counted : Bool) :
    Accounts config [.skip gone counted] [] (if counted then 1 else 0) := by
  refine ⟨rfl, ?_, by simpa [Segment.bytes] using nonempty, by simp⟩
  cases counted <;> rfl

theorem discarded (gone : Bytes) : Accounts config (discarded gone) [] 0 := by
  unfold Transport.discarded
  split
  · exact nil
  · rename_i nonempty
    exact skip nonempty false

theorem congr {a b : FixCodec} (same : SameConfig a b) {segments : List Segment}
    {frames : List Bytes} {n : Nat} (h : Accounts a segments frames n) :
    Accounts b segments frames n := by
  refine ⟨h.frames_eq, h.counted_eq, h.nonempty, fun frame member => ?_⟩
  obtain ⟨beginning, digits, body, checksum, isFrame⟩ := h.sound frame member
  exact ⟨beginning, digits, body, checksum,
    { isFrame with
      declared := same.validateChecksum ▸ isFrame.declared
      fits := same.maxMessageSize ▸ isFrame.fits }⟩

end Accounts

/-- The frame in an answer, as a list. -/
def answered : Except CodecError (Option Bytes) → List Bytes
  | .ok found => found.toList
  | .error _ => []

/-- One decode call takes segments off the front of the buffer: skips, and at
most one frame, which it hands up. -/
structure Answers (codec : FixCodec) (src : Bytes)
    (answer : Except CodecError (Option Bytes) × FixCodec × Bytes) : Prop where
  accounted : ∃ segments counted, src = (segments.map Segment.bytes).flatten ++ answer.2.2 ∧
    Accounts codec segments (answered answer.1) counted ∧
    answer.2.1.garbledCount = codec.garbledCount + counted
  config : SameConfig answer.2.1 codec
  errors : codec.garbledRecovery = true → ∀ error, answer.1 = .error error →
    error.isRecoverable = true → u64Max ≤ answer.2.1.garbledCount

theorem decode_answers (codec : FixCodec) (src : Bytes) :
    Answers codec src (codec.decode src) := by
  induction len : src.length using Nat.strongRecOn generalizing codec src with
  | ind n ih =>
      rw [codec.decode_eq src]
      obtain ⟨gone, spec⟩ := codec.pass_spec src
      rcases trip : codec.pass src with ⟨outcome, after, rest⟩
      rw [trip] at spec
      cases outcome with
      | answer result =>
          refine ⟨?_, spec.config, ?_⟩
          · cases result with
            | error error =>
                exact ⟨discarded gone, 0, by rw [discarded_bytes]; exact spec.split,
                  .discarded gone, (spec.fails error rfl).1⟩
            | ok found =>
                cases found with
                | none =>
                    obtain ⟨rfl, count⟩ := spec.waits rfl
                    exact ⟨[], 0, spec.split, .nil, count⟩
                | some frame =>
                    obtain ⟨rfl, count, isFrame⟩ := spec.frames frame rfl
                    refine ⟨[.frame frame], 0, by simpa [Segment.bytes] using spec.split,
                      ⟨rfl, rfl, ?_, by simpa [answered] using isFrame⟩, count⟩
                    obtain ⟨beginning, digits, body, checksum, shape⟩ := isFrame
                    simp [Segment.bytes, shape.split, trailerBytes]
          · intro recovery error failed recoverable
            subst failed
            obtain ⟨count, full⟩ := spec.fails error rfl
            rw [count]
            exact full recovery recoverable
      | again =>
          obtain ⟨recovery, nonempty, count⟩ := spec.skips rfl
          have shorter : rest.length < n := by
            have := List.length_pos_iff.mpr nonempty
            have := congrArg List.length spec.split
            simp only [List.length_append] at this
            omega
          obtain ⟨⟨segments, counted, split, accounts, total⟩, config, errors⟩ :=
            ih _ shorter after rest rfl
          refine ⟨?_, config.trans spec.config,
            fun _ => errors (spec.config.garbledRecovery.trans recovery)⟩
          have whole := spec.split
          simp only at whole
          rw [split] at whole
          rcases count with kept | counts
          · refine ⟨.skip gone false :: segments, counted, ?_, ?_, by rw [total, kept]⟩
            · simpa [Segment.bytes] using whole
            · simpa using (Accounts.skip nonempty false).append (accounts.congr spec.config)
          · refine ⟨.skip gone true :: segments, 1 + counted, ?_, ?_, by rw [total, counts]; omega⟩
            · simpa [Segment.bytes] using whole
            · exact (Accounts.skip nonempty true).append (accounts.congr spec.config)

/-- What holds of a driver that started with `codec` and has read `stream`. -/
structure Sound (codec : FixCodec) (stream : Bytes) (link : Link) : Prop where
  accounted : ∃ segments, stream = (segments.map Segment.bytes).flatten ++ link.buffer ∧
    Accounts codec segments link.frames (link.taken + link.codec.garbledCount - codec.garbledCount)
  counts : codec.garbledCount ≤ link.taken + link.codec.garbledCount
  config : SameConfig link.codec codec
  errors : codec.garbledRecovery = true → ∀ error count, (.error error, count) ∈ link.answers →
    error.isRecoverable = true → u64Max ≤ count

theorem Link.frames_append (link : Link) (answer : Except CodecError (Option Bytes) × Nat) :
    ({ link with answers := link.answers ++ [answer] } : Link).frames =
      link.frames ++ answered answer.1 := by
  rcases answer with ⟨error | found, count⟩
  · simp [Link.frames, answered]
  · cases found <;> simp [Link.frames, answered]

/-- One action keeps the account. -/
theorem Sound.act {codec : FixCodec} {stream : Bytes} {link : Link}
    (sound : Sound codec stream link) (action : Action) :
    Sound codec (stream ++ received [action]) (link.act action) := by
  obtain ⟨⟨segments, split, accounts⟩, counts, config, errors⟩ := sound
  cases action with
  | read chunk =>
      exact ⟨⟨segments, by simp [Link.act, split, received], accounts⟩, counts, config, errors⟩
  | takeGarbledCount =>
      refine ⟨⟨segments, by simp [Link.act, FixCodec.takeGarbledCount, split, received], ?_⟩, ?_,
        ⟨config.1, config.2, config.3, config.4⟩, errors⟩
      · simpa [Link.act, FixCodec.takeGarbledCount, Link.frames] using accounts
      · simpa [Link.act, FixCodec.takeGarbledCount] using counts
  | decode =>
      have call := decode_answers link.codec link.buffer
      have acted : link.act .decode =
          { codec := (link.codec.decode link.buffer).2.1
            buffer := (link.codec.decode link.buffer).2.2
            answers := link.answers ++ [((link.codec.decode link.buffer).1,
              (link.codec.decode link.buffer).2.1.garbledCount)]
            taken := link.taken } := rfl
      rw [acted]
      generalize link.codec.decode link.buffer = answer at call ⊢
      obtain ⟨⟨more, counted, cut, moreAccounts, total⟩, same, failed⟩ := call
      refine ⟨⟨segments ++ more, ?_, ?_⟩, ?_, same.trans config, ?_⟩
      · rw [split, cut]
        simp [received]
      · have whole := accounts.append (moreAccounts.congr config)
        have sum : link.taken + link.codec.garbledCount - codec.garbledCount + counted =
            link.taken + answer.2.1.garbledCount - codec.garbledCount := by omega
        rw [sum, ← Link.frames_append link (answer.1, answer.2.1.garbledCount)] at whole
        exact whole
      · simp only
        omega
      · intro recovery error count member recoverable
        rcases List.mem_append.mp member with old | new
        · exact errors recovery error count old recoverable
        · simp only [List.mem_singleton, Prod.mk.injEq] at new
          rw [new.2]
          exact failed (config.garbledRecovery.trans recovery) error new.1.symm recoverable

theorem Sound.run {codec : FixCodec} {stream : Bytes} {link : Link}
    (sound : Sound codec stream link) (actions : List Action) :
    Sound codec (stream ++ received actions) (link.run actions) := by
  induction actions generalizing stream link with
  | nil => simpa [received, Link.run] using sound
  | cons action actions ih =>
      have step := ih (sound.act action)
      simpa [received, Link.run] using step

theorem Sound.start (codec : FixCodec) : Sound codec [] (Link.start codec) := by
  refine ⟨⟨[], rfl, ?_⟩, Nat.le_add_left _ _, .refl _, by simp [Link.start]⟩
  have none : 0 + codec.garbledCount - codec.garbledCount = 0 := by omega
  simpa [Link.start, none, Link.frames] using Accounts.nil

/-- Every frame handed up is well formed. -/
theorem link_frames_sound (codec : FixCodec) (actions : List Action) :
    ∀ frame ∈ ((Link.start codec).run actions).frames, ∃ beginning digits body checksum,
      IsFrame codec frame beginning digits body checksum := by
  obtain ⟨segments, _, accounts⟩ := ((Sound.start codec).run actions).accounted
  exact accounts.sound

section Counter

variable {codec : FixCodec} {src : Bytes}

theorem pass_misframed {n : Nat} {error : CodecError}
    (settled : codec.resyncState = .settled) (decided : codec.verdict src = .misframed n error) :
    codec.pass src = FixCodec.afterAttempt src.length (.error error, codec, src.drop n) := by
  simp [FixCodec.pass, FixCodec.judged, settled, FixCodec.decodeOne_eq, decided, FixCodec.carryOut]

/-- A misframed span is skipped and counted. -/
theorem decode_misframed {n : Nat} {error : CodecError} (recovery : codec.garbledRecovery = true)
    (settled : codec.resyncState = .settled) (decided : codec.verdict src = .misframed n error)
    (room : codec.garbledCount < u64Max) :
    codec.decode src =
      ({ codec with garbledCount := codec.garbledCount + 1 } : FixCodec).decode (src.drop n) := by
  have counted : checkedAdd u64Max codec.garbledCount 1 = some (codec.garbledCount + 1) :=
    checkedAdd_eq_some.mpr ⟨rfl, room⟩
  have least := FixCodec.verdict_length (.inr ⟨error, decided⟩)
  have recoverable := FixCodec.verdict_misframed decided
  have consumed : ¬(src.drop n).length ≥ src.length := by
    rw [List.length_drop]
    simp only [TRAILER_LEN, MIN_FRAME_LEN] at least
    omega
  rw [FixCodec.decode_eq, pass_misframed settled decided]
  simp only [FixCodec.afterAttempt, recovery, recoverable, not_true_eq_false, or_self, if_false,
    FixCodec.recordSkip, counted, consumed, false_and]

/-- A misframed span that can no longer be counted is returned. -/
theorem decode_overflow {n : Nat} {error : CodecError} (recovery : codec.garbledRecovery = true)
    (settled : codec.resyncState = .settled) (decided : codec.verdict src = .misframed n error)
    (full : codec.garbledCount = u64Max) :
    codec.decode src = (.error error, codec, src.drop n) := by
  have counted : checkedAdd u64Max codec.garbledCount 1 = none := by
    unfold checkedAdd
    rw [if_neg (by omega)]
  have recoverable := FixCodec.verdict_misframed decided
  rw [FixCodec.decode_eq, pass_misframed settled decided]
  simp only [FixCodec.afterAttempt, recovery, recoverable, not_true_eq_false, or_self, if_false,
    FixCodec.recordSkip, counted]

/-- A frame whose CheckSum does not agree. -/
def miscountedFrame : Bytes := ascii "8=FIX.4.4\x019=5\x0135=0\x0110=000\x01"

theorem miscountedFrame_verdict (size : codec.maxMessageSize = 1024 * 1024)
    (validates : codec.validateChecksum = true) (rest : Bytes) :
    codec.verdict (miscountedFrame ++ rest) =
      .misframed miscountedFrame.length (.checksumMismatch 163 0) := by
  have framed : codec.Framed (miscountedFrame ++ rest) (ascii "8=FIX.4.4") (ascii "5")
      (ascii "35=0\x01") (ascii "000") rest := by
    refine ⟨rfl, ?_, by decide, by decide, by decide, by decide, by decide, by decide, by decide,
      ?_, by decide⟩
    · rw [List.length_append]
      exact le_trans (by decide) (Nat.le_add_right _ _)
    · rw [size]
      decide
  rw [FixCodec.verdict_framed framed]
  have declared : parseChecksum (ascii "000") = some 0 := by decide
  have calculated : calculateChecksum (headerBytes (ascii "8=FIX.4.4") (ascii "5") ++
      ascii "35=0\x01") = 163 := by decide
  rw [declared, calculated]
  simp only [validates]
  decide

/-- Skipping `k` of them in one call. -/
theorem decode_miscountedFrames (k : Nat) (codec : FixCodec) (rest : Bytes)
    (recovery : codec.garbledRecovery = true) (settled : codec.resyncState = .settled)
    (size : codec.maxMessageSize = 1024 * 1024) (validates : codec.validateChecksum = true)
    (room : codec.garbledCount + k ≤ u64Max) :
    codec.decode ((List.replicate k miscountedFrame).flatten ++ rest) =
      ({ codec with garbledCount := codec.garbledCount + k } : FixCodec).decode rest := by
  induction k generalizing codec with
  | zero => rfl
  | succ k ih =>
      rw [List.replicate_succ, List.flatten_cons, List.append_assoc,
        decode_misframed recovery settled (miscountedFrame_verdict size validates _) (by omega),
        List.drop_left]
      have later := ih { codec with garbledCount := codec.garbledCount + 1 } recovery settled size
        validates (by simp only; omega)
      simp only [Nat.add_assoc, Nat.add_comm 1 k] at later
      exact later

end Counter

end IronFix.Transport
