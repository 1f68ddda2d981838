import IronFix.Engine.Sends

/-!
# What the stream has accepted

The bytes fed are those the stream accepted and those in the buffer, in order.
Marks and counts are measured from that, and the clock of the write timeout
from what happened at the buffer.
-/

namespace IronFix.Engine

open Lib.Decimal

theorem addBytes_eq_some {count : Option Nat} {n m : Nat} (kept : addBytes count n = some m) :
    ∃ c, count = some c ∧ m = c + n := by
  obtain ⟨c, counted, added⟩ := Option.bind_eq_some_iff.mp kept
  exact ⟨c, counted, (checkedAdd_eq_some.mp added).1.symm⟩

/-! ## Marks -/

/-- A mark counts down to the end of the frame it watches. -/
def MarkFits (mark : WriteMark) (accepted fed : Nat) : Option Nat → Prop
  | none => mark.ahead = none ∧ mark.written = false
  | some place => place ≤ fed ∧
    (mark.ahead = some (place - accepted) ∧ accepted < place ∧ mark.written = false ∨
      mark.ahead = none ∧ place ≤ accepted)

theorem MarkFits.wrote {mark : WriteMark} {accepted fed moved : Nat} {watched : Option Nat}
    (fits : MarkFits mark accepted fed watched) : MarkFits (mark.wrote moved) (accepted + moved) fed watched := by
  unfold WriteMark.wrote
  cases watched with
  | none =>
      rw [fits.1]
      exact fits
  | some place =>
      obtain ⟨inside, ⟨isAhead, below, unwritten⟩ | ⟨none, past⟩⟩ := fits
      · rw [isAhead]
        dsimp only
        split
        · rename_i short
          refine ⟨inside, .inl ⟨?_, by omega, unwritten⟩⟩
          show some _ = some _
          congr 1
          omega
        · rename_i enough
          exact ⟨inside, .inr ⟨rfl, by omega⟩⟩
      · rw [none]
        exact ⟨inside, .inr ⟨none, Nat.le_add_right_of_le past⟩⟩

theorem MarkFits.grow {mark : WriteMark} {accepted fed more : Nat} {watched : Option Nat}
    (fits : MarkFits mark accepted fed watched) (grows : fed ≤ more) : MarkFits mark accepted more watched := by
  cases watched with
  | none => exact fits
  | some place => exact ⟨Nat.le_trans fits.1 grows, fits.2⟩

/-- With everything accepted, no frame is still watched. -/
theorem MarkFits.flushed {mark : WriteMark} {fed : Nat} {watched : Option Nat} (fits : MarkFits mark fed fed watched) :
    mark.flushed = mark := by
  have none : mark.ahead = none := by
    cases watched with
    | none => exact fits.1
    | some place =>
        obtain ⟨inside, ⟨_, below, _⟩ | ⟨none, _⟩⟩ := fits
        · omega
        · exact none
  unfold WriteMark.flushed
  rw [none]
  rfl

theorem MarkFits.takeWritten {mark : WriteMark} {accepted fed : Nat} {watched : Option Nat}
    (fits : MarkFits mark accepted fed watched) : MarkFits mark.takeWritten accepted fed watched := by
  cases watched with
  | none => exact ⟨fits.1, rfl⟩
  | some place =>
      obtain ⟨inside, ⟨isAhead, below, _⟩ | past⟩ := fits
      · exact ⟨inside, .inl ⟨isAhead, below, rfl⟩⟩
      · exact ⟨inside, .inr past⟩

theorem MarkFits.unwritten_iff {mark : WriteMark} {accepted fed place : Nat}
    (fits : MarkFits mark accepted fed (some place)) : mark.unwritten = true ↔ accepted < place := by
  unfold WriteMark.unwritten
  obtain ⟨_, ⟨isAhead, below, _⟩ | ⟨none, past⟩⟩ := fits
  · simp [isAhead, below]
  · simp [none, past]

/-- A mark turns written when the last byte of its frame is accepted. -/
theorem MarkFits.written_iff {mark : WriteMark} {accepted fed moved : Nat} {watched : Option Nat}
    (fits : MarkFits mark accepted fed watched) (unset : mark.written = false) :
    (mark.wrote moved).written = true ↔
      ∃ place, watched = some place ∧ accepted < place ∧ place ≤ accepted + moved := by
  unfold WriteMark.wrote
  cases watched with
  | none =>
      rw [fits.1]
      simp [unset]
  | some place =>
      obtain ⟨_, ⟨isAhead, below, _⟩ | ⟨none, past⟩⟩ := fits
      · rw [isAhead]
        dsimp only
        split
        · rename_i short
          simp only [unset, Bool.false_eq_true, Option.some.injEq, exists_eq_left', false_iff]
          omega
        · rename_i enough
          simp only [Option.some.injEq, exists_eq_left', true_iff]
          omega
      · rw [none]
        simp only [unset, Bool.false_eq_true, Option.some.injEq, exists_eq_left', false_iff]
        omega

namespace SendSystem

/-! ## The wire -/

structure Wire (system : SendSystem) : Prop where
  order : system.stream ++ system.buffer = system.fed
  fedCount : ∀ n, system.writer.fedBytes = some n → n = system.fed.length
  acceptedCount : ∀ n, system.writer.acceptedBytes = some n → n = system.stream.length
  marks : ∀ kind, MarkFits (system.writer.marks kind) system.stream.length system.fed.length (system.watching kind)

theorem new_wire (settings : SendSettings) (nextSender : Nat) : (new settings nextSender).Wire where
  order := rfl
  fedCount _ counted := (Option.some.inj counted).symm
  acceptedCount _ counted := (Option.some.inj counted).symm
  marks _ := ⟨rfl, rfl⟩

theorem Wire.length {system : SendSystem} (wire : system.Wire) :
    system.stream.length + system.buffer.length = system.fed.length := by
  rw [← wire.order, List.length_append]

/-- A system with the same bytes, counts and marks. -/
theorem Wire.same {system after : SendSystem} (wire : system.Wire) (stream : after.stream = system.stream)
    (buffer : after.buffer = system.buffer) (fed : after.fed = system.fed)
    (fedBytes : after.writer.fedBytes = system.writer.fedBytes)
    (acceptedBytes : after.writer.acceptedBytes = system.writer.acceptedBytes)
    (marks : after.writer.marks = system.writer.marks) (watching : after.watching = system.watching) :
    after.Wire where
  order := by rw [stream, buffer, fed, wire.order]
  fedCount := by
    rw [fedBytes, fed]
    exact wire.fedCount
  acceptedCount := by
    rw [acceptedBytes, stream]
    exact wire.acceptedCount
  marks kind := by
    rw [marks, stream, fed, watching]
    exact wire.marks kind

theorem wrote_acceptedBytes (moved : Nat) (writer : Writer) :
    (writer.wrote moved).2.acceptedBytes = addBytes writer.acceptedBytes moved := by
  unfold Writer.wrote Writer.resolveAccepted
  dsimp only
  split <;> rename_i counted <;> exact counted.symm ▸ rfl

theorem wrote_fedBytes (moved : Nat) (writer : Writer) : (writer.wrote moved).2.fedBytes = writer.fedBytes := by
  unfold Writer.wrote Writer.resolveAccepted
  dsimp only
  split <;> rfl

theorem wrote_marks (moved : Nat) (writer : Writer) :
    (writer.wrote moved).2.marks = fun kind => (writer.marks kind).wrote moved := by
  unfold Writer.wrote Writer.resolveAccepted
  dsimp only
  split <;> rfl

theorem Wire.accept {system : SendSystem} (wire : system.Wire) {moved : Nat} (room : moved ≤ system.buffer.length) :
    (system.accept moved).Wire := by
  unfold SendSystem.accept
  split
  · exact wire
  · have taken : (system.stream ++ system.buffer.take moved).length = system.stream.length + moved := by
      rw [List.length_append, List.length_take, Nat.min_eq_left room]
    refine ⟨?_, ?_, ?_, ?_⟩
    · show system.stream ++ system.buffer.take moved ++ system.buffer.drop moved = system.fed
      rw [List.append_assoc, List.take_append_drop, wire.order]
    · intro n counted
      refine wire.fedCount n ?_
      rw [← wrote_fedBytes moved system.writer]
      exact counted
    · intro n counted
      show n = (system.stream ++ system.buffer.take moved).length
      have counted : addBytes system.writer.acceptedBytes moved = some n := by
        rw [← wrote_acceptedBytes]
        exact counted
      obtain ⟨c, was, rfl⟩ := addBytes_eq_some counted
      rw [taken, wire.acceptedCount c was]
    · intro kind
      show MarkFits ((system.writer.wrote moved).2.marks kind)
        (system.stream ++ system.buffer.take moved).length system.fed.length (system.watching kind)
      rw [wrote_marks, taken]
      exact (wire.marks kind).wrote

/-- What feeding a frame does. -/
theorem feed_eq_ok {frame : EncodedFrame} {system after : SendSystem} (fed : system.feed frame = .ok after) :
    ∃ writer, after = { system with
      writer
      buffer := system.buffer ++ frame.bytes
      fed := system.fed ++ frame.bytes
      log := .fed :: system.log } ∧
      writer.fedBytes = addBytes system.writer.fedBytes frame.bytes.length ∧
      writer.acceptedBytes = system.writer.acceptedBytes ∧ writer.marks = system.writer.marks ∧
      writer.receipts = system.writer.receipts ∧ writer.pending = true ∧
      writer.progressed = system.writer.progressed ∧ writer.stalledSince = system.writer.stalledSince := by
  unfold SendSystem.feed Writer.feed at fed
  split at fed
  · cases fed
  · rename_i buffer writer appended
    split at appended
    · cases appended
    · obtain ⟨rfl, rfl⟩ := Prod.mk.inj (Except.ok.inj appended)
      obtain rfl := Except.ok.inj fed
      exact ⟨_, rfl, rfl, rfl, rfl, rfl, rfl, rfl, rfl⟩

theorem Wire.feed {system after : SendSystem} (wire : system.Wire) {frame : EncodedFrame}
    (fed : system.feed frame = .ok after) : after.Wire := by
  obtain ⟨writer, rfl, fedBytes, acceptedBytes, marks, _⟩ := feed_eq_ok fed
  refine ⟨?_, ?_, ?_, ?_⟩
  · show system.stream ++ (system.buffer ++ frame.bytes) = system.fed ++ frame.bytes
    rw [← List.append_assoc, wire.order]
  · intro n counted
    have counted : addBytes system.writer.fedBytes frame.bytes.length = some n := fedBytes ▸ counted
    obtain ⟨c, was, rfl⟩ := addBytes_eq_some counted
    show c + frame.bytes.length = (system.fed ++ frame.bytes).length
    rw [List.length_append, wire.fedCount c was]
  · intro n counted
    exact wire.acceptedCount n (acceptedBytes ▸ counted)
  · intro kind
    show MarkFits (writer.marks kind) system.stream.length (system.fed ++ frame.bytes).length (system.watching kind)
    rw [marks, List.length_append]
    exact (wire.marks kind).grow (Nat.le_add_right _ _)

theorem Wire.markFrame {system : SendSystem} (wire : system.Wire) (waits : system.buffer ≠ [])
    (kind : Option Watched) : (system.markFrame kind).Wire := by
  cases kind with
  | none => exact wire
  | some kind =>
      have length := wire.length
      have positive : 0 < system.buffer.length := List.length_pos_iff.mpr waits
      refine ⟨wire.order, wire.fedCount, wire.acceptedCount, ?_⟩
      intro other
      show MarkFits (if other = kind then .mark system.buffer.length else system.writer.marks other)
        system.stream.length system.fed.length (if other = kind then some system.fed.length else system.watching other)
      split
      · refine ⟨Nat.le_refl _, .inl ⟨?_, by omega, rfl⟩⟩
        show some _ = some _
        congr 1
        omega
      · exact wire.marks other

/-- A flush completes with everything fed accepted. -/
theorem Wire.onFlushed {system : SendSystem} (wire : system.Wire) (isEmpty : system.buffer = []) :
    system.onFlushed.Wire := by
  have all : system.stream.length = system.fed.length := by
    rw [← wire.length, isEmpty]
    rfl
  refine ⟨wire.order, wire.fedCount, wire.acceptedCount, ?_⟩
  intro kind
  have fits := wire.marks kind
  rw [all] at fits
  show MarkFits (system.writer.marks kind).flushed system.stream.length system.fed.length (system.watching kind)
  rw [fits.flushed, all]
  exact fits

/-! ## The clock -/

/-- Output was fed since the last completed flush. -/
def Waiting (log : List WriterEvent) : Prop :=
  ∃ later earlier, log = later ++ .fed :: earlier ∧ .flushed ∉ later

theorem Waiting.cons {log : List WriterEvent} (waiting : Waiting log) {event : WriterEvent} (kind : event ≠ .flushed) :
    Waiting (event :: log) := by
  obtain ⟨later, earlier, rfl, none⟩ := waiting
  refine ⟨event :: later, earlier, rfl, ?_⟩
  intro inside
  rcases List.mem_cons.mp inside with rfl | inside
  · exact kind rfl
  · exact none inside

/-- Since a tick at `since` that found output waiting, no flush was completed; `quiet`, and no
byte accepted. -/
def Standstill (log : List WriterEvent) (since : Nat) (quiet : Prop) : Prop :=
  ∃ later earlier, log = later ++ .ticked since :: earlier ∧ Waiting earlier ∧ .flushed ∉ later ∧
    (quiet → .accepted ∉ later)

theorem Standstill.cons {log : List WriterEvent} {since : Nat} {quiet after : Prop}
    (standstill : Standstill log since quiet) {event : WriterEvent} (unflushed : event ≠ .flushed)
    (still : after → quiet ∧ event ≠ .accepted) : Standstill (event :: log) since after := by
  obtain ⟨later, earlier, rfl, waiting, none, silent⟩ := standstill
  refine ⟨event :: later, earlier, rfl, waiting, ?_, ?_⟩
  · intro inside
    rcases List.mem_cons.mp inside with rfl | inside
    · exact unflushed rfl
    · exact none inside
  · intro isQuiet inside
    obtain ⟨wasQuiet, differs⟩ := still isQuiet
    rcases List.mem_cons.mp inside with rfl | inside
    · exact differs rfl
    · exact silent wasQuiet inside

structure Clock (system : SendSystem) : Prop where
  waiting : system.writer.pending = true → Waiting system.log
  stalled : ∀ since, system.writer.stalledSince = some since →
    Standstill system.log since (system.writer.progressed = false)

theorem new_clock (settings : SendSettings) (nextSender : Nat) : (new settings nextSender).Clock where
  waiting impossible := by cases impossible
  stalled since impossible := by cases impossible

theorem Clock.same {system after : SendSystem} (clock : system.Clock) (log : after.log = system.log)
    (pending : after.writer.pending = system.writer.pending)
    (progressed : after.writer.progressed = system.writer.progressed)
    (stalledSince : after.writer.stalledSince = system.writer.stalledSince) : after.Clock where
  waiting := by
    rw [pending, log]
    exact clock.waiting
  stalled := by
    rw [stalledSince, log, progressed]
    exact clock.stalled

theorem wrote_clock (moved : Nat) (writer : Writer) : (writer.wrote moved).2.pending = writer.pending ∧
    (writer.wrote moved).2.progressed = true ∧ (writer.wrote moved).2.stalledSince = writer.stalledSince := by
  unfold Writer.wrote Writer.resolveAccepted
  dsimp only
  split <;> exact ⟨rfl, rfl, rfl⟩

theorem Clock.accept {system : SendSystem} (clock : system.Clock) (moved : Nat) : (system.accept moved).Clock := by
  unfold SendSystem.accept
  split
  · exact clock
  · obtain ⟨pending, progressed, stalledSince⟩ := wrote_clock moved system.writer
    refine ⟨?_, ?_⟩
    · intro waits
      have waits : (system.writer.wrote moved).2.pending = true := waits
      rw [pending] at waits
      exact (clock.waiting waits).cons (by simp)
    · intro since set
      have set : (system.writer.wrote moved).2.stalledSince = some since := set
      rw [stalledSince] at set
      refine (clock.stalled since set).cons (by simp) ?_
      intro quiet
      have quiet : (system.writer.wrote moved).2.progressed = false := quiet
      rw [progressed] at quiet
      cases quiet

theorem Clock.feed {system after : SendSystem} (clock : system.Clock) {frame : EncodedFrame}
    (fed : system.feed frame = .ok after) : after.Clock := by
  obtain ⟨writer, rfl, _, _, _, _, _, progressed, stalledSince⟩ := feed_eq_ok fed
  refine ⟨fun _ => ⟨[], system.log, rfl, by simp⟩, ?_⟩
  intro since set
  have set : writer.stalledSince = some since := set
  rw [stalledSince] at set
  refine (clock.stalled since set).cons (by simp) ?_
  intro quiet
  have quiet : writer.progressed = false := quiet
  rw [progressed] at quiet
  exact ⟨quiet, by simp⟩

/-- What one tick does to the clock. -/
theorem Clock.tick {system : SendSystem} (clock : system.Clock) (now writeTimeout : Nat) :
    Clock { system with
      writer := (system.writer.onTick now writeTimeout).2
      log := .ticked now :: system.log } := by
  have onward (waits : system.writer.pending = true) : Waiting (.ticked now :: system.log) :=
    (clock.waiting waits).cons (by simp)
  unfold Writer.onTick
  split
  · rename_i idle
    refine ⟨?_, fun since impossible => by cases impossible⟩
    intro waits
    have waits : system.writer.pending = true := waits
    rw [idle] at waits
    cases waits
  · rename_i busy
    have waits : system.writer.pending = true := by simpa using busy
    -- a tick from which the standstill is measured
    have starts (quiet : Prop) : Standstill (.ticked now :: system.log) now quiet :=
      ⟨[], system.log, rfl, clock.waiting waits, by simp, fun _ => by simp⟩
    split
    · refine ⟨fun _ => onward waits, ?_⟩
      intro since set
      obtain rfl := Option.some.inj set
      exact starts _
    · rename_i unprogressed
      have goesOn {since : Nat} (set : system.writer.stalledSince = some since) :
          Standstill (.ticked now :: system.log) since (system.writer.progressed = false) :=
        (clock.stalled since set).cons (by simp) (fun quiet => ⟨quiet, by simp⟩)
      split
      · split
        · exact ⟨fun _ => onward waits, fun since set => goesOn set⟩
        · exact ⟨fun _ => onward waits, fun since set => goesOn set⟩
      · refine ⟨fun _ => onward waits, ?_⟩
        intro since set
        obtain rfl := Option.some.inj set
        exact starts _

/-- A stall is reported only after a whole timeout without a byte. -/
theorem Clock.of_stalled {system : SendSystem} (clock : system.Clock) {now writeTimeout : Nat}
    (stalls : (system.writer.onTick now writeTimeout).1 = .stalled) :
    system.writer.pending = true ∧
      ∃ since, since + writeTimeout ≤ now ∧ Standstill system.log since True := by
  unfold Writer.onTick at stalls
  split at stalls
  · cases stalls
  · rename_i busy
    split at stalls
    · cases stalls
    · rename_i unprogressed
      split at stalls
      · rename_i since set
        split at stalls
        · rename_i long
          refine ⟨by simpa using busy, since, by omega, ?_⟩
          obtain ⟨later, earlier, split, waiting, unflushed, silent⟩ := clock.stalled since set
          exact ⟨later, earlier, split, waiting, unflushed, fun _ => silent (by simpa using unprogressed)⟩
        · cases stalls
      · cases stalls

end SendSystem

end IronFix.Engine
