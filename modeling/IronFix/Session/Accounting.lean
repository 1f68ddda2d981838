import IronFix.Lib.Runs
import IronFix.Lib.Tiling
import IronFix.Session.Receiver

/-!
# Inbound numbers are accounted for

The expectation only moves up, and every number it moved over was consumed by
one message or covered by a SequenceReset. The trail of a receiver is a tiling
(`Tiles`) of what it moved over; each handler adds at most one piece
(`Accounted`), and so does each step of a run.
-/

namespace IronFix.Session

open Lib.Decimal Lib.Effects Lib.Runs Lib.Tiling

namespace Passage

/-- The expectation before. -/
def first : Passage → Nat
  | .consumed seq _ => seq
  | .covered start _ _ => start

/-- The expectation after. -/
def next : Passage → Nat
  | .consumed seq _ => seq + 1
  | .covered _ _ stop => stop

/-- The number a message consumed. -/
def number? : Passage → Option Nat
  | .consumed seq _ => some seq
  | .covered .. => none

/-- A consumed number is its message's own; a reset names the number it leads
to, and one that fills a gap starts at its own number. -/
def Sound : Passage → Prop
  | .consumed seq message => ∀ frame ∈ message, frame.seq = seq
  | .covered start reset stop =>
      reset.msgType.code = MSG_SEQUENCE_RESET ∧ reset.newSeqNo = some stop ∧
        (reset.gapFillFlag = some "Y" → reset.seq = start)

end Passage

namespace Receiver

/-- Every frame the queue holds is held under its own number. -/
def HoldsOwn (queue : GapQueue InboundFrame) : Prop :=
  ∀ held ∈ queue.entries.entries, ∀ frame, held.2 = .frame frame → frame.seq = held.1

def Keyed (receiver : Receiver) : Prop := ∀ queue ∈ receiver.queue, HoldsOwn queue

/-- What moved the expectation since `origin` is laid end to end. -/
structure Accounted (origin receiver : Receiver) : Prop where
  moves : ∃ more, receiver.trail = origin.trail ++ more ∧
    Tiles Passage.first Passage.next origin.expected more receiver.expected ∧
    ∀ passage ∈ more, passage.Sound
  bounded : receiver.expected ≤ u64Max
  keyed : receiver.Keyed

namespace Accounted

variable {origin receiver : Receiver}

theorem refl (bounded : receiver.expected ≤ u64Max) (keyed : receiver.Keyed) :
    Accounted receiver receiver :=
  ⟨⟨[], (List.append_nil _).symm, rfl, by simp⟩, bounded, keyed⟩

theorem le (accounted : Accounted origin receiver) : origin.expected ≤ receiver.expected := by
  obtain ⟨more, -, tiles, -⟩ := accounted.moves
  exact tiles.le

/-- Only the counter, the trail and the queue are accounted for. -/
theorem elsewhere {receiver' : Receiver} (accounted : Accounted origin receiver)
    (sequences : receiver'.sequences = receiver.sequences)
    (trail : receiver'.trail = receiver.trail) (queue : receiver'.queue = receiver.queue) :
    Accounted origin receiver' := by
  have here : receiver'.expected = receiver.expected := by
    unfold expected
    rw [sequences]
  refine ⟨?_, here ▸ accounted.bounded, ?_⟩
  · rw [trail, here]
    exact accounted.moves
  · unfold Keyed
    rw [queue]
    exact accounted.keyed

theorem requeue (accounted : Accounted origin receiver)
    {queue : Option (GapQueue InboundFrame)} (keyed : Keyed { receiver with queue := queue }) :
    Accounted origin { receiver with queue := queue } :=
  ⟨accounted.moves, accounted.bounded, keyed⟩

/-- The expectation moves by one piece more. -/
theorem move (accounted : Accounted origin receiver) (passage : Passage)
    (here : passage.first = receiver.expected) (up : passage.first ≤ passage.next)
    (sound : passage.Sound) (fits : passage.next ≤ u64Max) {sequences : SequenceManager}
    (there : sequences.nextTargetSeq = passage.next) :
    Accounted origin { receiver with
      sequences := sequences, trail := receiver.trail ++ [passage] } := by
  obtain ⟨more, trail, tiles, sounds⟩ := accounted.moves
  refine ⟨⟨more ++ [passage], ?_, ?_, ?_⟩, ?_, accounted.keyed⟩
  · show receiver.trail ++ [passage] = origin.trail ++ (more ++ [passage])
    rw [trail, List.append_assoc]
  · show Tiles _ _ origin.expected (more ++ [passage]) sequences.nextTargetSeq
    rw [there]
    exact tiles.snoc here up
  · intro piece member
    rcases List.mem_append.mp member with earlier | last
    · exact sounds piece earlier
    · rw [List.mem_singleton.mp last]
      exact sound
  · show sequences.nextTargetSeq ≤ u64Max
    rw [there]
    exact fits

end Accounted

/-- Accounted for, and `expected` is next. -/
def At (origin : Receiver) (expected : Nat) (receiver : Receiver) : Prop :=
  Accounted origin receiver ∧ receiver.expected = expected

variable {origin : Receiver} {n : Nat} {α : Type}

/-- Whatever leaves the expectation at every number leaves it accounted for. -/
theorem keeps_of_at {program : Handler α}
    (spec : ∀ n, Meets (At origin n) program (fun _ => At origin n) (fun _ => Accounted origin)) :
    Keeps (Accounted origin) program :=
  fun s accounted =>
    ((spec s.expected).weaken (fun _ => id) (fun _ _ there => there.1)) s ⟨accounted, rfl⟩

/-! ## What leaves the expectation -/

theorem choose_at :
    Meets (At origin n) choose (fun _ => At origin n) (fun _ => Accounted origin) := by
  refine Meets.read fun seen => ?_
  cases seen.choices with
  | nil => exact Meets.stops fun s there => there.1.1
  | cons choice choices =>
      refine Meets.bind (Meets.writes (Q := fun _ => At origin n) ?_) fun _ =>
        Meets.returns fun _ there => there
      rintro s ⟨⟨accounted, here⟩, rfl⟩
      exact ⟨accounted.elsewhere rfl rfl rfl, here⟩

theorem persistTarget_at (next : Nat) :
    Meets (At origin n) (persistTarget next) (fun _ => At origin n) (fun _ => Accounted origin) := by
  refine Meets.bind choose_at fun choice => ?_
  split
  · exact Meets.returns fun _ there => there
  · exact Meets.stops fun _ there => there.1

theorem sendReject_at :
    Meets (At origin n) sendReject (fun _ => At origin n) (fun _ => Accounted origin) := by
  refine Meets.bind choose_at fun choice => ?_
  split
  · exact Meets.returns fun _ there => there
  · exact Meets.stops fun _ there => there.1

theorem requestResend_at :
    Meets (At origin n) requestResend (fun _ => At origin n) (fun _ => Accounted origin) := by
  refine Meets.bind choose_at fun choice => ?_
  cases choice.request with
  | unsent => exact Meets.returns fun _ there => there
  | sent => exact Meets.changes fun s there => ⟨there.1.elsewhere rfl rfl rfl, there.2⟩
  | failed => exact Meets.stops fun _ there => there.1

theorem insert_holdsOwn {queue queue' : GapQueue InboundFrame} {seq : Nat}
    {entry : GapEntry InboundFrame} {outcome : Insert} (holds : HoldsOwn queue)
    (own : ∀ frame, entry = .frame frame → frame.seq = seq)
    (inserted : queue.insert InboundFrame.size seq entry = (outcome, queue')) :
    HoldsOwn queue' := by
  unfold GapQueue.insert at inserted
  split at inserted
  · cases inserted
    exact holds
  · split at inserted
    · cases inserted
      exact holds
    · split at inserted
      · cases inserted
        exact holds
      · cases inserted
        intro held member frame isFrame
        rcases Lib.Ordered.mem_put member with rfl | earlier
        · exact own frame isFrame
        · exact holds held earlier frame isFrame

theorem setQueue_at {seen : Receiver} {queue queue' : GapQueue InboundFrame}
    (held : seen.queue = some queue) (kept : HoldsOwn queue → HoldsOwn queue') :
    Meets (fun s => At origin n s ∧ s = seen)
      (set { seen with queue := some queue' } : Handler PUnit)
      (fun _ => At origin n) (fun _ => Accounted origin) := by
  refine Meets.writes ?_
  rintro s ⟨⟨accounted, here⟩, rfl⟩
  refine ⟨accounted.requeue ?_, here⟩
  rintro _ ⟨⟩
  exact kept (accounted.keyed queue held)

theorem queueGapped_at {seq : Nat} {entry : GapEntry InboundFrame}
    (own : ∀ frame, entry = .frame frame → frame.seq = seq) :
    Meets (At origin n) (queueGapped seq entry) (fun _ => At origin n)
      (fun _ => Accounted origin) := by
  refine Meets.read fun seen => ?_
  cases held : seen.queue with
  | none => exact Meets.returns fun s there => there.1
  | some queue =>
      dsimp only
      split
      · exact Meets.returns fun s there => there.1
      · split
        · rename_i inserted
          refine Meets.bind (setQueue_at held fun holds => ?_) fun _ =>
            Meets.returns fun _ there => there
          exact insert_holdsOwn holds own inserted
        · exact Meets.returns fun s there => there.1
        · exact Meets.bind (setQueue_at held fun holds => holds) fun _ =>
            Meets.returns fun _ there => there

theorem clearGapQueue_at :
    Meets (At origin n) clearGapQueue (fun _ => At origin n) (fun _ => Accounted origin) := by
  refine Meets.changes ?_
  rintro s ⟨accounted, here⟩
  refine ⟨accounted.requeue ?_, here⟩
  intro queue member
  obtain ⟨before, -, rfl⟩ := Option.map_eq_some_iff.mp member
  exact nofun

theorem onLogout_at (frame : InboundFrame) :
    Meets (At origin n) (onLogout frame) (fun _ => At origin n) (fun _ => Accounted origin) := by
  unfold onLogout
  split
  · refine Meets.bind clearGapQueue_at fun _ => Meets.changes ?_
    exact fun s there => ⟨there.1.elsewhere rfl rfl rfl, there.2⟩
  · exact Meets.returns fun _ there => there

theorem dispatchAdmin_at (frame : InboundFrame) :
    Meets (At origin n) (dispatchAdmin frame) (fun _ => At origin n)
      (fun _ => Accounted origin) := by
  refine Meets.bind choose_at fun choice => ?_
  split
  · exact sendReject_at
  · refine Meets.bind (onLogout_at frame) fun _ => ?_
    refine Meets.bind (Meets.changes (Q := fun _ => At origin n) ?_) fun _ => ?_
    · exact fun s there => ⟨there.1.elsewhere rfl rfl rfl, there.2⟩
    · split
      · exact Meets.returns fun _ there => there
      · exact Meets.stops fun _ there => there.1

/-! ## What moves the expectation -/

theorem tryIncrementTarget_accounted {message : Option InboundFrame}
    (own : ∀ frame ∈ message, frame.seq = n) :
    Meets (At origin n) (tryIncrementTarget n message) (fun _ => Accounted origin)
      (fun _ => Accounted origin) := by
  refine Meets.read fun seen => ?_
  unfold SequenceManager.tryIncrementTargetSeq
  cases next : checkedAdd u64Max seen.sequences.nextTargetSeq 1 with
  | none => exact Meets.stops fun s there => there.1.1
  | some next' =>
      refine Meets.writes ?_
      rintro s ⟨⟨accounted, rfl⟩, rfl⟩
      obtain ⟨rfl, fits⟩ := checkedAdd_eq_some.mp next
      exact accounted.move (.consumed s.expected message) rfl (Nat.le_succ _) own fits
        rfl

theorem consume_accounted {message : Option InboundFrame}
    (own : ∀ frame ∈ message, frame.seq = n) :
    Meets (At origin n) (consume n message) (fun _ => Accounted origin)
      (fun _ => Accounted origin) := by
  unfold consume
  split
  · exact Meets.stops fun s there => there.1
  · exact Meets.bind (persistTarget_at _) fun _ => tryIncrementTarget_accounted own

theorem setTarget_accounted {reset : InboundFrame} {newSeq : Nat} (up : n ≤ newSeq)
    (sound : (Passage.covered n reset newSeq).Sound) :
    Meets (At origin n) (setTarget reset newSeq) (fun _ => Accounted origin)
      (fun _ => Accounted origin) := by
  refine Meets.changes ?_
  rintro s ⟨accounted, rfl⟩
  exact accounted.move (.covered s.expected reset newSeq) rfl up sound
    (reset.newSeqU64 newSeq sound.2.1) rfl

theorem onAppInSequence_accounted {frame : InboundFrame} (own : frame.seq = n) :
    Meets (At origin n) (onAppInSequence frame n) (fun _ => Accounted origin)
      (fun _ => Accounted origin) := by
  have owned : ∀ message ∈ some frame, message.seq = n := by
    rintro _ ⟨⟩
    exact own
  refine Meets.bind choose_at fun choice => ?_
  cases choice.app with
  | deliver => exact consume_accounted owned
  | reject => exact Meets.bind (consume_accounted owned) fun _ => keeps_of_at fun _ => sendReject_at
  | queueFull => exact Meets.stops fun _ there => there.1
  | stopped => exact Meets.stops fun _ there => there.1

/-! ## A SequenceReset -/

/-- A SequenceReset that may move the expectation from `n`: a fill numbered `n`,
or a reset. -/
structure Fits (n : Nat) (frame : InboundFrame) (seq : Nat) (gapFill : Bool) : Prop where
  isReset : frame.msgType.code = MSG_SEQUENCE_RESET
  own : frame.seq = seq
  fill : gapFill = true → seq = n
  reset : gapFill = false → frame.gapFillFlag ≠ some "Y"

theorem consumeRejectedFill_accounted {frame : InboundFrame} {seq : Nat} {gapFill : Bool}
    (fits : Fits n frame seq gapFill) :
    Meets (At origin n) (consumeRejectedFill gapFill seq frame) (fun _ => Accounted origin)
      (fun _ => Accounted origin) := by
  refine Meets.read fun seen => ?_
  cases gapFill with
  | false => exact Meets.returns fun s there => there.1.1
  | true =>
      obtain rfl : seq = n := fits.fill rfl
      split
      · exact Meets.returns fun s there => there.1.1
      · refine (tryIncrementTarget_accounted ?_).weaken (fun s there => there.1) fun _ _ => id
        rintro _ ⟨⟩
        exact fits.own

theorem applySequenceReset_accounted {frame : InboundFrame} {seq : Nat} {gapFill : Bool}
    (fits : Fits n frame seq gapFill) :
    Meets (At origin n) (applySequenceReset frame seq gapFill) (fun _ => Accounted origin)
      (fun _ => Accounted origin) := by
  have rejected : Meets (At origin n) (do consumeRejectedFill gapFill seq frame; sendReject)
      (fun _ => Accounted origin) (fun _ => Accounted origin) :=
    Meets.bind (consumeRejectedFill_accounted fits) fun _ => keeps_of_at fun _ => sendReject_at
  refine Meets.bind choose_at fun choice => ?_
  split
  · exact rejected
  · refine Meets.read fun seen => ?_
    have seenAt : ∀ s, At origin n s ∧ s = seen → At origin n s := fun s there => there.1
    cases decided : decideSequenceReset gapFill seq frame.newSeqNo seen.expected with
    | missingNewSeqNo => exact rejected.weaken seenAt fun _ _ => id
    | fillNotAdvancing newSeq =>
        -- the fill's own number is consumed, as a message's is
        obtain ⟨rfl, -, -⟩ := decideSequenceReset_fillNotAdvancing decided
        obtain rfl : seq = n := fits.fill rfl
        refine (Meets.bind (tryIncrementTarget_accounted ?_) fun _ =>
          keeps_of_at fun _ => sendReject_at).weaken seenAt fun _ _ => id
        rintro _ ⟨⟩
        exact fits.own
    | resetBelowExpected _ _ => exact sendReject_at.weaken seenAt fun _ _ there => there.1
    | apply newSeq renumbers advances =>
        obtain ⟨named, advanced, notBelow⟩ := decideSequenceReset_apply decided
        rintro s ⟨there, rfl⟩
        have up : n ≤ newSeq := by
          cases gapFill with
          | true => exact fits.fill rfl ▸ Nat.le_of_lt (advanced rfl)
          | false => exact there.2 ▸ notBelow rfl
        have sound : (Passage.covered n frame newSeq).Sound := by
          refine ⟨fits.isReset, named, fun isFill => ?_⟩
          cases gapFill with
          | true => exact fits.own.trans (fits.fill rfl)
          | false => exact absurd isFill (fits.reset rfl)
        refine Meets.bind (persistTarget_at newSeq) (fun _ =>
          Meets.bind (setTarget_accounted up sound) fun _ => ?_) s there
        split
        · exact keeps_of_at fun _ => clearGapQueue_at
        · exact Meets.returns fun _ => id

theorem onSequenceReset_accounted {frame : InboundFrame} {seq : Nat}
    (isReset : frame.msgType.code = MSG_SEQUENCE_RESET) (own : frame.seq = seq) :
    Keeps (Accounted origin) (onSequenceReset frame seq) := by
  refine Meets.read fun seen => ?_
  cases screened : screenSequenceReset seen.sequences frame.gapFillFlag seq frame.possDup with
  | badGapFillFlag =>
      exact (keeps_of_at fun _ => sendReject_at).weaken (fun s there => there.1) fun _ _ => id
  | gappedFill expected received =>
      refine Meets.bind ((keeps_of_at fun _ => requestResend_at).weaken (fun s there => there.1)
        fun _ _ => id) fun _ => ?_
      refine Meets.bind (keeps_of_at fun _ => queueGapped_at ?_) fun _ => Meets.returns fun _ => id
      rintro _ ⟨⟩
      exact own
  | duplicateFill expected =>
      dsimp only
      split
      · exact Meets.returns fun s there => there.1
      · refine Meets.bind (Meets.writes (Q := fun _ => Accounted origin) ?_) fun _ =>
          keeps_of_at fun _ => requestResend_at
        rintro s ⟨accounted, rfl⟩
        exact accounted.elsewhere rfl rfl rfl
  | tooLowFill expected received => exact Meets.stops fun s there => there.1
  | exhausted => exact Meets.stops fun s there => there.1
  | fillInSequence next =>
      have here := screenSequenceReset_fillInSequence screened
      rintro s ⟨accounted, rfl⟩
      refine Meets.bind (persistTarget_at next) (fun _ => applySequenceReset_accounted ?_) s
        ⟨accounted, rfl⟩
      exact ⟨isReset, own, fun _ => here, nofun⟩
  | reset =>
      have notFill := screenSequenceReset_reset screened
      rintro s ⟨accounted, rfl⟩
      have fits : Fits s.expected frame seq false := ⟨isReset, own, nofun, fun _ => notFill⟩
      exact applySequenceReset_accounted fits s ⟨accounted, rfl⟩

/-! ## One event -/

theorem onFrame_accounted (frame : InboundFrame) : Keeps (Accounted origin) (onFrame frame) := by
  refine Meets.read fun seen => ?_
  cases routed : routeInbound seen.sequences frame.msgType frame.seq frame.possDup with
  | sequenceReset =>
      have isReset := routeInbound_sequenceReset routed
      exact (onSequenceReset_accounted isReset rfl).weaken (fun s there => there.1) fun _ _ => id
  | admin next =>
      have here := routeInbound_inSequence (.inl ⟨next, routed⟩)
      rintro s ⟨accounted, rfl⟩
      refine Meets.bind (persistTarget_at next) (fun _ =>
        Meets.bind (tryIncrementTarget_accounted ?_) fun _ =>
          keeps_of_at fun _ => dispatchAdmin_at frame) s ⟨accounted, here.symm⟩
      rintro _ ⟨⟩
      rfl
  | app =>
      have here := routeInbound_inSequence (.inr routed)
      rintro s ⟨accounted, rfl⟩
      exact onAppInSequence_accounted rfl s ⟨accounted, here.symm⟩
  | exhausted => exact Meets.stops fun s there => there.1
  | duplicate => exact Meets.returns fun s there => there.1
  | tooLow expected received => exact Meets.stops fun s there => there.1
  | gap expected received disposition =>
      refine Meets.bind ((keeps_of_at fun _ => requestResend_at).weaken (fun s there => there.1)
        fun _ _ => id) fun _ => ?_
      cases disposition with
      | queueFrame =>
          refine Meets.bind (keeps_of_at fun _ => queueGapped_at ?_) fun _ =>
            Meets.returns fun _ => id
          rintro _ ⟨⟩
          rfl
      | keepNumber =>
          refine Meets.bind (keeps_of_at fun _ => queueGapped_at nofun) fun held => ?_
          split
          · exact Meets.returns fun _ => id
          · exact keeps_of_at fun _ => dispatchAdmin_at frame
      | dispatch => exact keeps_of_at fun _ => dispatchAdmin_at frame

theorem onMalformed_accounted (seq : Nat) (possDup : Bool) :
    Keeps (Accounted origin) (onMalformed seq possDup) := by
  refine Meets.read fun seen => ?_
  cases classified : classifyInbound seen.sequences seq possDup with
  | inSequence =>
      have here := classifyInbound_inSequence.mp classified
      rintro s ⟨accounted, rfl⟩
      have consumed : Meets (At origin seq) (consume seq none) (fun _ => Accounted origin)
          (fun _ => Accounted origin) := consume_accounted nofun
      exact Meets.bind consumed (fun _ => keeps_of_at fun _ => sendReject_at) s
        ⟨accounted, here.symm⟩
  | duplicate expected received => exact Meets.returns fun s there => there.1
  | tooLow expected received => exact Meets.stops fun s there => there.1
  | gap expected received =>
      exact (keeps_of_at fun _ => requestResend_at).weaken (fun s there => there.1) fun _ _ => id

theorem releaseHeldLogon_accounted : Keeps (Accounted origin) releaseHeldLogon := by
  refine Meets.read fun seen => ?_
  cases seen.heldLogon with
  | none => exact Meets.returns fun s there => there.1
  | some logonSeq =>
      dsimp only
      split
      · exact Meets.returns fun s there => there.1
      · rename_i reached
        refine Meets.bind
          (Meets.writes (Q := fun _ s => At origin seen.expected s) ?_) fun _ => ?_
        · rintro s ⟨accounted, rfl⟩
          exact ⟨accounted.elsewhere rfl rfl rfl, rfl⟩
        · split
          · exact Meets.returns fun s there => there.1
          · rename_i notPast
            obtain rfl : seen.expected = logonSeq := by omega
            exact consume_accounted nofun

theorem releaseFrame_accounted {frame : InboundFrame} (own : frame.seq = n) :
    Meets (At origin n) (releaseFrame n frame) (fun _ => Accounted origin)
      (fun _ => Accounted origin) := by
  unfold releaseFrame
  split
  · rename_i isReset
    exact (onSequenceReset_accounted isReset own).weaken (fun s there => there.1) fun _ _ => id
  · exact onAppInSequence_accounted own

theorem releaseNext_accounted : Keeps (Accounted origin) releaseNext := by
  refine Meets.read fun seen => ?_
  cases held : seen.queue with
  | none => exact Meets.returns fun s there => there.1
  | some queue =>
      dsimp only
      split
      · exact Meets.returns fun s there => there.1
      · rintro s ⟨accounted, rfl⟩
        have own := accounted.keyed queue held
        refine Meets.bind (P := fun s' => At origin s.expected s' ∧ s' = s)
          (setQueue_at held fun holds entry member => holds entry
            ((GapQueue.takeEntries_suffix _ _ _ _ _).mem member)) (fun _ => ?_) s ⟨⟨accounted, rfl⟩, rfl⟩
        cases taken : (queue.takeReady InboundFrame.size s.expected).1.next with
        | none => exact Meets.returns fun s' there => there.1
        | some entry =>
            have member := GapQueue.takeEntries_found InboundFrame.size taken
            cases entry with
            | frame frame => exact releaseFrame_accounted (own _ member frame rfl)
            | processed => exact consume_accounted nofun

theorem handler_accounted (event : Event) : Keeps (Accounted origin) event.handler := by
  cases event with
  | arrive frame => exact onFrame_accounted frame
  | malformed seq possDup => exact onMalformed_accounted seq possDup
  | releaseHeldLogon => exact releaseHeldLogon_accounted
  | releaseNext => exact releaseNext_accounted
  | logOut =>
      refine Meets.bind (Meets.changes (Q := fun _ => Accounted origin) ?_) fun _ =>
        keeps_of_at fun _ => clearGapQueue_at
      exact fun s accounted => accounted.elsewhere rfl rfl rfl

/-- A step of an open session is what its handler does. -/
theorem step_meets {receiver : Receiver} (input : Event × List Choice) {P Q : Receiver → Prop}
    {E : CloseReason → Receiver → Prop} (spec : Meets P input.1.handler (fun _ => Q) E)
    (starts : P { receiver with choices := input.2 }) (running : receiver.closed = none) :
    Q (step receiver input) ∨
      ∃ reason after, E reason after ∧
        step receiver input = { after with closed := some reason } := by
  have met := spec { receiver with choices := input.2 } starts
  have isOpen : ¬ receiver.closed.isSome = true := by simp [running]
  unfold step
  rw [if_neg isOpen]
  revert met
  cases input.1.handler { receiver with choices := input.2 } with
  | ok _ after => exact .inl
  | error reason after => exact fun stopped => .inr ⟨reason, after, stopped, rfl⟩

theorem step_closed {receiver : Receiver} (input : Event × List Choice)
    (closed : receiver.closed ≠ none) : step receiver input = receiver :=
  if_pos (Option.isSome_iff_ne_none.mpr closed)

theorem step_accounted {receiver : Receiver} (accounted : Accounted origin receiver)
    (input : Event × List Choice) : Accounted origin (step receiver input) := by
  by_cases running : receiver.closed = none
  · rcases step_meets input (handler_accounted input.1) (accounted.elsewhere rfl rfl rfl) running with
      kept | ⟨reason, after, kept, same⟩
    · exact kept
    · rw [same]
      exact kept.elsewhere rfl rfl rfl
  · rw [step_closed input running]
    exact accounted

theorem run_accounted {receiver : Receiver} (accounted : Accounted origin receiver)
    (events : List (Event × List Choice)) : Accounted origin (run step receiver events) :=
  invariant (P := Accounted origin) (fun _ input kept _ => step_accounted kept input) accounted
    (along_true _ _)

/-! ## A reset below the expectation -/

theorem choose_stays :
    Meets (fun s => s.expected = n) choose (fun _ s => s.expected = n)
      (fun _ s => s.expected = n) := by
  refine Meets.read fun seen => ?_
  cases seen.choices with
  | nil => exact Meets.stops fun s there => there.1
  | cons choice choices =>
      refine Meets.bind (Meets.writes (Q := fun _ s => s.expected = n) ?_) fun _ =>
        Meets.returns fun _ there => there
      rintro s ⟨here, rfl⟩
      exact here

theorem sendReject_stays :
    Meets (fun s => s.expected = n) sendReject (fun _ s => s.expected = n)
      (fun _ s => s.expected = n) := by
  refine Meets.bind choose_stays fun choice => ?_
  split
  · exact Meets.returns fun _ here => here
  · exact Meets.stops fun _ here => here

/-- A reset to a number below the expectation is rejected. -/
theorem onFrame_resetBelow {frame : InboundFrame} {newSeq : Nat}
    (isReset : frame.msgType.code = MSG_SEQUENCE_RESET) (notFill : frame.gapFillFlag ≠ some "Y")
    (named : frame.newSeqNo = some newSeq) (below : newSeq < n) :
    Meets (fun s => s.expected = n) (onFrame frame) (fun _ s => s.expected = n)
      (fun _ s => s.expected = n) := by
  refine Meets.read fun seen => ?_
  have routed : routeInbound seen.sequences frame.msgType frame.seq frame.possDup
      = .sequenceReset := if_pos isReset
  rw [routed]
  refine Meets.read fun seen' => ?_
  rcases screenSequenceReset_notFill seen'.sequences frame.seq frame.possDup notFill with
    screened | screened
  · rw [screened]
    refine Meets.bind (choose_stays.weaken (fun s there => there.1.1) fun _ _ => id) fun choice => ?_
    split
    · exact Meets.bind (Q := fun _ s => s.expected = n)
        (Meets.read fun _ => Meets.returns fun s there => there.1) fun _ => sendReject_stays
    · refine Meets.read fun seen'' => ?_
      rintro s ⟨rfl, rfl⟩
      rw [named, decideSequenceReset_below below]
      exact sendReject_stays s rfl
  · rw [screened]
    exact sendReject_stays.weaken (fun s there => there.1.1) fun _ _ => id

/-! ## The last number -/

/-- The application takes or rejects the next message. -/
def Answered (choices : List Choice) : Prop :=
  ∃ choice later, choices = choice :: later ∧ (choice.app = .deliver ∨ choice.app = .reject)

theorem choose_answered :
    Meets (fun s => Answered s.choices) choose
      (fun choice _ => choice.app = .deliver ∨ choice.app = .reject) (fun _ _ => False) := by
  refine Meets.read fun seen => ?_
  cases next : seen.choices with
  | nil =>
      rintro s ⟨⟨choice, later, answers, -⟩, rfl⟩
      rw [next] at answers
      cases answers
  | cons choice choices =>
      refine Meets.bind (Meets.writes (Q := fun _ _ => choice.app = .deliver ∨ choice.app = .reject)
        ?_) fun _ => Meets.returns fun _ => id
      rintro s ⟨⟨_, later, answers, answered⟩, rfl⟩
      rw [next] at answers
      cases answers
      exact answered

theorem onAppInSequence_last (frame : InboundFrame) :
    Meets (fun s => Answered s.choices) (onAppInSequence frame u64Max) (fun _ _ => False)
      (fun reason _ => reason = .sequenceExhausted .target) := by
  refine Meets.bind (choose_answered.loosen fun _ _ => False.elim) fun choice => ?_
  rintro s (taken | rejected)
  · rw [taken]
    exact rfl
  · rw [rejected]
    exact rfl

/-- A message that carries the last number, next in sequence, is not consumed:
the counter is reported exhausted. -/
theorem onFrame_last {frame : InboundFrame} (last : frame.seq = u64Max)
    (fills : frame.msgType.code = MSG_SEQUENCE_RESET → frame.gapFillFlag = some "Y") :
    Meets (fun s => s.expected = u64Max ∧ (frame.msgType.isAdmin = false → Answered s.choices))
      (onFrame frame) (fun _ _ => False) (fun reason _ => reason = .sequenceExhausted .target) := by
  refine Meets.read fun seen => ?_
  rintro s ⟨⟨here, answered⟩, rfl⟩
  rw [last]
  by_cases isReset : frame.msgType.code = MSG_SEQUENCE_RESET
  · rw [show routeInbound s.sequences frame.msgType u64Max frame.possDup = .sequenceReset from
      if_pos isReset]
    refine Meets.read (P := fun s' => s' = s) (fun seen => ?_) s rfl
    rintro _ ⟨rfl, rfl⟩
    rw [fills isReset, screenSequenceReset_exhausted here.symm]
    exact rfl
  · cases isAdmin : frame.msgType.isAdmin with
    | true =>
        rw [routeInbound_exhausted isReset isAdmin here.symm]
        exact rfl
    | false =>
        rw [routeInbound_app isReset isAdmin here.symm]
        exact onAppInSequence_last frame s (answered isAdmin)

/-! ## Every run -/

/-- The numbers consumed, oldest first. -/
def consumedNumbers (receiver : Receiver) : List Nat := receiver.trail.filterMap Passage.number?

/-- The message numbered `n` was consumed. -/
def Consumed (receiver : Receiver) (n : Nat) : Prop :=
  ∃ message, Passage.consumed n message ∈ receiver.trail ∧ ∀ frame ∈ message, frame.seq = n

/-- A SequenceReset covers `n`: it came when `start` was next and leads past
`n`; one that fills a gap is itself numbered `start`. -/
def Covered (receiver : Receiver) (n : Nat) : Prop :=
  ∃ start reset stop, Passage.covered start reset stop ∈ receiver.trail ∧
    reset.msgType.code = MSG_SEQUENCE_RESET ∧ reset.newSeqNo = some stop ∧
    (reset.gapFillFlag = some "Y" → reset.seq = start) ∧ start ≤ n ∧ n < stop

variable {receiver : Receiver}

theorem Accounted.ascending (accounted : Accounted origin receiver) (fresh : origin.trail = []) :
    receiver.consumedNumbers.Pairwise (· < ·) := by
  obtain ⟨more, trail, tiles, -⟩ := accounted.moves
  have same : receiver.trail = more := by rw [trail, fresh, List.nil_append]
  unfold consumedNumbers
  rw [same, List.pairwise_filterMap]
  refine tiles.ordered.imp fun {earlier later} ordered n isEarlier m isLater => ?_
  cases earlier with
  | covered => cases isEarlier
  | consumed _ _ =>
      cases later with
      | covered => cases isLater
      | consumed _ _ =>
          cases isEarlier
          cases isLater
          exact ordered

theorem Accounted.moved (accounted : Accounted origin receiver) (fresh : origin.trail = [])
    {n : Nat} (above : origin.expected ≤ n) (below : n < receiver.expected) :
    receiver.Consumed n ∨ receiver.Covered n := by
  obtain ⟨more, trail, tiles, sound⟩ := accounted.moves
  have same : receiver.trail = more := by rw [trail, fresh, List.nil_append]
  obtain ⟨piece, member, from_here, to_here⟩ := tiles.covers above below
  have isSound := sound piece member
  rw [← same] at member
  cases piece with
  | consumed seq message =>
      obtain rfl : seq = n := Nat.le_antisymm from_here (Nat.le_of_lt_succ to_here)
      exact .inl ⟨message, member, isSound⟩
  | covered start reset stop =>
      exact .inr ⟨start, reset, stop, member, isSound.1, isSound.2.1, isSound.2.2, from_here,
        to_here⟩

theorem established_accounted (nextSender nextTarget : Fin (2 ^ 64)) (policy : GapPolicy)
    (heldLogon : Option Nat) :
    Accounted (established nextSender nextTarget policy heldLogon)
      (established nextSender nextTarget policy heldLogon) := by
  refine .refl (Nat.le_pred_of_lt nextTarget.isLt) ?_
  intro queue member
  cases policy with
  | discard => cases member
  | queue maxMessages maxBytes =>
      cases member
      exact nofun

theorem step_resetBelow {frame : InboundFrame} {newSeq : Nat} (choices : List Choice)
    (isReset : frame.msgType.code = MSG_SEQUENCE_RESET) (notFill : frame.gapFillFlag ≠ some "Y")
    (named : frame.newSeqNo = some newSeq) (below : newSeq < receiver.expected) :
    (step receiver (.arrive frame, choices)).expected = receiver.expected := by
  by_cases running : receiver.closed = none
  · rcases step_meets (.arrive frame, choices)
      (onFrame_resetBelow isReset notFill named below) rfl running with
      stays | ⟨reason, after, stays, same⟩
    · exact stays
    · rw [same]
      exact stays
  · rw [step_closed _ running]

theorem step_last {frame : InboundFrame} {choices : List Choice} (running : receiver.closed = none)
    (top : receiver.expected = u64Max) (last : frame.seq = u64Max)
    (fills : frame.msgType.code = MSG_SEQUENCE_RESET → frame.gapFillFlag = some "Y")
    (answered : frame.msgType.isAdmin = false → Answered choices) :
    (step receiver (.arrive frame, choices)).closed = some (.sequenceExhausted .target) := by
  rcases step_meets (.arrive frame, choices) (Q := fun _ => False)
    (onFrame_last last fills) ⟨top, answered⟩ running with consumed | ⟨reason, after, rfl, same⟩
  · exact consumed.elim
  · rw [same]

end Receiver

end IronFix.Session
