import IronFix.Fixp.Handlers

/-!
# What a handler can do

Every handler of a bound session is a sequence of the moves listed here, and a
handler that unbinds ends with a close. The properties of the session are
proved of the moves; `Runs` says of each handler that it consists of them.
-/

namespace IronFix.Fixp

open Lib.Decimal

/-- A change of the context in which the counterparty's messages are numbered, or of what the
counterparty is known to have finished. -/
inductive Switch where
  /-- A context switch ends the batch in progress. -/
  | left
  /-- The next real-time message has this number. -/
  | context (next : Nat)
  /-- A message came before any number was announced. -/
  | started
  | batch (next : Nat) (count : NonZero u32Max)
  | replayed
  | released
  | finished
  | finalized

/-- What a move does. -/
inductive Act where
  | output (output : Output)
  /-- The application message the driver writes behind the outputs. -/
  | application (seq : Option Nat)
  /-- An application message handed to the application. -/
  | accepted (seq : Option Nat) (retransmitted : Bool)
  | switched (switch : Switch)

namespace Act

abbrev sent (message : SessionMessage) : Act := .output (.send message)

abbrev told (event : Event) : Act := .output (.event event)

/-- The application messages handed over. -/
def receipts (acts : List Act) : List (Option Nat × Bool) :=
  acts.filterMap fun
    | .accepted seq retransmitted => some (seq, retransmitted)
    | .output _ | .application _ | .switched _ => none

/-- The numbers given out for application messages. -/
def numbered (acts : List Act) : List (Option Nat) :=
  acts.filterMap fun
    | .application seq => some seq
    | .output _ | .accepted .. | .switched _ => none

/-- The outputs queued. -/
def outputs (acts : List Act) : List Output :=
  acts.filterMap fun
    | .output queued => some queued
    | .application _ | .accepted .. | .switched _ => none

/-- All but the outputs. -/
def seen (acts : List Act) : List Act :=
  acts.filter fun
    | .output _ => false
    | .application _ | .accepted .. | .switched _ => true

/-- What counts even when the binding ends: all but the outputs and the context. -/
def handed (acts : List Act) : List Act :=
  acts.filter fun
    | .application _ | .accepted .. | .switched .finished | .switched .finalized => true
    | .output _ | .switched _ => false

/-- Only outputs are queued. -/
def silent (acts : List Act) : Bool :=
  acts.all fun
    | .output _ => true
    | .application _ | .accepted .. | .switched _ => false

@[simp] theorem receipts_nil : receipts [] = [] := rfl

@[simp] theorem receipts_append (first second : List Act) :
    receipts (first ++ second) = receipts first ++ receipts second := List.filterMap_append

@[simp] theorem numbered_nil : numbered [] = [] := rfl

@[simp] theorem numbered_append (first second : List Act) :
    numbered (first ++ second) = numbered first ++ numbered second := List.filterMap_append

@[simp] theorem outputs_nil : outputs [] = [] := rfl

@[simp] theorem outputs_append (first second : List Act) :
    outputs (first ++ second) = outputs first ++ outputs second := List.filterMap_append

@[simp] theorem seen_nil : seen [] = [] := rfl

@[simp] theorem seen_append (first second : List Act) :
    seen (first ++ second) = seen first ++ seen second := List.filter_append ..

@[simp] theorem handed_nil : handed [] = [] := rfl

@[simp] theorem handed_append (first second : List Act) :
    handed (first ++ second) = handed first ++ handed second := List.filter_append ..

theorem receipts_handed (acts : List Act) : receipts (handed acts) = receipts acts := by
  induction acts with
  | nil => rfl
  | cons act acts ih =>
      cases act with
      | accepted seq retransmitted => exact congrArg (List.cons (seq, retransmitted)) ih
      | switched switch => cases switch <;> exact ih
      | _ => exact ih

theorem numbered_handed (acts : List Act) : numbered (handed acts) = numbered acts := by
  induction acts with
  | nil => rfl
  | cons act acts ih =>
      cases act with
      | application seq => exact congrArg (List.cons seq) ih
      | switched switch => cases switch <;> exact ih
      | _ => exact ih

/-- What counts is seen. -/
theorem handed_seen (acts : List Act) : handed (seen acts) = handed acts := by
  induction acts with
  | nil => rfl
  | cons act acts ih =>
      cases act with
      | output output => exact ih
      | accepted seq retransmitted => exact congrArg (List.cons (.accepted seq retransmitted)) ih
      | application seq => exact congrArg (List.cons (.application seq)) ih
      | switched switch =>
          cases switch with
          | finished => exact congrArg (List.cons (.switched .finished)) ih
          | finalized => exact congrArg (List.cons (.switched .finalized)) ih
          | _ => exact ih

theorem silent_append {first second : List Act} (quiet : silent first = true)
    (quiet' : silent second = true) : silent (first ++ second) = true := by
  unfold silent at *
  rw [List.all_append, quiet, quiet']
  rfl

theorem seen_silent {acts : List Act} (quiet : silent acts = true) : seen acts = [] := by
  induction acts with
  | nil => rfl
  | cons act acts ih =>
      cases act with
      | output output => exact ih quiet
      | _ => cases quiet

theorem handed_silent {acts : List Act} (quiet : silent acts = true) : handed acts = [] := by
  rw [← handed_seen, seen_silent quiet]
  rfl

theorem receipts_silent {acts : List Act} (quiet : silent acts = true) : receipts acts = [] := by
  rw [← receipts_handed, handed_silent quiet]
  rfl

end Act

/-- A delivery as acts. -/
def Delivery.acts : Delivery → List Act
  | .accept seq retransmitted => [.accepted seq retransmitted]
  | .discard => []

/-- The changes to what a session knows of the counterparty's numbering. -/
inductive Inflow (config : FixpConfig) : Session → List Act → Session → Prop where
  /-- The first NextSeqNo fixes where the numbering starts. -/
  | start {s : Session} {next : Nat} (sequenced : s.remoteFlow.isSequenced = true)
      (positive : next ≠ 0) (fits : next ≤ u64Max)
      (unfixed : s.startPending = true ∨ s.inboundNext = none) :
      Inflow config s [.switched (.context next)]
        { s with
          startPending := false
          inboundNext := some next }
  | started {s : Session} : Inflow config s [.switched .started] { s with startPending := false }
  | leaveReplay {s : Session} (now : Nat) : Inflow config s [.switched .left] (s.leaveReplay now)
  /-- The number announced is the one expected. -/
  | meets {s : Session} {next : Nat} (fixed : s.startPending = false)
      (was : s.inboundNext = some next) : Inflow config s [.switched (.context next)] s
  /-- A gap of an Idempotent flow is reported, not recovered. -/
  | skip {s : Session} {expected next : Nat} (flow : s.remoteFlow = .idempotent)
      (fixed : s.startPending = false) (was : s.inboundNext = some expected)
      (ahead : expected < next) (fits : next ≤ u64Max) :
      Inflow config s [.switched (.context next)] { s with inboundNext := some next }
  | record {s recorded : Session} {expected next : Nat} (flow : s.remoteFlow = .recoverable)
      (fixed : s.startPending = false) (was : s.inboundNext = some expected)
      (ahead : expected < next) (fits : next ≤ u64Max)
      (admitted : s.recordGap config expected next = some recorded) :
      Inflow config s [.switched (.context next)] { recorded with inboundNext := some next }
  | hold {s held : Session} {expected next : Nat} (flow : s.remoteFlow = .recoverable)
      (fixed : s.startPending = false) (was : s.inboundNext = some expected)
      (ahead : expected < next) (fits : next ≤ u64Max)
      (refused : s.recordGap config expected next = none)
      (kept : s.holdRefusedGap config expected next = some held) :
      Inflow config s [.switched (.context next)] { held with inboundNext := some next }
  | live {s : Session} {seq : Nat} (sequenced : s.remoteFlow.isSequenced = true)
      (realTime : s.replay = none) (was : s.inboundNext = some seq) (fits : seq + 1 ≤ u64Max) :
      Inflow config s [.accepted (some seq) false]
        { s with
          startPending := false
          inboundNext := some (seq + 1) }
  | unnumbered {s : Session} (flow : s.remoteFlow = .unsequenced) :
      Inflow config s [.accepted none false] s
  | replayed {s : Session} {replay : Replay} (now : Nat) (batch : s.replay = some replay) :
      Inflow config s
        (.switched .replayed ::
          if ((s.advanceReplay replay (replay.next + 1) now).2.receivedInOverflow replay.next).1 then
            [] else [.accepted (some replay.next) true])
        ((s.advanceReplay replay (replay.next + 1) now).2.receivedInOverflow replay.next).2
  | complete {s : Session} {outstanding : Outstanding} (asked : s.outstanding = some outstanding)
      (full : outstanding.count ≤ outstanding.delivered ∨ u32Max ≤ outstanding.delivered) :
      Inflow config s []
        (({ s with
          outstanding := none
          replay := none } : Session).consumeMissing outstanding.count)
  /-- A completed batch with no request outstanding. -/
  | leftOver {s : Session} (unasked : s.outstanding = none) :
      Inflow config s [] { s with replay := none }
  | beginBatch {s : Session} {outstanding : Outstanding} {batch : NonZero u32Max} (now : Nat)
      (asked : s.outstanding = some outstanding)
      (inRange : batch.get ≤ outstanding.count - outstanding.delivered)
      (fits : outstanding.fromSeq + outstanding.delivered ≤ u64Max) :
      Inflow config s [.switched (.batch (outstanding.fromSeq + outstanding.delivered) batch)]
        { s with
          replay := some ⟨outstanding.fromSeq + outstanding.delivered, batch⟩
          awaitingResume := true
          outstanding := some
            { outstanding with
              lastProgress := now
              interrupted := false
              batchComplete := false
              stallReported := false } }
  /-- The rest of a request is asked for anew. -/
  | redo {s : Session} {outstanding : Outstanding} (asked : s.outstanding = some outstanding) :
      Inflow config s []
        (({ s with
          outstanding := none
          replay := none } : Session).consumeMissing outstanding.delivered)
  | stallReported {s : Session} :
      Inflow config s []
        { s with outstanding := s.outstanding.map fun outstanding =>
            { outstanding with stallReported := true } }
  | finishing {s : Session} (finished : PeerFinished) :
      Inflow config s [.switched .finished] { s with peerFinished := some finished }
  /-- FinishedSending is answered. -/
  | answered {s : Session} {finished : PeerFinished} (was : s.peerFinished = some finished) :
      Inflow config s [] { s with peerFinished := some { finished with receivingSent := true } }
  | release {s : Session} : Inflow config s [.switched .released] s.releaseBindingState

/-- The answers that end sequenced mode without a state of their own. -/
inductive Aside : SessionMessage → Prop where
  | retransmitReject (m : RetransmitReject) : Aside (.retransmitReject m)
  | finishedReceiving (m : FinishedReceiving) : Aside (.finishedReceiving m)

/-- A request in range of the numbers sent. -/
def Provider.InRange (provider : Provider) (outboundNext : Nat) : Prop :=
  1 ≤ provider.fromSeq ∧ provider.fromSeq + provider.count ≤ outboundNext

/-- One change to a bound session that goes on. -/
inductive Move : BoundParts → List Act → BoundParts → Prop where
  | tick {p : BoundParts} (lastKeepalive lastReceived : Nat) :
      Move p [] { p with binding := { p.binding with lastKeepalive, lastReceived } }
  | event {p : BoundParts} (event : Event) : Move p [.told event] (p.event event)
  | heartbeat {p : BoundParts} (up : p.isEstablished = true) :
      Move p [.sent .unsequencedHeartbeat] (p.send .unsequencedHeartbeat)
  | sequence {p : BoundParts} (up : p.isEstablished = true)
      (sequenced : p.session.localFlow.isSequenced = true) :
      Move p [.sent (.sequence ⟨UInt64.ofNat p.session.outboundNext⟩)]
        { p.send (.sequence ⟨UInt64.ofNat p.session.outboundNext⟩) with
          binding := { p.binding with inSequence := true } }
  | number {p : BoundParts} (up : p.isEstablished = true)
      (sequenced : p.session.localFlow.isSequenced = true) (numbering : p.binding.inSequence = true)
      (fits : p.session.outboundNext + 1 < SEQ_NULL) :
      Move p [.application (some p.session.outboundNext)]
        (p.onSession fun session => { session with outboundNext := session.outboundNext + 1 })
  | unnumbered {p : BoundParts} (up : p.isEstablished = true)
      (flow : p.session.localFlow = .unsequenced) : Move p [.application none] p
  | report {p : BoundParts} (m : NotApplied) (up : p.isEstablished = true)
      (idempotent : p.session.remoteFlow = .idempotent)
      (sequenced : p.session.localFlow.isSequenced = true) (numbering : p.binding.inSequence = true)
      (fits : p.session.outboundNext + 1 < SEQ_NULL) :
      Move p [.output (.sendApplication (some p.session.outboundNext) (.notApplied m))]
        ((p.onSession fun session => { session with outboundNext := session.outboundNext + 1 })
          |>.sendApplication (some p.session.outboundNext) (.notApplied m))
  | reportUnnumbered {p : BoundParts} (m : NotApplied) (up : p.isEstablished = true)
      (idempotent : p.session.remoteFlow = .idempotent)
      (flow : p.session.localFlow = .unsequenced) :
      Move p [.output (.sendApplication none (.notApplied m))]
        (p.sendApplication none (.notApplied m))
  | aside {p : BoundParts} {message : SessionMessage} (up : p.isEstablished = true)
      (aside : Aside message) : Move p [.sent message] (p.send message).leaveSequence
  | provide {p : BoundParts} {provider : Option Provider}
      (inRange : ∀ asked, provider = some asked → asked.InRange p.session.outboundNext ∨
        ∃ was, p.session.provider = some was ∧ asked.fromSeq = was.fromSeq ∧
          asked.count = was.count) :
      Move p [] (p.setProvider provider)
  | batch {p : BoundParts} {provider : Provider} {fromSeq count : Nat} (up : p.isEstablished = true)
      (asked : p.session.provider = some provider) (begins : fromSeq = provider.fromSeq + provider.sent)
      (some : 0 < count) (inRange : provider.sent + count ≤ provider.count) (fits : count ≤ u32Max)
      (header : Retransmission) (names : header.nextSeqNo = UInt64.ofNat fromSeq)
      (counts : header.count = UInt32.ofNat count) :
      Move p [.sent (.retransmission header)] (p.send (.retransmission header)).leaveSequence
  | request {p : BoundParts} {front : Gap} {timestamp : Nanotime} {core : Core} {now : Nat}
      (up : p.isEstablished = true) (flow : p.session.remoteFlow = .recoverable)
      (unasked : p.session.outstanding = none) (first : p.session.missing.head? = some front)
      (nonempty : front.fromSeq < front.endSeq)
      (stamped : p.core.requestTimestamp now = some (timestamp, core))
      (request : RetransmitRequest) (outstanding : Outstanding)
      (begins : outstanding.fromSeq = front.fromSeq) (undelivered : outstanding.delivered = 0)
      (counts : outstanding.count =
        BoundParts.requestCount core.config.maxRetransmitCount.get (front.endSeq - front.fromSeq)) :
      Move p [.sent (.retransmitRequest request)]
        ((({ p with core }).send (.retransmitRequest request)).leaveSequence.setOutstanding
          (some outstanding))
  | inflow {p : BoundParts} {acts : List Act} {session : Session}
      (changes : Inflow p.core.config p.session acts session) : Move p acts { p with session }
  | abandon {p : BoundParts} {outstanding : Outstanding} (code : RetransmitRejectCode)
      (reason : String) (asked : p.session.outstanding = some outstanding) :
      Move p [.told (.retransmitRejected outstanding.fromSeq outstanding.count code reason)]
        ((p.event (.retransmitRejected outstanding.fromSeq outstanding.count code reason))
          |>.settleOutstanding outstanding.count)
  /-- The binding ends with the Terminate exchange. -/
  | finalize {p : BoundParts} (down : p.isEstablished = false) :
      Move p [.switched .finalized] (p.onSession Session.finalizeIfFinished)
  /-- This side asks for the binding to end. -/
  | beginTerminating {p : BoundParts} (code : TerminationCode) (reason : String) (now : Nat)
      (up : p.isEstablished = true) :
      Move p [.sent (.terminate ⟨p.session.id, code, reason⟩)]
        ((p.send (.terminate ⟨p.session.id, code, reason⟩)).setState (.terminating now code reason))
  /-- The answer to the counterparty's Terminate. -/
  | answer {p : BoundParts} (deadline : Option Nat) (up : p.isEstablished = true) :
      Move p [.sent (.terminate ⟨p.session.id, .finished, ""⟩)]
        ((p.send (.terminate ⟨p.session.id, .finished, ""⟩)).setState (.closing deadline))

/-- The end of a binding on this side. -/
inductive Close : BoundParts → List Act → BoundParts → Prop where
  | failed {p : BoundParts} (code : TerminationCode) (reason : String)
      (up : p.isEstablished = true) :
      Close p [.sent (.terminate ⟨p.session.id, code, reason⟩),
          .told (.terminated code reason .locally), .output .closeTransport]
        { p with core := ((p.core.send (.terminate ⟨p.session.id, code, reason⟩)).event
            (.terminated code reason .locally)).closeTransport }
  | quiet {p : BoundParts} (down : p.isEstablished = false) :
      Close p [.output .closeTransport] { p with core := p.core.closeTransport }
  /-- An event after the close still reaches the application. -/
  | told {p closed : BoundParts} {acts : List Act} (event : Event) (ends : Close p acts closed) :
      Close p (acts ++ [.told event]) (closed.event event)

/-- Moves, and a close at the end if the binding ends. -/
inductive Steps : BoundParts → List Act → Turn → Prop where
  | done {p : BoundParts} : Steps p [] (p, .stay)
  | close {p closed : BoundParts} {acts : List Act} (ends : Close p acts closed) :
      Steps p acts (closed, .unbind)
  | move {p moved : BoundParts} {acts more : List Act} {turn : Turn} (first : Move p acts moved)
      (rest : Steps moved more turn) : Steps p (acts ++ more) turn

/-- The handler takes these steps: all that is seen of them when the binding goes on, and what
counts of it when the binding ends. -/
def Runs (p : BoundParts) (seen : List Act) (turn : Turn) : Prop :=
  ∃ acts, Steps p acts turn ∧ Act.handed acts = Act.handed seen ∧
    (turn.2 = .stay → Act.seen acts = seen)

/-! ## What no move changes -/

/-- The identity of a session, and that a numbering once fixed stays fixed. -/
structure Session.Same (before after : Session) : Prop where
  id : after.id = before.id
  localFlow : after.localFlow = before.localFlow
  remoteFlow : after.remoteFlow = before.remoteFlow
  started : before.startPending = false → after.startPending = false

namespace Session.Same

theorem refl (s : Session) : Session.Same s s := ⟨rfl, rfl, rfl, fun fixed => fixed⟩

theorem trans {s t u : Session} (first : Session.Same s t) (second : Session.Same t u) :
    Session.Same s u :=
  ⟨second.id.trans first.id, second.localFlow.trans first.localFlow,
    second.remoteFlow.trans first.remoteFlow, fun fixed => second.started (first.started fixed)⟩

end Session.Same

theorem Session.consumeMissing_same (count : Nat) (s : Session) :
    Session.Same s (s.consumeMissing count) := by
  obtain ⟨missing, overflow, consumed⟩ := consumeMissing_eq count s
  rw [consumed]
  exact ⟨rfl, rfl, rfl, fun fixed => fixed⟩

theorem Session.settled_same (count : Nat) (s : Session) :
    Session.Same s (({ s with
      outstanding := none
      replay := none } : Session).consumeMissing count) := by
  have consumed := consumeMissing_same count
    { s with
      outstanding := none
      replay := none }
  exact ⟨consumed.id, consumed.localFlow, consumed.remoteFlow, consumed.started⟩

theorem Session.releaseBindingState_same (s : Session) : Session.Same s s.releaseBindingState := by
  obtain ⟨missing, overflow, released⟩ := releaseBindingState_eq s
  rw [released]
  exact ⟨rfl, rfl, rfl, fun fixed => fixed⟩

theorem Session.finalizeIfFinished_same (s : Session) : Session.Same s s.finalizeIfFinished := by
  obtain ⟨finalized, same⟩ := finalizeIfFinished_eq s
  rw [same]
  exact ⟨rfl, rfl, rfl, fun fixed => fixed⟩

theorem Inflow.same {config : FixpConfig} {s s' : Session} {acts : List Act}
    (changes : Inflow config s acts s') : Session.Same s s' := by
  cases changes with
  | record flow fixed was ahead fits admitted =>
      obtain ⟨missing, rfl⟩ := Session.recordGap_eq admitted
      exact ⟨rfl, rfl, rfl, fun fixed => fixed⟩
  | hold flow fixed was ahead fits refused kept =>
      obtain ⟨missing, overflow, rfl⟩ := Session.holdRefusedGap_eq kept
      exact ⟨rfl, rfl, rfl, fun fixed => fixed⟩
  | replayed now batch =>
      rename_i replay
      obtain ⟨left, outstanding, advanced⟩ := Session.advanceReplay_eq replay (replay.next + 1) now s
      rw [advanced]
      exact ⟨rfl, rfl, rfl, fun fixed => fixed⟩
  | complete asked full => exact s.settled_same _
  | redo asked => exact s.settled_same _
  | release => exact s.releaseBindingState_same
  | _ => exact ⟨rfl, rfl, rfl, fun fixed => by first | exact fixed | rfl⟩

theorem Move.same {p moved : BoundParts} {acts : List Act} (move : Move p acts moved) :
    Session.Same p.session moved.session := by
  cases move with
  | inflow changes => exact changes.same
  | abandon code reason asked => exact p.session.settled_same _
  | finalize => exact p.session.finalizeIfFinished_same
  | _ => exact ⟨rfl, rfl, rfl, fun fixed => fixed⟩

/-- A close leaves the session to the role. -/
theorem Close.session {p closed : BoundParts} {acts : List Act} (ends : Close p acts closed) :
    closed.session = p.session := by
  induction ends with
  | failed => rfl
  | quiet => rfl
  | told event _ ih => exact ih

/-- A close hands nothing over. -/
theorem Close.silent {p closed : BoundParts} {acts : List Act} (ends : Close p acts closed) :
    Act.silent acts = true := by
  induction ends with
  | failed => rfl
  | quiet => rfl
  | told event _ ih => exact Act.silent_append ih rfl

theorem Steps.same {p : BoundParts} {acts : List Act} {turn : Turn} (steps : Steps p acts turn) :
    Session.Same p.session turn.1.session := by
  induction steps with
  | done => exact .refl _
  | close ends =>
      rw [ends.session]
      exact .refl _
  | move moved _ ih => exact moved.same.trans ih

/-- Handlers never change the configuration. -/
theorem Move.config {p moved : BoundParts} {acts : List Act} (move : Move p acts moved) :
    moved.core.config = p.core.config := by
  cases move with
  | request up flow unasked first nonempty stamped request outstanding begins undelivered counts =>
      obtain ⟨issued, -, same⟩ := Option.map_eq_some_iff.mp stamped
      obtain ⟨-, rfl⟩ := Prod.mk.inj same
      rfl
  | _ => rfl

theorem Close.config {p closed : BoundParts} {acts : List Act} (ends : Close p acts closed) :
    closed.core.config = p.core.config := by
  induction ends with
  | failed => rfl
  | quiet => rfl
  | told event _ ih => exact ih

theorem Steps.config {p : BoundParts} {acts : List Act} {turn : Turn} (steps : Steps p acts turn) :
    turn.1.core.config = p.core.config := by
  induction steps with
  | done => rfl
  | close ends => exact ends.config
  | move moved _ ih => exact ih.trans moved.config

end IronFix.Fixp
