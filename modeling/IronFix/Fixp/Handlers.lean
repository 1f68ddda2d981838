import IronFix.Fixp.Session

/-!
# The handlers of a bound session

Messages, application messages, timers and commands, as functions on
`BoundParts`. Every way a binding ends on this side goes through
`closeTransport` and answers `Bound.unbind`.
-/

namespace IronFix.Fixp

open Lib.Decimal

/-- What a handler borrows: the core, the session and its binding. -/
structure BoundParts where
  core : Core
  session : Session
  binding : Binding

abbrev Turn := BoundParts × Bound

/-- Goes on unless the binding has ended. -/
def Turn.andThen (turn : Turn) (next : BoundParts → Turn) : Turn :=
  match turn.2 with
  | .unbind => turn
  | .stay => next turn.1

namespace BoundParts

def send (message : SessionMessage) (parts : BoundParts) : BoundParts :=
  { parts with core := parts.core.send message }

def sendApplication (seq : Option Nat) (message : SessionMessage) (parts : BoundParts) : BoundParts :=
  { parts with core := parts.core.sendApplication seq message }

def event (event : Event) (parts : BoundParts) : BoundParts :=
  { parts with core := parts.core.event event }

def ignore (message reason : String) (parts : BoundParts) : BoundParts :=
  { parts with core := parts.core.ignore message reason }

def leaveSequence (parts : BoundParts) : BoundParts :=
  { parts with binding := parts.binding.leaveSequence }

/-- Notes that something arrived. -/
def received (now : Nat) (parts : BoundParts) : BoundParts :=
  { parts with binding := { parts.binding with lastReceived := now } }

/-- Notes that something was sent that keeps the binding alive. -/
def keptAlive (now : Nat) (parts : BoundParts) : BoundParts :=
  { parts with binding := { parts.binding with lastKeepalive := now } }

def onSession (change : Session → Session) (parts : BoundParts) : BoundParts :=
  { parts with session := change parts.session }

def setState (state : BindState) (parts : BoundParts) : BoundParts :=
  { parts with binding := { parts.binding with state } }

def isEstablished (parts : BoundParts) : Bool := parts.binding.isEstablished

def setProvider (provider : Option Provider) : BoundParts → BoundParts :=
  onSession fun session => { session with provider }

def setOutstanding (outstanding : Option Outstanding) : BoundParts → BoundParts :=
  onSession fun session => { session with outstanding }

def setInboundNext (next : Nat) : BoundParts → BoundParts :=
  onSession fun session => { session with inboundNext := some next }

/-- Closes the transport and unbinds. -/
def closeUnbound (parts : BoundParts) : Turn :=
  ({ parts with
      core := parts.core.closeTransport
      session := parts.session.releaseBindingState }, .unbind)

def fail (code : TerminationCode) (reason : String) (parts : BoundParts) : Turn :=
  match parts.binding.state with
  | .established =>
    ((parts.send (.terminate ⟨parts.session.id, code, reason⟩)).event
      (.terminated code reason .locally)).closeUnbound
  | .terminating .. | .closing _ => parts.closeUnbound

def violation (reason : String) (parts : BoundParts) : Turn :=
  (parts.event (.protocolViolation reason)).fail .unspecifiedError reason

def maybeFinishReceiving (parts : BoundParts) : BoundParts :=
  match parts.session.peerFinished with
  | none => parts
  | some finished =>
    if finished.receivingSent || !parts.isEstablished || !parts.session.missing.isEmpty ||
        parts.session.outstanding.isSome then parts
    else
      ((parts.send (.finishedReceiving ⟨parts.session.id⟩)).onSession fun session =>
        { session with peerFinished := some { finished with receivingSent := true } }).leaveSequence

/-- The count of a request for a gap of `len` numbers. -/
def requestCount (max len : Nat) : Nat := if len ≤ u32Max then min len max else max

def requestMissing (now : Nat) (parts : BoundParts) : Turn :=
  if !parts.isEstablished || parts.session.remoteFlow != .recoverable ||
      parts.session.outstanding.isSome then (parts, .stay)
  else
    match parts.session.missing.head? with
    | none => (parts, .stay)
    | some front =>
      if front.endSeq ≤ front.fromSeq then (parts, .stay)
      else
        match parts.core.requestTimestamp now with
        | none => parts.fail .unspecifiedError "session clock out of range"
        | some (timestamp, core) =>
          let count := requestCount core.config.maxRetransmitCount.get
            (front.endSeq - front.fromSeq)
          let request : RetransmitRequest :=
            { sessionId := parts.session.id
              timestamp
              fromSeqNo := UInt64.ofNat front.fromSeq
              count := UInt32.ofNat count }
          let outstanding : Outstanding :=
            { timestamp
              fromSeq := front.fromSeq
              count
              delivered := 0
              lastProgress := now
              interrupted := false
              batchComplete := false
              stallReported := false }
          (((({ parts with core }).send (.retransmitRequest request)).leaveSequence).setOutstanding
            (some outstanding), .stay)

/-- What follows once a range is no longer outstanding. -/
def resumeRecovery (now : Nat) (parts : BoundParts) : Turn :=
  if parts.session.missing.isEmpty then
    ((parts.event .recoveryComplete).maybeFinishReceiving, .stay)
  else parts.requestMissing now

/-- Consumes `count` numbers of the first gap, which were outstanding. -/
def settleOutstanding (count : Nat) : BoundParts → BoundParts :=
  onSession fun session =>
    ({ session with
      outstanding := none
      replay := none } : Session).consumeMissing count

def completeOutstanding (now : Nat) (parts : BoundParts) : Turn :=
  let settled :=
    match parts.session.outstanding with
    | some outstanding => parts.settleOutstanding outstanding.count
    | none => parts.onSession fun session => { session with replay := none }
  settled.resumeRecovery now

/-! ## Outbound numbers -/

/-- The next outbound number, behind a Sequence where the context demands one; none when they
have run out. -/
def allocateOutbound (parts : BoundParts) : Option (Nat × BoundParts) :=
  let seq := parts.session.outboundNext
  match (checkedAdd u64Max seq 1).filter (· ≠ SEQ_NULL) with
  | none => none
  | some following =>
    let announced :=
      if parts.binding.inSequence then parts
      else
        { parts.send (.sequence ⟨UInt64.ofNat seq⟩) with
          binding := { parts.binding with inSequence := true } }
    some (seq, announced.onSession fun session => { session with outboundNext := following })

def sendNotApplied (fromSeq count now : Nat) (parts : BoundParts) : Turn :=
  if !parts.isEstablished then (parts, .stay)
  else
    let message : SessionMessage := .notApplied ⟨UInt64.ofNat fromSeq, UInt32.ofNat count⟩
    match parts.session.localFlow with
    | .none => (parts, .stay)
    | .unsequenced => ((parts.sendApplication none message).keptAlive now, .stay)
    | .recoverable | .idempotent =>
      match parts.allocateOutbound with
      | some (seq, parts) => ((parts.sendApplication (some seq) message).keptAlive now, .stay)
      | none => parts.fail .unspecifiedError "outbound sequence numbers exhausted"

/-! ## Inbound numbers -/

/-- Records the gap below `next`, or terminates when there are too many. -/
def openGap (expected next now : Nat) (parts : BoundParts) : Turn :=
  match parts.session.recordGap parts.core.config expected next with
  | some session => (({ parts with session }).setInboundNext next).requestMissing now
  | none =>
    let held :=
      match parts.session.holdRefusedGap parts.core.config expected next with
      | some session => ({ parts with session }).setInboundNext next
      | none => parts
    held.violation "too many unrecovered sequence gaps"

def onGap (expected next count now : Nat) (parts : BoundParts) : Turn :=
  let reported := parts.event (.sequenceGap expected count)
  match parts.session.remoteFlow with
  | .recoverable => reported.openGap expected next now
  | .idempotent =>
    let skipped := reported.setInboundNext next
    if count ≤ u32Max then skipped.sendNotApplied expected count now
    else skipped.violation "sequence gap too large for a NotApplied"
  | .unsequenced | .none => (reported.setInboundNext next, .stay)

/-- Whether FinishedSending has ended the flow before `next`. -/
def pastLast (session : Session) (next : Nat) : Bool :=
  match session.peerFinished with
  | some ⟨_, some endSeq⟩ => next > endSeq
  | _ => false

/-- Holds `next` against the number expected. -/
def meetNextSeq (next now : Nat) (parts : BoundParts) : Turn :=
  if parts.session.startPending then
    ((parts.onSession fun session => { session with startPending := false }).setInboundNext next,
      .stay)
  else
    match parts.session.inboundNext with
    | none => (parts.setInboundNext next, .stay)
    | some expected =>
      if next < expected then parts.violation "NextSeqNo lower than expected"
      else if next = expected then (parts, .stay)
      else if next - expected > parts.core.config.maxGapLen.get then
        parts.violation "sequence gap larger than max_gap_len"
      else parts.onGap expected next (next - expected) now

def onNextSeq (next now : Nat) (parts : BoundParts) : Turn :=
  if !parts.session.remoteFlow.isSequenced then
    parts.violation "Sequence or Context on an unsequenced flow"
  else if next = 0 then parts.violation "NextSeqNo of zero"
  else if pastLast parts.session next then
    parts.violation "NextSeqNo past the LastSeqNo of FinishedSending"
  else (parts.onSession (Session.leaveReplay now)).meetNextSeq next now

def onEstablished (next : Option UInt64) (now : Nat) (parts : BoundParts) : Turn :=
  let numbered : Turn :=
    match parts.session.remoteFlow.isSequenced, next with
    | true, some next => parts.onNextSeq next.toNat now
    | _, _ => (parts, .stay)
  numbered.andThen fun parts =>
    (parts.requestMissing now).andThen fun parts => (parts.maybeFinishReceiving, .stay)

/-- The next message of a retransmission batch. -/
def takeReplayed (replay : Replay) (now : Nat) (parts : BoundParts) : Delivery × Turn :=
  match checkedAdd u64Max replay.next 1 with
  | none => (.discard, parts.violation "retransmitted sequence numbers overflow")
  | some following =>
    let (complete, advanced) := parts.session.advanceReplay replay following now
    let (duplicate, screened) := advanced.receivedInOverflow replay.next
    let counted := { parts with session := screened }
    let turn := if complete then counted.completeOutstanding now else (counted, .stay)
    (if duplicate then .discard else .accept (some replay.next) true, turn)

/-- A real-time message on a sequenced flow. -/
def takeNumbered (parts : BoundParts) : Delivery × Turn :=
  if parts.session.awaitingResume then
    (.discard, parts.violation "application message after a retransmission without a Sequence")
  else
    let started := parts.onSession fun session => { session with startPending := false }
    match started.session.inboundNext with
    | none => (.discard, started.violation "application message before any Sequence")
    | some seq =>
      match checkedAdd u64Max seq 1 with
      | none => (.discard, started.violation "inbound sequence numbers exhausted")
      | some following => (.accept (some seq) false, started.setInboundNext following, .stay)

/-- A real-time message. -/
def takeLive (parts : BoundParts) : Delivery × Turn :=
  if parts.session.peerFinished.isSome then
    (.discard, parts.violation "application message after FinishedSending")
  else
    match parts.session.remoteFlow with
    | .none => (.discard, parts.violation "application message on a None flow")
    | .unsequenced => (.accept none false, parts, .stay)
    | .recoverable | .idempotent => parts.takeNumbered

def onApplication (now : Nat) (parts : BoundParts) : Delivery × Turn :=
  match parts.binding.state with
  | .closing _ =>
    (.discard, parts.ignore APPLICATION_MESSAGE "it arrived after the counterparty's Terminate",
      .stay)
  | .established | .terminating .. =>
    match parts.session.replay with
    | some replay => (parts.received now).takeReplayed replay now
    | none => (parts.received now).takeLive

/-- A session message that is itself an application message: reported when it is accepted. -/
def onReport (event : Event) (now : Nat) (parts : BoundParts) : Delivery × Turn :=
  let (delivery, turn) := parts.onApplication now
  match delivery with
  | .accept .. => (delivery, turn.1.event event, turn.2)
  | .discard => (delivery, turn)

/-! ## Recovery -/

def onRetransmission (message : Retransmission) (now : Nat) (parts : BoundParts) : Turn :=
  if parts.session.remoteFlow ≠ .recoverable then
    parts.violation "Retransmission on a flow that is not Recoverable"
  else if message.sessionId ≠ parts.session.id then
    parts.violation "Retransmission for another session"
  else
    match parts.session.outstanding with
    | none => parts.violation "Retransmission without a RetransmitRequest"
    | some outstanding =>
      if message.requestTimestamp ≠ outstanding.timestamp then
        parts.violation "Retransmission answers another request"
      else
        let expected := checkedAdd u64Max outstanding.fromSeq outstanding.delivered
        let batch := (NonZero.new u32Max message.count.toNat).filter fun batch =>
          outstanding.delivered ≤ outstanding.count ∧
            batch.get ≤ outstanding.count - outstanding.delivered
        match batch, decide (some message.nextSeqNo.toNat = expected) with
        | some batch, true =>
          (parts.onSession fun session =>
            { session with
              replay := some ⟨message.nextSeqNo.toNat, batch⟩
              awaitingResume := true
              outstanding := some
                { outstanding with
                  lastProgress := now
                  interrupted := false
                  batchComplete := false
                  stallReported := false } }, .stay)
        | _, _ => parts.violation "Retransmission outside the requested range"

def onRetransmitReject (message : RetransmitReject) (now : Nat) (parts : BoundParts) : Turn :=
  let unanswered : Turn :=
    (parts.ignore RetransmitReject.layout.name "it answers no outstanding RetransmitRequest", .stay)
  match parts.session.outstanding with
  | none => unanswered
  | some outstanding =>
    if outstanding.timestamp = message.requestTimestamp ∧ message.sessionId = parts.session.id then
      ((parts.event (.retransmitRejected outstanding.fromSeq outstanding.count message.code
        message.reason)).settleOutstanding outstanding.count).resumeRecovery now
    else unanswered

def refuseRetransmit (message : RetransmitRequest) (code : RetransmitRejectCode) (reason : String)
    (parts : BoundParts) : Turn :=
  ((((parts.send (.retransmitReject
    ⟨message.sessionId, message.timestamp, code, reason⟩)).leaveSequence).event
      (.refused RetransmitReject.layout.name reason)), .stay)

def onRetransmitRequest (message : RetransmitRequest) (parts : BoundParts) : Turn :=
  if !parts.isEstablished then
    (parts.ignore RetransmitRequest.layout.name "this side has sent its Terminate", .stay)
  else if parts.session.localFlow ≠ .recoverable then
    parts.violation "RetransmitRequest to a flow that is not Recoverable"
  else if message.sessionId ≠ parts.session.id then
    parts.refuseRetransmit message .invalidSession "unknown session"
  else if parts.session.provider.isSome then
    (parts.event (.protocolViolation
      "RetransmitRequest while a retransmission is in progress")).fail .reRequestInProgress
      "RetransmitRequest while a retransmission is in progress"
  else if message.count.toNat = 0 then
    parts.refuseRetransmit message .outOfRange "empty range"
  else if message.count.toNat > parts.core.config.maxRetransmitCount.get then
    parts.refuseRetransmit message .requestLimitExceeded "count exceeds the retransmission limit"
  else if 1 ≤ message.fromSeqNo.toNat ∧
      message.fromSeqNo.toNat + message.count.toNat ≤ u64Max ∧
      message.fromSeqNo.toNat + message.count.toNat ≤ parts.session.outboundNext then
    ((parts.setProvider (some
      { requestTimestamp := message.timestamp
        fromSeq := message.fromSeqNo.toNat
        count := message.count.toNat
        sent := 0 })).event
      (.retransmitRequested message.fromSeqNo.toNat message.count.toNat), .stay)
  else parts.refuseRetransmit message .outOfRange "range not yet sent"

/-! ## Termination -/

def onTerminate (message : Terminate) (now : Nat) (parts : BoundParts) : Turn :=
  if message.sessionId ≠ parts.session.id then
    parts.violation "Terminate for another session"
  else
    match parts.binding.state with
    | .terminating _ code reason =>
      let (closed, bound) := (parts.event (.terminated code reason .locally)).closeUnbound
      (if code = .finished ∧ message.code = .finished then
        closed.onSession Session.finalizeIfFinished else closed, bound)
    | .established =>
      let answered :=
        ((parts.send (.terminate ⟨parts.session.id, .finished, ""⟩)).event
          (.terminated message.code message.reason .peer)).onSession Session.releaseBindingState
      let settled :=
        if message.code = .finished then answered.onSession Session.finalizeIfFinished else answered
      (settled.setState (.closing (some (now + parts.binding.localKeepalive))), .stay)
    | .closing _ => (parts, .stay)

/-- FinishedSending on a sequenced flow: the end of the numbers it announces. -/
def finishedEnd (message : FinishedSending) (now : Nat) (parts : BoundParts) :
    Turn × Option Nat :=
  match message.lastSeqNo with
  | none => (parts.violation "FinishedSending without LastSeqNo on a sequenced flow", none)
  | some last =>
    match checkedAdd u64Max last.toNat 1 with
    | none => (parts.violation "LastSeqNo out of range", none)
    | some next =>
      if parts.session.inboundNext.any (next < ·) then
        (parts.violation "LastSeqNo below the messages already received", none)
      else (parts.onNextSeq next now, some next)

def onFinishedSending (message : FinishedSending) (now : Nat) (parts : BoundParts) : Turn :=
  if message.sessionId ≠ parts.session.id then
    parts.violation "FinishedSending for another session"
  else if parts.session.peerFinished.isSome then (parts, .stay)
  else
    let announced := parts.event (.peerFinishedSending message.lastSeqNo)
    let (turn, endSeq) :=
      if parts.session.remoteFlow.isSequenced then announced.finishedEnd message now
      else ((announced, .stay), none)
    turn.andThen fun parts =>
      ((parts.onSession fun session =>
        { session with peerFinished := some ⟨false, endSeq⟩ }).maybeFinishReceiving, .stay)

/-- A message while bound, before the counterparty's Terminate. -/
def onPeerMessage (message : PeerMessage) (now : Nat) (parts : BoundParts) : Turn :=
  match message with
  | .terminate m => parts.onTerminate m now
  | .sequence m => parts.onNextSeq m.nextSeqNo.toNat now
  | .context m =>
    if m.sessionId ≠ parts.session.id then
      parts.violation "Context for another session: multiplexed transports are not supported"
    else if m.nextSeqNo.toNat = SEQ_NULL then (parts, .stay)
    else parts.onNextSeq m.nextSeqNo.toNat now
  | .unsequencedHeartbeat =>
    if parts.session.remoteFlow.isSequenced then
      parts.violation "UnsequencedHeartbeat on a sequenced flow"
    else (parts, .stay)
  | .retransmitRequest m => parts.onRetransmitRequest m
  | .retransmission m => parts.onRetransmission m now
  | .retransmitReject m => parts.onRetransmitReject m now
  | .applied m => (parts.onReport (.applied m.fromSeqNo m.count) now).2
  | .notApplied m =>
    if parts.session.localFlow ≠ .idempotent then
      parts.violation "NotApplied for a flow that is not Idempotent"
    else (parts.onReport (.notApplied m.fromSeqNo m.count) now).2
  | .topic => parts.violation "Topic is a multicast message"
  | .finishedSending m => parts.onFinishedSending m now
  | .finishedReceiving => parts.violation "FinishedReceiving without a FinishedSending"
  | .messageTemplate => (parts, .stay)

def onPeer (message : PeerMessage) (now : Nat) (parts : BoundParts) : Turn :=
  match parts.binding.state with
  | .closing _ =>
    (parts.ignore message.name "it arrived after the counterparty's Terminate", .stay)
  | .established | .terminating .. => (parts.received now).onPeerMessage message now

/-- How the application message that is a session message is delivered. -/
def messageDelivery (message : PeerMessage) (now : Nat) (parts : BoundParts) : Delivery :=
  match message with
  | .applied m => (parts.onReport (.applied m.fromSeqNo m.count) now).1
  | .notApplied m =>
    if parts.session.localFlow ≠ .idempotent then .discard
    else (parts.onReport (.notApplied m.fromSeqNo m.count) now).1
  | _ => .discard

/-- The delivery `onPeer` reports with an event. -/
def peerDelivery (message : PeerMessage) (now : Nat) (parts : BoundParts) : Delivery :=
  match parts.binding.state with
  | .closing _ => .discard
  | .established | .terminating .. => (parts.received now).messageDelivery message now

/-! ## Commands -/

def requireEstablished (operation : String) (parts : BoundParts) : Except FixpError Unit :=
  if parts.isEstablished then .ok () else .error (.invalidState operation parts.binding.status)

/-- The number of the application message about to be written. -/
def numberApplication (now : Nat) (parts : BoundParts) :
    Except FixpError (Option Nat × BoundParts) := do
  parts.requireEstablished "send_application"
  if parts.session.finishedReceivingSent then .error .finishedReceivingSent
  else
    match parts.session.localFlow with
    | .none => .error (.flowCarriesNoApplicationMessages parts.session.localFlow)
    | .unsequenced => .ok (none, parts.keptAlive now)
    | .recoverable | .idempotent =>
      match parts.allocateOutbound with
      | some (seq, parts) => .ok (some seq, parts.keptAlive now)
      | none => .error .sequenceExhausted

def terminate (code : TerminationCode) (reason : String) (now : Nat) (parts : BoundParts) :
    Except FixpError Turn := do
  parts.requireEstablished "terminate"
  checkReason reason
  let sent := parts.send (.terminate ⟨parts.session.id, code, reason⟩)
  match code with
  | .finished => .ok ((sent.setProvider none).setState (.terminating now code reason), .stay)
  | .unspecifiedError | .reRequestOutOfBounds | .reRequestInProgress =>
    .ok (sent.event (.terminated code reason .locally)).closeUnbound

/-- Announces a batch of the request being answered. -/
def announceBatch (provider : Provider) (count now : Nat) (parts : BoundParts) :
    Except FixpError (RetransmitBatch × BoundParts) :=
  if provider.count < provider.sent then .error .noRetransmissionInProgress
  else if count > provider.count - provider.sent then
    .error (.retransmissionOverrun count (provider.count - provider.sent))
  else
    match checkedAdd u64Max provider.fromSeq provider.sent with
    | none => .error .sequenceExhausted
    | some fromSeq =>
      let header : Retransmission :=
        { sessionId := parts.session.id
          requestTimestamp := provider.requestTimestamp
          nextSeqNo := UInt64.ofNat fromSeq
          count := UInt32.ofNat count }
      let sent := provider.sent + count
      let left := if sent ≥ provider.count then none else some { provider with sent }
      .ok (⟨fromSeq, count⟩,
        (((parts.send (.retransmission header)).setProvider left).leaveSequence).keptAlive now)

def retransmit (count : NonZero u32Max) (now : Nat) (parts : BoundParts) :
    Except FixpError (RetransmitBatch × BoundParts) := do
  parts.requireEstablished "retransmit"
  match parts.session.provider with
  | none => .error .noRetransmissionInProgress
  | some provider => parts.announceBatch provider count.get now

def rejectRetransmitRequest (code : RetransmitRejectCode) (reason : String) (parts : BoundParts) :
    Except FixpError BoundParts := do
  parts.requireEstablished "reject_retransmit_request"
  checkReason reason
  match parts.session.provider with
  | none => .error .noRetransmissionInProgress
  | some provider =>
    .ok ((parts.setProvider none).send (.retransmitReject
      ⟨parts.session.id, provider.requestTimestamp, code, reason⟩)).leaveSequence

def endRetransmission (parts : BoundParts) : Except FixpError BoundParts := do
  parts.requireEstablished "end_retransmission"
  match parts.session.provider with
  | none => .error .noRetransmissionInProgress
  | some _ => .ok (parts.setProvider none)

/-! ## Time -/

def silenceDeadline (parts : BoundParts) : Nat :=
  let grace := parts.core.config.peerSilenceGrace.getD parts.binding.remoteKeepalive
  parts.binding.lastReceived + (parts.binding.remoteKeepalive + grace)

/-- The request to act on when it has made no progress in time. -/
def stalled (now : Nat) (parts : BoundParts) : Option Outstanding :=
  parts.session.outstanding.filter fun outstanding =>
    !outstanding.stallReported &&
      outstanding.lastProgress + parts.core.config.retransmitTimeout ≤ now

def reRequest (outstanding : Outstanding) (now : Nat) (parts : BoundParts) : Turn :=
  (parts.settleOutstanding outstanding.delivered).requestMissing now

def onStall (outstanding : Outstanding) (now : Nat) (parts : BoundParts) : Turn :=
  let reported := parts.event (.retransmitTimedOut outstanding.fromSeq outstanding.count)
  let waiting : Turn :=
    (reported.onSession fun session =>
      { session with outstanding := session.outstanding.map fun outstanding =>
          { outstanding with stallReported := true } }, .stay)
  match parts.core.config.retransmitStallPolicy with
  | .terminate => reported.fail .unspecifiedError "retransmission stalled"
  | .reRequestAfterContextSwitch =>
    if outstanding.interrupted then reported.reRequest outstanding now else waiting
  | .reRequestAfterBatch =>
    if outstanding.interrupted || outstanding.batchComplete then reported.reRequest outstanding now
    else waiting
  | .eventOnly => waiting

def heartbeat (now : Nat) (parts : BoundParts) : BoundParts :=
  if parts.session.localFlow.isSequenced then
    { parts.send (.sequence ⟨UInt64.ofNat parts.session.outboundNext⟩) with
      binding := { parts.binding with
        inSequence := true
        lastKeepalive := now } }
  else (parts.send .unsequencedHeartbeat).keptAlive now

def onTimeout (now : Nat) (parts : BoundParts) : Turn :=
  match parts.binding.state with
  | .established =>
    if parts.silenceDeadline ≤ now then
      (parts.event .keepaliveLapsed).fail .unspecifiedError "keepalive interval lapsed"
    else
      let turn :=
        match parts.stalled now with
        | some outstanding => parts.onStall outstanding now
        | none => (parts, .stay)
      turn.andThen fun parts =>
        if parts.binding.lastKeepalive + parts.binding.localKeepalive ≤ now then
          (parts.heartbeat now, .stay)
        else (parts, .stay)
  | .terminating sentAt code reason =>
    if now < sentAt + parts.binding.localKeepalive then (parts, .stay)
    else (parts.event (.terminated code reason .locally)).closeUnbound
  | .closing deadline =>
    if deadline.any (· ≤ now) then
      ({ parts with core := parts.core.closeTransport }, .unbind)
    else (parts, .stay)

end BoundParts

end IronFix.Fixp
