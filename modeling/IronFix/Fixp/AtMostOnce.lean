import IronFix.Fixp.Ledger
import IronFix.Fixp.Progress

/-!
# At most once, whatever the counterparty sends

The ledger of a session is kept from its negotiation to its end, over any
number of transports and any calls, so no number is accepted twice.
-/

namespace IronFix.Fixp

open Lib.Decimal

/-- The numbers handed over by acts. -/
def Act.received (acts : List Act) : List Nat := (Act.receipts acts).filterMap Prod.fst

/-- The numbers given up by acts. -/
def Act.givenUp (acts : List Act) : List Gap := (Act.outputs acts).filterMap Output.givenUp

theorem Act.received_append (acts more : List Act) :
    received (acts ++ more) = received acts ++ received more := by
  unfold received
  rw [receipts_append, List.filterMap_append]

theorem Act.givenUp_append (acts more : List Act) :
    givenUp (acts ++ more) = givenUp acts ++ givenUp more := by
  unfold givenUp
  rw [outputs_append, List.filterMap_append]

theorem Act.received_silent {acts : List Act} (quiet : silent acts = true) : received acts = [] := by
  unfold received
  rw [receipts_silent quiet]
  rfl

/-- The book after acts, from what was seen of them. -/
theorem Book.enter_eq (acts : List Act) (book : Book) :
    book.enter acts = ⟨book.first, book.accepted ++ Act.received acts,
      book.abandoned ++ Act.givenUp acts⟩ := by
  induction acts generalizing book with
  | nil =>
      show book = ⟨book.first, book.accepted ++ [], book.abandoned ++ []⟩
      rw [List.append_nil, List.append_nil]
  | cons act acts ih =>
      show (book.note act).enter acts = _
      have split := Act.received_append [act] acts
      have split' := Act.givenUp_append [act] acts
      rw [List.singleton_append] at split split'
      have one : book.note act = ⟨book.first, book.accepted ++ Act.received [act],
          book.abandoned ++ Act.givenUp [act]⟩ := by
        have nothing : (⟨book.first, book.accepted ++ [], book.abandoned ++ []⟩ : Book) = book := by
          rw [List.append_nil, List.append_nil]
        cases act with
        | application seq => exact nothing.symm
        | switched switch => exact nothing.symm
        | accepted seq retransmitted =>
            cases seq with
            | none => exact nothing.symm
            | some n => exact congrArg (Book.mk book.first _) (List.append_nil _).symm
        | output output =>
            cases output with
            | event event =>
                cases event with
                | retransmitRejected fromSeq count code reason =>
                    exact congrArg (fun accepted => Book.mk book.first accepted _)
                      (List.append_nil _).symm
                | _ => exact nothing.symm
            | _ => exact nothing.symm
      rw [ih, one, split, split', List.append_assoc, List.append_assoc]

/-! ## Flows without numbers -/

/-- Nothing is recovered on a flow without numbers. -/
structure Session.Unnumbered (s : Session) : Prop where
  flow : s.remoteFlow.isSequenced = false
  unasked : s.outstanding = none
  realTime : s.replay = none

theorem Inflow.keeps_unnumbered {config : FixpConfig} {s s' : Session} {acts : List Act}
    (changes : Inflow config s acts s') (plain : s.Unnumbered) :
    s'.Unnumbered ∧ Act.received acts = [] := by
  have absurd_flow {flow : FlowType} (was : s.remoteFlow = flow) (sequenced : flow.isSequenced = true) :
      False := by
    rw [← was, plain.flow] at sequenced
    cases sequenced
  cases changes with
  | start sequenced => exact (absurd_flow rfl sequenced).elim
  | live sequenced => exact (absurd_flow rfl sequenced).elim
  | skip flow => exact (absurd_flow flow rfl).elim
  | record flow => exact (absurd_flow flow rfl).elim
  | hold flow => exact (absurd_flow flow rfl).elim
  | replayed now batch =>
      rw [plain.realTime] at batch
      cases batch
  | complete asked =>
      rw [plain.unasked] at asked
      cases asked
  | beginBatch now asked =>
      rw [plain.unasked] at asked
      cases asked
  | redo asked =>
      rw [plain.unasked] at asked
      cases asked
  | leaveReplay now =>
      refine ⟨⟨plain.flow, ?_, rfl⟩, rfl⟩
      show (if s.replay.isSome then _ else s.outstanding) = none
      rw [plain.realTime]
      exact plain.unasked
  | stallReported =>
      refine ⟨⟨plain.flow, ?_, plain.realTime⟩, rfl⟩
      show s.outstanding.map _ = none
      rw [plain.unasked]
      rfl
  | release =>
      obtain ⟨missing, overflow, released⟩ := s.releaseBindingState_eq
      rw [released]
      exact ⟨⟨plain.flow, rfl, rfl⟩, rfl⟩
  | leftOver => exact ⟨⟨plain.flow, plain.unasked, rfl⟩, rfl⟩
  | started => exact ⟨⟨plain.flow, plain.unasked, plain.realTime⟩, rfl⟩
  | unnumbered => exact ⟨plain, rfl⟩
  | meets => exact ⟨plain, rfl⟩
  | finishing finished => exact ⟨⟨plain.flow, plain.unasked, plain.realTime⟩, rfl⟩
  | answered was => exact ⟨⟨plain.flow, plain.unasked, plain.realTime⟩, rfl⟩

/-- A session that knows the same of the counterparty has no numbers either. -/
theorem Session.Unnumbered.transfer {s s' : Session} (plain : s.Unnumbered)
    (flow : s'.remoteFlow = s.remoteFlow) (asked : s'.outstanding = s.outstanding)
    (batch : s'.replay = s.replay) : s'.Unnumbered :=
  ⟨by rw [flow, plain.flow], by rw [asked, plain.unasked], by rw [batch, plain.realTime]⟩

theorem Move.keeps_unnumbered {p moved : BoundParts} {acts : List Act} (move : Move p acts moved)
    (plain : p.session.Unnumbered) : moved.session.Unnumbered ∧ Act.received acts = [] := by
  cases move with
  | inflow changes => exact changes.keeps_unnumbered plain
  | request up flow unasked first nonempty stamped request outstanding begins undelivered counts =>
      have sequenced := plain.flow
      rw [flow] at sequenced
      cases sequenced
  | abandon code reason asked =>
      rw [plain.unasked] at asked
      cases asked
  | finalize down =>
      obtain ⟨finalized, same⟩ := Session.finalizeIfFinished_eq p.session
      refine ⟨?_, rfl⟩
      show p.session.finalizeIfFinished.Unnumbered
      rw [same]
      exact plain.transfer rfl rfl rfl
  | _ => exact ⟨plain.transfer rfl rfl rfl, rfl⟩

theorem Steps.keeps_unnumbered {p : BoundParts} {acts : List Act} {turn : Turn}
    (steps : Steps p acts turn) (plain : p.session.Unnumbered) :
    turn.1.session.Unnumbered ∧ Act.received acts = [] := by
  induction steps with
  | done => exact ⟨plain, rfl⟩
  | close ends =>
      rw [ends.session]
      exact ⟨plain, Act.received_silent ends.silent⟩
  | move moved _ ih =>
      obtain ⟨kept, silent⟩ := moved.keeps_unnumbered plain
      obtain ⟨done, silent'⟩ := ih kept
      exact ⟨done, by rw [Act.received_append, silent, silent']; rfl⟩

/-! ## The life of a session -/

/-- What holds of the session and of what its application was told. -/
def Life.Kept (maxGaps : Nat) (accepted : List Nat) (abandoned : List Gap) : Life → Prop
  | .unborn => accepted = []
  | .live session =>
    (session.remoteFlow.isSequenced = true →
      ∃ first next, Ledger maxGaps ⟨first, accepted, abandoned⟩ session next) ∧
    (session.remoteFlow.isSequenced = false → session.Unnumbered ∧ accepted = [])
  | .ended => accepted.Nodup

theorem Life.Kept.nodup {maxGaps : Nat} {accepted : List Nat} {abandoned : List Gap} {life : Life}
    (kept : life.Kept maxGaps accepted abandoned) : accepted.Nodup := by
  cases life with
  | unborn =>
      have none_accepted : accepted = [] := kept
      rw [none_accepted]
      exact List.nodup_nil
  | live session =>
      cases sequenced : session.remoteFlow.isSequenced with
      | true =>
          obtain ⟨first, next, ledger⟩ := kept.1 sequenced
          exact ledger.once
      | false =>
          rw [(kept.2 sequenced).2]
          exact List.nodup_nil
  | ended => exact kept

/-- More may be given up. -/
theorem Life.Kept.abandoned {maxGaps : Nat} {accepted : List Nat} {abandoned : List Gap} {life : Life}
    (kept : life.Kept maxGaps accepted abandoned) (more : List Gap) :
    life.Kept maxGaps accepted (abandoned ++ more) := by
  cases life with
  | unborn => exact kept
  | live session =>
      refine ⟨fun sequenced => ?_, kept.2⟩
      obtain ⟨first, next, ledger⟩ := kept.1 sequenced
      exact ⟨first, next, ledger.abandoned more⟩
  | ended => exact kept

theorem Progress.kept {config : FixpConfig} {life life' : Life} {acts : List Act}
    {accepted : List Nat} {abandoned : List Gap} (progress : Progress config life acts life')
    (kept : life.Kept config.maxPendingGaps.get accepted abandoned) :
    life'.Kept config.maxPendingGaps.get (accepted ++ Act.received acts)
      (abandoned ++ Act.givenUp acts) := by
  induction progress generalizing accepted abandoned with
  | quiet silent =>
      rw [Act.received_silent silent, List.append_nil]
      exact kept.abandoned _
  | opens id localFlow remoteFlow =>
      have unborn : accepted = [] := kept
      subst unborn
      refine ⟨fun sequenced => ⟨1, 1, ?_⟩, fun plain => ⟨⟨plain, rfl, rfl⟩, rfl⟩⟩
      exact (Ledger.new _ id localFlow sequenced).abandoned (abandoned ++ Act.givenUp [])
  | runs steps same =>
      rename_i p acts turn
      have flow := steps.same.remoteFlow
      refine ⟨fun sequenced => ?_, fun plain => ?_⟩
      · rw [flow] at sequenced
        obtain ⟨first, next, ledger⟩ := kept.1 sequenced
        rw [← same] at ledger ⊢
        obtain ⟨first', next', -, done⟩ := steps.ledger ledger
        rw [Book.enter_eq] at done
        exact ⟨first', next', done⟩
      · rw [flow] at plain
        obtain ⟨unnumbered, none_accepted⟩ := kept.2 plain
        obtain ⟨done, silent⟩ := steps.keeps_unnumbered unnumbered
        exact ⟨done, by rw [none_accepted, silent]; rfl⟩
  | ends =>
      show (accepted ++ []).Nodup
      rw [List.append_nil]
      exact kept.nodup
  | trans _ _ ih ih' =>
      have done := ih' (ih kept)
      rwa [List.append_assoc, List.append_assoc, ← Act.received_append, ← Act.givenUp_append] at done

/-! ## Runs -/

section Drive

variable {R C : Type} [Endpoint R C]

/-- The driver's record and the session agree. -/
structure Driven.Kept (config : FixpConfig) (driven : Driven R) : Prop where
  drained : (Role.core driven.role).outputs = []
  configured : (Role.core driven.role).config = config
  life : (Endpoint.life driven.role).Kept config.maxPendingGaps.get (Entry.accepted driven.record)
    (Entry.abandoned driven.record)

/-- What an endpoint hands over is recorded. -/
theorem entries_accepted (role : R) (call : C) :
    Entry.accepted (entries role call) = (Endpoint.receipts role call).filterMap Prod.fst := by
  have mark : Entry.accepted (if Endpoint.detaches R call then [.detached] else []) = [] := by
    split <;> rfl
  have handed (receipts : List (Option Nat × Bool)) :
      Entry.accepted (receipts.map fun receipt => .taken receipt.1 receipt.2) =
        receipts.filterMap Prod.fst := by
    unfold Entry.accepted
    rw [List.filterMap_map]
    rfl
  have silent (outputs : List Output) : Entry.accepted (outputs.map .output) = [] := by
    unfold Entry.accepted
    rw [List.filterMap_map]
    exact List.filterMap_eq_nil_iff.mpr fun _ _ => rfl
  have last : Entry.accepted (if (Endpoint.call role call).1.writes then [.written] else []) = [] := by
    split <;> rfl
  unfold entries
  rw [Entry.accepted_append, Entry.accepted_append, Entry.accepted_append, mark, handed, silent, last,
    List.append_nil, List.append_nil]
  rfl

/-- What an endpoint gives up is recorded. -/
theorem entries_abandoned (role : R) (call : C) :
    Entry.abandoned (entries role call) =
      (Role.core (Endpoint.call role call).2).outputs.filterMap Output.givenUp := by
  have mark : Entry.abandoned (if Endpoint.detaches R call then [.detached] else []) = [] := by
    split <;> rfl
  have handed (receipts : List (Option Nat × Bool)) :
      Entry.abandoned (receipts.map fun receipt => .taken receipt.1 receipt.2) = [] := by
    unfold Entry.abandoned
    rw [List.filterMap_map]
    exact List.filterMap_eq_nil_iff.mpr fun _ _ => rfl
  have last : Entry.abandoned (if (Endpoint.call role call).1.writes then [.written] else []) = [] := by
    split <;> rfl
  unfold entries
  rw [Entry.abandoned_append, Entry.abandoned_append, Entry.abandoned_append, mark, handed, last,
    List.append_nil]
  unfold Entry.abandoned
  rw [List.filterMap_map]
  rfl

variable [LawfulEndpoint R]

theorem Driven.step_kept {config : FixpConfig} (driven : Driven R) (call : C)
    (kept : driven.Kept config) : (driven.step call).Kept config := by
  obtain ⟨seen, seen_receipts, acts, progress, handed, queued⟩ :=
    LawfulEndpoint.outcome driven.role call
  have receipts : Act.receipts acts = Endpoint.receipts driven.role call := by
    rw [← seen_receipts, ← Act.receipts_handed, handed, Act.receipts_handed]
  have outputs := queued.outputs
  rw [kept.drained, List.nil_append] at outputs
  rw [kept.configured] at progress
  have lives := progress.kept kept.life
  have accepted : Entry.accepted (driven.step call).record =
      Entry.accepted driven.record ++ Act.received acts := by
    show Entry.accepted (driven.record ++ entries driven.role call) = _
    rw [Entry.accepted_append, entries_accepted, ← receipts]
    rfl
  have abandoned : Entry.abandoned (driven.step call).record =
      Entry.abandoned driven.record ++ Act.givenUp acts := by
    show Entry.abandoned (driven.record ++ entries driven.role call) = _
    rw [Entry.abandoned_append, entries_abandoned, outputs]
    rfl
  refine ⟨?_, ?_, ?_⟩
  · show (Role.core (Role.setCore _ _)).outputs = []
    rw [LawfulEndpoint.core_setCore]
    rfl
  · show (Role.core (Role.setCore _ _)).config = config
    rw [LawfulEndpoint.core_setCore]
    exact queued.config.trans kept.configured
  · show Life.Kept _ _ _ (Endpoint.life (Role.setCore _ _))
    rw [LawfulEndpoint.life_setCore, accepted, abandoned]
    exact lives

/-- Whatever the counterparty sends and the driver calls. -/
theorem drive_kept (role : R) (unborn : Endpoint.life role = .unborn)
    (drained : (Role.core role).outputs = []) (calls : List C) :
    (drive role calls).Kept (Role.core role).config := by
  have starts : (⟨role, []⟩ : Driven R).Kept (Role.core role).config :=
    ⟨drained, rfl, by rw [unborn]; rfl⟩
  exact Lib.Runs.invariant (fun driven call kept _ => driven.step_kept call kept) starts
    (Lib.Runs.along_true _ calls)

end Drive

/-! ## What the session knows -/

/-- The gaps, the request, the batch and the runs of a session on a sequenced flow whose next
number is `next`, against the numbers accepted. -/
structure Session.Consistent (maxGaps : Nat) (accepted : List Nat) (s : Session) (next : Nat) :
    Prop where
  expects : s.inboundNext = some next
  ascending : Ascending s.missing
  below : EndBy s.missing next
  bounded : s.missing.length ≤ maxGaps + 1
  asked : ∀ outstanding, s.outstanding = some outstanding →
    outstanding.OfFirst s.missing ∧ outstanding.delivered ≤ outstanding.count
  batch : ∀ replay, s.replay = some replay → ∃ outstanding, s.outstanding = some outstanding ∧
    replay.next = outstanding.fromSeq + outstanding.delivered ∧
    replay.remaining.get ≤ outstanding.count - outstanding.delivered
  /-- A number accepted and still due lies in an overflow run. -/
  received : ∀ n ∈ accepted, s.Due n → Covered s.overflowReceived n

theorem Ledger.consistent {maxGaps next : Nat} {book : Book} {s : Session}
    (ledger : Ledger maxGaps book s next) : s.Consistent maxGaps book.accepted next where
  expects := ledger.expects
  ascending := ledger.ascending
  below := ledger.below
  bounded := ledger.bounded
  asked outstanding was := ⟨(ledger.asked outstanding was).1, (ledger.asked outstanding was).2.1⟩
  batch := ledger.batch
  received := ledger.received

/-- No number is accepted twice, and a session with numbers is consistent. -/
def Driven.AtMostOnce {R C : Type} [Endpoint R C] (config : FixpConfig) (driven : Driven R) : Prop :=
  (Entry.accepted driven.record).Nodup ∧
    ∀ session, Endpoint.life driven.role = .live session → session.remoteFlow.isSequenced = true →
      ∃ next, session.Consistent config.maxPendingGaps.get (Entry.accepted driven.record) next

theorem Driven.Kept.atMostOnce {R C : Type} [Endpoint R C] {config : FixpConfig} {driven : Driven R}
    (kept : driven.Kept config) : driven.AtMostOnce config := by
  refine ⟨kept.life.nodup, fun session live sequenced => ?_⟩
  have lives := kept.life
  rw [live] at lives
  obtain ⟨first, next, ledger⟩ := lives.1 sequenced
  exact ⟨next, ledger.consistent⟩

/-- For either role, any configuration, any calls and any messages of the counterparty. -/
theorem hostile_peer_at_most_once :
    (∀ config clock id flow credentials (calls : List ClientCall),
      (drive (FixpClient.new config clock id flow credentials) calls).AtMostOnce config) ∧
    ∀ config clock now (calls : List ServerCall),
      (drive (FixpServer.new config clock now) calls).AtMostOnce config := by
  constructor
  · intro config clock id flow credentials calls
    exact (drive_kept (FixpClient.new config clock id flow credentials) rfl rfl calls).atMostOnce
  · intro config clock now calls
    exact (drive_kept (FixpServer.new config clock now) rfl rfl calls).atMostOnce

def ones : SessionId := ⟨[1, 1, 1, 1, 1, 1, 1, 1, 1, 1, 1, 1, 1, 1, 1, 1], rfl⟩

/-- Room for one gap, and the one past the bound. -/
def oneGap : FixpConfig :=
  { FixpConfig.default with maxPendingGaps := ⟨1, by decide, by decide⟩ }

def answerEstablish (request next : UInt64) : ClientCall :=
  .message (.establishmentAck ⟨ones, ⟨request⟩, 5000, some next⟩) 0

/-- The overflow gap is widened over 5, which arrived live, and its retransmission has passed 5. -/
def passedRun : List ClientCall :=
  [.negotiate 0, .message (.negotiationResponse ⟨ones, ⟨0⟩, .recoverable, none⟩) 0, .establish 0,
    answerEstablish 1 1, .applicationMessage 0, .message (.sequence ⟨3⟩) 0, .applicationMessage 0,
    .message (.sequence ⟨5⟩) 0, .transportClosed, .establish 0, answerEstablish 3 5,
    .applicationMessage 0, .message (.sequence ⟨8⟩) 0, .transportClosed, .establish 0,
    answerEstablish 5 8, .message (.retransmission ⟨ones, ⟨6⟩, 2, 1⟩) 0, .applicationMessage 0,
    .message (.retransmission ⟨ones, ⟨7⟩, 4, 4⟩) 0, .applicationMessage 0, .applicationMessage 0,
    .applicationMessage 0]

/-- A run is forgotten once the retransmission has passed it, before its gap is consumed. -/
theorem run_forgotten_before_its_gap :
    ¬∀ config clock id flow credentials (calls : List ClientCall) session n,
      Endpoint.life (drive (FixpClient.new config clock id flow credentials) calls).role =
        .live session →
      Covered session.missing n →
      .taken (some n) false ∈ (drive (FixpClient.new config clock id flow credentials) calls).record →
      Covered session.overflowReceived n := by
  intro claimed
  have covered := claimed oneGap ⟨0, 0⟩ ones .unsequenced none passedRun _ 5 rfl
    ⟨⟨4, 8⟩, List.mem_singleton.mpr rfl, by decide, by decide⟩ (by decide +kernel)
  obtain ⟨run, mem, -⟩ := covered
  cases mem

end IronFix.Fixp
