import IronFix.Fixp.Gaps
import IronFix.Fixp.Moves

/-!
# The ledger of an inbound flow

What a session on a sequenced inbound flow remembers of the counterparty's
numbers, held against a book of what its application was told. The counterparty
may send anything: the ledger is kept by every move.
-/

namespace IronFix.Fixp

open Lib.Decimal

/-- What the application was told, and the number at which the numbering started. -/
structure Book where
  first : Nat
  accepted : List Nat
  abandoned : List Gap

namespace Book

/-- The number was handed over. -/
def accept (n : Nat) (book : Book) : Book := { book with accepted := book.accepted ++ [n] }

/-- The number was retransmitted: handed over unless it had been before. -/
def take (duplicate : Bool) (n : Nat) (book : Book) : Book :=
  if duplicate then book else book.accept n

/-- What an act tells the application. -/
def note (book : Book) : Act → Book
  | .accepted (some n) _ => book.accept n
  | .output (.event (.retransmitRejected fromSeq count _ _)) =>
    { book with abandoned := book.abandoned ++ [⟨fromSeq, fromSeq + count⟩] }
  | _ => book

def enter (acts : List Act) (book : Book) : Book := acts.foldl note book

theorem enter_append (acts more : List Act) (book : Book) :
    book.enter (acts ++ more) = (book.enter acts).enter more := List.foldl_append

/-- Where the numbering started is no part of what the application is told. -/
theorem enter_first (acts : List Act) (first : Nat) (book : Book) :
    ({ book with first := first } : Book).enter acts = { book.enter acts with first := first } := by
  induction acts generalizing book with
  | nil => rfl
  | cons act acts ih =>
      have one : ({ book with first := first } : Book).note act =
          { book.note act with first := first } := by
        unfold note accept
        split
        · rfl
        · rfl
        · rfl
      show (({ book with first := first } : Book).note act).enter acts = _
      rw [one]
      exact ih (book.note act)

/-- Acts that hand nothing over only add to what was abandoned. -/
theorem enter_quiet {acts : List Act} (book : Book) (silent : Act.receipts acts = []) :
    ∃ more, book.enter acts = { book with abandoned := book.abandoned ++ more } := by
  induction acts generalizing book with
  | nil => exact ⟨[], by rw [List.append_nil]; rfl⟩
  | cons act acts ih =>
      have one : ∃ more, book.note act = { book with abandoned := book.abandoned ++ more } ∧
          Act.receipts acts = [] := by
        cases act with
        | accepted seq retransmitted => cases silent
        | application seq => exact ⟨[], by rw [List.append_nil]; rfl, silent⟩
        | switched switch => exact ⟨[], by rw [List.append_nil]; rfl, silent⟩
        | output output =>
            unfold note
            split
            · rename_i impossible
              cases impossible
            · exact ⟨_, rfl, silent⟩
            · exact ⟨[], by rw [List.append_nil], silent⟩
      obtain ⟨first, noted, silent⟩ := one
      obtain ⟨rest, entered⟩ := ih (book.note act) silent
      refine ⟨first ++ rest, ?_⟩
      show (book.note act).enter acts = _
      rw [entered, noted, ← List.append_assoc]

end Book

/-- The numbers of a gap still to come: past what the request has delivered. -/
def Session.Due (session : Session) (n : Nat) : Prop :=
  Covered session.missing n ∧
    ∀ outstanding, session.outstanding = some outstanding →
      outstanding.fromSeq + outstanding.delivered ≤ n

/-- The request in flight is for the beginning of the first gap. -/
def Outstanding.OfFirst (outstanding : Outstanding) (missing : List Gap) : Prop :=
  ∃ front rest, missing = front :: rest ∧ outstanding.fromSeq = front.fromSeq ∧
    outstanding.fromSeq + outstanding.count ≤ front.endSeq

/-- The gaps, the request and the batch fit together. -/
structure Shape (maxGaps : Nat) (s : Session) (next : Nat) : Prop where
  sequenced : s.remoteFlow.isSequenced = true
  expects : s.inboundNext = some next
  small : next ≤ u64Max
  pending : s.startPending = true → next = 1 ∧ s.missing = []
  recoverable : s.missing ≠ [] → s.remoteFlow = .recoverable
  ascending : Ascending s.missing
  below : EndBy s.missing next
  bounded : s.missing.length ≤ maxGaps + 1
  asked : ∀ outstanding, s.outstanding = some outstanding → outstanding.OfFirst s.missing ∧
    outstanding.delivered ≤ outstanding.count ∧ outstanding.count ≤ u32Max
  batch : ∀ replay, s.replay = some replay → ∃ outstanding, s.outstanding = some outstanding ∧
    replay.next = outstanding.fromSeq + outstanding.delivered ∧
    replay.remaining.get ≤ outstanding.count - outstanding.delivered
  runs : Ascending s.overflowReceived
  inside : ∀ run ∈ s.overflowReceived, ∃ gap ∈ s.missing, run.endSeq ≤ gap.endSeq

/-- The book and the session agree. -/
structure Ledger (maxGaps : Nat) (book : Book) (s : Session) (next : Nat) : Prop extends
    Shape maxGaps s next where
  unstarted : s.startPending = true → book.accepted = []
  past : ∀ n ∈ book.accepted, n < next
  once : book.accepted.Nodup
  /-- A number received and still due lies in an overflow run. -/
  received : ∀ n ∈ book.accepted, s.Due n → Covered s.overflowReceived n
  genuine : ∀ n, Covered s.overflowReceived n → n ∈ book.accepted
  /-- Everything past the gaps was received. -/
  above : s.missing ≠ [] → ∀ n, EndBy s.missing n → n < next → n ∈ book.accepted
  served : ∀ outstanding, s.outstanding = some outstanding → ∀ n, outstanding.fromSeq ≤ n →
    n < outstanding.fromSeq + outstanding.delivered → n ∈ book.accepted
  accounted : s.remoteFlow = .recoverable → ∀ n, book.first ≤ n → n < next →
    n ∈ book.accepted ∨ Covered s.missing n ∨ Covered book.abandoned n

/-- Nothing is known of the numbering of a new session. -/
theorem Ledger.new (maxGaps : Nat) (id : SessionId) (localFlow : FlowType) {remoteFlow : FlowType}
    (sequenced : remoteFlow.isSequenced = true) :
    Ledger maxGaps ⟨1, [], []⟩ (.new id localFlow remoteFlow) 1 where
  sequenced := sequenced
  expects := if_pos sequenced
  small := by decide
  pending _ := ⟨rfl, rfl⟩
  recoverable none_missing := (none_missing rfl).elim
  ascending := .nil
  below := by simp [EndBy, Session.new]
  bounded := Nat.zero_le _
  asked _ none_asked := by cases none_asked
  batch _ none_batch := by cases none_batch
  runs := .nil
  inside := by simp [Session.new]
  unstarted _ := rfl
  past := by simp
  once := List.nodup_nil
  received := by simp
  genuine n covered := by
    obtain ⟨run, mem, -⟩ := covered
    cases mem
  above none_missing := (none_missing rfl).elim
  served _ none_asked := by cases none_asked
  accounted _ _ above below := absurd below (not_lt_of_ge above)

/-- What a request covers. -/
def Outstanding.range (outstanding : Outstanding) : Nat × Nat × Nat :=
  (outstanding.fromSeq, outstanding.count, outstanding.delivered)

namespace Ledger

variable {config : FixpConfig} {maxGaps next : Nat} {book : Book} {s s' : Session}

/-- A session that knows the same of the numbering has the same ledger. -/
theorem transfer (ledger : Ledger maxGaps book s next) (flow : s'.remoteFlow = s.remoteFlow)
    (expects : s'.inboundNext = s.inboundNext)
    (pending : s'.startPending = true → s.startPending = true) (missing : s'.missing = s.missing)
    (runs : s'.overflowReceived = s.overflowReceived)
    (asked : s'.outstanding.map Outstanding.range = s.outstanding.map Outstanding.range)
    (batch : ∀ replay, s'.replay = some replay → ∃ outstanding, s.outstanding = some outstanding ∧
      replay.next = outstanding.fromSeq + outstanding.delivered ∧
      replay.remaining.get ≤ outstanding.count - outstanding.delivered) :
    Ledger maxGaps book s' next := by
  have back {outstanding : Outstanding} (was : s'.outstanding = some outstanding) :
      ∃ same, s.outstanding = some same ∧ same.range = outstanding.range := by
    rw [was, Option.map_some] at asked
    exact Option.map_eq_some_iff.mp asked.symm
  have forth {outstanding : Outstanding} (was : s.outstanding = some outstanding) :
      ∃ same, s'.outstanding = some same ∧ same.range = outstanding.range := by
    rw [was, Option.map_some] at asked
    exact Option.map_eq_some_iff.mp asked
  have unpack {left right : Outstanding} (same : left.range = right.range) :
      left.fromSeq = right.fromSeq ∧ left.count = right.count ∧ left.delivered = right.delivered := by
    obtain ⟨froms, rest⟩ := Prod.mk.inj same
    exact ⟨froms, Prod.mk.inj rest⟩
  exact {
    sequenced := by rw [flow]; exact ledger.sequenced
    expects := by rw [expects]; exact ledger.expects
    small := ledger.small
    pending := fun unfixed => by rw [missing]; exact ledger.pending (pending unfixed)
    recoverable := by rw [missing, flow]; exact ledger.recoverable
    ascending := by rw [missing]; exact ledger.ascending
    below := by rw [missing]; exact ledger.below
    bounded := by rw [missing]; exact ledger.bounded
    asked := fun outstanding was => by
      obtain ⟨same, request, range⟩ := back was
      obtain ⟨froms, counts, delivers⟩ := unpack range
      rw [missing, Outstanding.OfFirst, ← froms, ← counts, ← delivers]
      exact ledger.asked same request
    batch := fun replay was => by
      obtain ⟨outstanding, request, nexts, left⟩ := batch replay was
      obtain ⟨same, request', range⟩ := forth request
      obtain ⟨froms, counts, delivers⟩ := unpack range
      exact ⟨same, request', by rw [froms, delivers]; exact nexts, by rw [counts, delivers]; exact left⟩
    runs := by rw [runs]; exact ledger.runs
    inside := by rw [runs, missing]; exact ledger.inside
    unstarted := fun unfixed => ledger.unstarted (pending unfixed)
    past := ledger.past
    once := ledger.once
    received := fun n mem due => by
      rw [runs]
      refine ledger.received n mem ⟨missing ▸ due.1, fun outstanding request => ?_⟩
      obtain ⟨same, request', range⟩ := forth request
      obtain ⟨froms, -, delivers⟩ := unpack range
      rw [← froms, ← delivers]
      exact due.2 same request'
    genuine := by rw [runs]; exact ledger.genuine
    above := by rw [missing]; exact ledger.above
    served := fun outstanding was n from_le lt => by
      obtain ⟨same, request, range⟩ := back was
      obtain ⟨froms, -, delivers⟩ := unpack range
      rw [← froms] at from_le lt
      rw [← delivers] at lt
      exact ledger.served same request n from_le lt
    accounted := by rw [flow, missing]; exact ledger.accounted }

/-- The first NextSeqNo. -/
theorem start (ledger : Ledger maxGaps book s next) {first : Nat} (fits : first ≤ u64Max)
    (unfixed : s.startPending = true) :
    Ledger maxGaps { book with first := first }
      { s with
        startPending := false
        inboundNext := some first } first := by
  obtain ⟨-, none_missing⟩ := ledger.pending unfixed
  have none_accepted := ledger.unstarted unfixed
  have none_asked : s.outstanding = none := by
    cases asked : s.outstanding with
    | none => rfl
    | some outstanding =>
        obtain ⟨⟨front, rest, shape, -⟩, -⟩ := ledger.asked outstanding asked
        rw [none_missing] at shape
        cases shape
  exact {
    sequenced := ledger.sequenced
    expects := rfl
    small := fits
    pending := fun false_true => by cases false_true
    recoverable := ledger.recoverable
    ascending := ledger.ascending
    below := by
      show EndBy s.missing first
      rw [none_missing]
      exact fun _ mem => nomatch mem
    bounded := ledger.bounded
    asked := ledger.asked
    batch := ledger.batch
    runs := ledger.runs
    inside := ledger.inside
    unstarted := fun false_true => by cases false_true
    past := by
      show ∀ n ∈ book.accepted, n < first
      rw [none_accepted]
      exact fun _ mem => nomatch mem
    once := ledger.once
    received := fun n mem due => ledger.received n mem due
    genuine := ledger.genuine
    above := fun some_missing => (some_missing none_missing).elim
    served := ledger.served
    accounted := fun _ n above below => absurd below (not_lt_of_ge above) }

/-- A real-time message. -/
theorem live (ledger : Ledger maxGaps book s next) (fits : next + 1 ≤ u64Max) :
    Ledger maxGaps (book.accept next)
      { s with
        startPending := false
        inboundNext := some (next + 1) } (next + 1) where
  sequenced := ledger.sequenced
  expects := rfl
  small := fits
  pending false_true := by cases false_true
  recoverable := ledger.recoverable
  ascending := ledger.ascending
  below := ledger.below.mono (Nat.le_succ _)
  bounded := ledger.bounded
  asked := ledger.asked
  batch := ledger.batch
  runs := ledger.runs
  inside := ledger.inside
  unstarted false_true := by cases false_true
  past n mem := by
    rcases List.mem_append.mp mem with mem | mem
    · exact Nat.lt_succ_of_lt (ledger.past n mem)
    · obtain rfl := List.mem_singleton.mp mem
      exact Nat.lt_succ_self _
  once := by
    show (book.accepted ++ [next]).Nodup
    rw [List.nodup_append]
    refine ⟨ledger.once, List.nodup_singleton _, fun n mem m single => ?_⟩
    obtain rfl := List.mem_singleton.mp single
    exact Nat.ne_of_lt (ledger.past n mem)
  received n mem due := by
    rcases List.mem_append.mp mem with mem | mem
    · exact ledger.received n mem due
    · obtain rfl := List.mem_singleton.mp mem
      exact (ledger.below.not_covered due.1).elim
  genuine n covered := List.mem_append_left _ (ledger.genuine n covered)
  above some_missing n ends below := by
    rcases Nat.lt_succ_iff_lt_or_eq.mp below with below | rfl
    · exact List.mem_append_left _ (ledger.above some_missing n ends below)
    · exact List.mem_append_right _ (List.mem_singleton.mpr rfl)
  served outstanding asked n from_le lt :=
    List.mem_append_left _ (ledger.served outstanding asked n from_le lt)
  accounted flow n above below := by
    rcases Nat.lt_succ_iff_lt_or_eq.mp below with below | rfl
    · rcases ledger.accounted flow n above below with mem | known
      · exact .inl (List.mem_append_left _ mem)
      · exact .inr known
    · exact .inl (List.mem_append_right _ (List.mem_singleton.mpr rfl))

/-! ### Opening a gap -/

/-- Gaps and runs that cover the numbers skipped and, of those received, only what the runs
remember. -/
theorem reopen (ledger : Ledger maxGaps book s next) {next' : Nat} {missing runs : List Gap}
    (flow : s.remoteFlow = .recoverable) (fixed : s.startPending = false) (ahead : next < next')
    (fits : next' ≤ u64Max) (ascending : Ascending missing) (below : EndBy missing next')
    (bounded : missing.length ≤ maxGaps + 1)
    (sameFirst : ∀ outstanding : Outstanding, outstanding.OfFirst s.missing →
      outstanding.OfFirst missing)
    (ordered : Ascending runs)
    (inside : ∀ run ∈ runs, ∃ gap ∈ missing, run.endSeq ≤ gap.endSeq)
    (kept : ∀ n, Covered s.missing n → Covered missing n)
    (added : ∀ n, n < next → Covered missing n → Covered s.missing n ∨ Covered runs n)
    (skipped : ∀ n, next ≤ n → n < next' → Covered missing n)
    (ends : ∀ n, EndBy missing n → next' ≤ n)
    (remembered : ∀ n, Covered s.overflowReceived n → Covered runs n)
    (truly : ∀ n, Covered runs n → Covered s.overflowReceived n ∨
      s.missing ≠ [] ∧ EndBy s.missing n ∧ n < next) :
    Ledger maxGaps book
      { s with
        missing := missing
        overflowReceived := runs
        inboundNext := some next' } next' where
  sequenced := ledger.sequenced
  expects := rfl
  small := fits
  pending unfixed := by
    have unfixed : s.startPending = true := unfixed
    rw [fixed] at unfixed
    cases unfixed
  recoverable _ := flow
  ascending := ascending
  below := below
  bounded := bounded
  asked outstanding was := ⟨sameFirst outstanding (ledger.asked outstanding was).1,
    (ledger.asked outstanding was).2⟩
  batch := ledger.batch
  runs := ordered
  inside := inside
  unstarted unfixed := by
    have unfixed : s.startPending = true := unfixed
    rw [fixed] at unfixed
    cases unfixed
  past n mem := lt_trans (ledger.past n mem) ahead
  once := ledger.once
  received n mem due := by
    rcases added n (ledger.past n mem) due.1 with covered | covered
    · exact remembered n (ledger.received n mem ⟨covered, due.2⟩)
    · exact covered
  genuine n covered := by
    rcases truly n covered with covered | ⟨some_missing, ended, below⟩
    · exact ledger.genuine n covered
    · exact ledger.above some_missing n ended below
  above _ n ended lt := absurd lt (not_lt_of_ge (ends n ended))
  served := ledger.served
  accounted _ n above lt := by
    rcases Nat.lt_or_ge n next with before | after
    · rcases ledger.accounted flow n above before with mem | covered | given
      · exact .inl mem
      · exact .inr (.inl (kept n covered))
      · exact .inr (.inr given)
    · exact .inr (.inl (skipped n after lt))

/-- A gap behind the others. -/
theorem push (ledger : Ledger maxGaps book s next) {next' : Nat} (flow : s.remoteFlow = .recoverable)
    (fixed : s.startPending = false) (ahead : next < next') (fits : next' ≤ u64Max)
    (room : s.missing.length ≤ maxGaps) :
    Ledger maxGaps book
      { s with
        missing := s.missing ++ [⟨next, next'⟩]
        inboundNext := some next' } next' := by
  refine ledger.reopen flow fixed ahead fits (ledger.ascending.append ledger.below ahead) ?_ ?_ ?_ ledger.runs ?_ ?_ ?_ ?_ ?_
    (fun _ covered => covered) (fun _ covered => .inl covered)
  · intro gap mem
    rcases List.mem_append.mp mem with mem | mem
    · exact le_trans (ledger.below gap mem) (le_of_lt ahead)
    · obtain rfl := List.mem_singleton.mp mem
      exact le_refl _
  · rw [List.length_append, List.length_singleton]
    omega
  · rintro outstanding ⟨front, rest, shape, begins, within⟩
    exact ⟨front, rest ++ [⟨next, next'⟩], by rw [shape]; rfl, begins, within⟩
  · intro run mem
    obtain ⟨gap, gapMem, le⟩ := ledger.inside run mem
    exact ⟨gap, List.mem_append_left _ gapMem, le⟩
  · exact fun n covered => Covered.append.mpr (.inl covered)
  · intro n before covered
    rcases Covered.append.mp covered with covered | ⟨from_le, -⟩
    · exact .inl covered
    · have from_le : next ≤ n := from_le
      omega
  · exact fun n from_le lt => Covered.append.mpr (.inr ⟨from_le, lt⟩)
  · exact fun n ended => ended ⟨next, next'⟩ (List.mem_append_right _ (List.mem_singleton.mpr rfl))

/-- The last gap widened up to the new number, over a run received live. -/
theorem widen (ledger : Ledger maxGaps book s next) {next' : Nat} {init runs : List Gap} {last : Gap}
    (flow : s.remoteFlow = .recoverable) (fixed : s.startPending = false) (ahead : next < next')
    (fits : next' ≤ u64Max) (shape : s.missing = init ++ [last])
    (grown : runs = s.overflowReceived ∧ last.endSeq = next ∨
      runs = s.overflowReceived ++ [⟨last.endSeq, next⟩] ∧ last.endSeq < next) :
    Ledger maxGaps book
      { s with
        missing := init ++ [{ last with endSeq := next' }]
        overflowReceived := runs
        inboundNext := some next' } next' := by
  have ascending : Ascending (init ++ [last]) := shape ▸ ledger.ascending
  have below : last.endSeq ≤ next :=
    ledger.below last (by rw [shape]; exact List.mem_append_right _ (List.mem_singleton.mpr rfl))
  have lastEnds : EndBy s.missing last.endSeq := by
    rw [shape]
    exact ascending.endBy_last
  have some_missing : s.missing ≠ [] := by simp [shape]
  refine ledger.reopen flow fixed ahead fits (ascending.widen (by omega)) ?_ ?_ ?_ ?_ ?_ ?_ ?_ ?_ ?_ ?_ ?_
  · intro gap mem
    rcases List.mem_append.mp mem with mem | mem
    · have := ledger.below gap (by rw [shape]; exact List.mem_append_left _ mem)
      omega
    · obtain rfl := List.mem_singleton.mp mem
      exact le_refl _
  · have bounded := ledger.bounded
    rw [shape] at bounded
    simpa using bounded
  · rintro outstanding ⟨front, rest, first, begins, within⟩
    rw [shape] at first
    cases init with
    | nil =>
        obtain ⟨rfl, rfl⟩ := List.cons.inj first
        exact ⟨_, [], rfl, begins, by show _ ≤ next'; omega⟩
    | cons head tail =>
        obtain ⟨rfl, -⟩ := List.cons.inj first
        exact ⟨head, _, rfl, begins, within⟩
  · rcases grown with ⟨rfl, -⟩ | ⟨rfl, live⟩
    · exact ledger.runs
    · refine ledger.runs.append (fun run mem => ?_) live
      obtain ⟨gap, gapMem, le⟩ := ledger.inside run mem
      exact le_trans le (lastEnds gap gapMem)
  · intro run mem
    refine ⟨_, List.mem_append_right _ (List.mem_singleton.mpr rfl), ?_⟩
    show run.endSeq ≤ next'
    rcases grown with ⟨rfl, -⟩ | ⟨rfl, -⟩
    · obtain ⟨gap, gapMem, le⟩ := ledger.inside run mem
      have := lastEnds gap gapMem
      omega
    · rcases List.mem_append.mp mem with mem | mem
      · obtain ⟨gap, gapMem, le⟩ := ledger.inside run mem
        have := lastEnds gap gapMem
        omega
      · obtain rfl := List.mem_singleton.mp mem
        exact le_of_lt ahead
  · intro n covered
    rw [shape] at covered
    rcases Covered.append.mp covered with covered | ⟨from_le, lt⟩
    · exact Covered.append.mpr (.inl covered)
    · exact Covered.append.mpr (.inr ⟨from_le, by show n < next'; omega⟩)
  · intro n before covered
    rcases Covered.append.mp covered with covered | ⟨from_le, -⟩
    · exact .inl (by rw [shape]; exact Covered.append.mpr (.inl covered))
    · rcases Nat.lt_or_ge n last.endSeq with lt | ge
      · exact .inl (by rw [shape]; exact Covered.append.mpr (.inr ⟨from_le, lt⟩))
      · rcases grown with ⟨-, ended⟩ | ⟨rfl, -⟩
        · omega
        · exact .inr (Covered.append.mpr (.inr ⟨ge, before⟩))
  · intro n from_le lt
    have := ascending.init.2.2
    exact Covered.append.mpr (.inr ⟨by show last.fromSeq ≤ n; omega, lt⟩)
  · exact fun n ended => ended _ (List.mem_append_right _ (List.mem_singleton.mpr rfl))
  · intro n covered
    rcases grown with ⟨rfl, -⟩ | ⟨rfl, -⟩
    · exact covered
    · exact Covered.append.mpr (.inl covered)
  · intro n covered
    rcases grown with ⟨rfl, -⟩ | ⟨rfl, -⟩
    · exact .inl covered
    · rcases Covered.append.mp covered with covered | ⟨from_le, lt⟩
      · exact .inl covered
      · exact .inr ⟨some_missing, lastEnds.mono from_le, lt⟩

theorem record (ledger : Ledger config.maxPendingGaps.get book s next) {next' : Nat}
    {recorded : Session} (flow : s.remoteFlow = .recoverable) (fixed : s.startPending = false)
    (ahead : next < next') (fits : next' ≤ u64Max)
    (admitted : s.recordGap config next next' = some recorded) :
    Ledger config.maxPendingGaps.get book { recorded with inboundNext := some next' } next' := by
  unfold Session.recordGap at admitted
  split at admitted
  · rename_i last found
    obtain ⟨init, shape⟩ := List.getLast?_eq_some_iff.mp found
    split at admitted
    · rename_i touches
      obtain rfl := Option.some.inj admitted
      have widened := ledger.widen flow fixed ahead fits shape (.inl ⟨rfl, touches⟩)
      simpa [shape] using widened
    · split at admitted
      · cases admitted
      · obtain rfl := Option.some.inj admitted
        exact ledger.push flow fixed ahead fits (by omega)
  · split at admitted
    · cases admitted
    · obtain rfl := Option.some.inj admitted
      exact ledger.push flow fixed ahead fits (by omega)

theorem hold (ledger : Ledger config.maxPendingGaps.get book s next) {next' : Nat} {held : Session}
    (flow : s.remoteFlow = .recoverable) (fixed : s.startPending = false) (ahead : next < next')
    (fits : next' ≤ u64Max) (kept : s.holdRefusedGap config next next' = some held) :
    Ledger config.maxPendingGaps.get book { held with inboundNext := some next' } next' := by
  unfold Session.holdRefusedGap at kept
  split at kept
  · rename_i last found
    obtain ⟨init, shape⟩ := List.getLast?_eq_some_iff.mp found
    have below : last.endSeq ≤ next :=
      ledger.below last (by rw [shape]; exact List.mem_append_right _ (List.mem_singleton.mpr rfl))
    split at kept
    · have wider : max last.endSeq next' = next' := by omega
      unfold Session.widenOverflow at kept
      rw [wider] at kept
      split at kept
      · rename_i live
        split at kept
        · cases kept
        · obtain rfl := Option.some.inj kept
          have widened := ledger.widen flow fixed ahead fits shape (.inr ⟨rfl, live⟩)
          simpa [shape] using widened
      · obtain rfl := Option.some.inj kept
        have widened := ledger.widen flow fixed ahead fits shape (.inl ⟨rfl, by omega⟩)
        simpa [shape] using widened
    · obtain rfl := Option.some.inj kept
      exact ledger.push flow fixed ahead fits (by omega)
  · rename_i empty
    obtain rfl := Option.some.inj kept
    rw [List.getLast?_eq_none_iff] at empty
    exact ledger.push flow fixed ahead fits (by rw [empty]; exact Nat.zero_le _)

/-- A gap that is not recovered. -/
theorem skip (ledger : Ledger maxGaps book s next) {next' : Nat} (flow : s.remoteFlow = .idempotent)
    (fixed : s.startPending = false) (ahead : next < next') (fits : next' ≤ u64Max) :
    Ledger maxGaps book { s with inboundNext := some next' } next' := by
  have none_missing : s.missing = [] := by
    by_contra some_missing
    have := ledger.recoverable some_missing
    rw [flow] at this
    cases this
  exact {
    sequenced := ledger.sequenced
    expects := rfl
    small := fits
    pending := fun unfixed => by
      have unfixed : s.startPending = true := unfixed
      rw [fixed] at unfixed
      cases unfixed
    recoverable := ledger.recoverable
    ascending := ledger.ascending
    below := ledger.below.mono (le_of_lt ahead)
    bounded := ledger.bounded
    asked := ledger.asked
    batch := ledger.batch
    runs := ledger.runs
    inside := ledger.inside
    unstarted := ledger.unstarted
    past := fun n mem => lt_trans (ledger.past n mem) ahead
    once := ledger.once
    received := ledger.received
    genuine := ledger.genuine
    above := fun some_missing => (some_missing none_missing).elim
    served := ledger.served
    accounted := fun recovered => by
      have recovered : s.remoteFlow = .recoverable := recovered
      rw [flow] at recovered
      cases recovered }

/-! ### Settling a request -/

/-- A request ends with `count` numbers of the first gap consumed: those delivered, and some
abandoned. -/
theorem settle (ledger : Ledger maxGaps book s next) {outstanding : Outstanding} {count : Nat}
    {abandoned : List Gap} (asked : s.outstanding = some outstanding)
    (delivered : outstanding.delivered ≤ count) (within : count ≤ outstanding.count)
    (keeps : ∀ n, Covered book.abandoned n → Covered abandoned n)
    (gives : ∀ n, outstanding.fromSeq + outstanding.delivered ≤ n → n < outstanding.fromSeq + count →
      Covered abandoned n) :
    Ledger maxGaps { book with abandoned := abandoned }
      (({ s with
        outstanding := none
        replay := none } : Session).consumeMissing count) next := by
  obtain ⟨⟨front, rest, shape, begins, fits⟩, -⟩ := ledger.asked outstanding asked
  have ascending : Ascending (front :: rest) := shape ▸ ledger.ascending
  have nonempty := ascending.nonempty front (List.mem_cons_self ..)
  have below : EndBy (front :: rest) next := shape ▸ ledger.below
  have inside : front.fromSeq + count ≤ front.endSeq := by omega
  have small : front.endSeq ≤ u64Max := le_trans (below front (List.mem_cons_self ..)) ledger.small
  have first : ({ s with outstanding := none, replay := none } : Session).missing = front :: rest :=
    shape
  rw [Session.consumeMissing_trim first nonempty inside small]
  have covered {n : Nat} : Covered (trim front rest count) n ↔
      Covered s.missing n ∧ outstanding.fromSeq + count ≤ n := by
    rw [shape, begins]
    exact covered_trim ascending inside
  have runs_sub {run : Gap} {left : List Gap}
      (mem : run ∈ (if left.isEmpty then [] else s.overflowReceived)) :
      left ≠ [] ∧ run ∈ s.overflowReceived := by
    split at mem
    · cases mem
    · rename_i filled
      exact ⟨by simpa using filled, mem⟩
  have runs_eq {left : List Gap} (filled : left ≠ []) :
      (if left.isEmpty then [] else s.overflowReceived) = s.overflowReceived := by
    rw [if_neg]
    simpa using filled
  exact {
    sequenced := ledger.sequenced
    expects := ledger.expects
    small := ledger.small
    pending := fun unfixed => by
      have none_missing := (ledger.pending unfixed).2
      rw [shape] at none_missing
      cases none_missing
    recoverable := fun _ => ledger.recoverable (by simp [shape])
    ascending := trim_ascending ascending
    below := trim_endBy below
    bounded := le_trans trim_length (shape ▸ ledger.bounded)
    asked := fun _ none_asked => by cases none_asked
    batch := fun _ none_batch => by cases none_batch
    runs := by
      show Ascending (if (trim front rest count).isEmpty then [] else s.overflowReceived)
      split
      · exact .nil
      · exact ledger.runs
    inside := by
      intro run mem
      obtain ⟨filled, mem⟩ := runs_sub mem
      obtain ⟨gap, gapMem, le⟩ := ledger.inside run mem
      obtain ⟨left, leftMem, reach⟩ := trim_reaches ascending filled (shape ▸ gapMem)
      exact ⟨left, leftMem, le_trans le reach⟩
    unstarted := ledger.unstarted
    past := ledger.past
    once := ledger.once
    received := fun n mem due => by
      obtain ⟨was, past⟩ := covered.mp due.1
      have held := ledger.received n mem ⟨was, fun other request => by
        obtain rfl := Option.some.inj (asked.symm.trans request)
        omega⟩
      show Covered (if (trim front rest count).isEmpty then [] else s.overflowReceived) n
      rw [runs_eq]
      · exact held
      · obtain ⟨gap, gapMem, -⟩ := due.1
        exact List.ne_nil_of_mem gapMem
    genuine := fun n held => by
      obtain ⟨run, mem, covers⟩ := held
      exact ledger.genuine n ⟨run, (runs_sub mem).2, covers⟩
    above := fun filled n ends lt => by
      refine ledger.above (by simp [shape]) n (fun gap mem => ?_) lt
      obtain ⟨left, leftMem, reach⟩ := trim_reaches ascending filled (shape ▸ mem)
      exact le_trans reach (ends left leftMem)
    served := fun _ none_asked => by cases none_asked
    accounted := fun flow n above lt => by
      rcases ledger.accounted flow n above lt with mem | was | given
      · exact .inl mem
      · rcases Nat.lt_or_ge n (outstanding.fromSeq + count) with consumed | left
        · rcases Nat.lt_or_ge n (outstanding.fromSeq + outstanding.delivered) with served | unserved
          · refine .inl (ledger.served outstanding asked n ?_ served)
            obtain ⟨gap, gapMem, from_le, -⟩ := was
            rw [shape] at gapMem
            rcases List.mem_cons.mp gapMem with rfl | gapMem
            · omega
            · have := ascending.tail.2 gap gapMem
              omega
          · exact .inr (.inr (gives n unserved consumed))
        · exact .inr (.inl (covered.mpr ⟨was, left⟩))
      · exact .inr (.inr (keeps n given)) }

/-! ### Retransmitted messages -/

/-- The counters once a message of the batch is taken. -/
theorem advanced (ledger : Ledger maxGaps book s next) {replay : Replay} (now : Nat)
    (batch : s.replay = some replay) :
    ∃ outstanding served left, s.outstanding = some outstanding ∧
      replay.next = outstanding.fromSeq + outstanding.delivered ∧
      outstanding.delivered < outstanding.count ∧
      served.fromSeq = outstanding.fromSeq ∧ served.count = outstanding.count ∧
      served.delivered = outstanding.delivered + 1 ∧
      (s.advanceReplay replay (replay.next + 1) now).2 =
        { s with
          replay := left
          outstanding := some served } ∧
      ∀ more, left = some more → more.next = replay.next + 1 ∧
        more.remaining.get ≤ outstanding.count - (outstanding.delivered + 1) := by
  obtain ⟨outstanding, asked, begins, remaining⟩ := ledger.batch replay batch
  obtain ⟨-, delivered, small⟩ := ledger.asked outstanding asked
  have positive := replay.remaining.positive
  have fits : checkedAdd u32Max outstanding.delivered 1 = some (outstanding.delivered + 1) :=
    checkedAdd_eq_some.mpr ⟨rfl, by omega⟩
  refine ⟨outstanding,
    { outstanding with
      delivered := outstanding.delivered + 1
      lastProgress := now
      stallReported := false
      batchComplete := replay.remaining.get == 1 },
    (NonZero.new u32Max (replay.remaining.get - 1)).map fun remaining =>
      { next := replay.next + 1, remaining },
    asked, begins, by omega, rfl, rfl, rfl, ?_, ?_⟩
  · unfold Session.advanceReplay
    simp only [asked, fits]
  · intro more shape
    obtain ⟨left, left_eq, rfl⟩ := Option.map_eq_some_iff.mp shape
    unfold NonZero.new at left_eq
    split at left_eq
    · obtain rfl := Option.some.inj left_eq
      exact ⟨rfl, by show replay.remaining.get - 1 ≤ _; omega⟩
    · cases left_eq

/-- A retransmitted message: handed over unless it was received live. -/
theorem replayed (ledger : Ledger maxGaps book s next) {replay : Replay} (now : Nat)
    (batch : s.replay = some replay) {duplicate : Bool} {after : Session}
    (outcome : (s.advanceReplay replay (replay.next + 1) now).2.receivedInOverflow replay.next =
      (duplicate, after)) :
    Ledger maxGaps (book.take duplicate replay.next) after next := by
  obtain ⟨outstanding, served, left, asked, begins, undelivered, froms, counts, delivers, advanced,
    continues⟩ := ledger.advanced now batch
  obtain ⟨⟨front, rest, shape, first, within⟩, -, small⟩ := ledger.asked outstanding asked
  have ascending : Ascending (front :: rest) := shape ▸ ledger.ascending
  have frontMem : front ∈ s.missing := by
    rw [shape]
    exact List.mem_cons_self ..
  have frontBelow := ledger.below front frontMem
  rw [advanced] at outcome
  obtain ⟨received, rfl⟩ := Prod.mk.inj outcome
  have due : s.Due replay.next := by
    refine ⟨⟨front, frontMem, by omega, by omega⟩, fun other request => ?_⟩
    obtain rfl := Option.some.inj (asked.symm.trans request)
    omega
  have known : duplicate = true ↔ Covered s.overflowReceived replay.next := by
    rw [← received]
    exact head_runsPast ledger.runs
  have taken {n : Nat} (mem : n ∈ book.accepted) : n ∈ (book.take duplicate replay.next).accepted := by
    unfold Book.take
    split
    · exact mem
    · exact List.mem_append_left _ mem
  have mem_taken {n : Nat} (mem : n ∈ (book.take duplicate replay.next).accepted) :
      n ∈ book.accepted ∨ n = replay.next := by
    unfold Book.take at mem
    split at mem
    · exact .inl mem
    · rcases List.mem_append.mp mem with mem | mem
      · exact .inl mem
      · exact .inr (List.mem_singleton.mp mem)
  have handed : replay.next ∈ (book.take duplicate replay.next).accepted := by
    unfold Book.take
    split
    · rename_i repeated
      exact ledger.genuine _ (known.mp repeated)
    · exact List.mem_append_right _ (List.mem_singleton.mpr rfl)
  have abandoned : (book.take duplicate replay.next).abandoned = book.abandoned := by
    unfold Book.take
    split
    · rfl
    · rfl
  have begun : (book.take duplicate replay.next).first = book.first := by
    unfold Book.take
    split
    · rfl
    · rfl
  exact {
    sequenced := ledger.sequenced
    expects := ledger.expects
    small := ledger.small
    pending := ledger.pending
    recoverable := ledger.recoverable
    ascending := ledger.ascending
    below := ledger.below
    bounded := ledger.bounded
    asked := fun other request => by
      obtain rfl := Option.some.inj request
      refine ⟨⟨front, rest, shape, by omega, by omega⟩, by omega, by omega⟩
    batch := fun more still => by
      obtain ⟨nexts, remains⟩ := continues more still
      exact ⟨served, rfl, by omega, by omega⟩
    runs := runsPast_ascending ledger.runs
    inside := fun run mem => ledger.inside run (runsPast_sublist.subset mem)
    unstarted := fun unfixed => by
      have none_missing := (ledger.pending unfixed).2
      rw [shape] at none_missing
      cases none_missing
    past := fun n mem => by
      rcases mem_taken mem with mem | rfl
      · exact ledger.past n mem
      · omega
    once := by
      unfold Book.take
      split
      · exact ledger.once
      · rename_i fresh
        show (book.accepted ++ [replay.next]).Nodup
        rw [List.nodup_append]
        refine ⟨ledger.once, List.nodup_singleton _, fun n mem m single same => ?_⟩
        obtain rfl := List.mem_singleton.mp single
        subst same
        -- a number accepted and still due lies in a run, and would have been discarded
        exact fresh (known.mpr (ledger.received _ mem due))
    received := fun n mem still => by
      have past := still.2 served rfl
      have old : n ∈ book.accepted := by
        rcases mem_taken mem with mem | rfl
        · exact mem
        · omega
      have held := ledger.received n old ⟨still.1, fun other request => by
        obtain rfl := Option.some.inj (asked.symm.trans request)
        omega⟩
      exact covered_runsPast held (by omega)
    genuine := fun n covered => by
      obtain ⟨run, mem, covers⟩ := covered
      exact taken (ledger.genuine n ⟨run, runsPast_sublist.subset mem, covers⟩)
    above := fun some_missing n ends lt => taken (ledger.above some_missing n ends lt)
    served := fun other request n from_le lt => by
      obtain rfl := Option.some.inj request
      rcases Nat.lt_or_ge n replay.next with before | after
      · exact taken (ledger.served outstanding asked n (by omega) (by omega))
      · have same : n = replay.next := by omega
        rw [same]
        exact handed
    accounted := fun flow n above lt => by
      rw [abandoned]
      rcases ledger.accounted flow n (begun ▸ above) lt with mem | known
      · exact .inl (taken mem)
      · exact .inr known }

/-- More may have been abandoned. -/
theorem abandoned (ledger : Ledger maxGaps book s next) (more : List Gap) :
    Ledger maxGaps { book with abandoned := book.abandoned ++ more } s next where
  toShape := ledger.toShape
  unstarted := ledger.unstarted
  past := ledger.past
  once := ledger.once
  received := ledger.received
  genuine := ledger.genuine
  above := ledger.above
  served := ledger.served
  accounted flow n above lt := by
    rcases ledger.accounted flow n above lt with mem | covered | ⟨gap, mem, covers⟩
    · exact .inl mem
    · exact .inr (.inl covered)
    · exact .inr (.inr ⟨gap, List.mem_append_left _ mem, covers⟩)

theorem quiet (ledger : Ledger maxGaps book s next) {acts : List Act}
    (silent : Act.receipts acts = []) : Ledger maxGaps (book.enter acts) s next := by
  obtain ⟨more, entered⟩ := book.enter_quiet silent
  rw [entered]
  exact ledger.abandoned more

/-- The request in flight is dropped, and what it delivered stays delivered. -/
theorem release (ledger : Ledger maxGaps book s next) :
    Ledger maxGaps book s.releaseBindingState next := by
  unfold Session.releaseBindingState
  cases asked : s.outstanding with
  | none =>
      have none_batch : s.replay = none := by
        cases batch : s.replay with
        | none => rfl
        | some replay =>
            obtain ⟨outstanding, request, -⟩ := ledger.batch replay batch
            rw [asked] at request
            cases request
      exact ledger.transfer rfl rfl id rfl rfl (by rw [asked]) fun replay batch => by
        cases batch
  | some outstanding =>
      have settled := ledger.settle asked (le_refl _) (ledger.asked outstanding asked).2.1
        (fun n (given : Covered book.abandoned n) => given) fun n above below => by omega
      have same := Session.consumeMissing_replay outstanding.delivered none
        { s with outstanding := none }
      have none_asked : (({ s with outstanding := none } : Session).consumeMissing
          outstanding.delivered).outstanding = none := by
        obtain ⟨missing, overflow, consumed⟩ := Session.consumeMissing_eq outstanding.delivered
          { s with outstanding := none }
        rw [consumed]
      rw [show ({ s with outstanding := none, replay := none } : Session).consumeMissing
        outstanding.delivered = _ from same] at settled
      exact settled.transfer rfl rfl id rfl rfl rfl fun replay batch => by cases batch

end Ledger

/-- What a change to the session does to its ledger: only a first NextSeqNo moves the start. -/
theorem Inflow.ledger {config : FixpConfig} {book : Book} {s s' : Session} {acts : List Act}
    {next : Nat} (changes : Inflow config s acts s')
    (ledger : Ledger config.maxPendingGaps.get book s next) :
    ∃ first next', (s.startPending = false → first = book.first) ∧
      Ledger config.maxPendingGaps.get { book.enter acts with first := first } s' next' := by
  have kept {book' : Book} {next' : Nat} (same : book'.first = book.first)
      (after : Ledger config.maxPendingGaps.get book' s' next') :
      ∃ first next', (s.startPending = false → first = book.first) ∧
        Ledger config.maxPendingGaps.get { book' with first := first } s' next' :=
    ⟨book.first, next', fun _ => rfl, by rw [← same]; exact after⟩
  cases changes with
  | start sequenced positive fits unfixed =>
      rename_i number
      rcases unfixed with pending | unknown
      · refine ⟨number, number, fun fixed => ?_, ledger.start fits pending⟩
        rw [pending] at fixed
        cases fixed
      · rw [ledger.expects] at unknown
        cases unknown
  | started =>
      exact kept rfl (ledger.transfer rfl rfl (fun started => by cases started) rfl rfl rfl
        ledger.batch)
  | leaveReplay now =>
      refine kept rfl (ledger.transfer rfl rfl id rfl rfl ?_ fun replay batch => by cases batch)
      unfold Session.leaveReplay
      dsimp only
      split
      · rw [Option.map_map]
        rfl
      · rfl
  | skip flow fixed was ahead fits =>
      obtain rfl := Option.some.inj (was.symm.trans ledger.expects)
      exact kept rfl (ledger.skip flow fixed ahead fits)
  | record flow fixed was ahead fits admitted =>
      obtain rfl := Option.some.inj (was.symm.trans ledger.expects)
      exact kept rfl (ledger.record flow fixed ahead fits admitted)
  | hold flow fixed was ahead fits refused held =>
      obtain rfl := Option.some.inj (was.symm.trans ledger.expects)
      exact kept rfl (ledger.hold flow fixed ahead fits held)
  | live sequenced realTime was fits =>
      obtain rfl := Option.some.inj (was.symm.trans ledger.expects)
      exact kept rfl (ledger.live fits)
  | unnumbered flow => exact kept rfl ledger
  | meets fixed was => exact kept rfl ledger
  | replayed now batch =>
      rename_i replay
      have after := ledger.replayed now batch rfl
      have noted : book.enter (.switched .replayed ::
          if ((s.advanceReplay replay (replay.next + 1) now).2.receivedInOverflow replay.next).1 then
            [] else [.accepted (some replay.next) true]) =
          book.take ((s.advanceReplay replay (replay.next + 1) now).2.receivedInOverflow
            replay.next).1 replay.next := by
        unfold Book.take
        split
        · rfl
        · rfl
      rw [noted]
      refine kept ?_ after
      unfold Book.take
      split
      · rfl
      · rfl
  | complete asked full =>
      rename_i outstanding
      obtain ⟨-, delivered, small⟩ := ledger.asked outstanding asked
      exact kept rfl (ledger.settle asked delivered (le_refl _) (fun _ given => given)
        fun n above below => by omega)
  | leftOver unasked =>
      exact kept rfl (ledger.transfer rfl rfl id rfl rfl rfl fun replay batch => by cases batch)
  | beginBatch now asked inRange fits =>
      rename_i outstanding batch
      refine kept rfl (ledger.transfer rfl rfl id rfl rfl ?_ fun replay begun => ?_)
      · rw [asked]
        rfl
      · obtain rfl := Option.some.inj begun
        exact ⟨outstanding, asked, rfl, inRange⟩
  | redo asked =>
      rename_i outstanding
      exact kept rfl (ledger.settle asked (le_refl _) (ledger.asked outstanding asked).2.1
        (fun _ given => given) fun n above below => by omega)
  | stallReported =>
      refine kept rfl (ledger.transfer rfl rfl id rfl rfl ?_ ledger.batch)
      rw [Option.map_map]
      rfl
  | finishing finished =>
      exact kept rfl (ledger.transfer rfl rfl id rfl rfl rfl ledger.batch)
  | answered was =>
      exact kept rfl (ledger.transfer rfl rfl id rfl rfl rfl ledger.batch)
  | release => exact kept rfl ledger.release

theorem Close.ledger {p closed : BoundParts} {acts : List Act} {maxGaps next : Nat} {book : Book}
    (ends : Close p acts closed) (ledger : Ledger maxGaps book p.session next) :
    Ledger maxGaps (book.enter acts) closed.session next := by
  rw [ends.session]
  exact ledger.quiet (Act.receipts_silent ends.silent)

/-- The request for the first gap. -/
theorem Ledger.request {maxGaps next : Nat} {book : Book} {s : Session}
    (ledger : Ledger maxGaps book s next) {front : Gap} {outstanding : Outstanding} {max : Nat}
    (unasked : s.outstanding = none) (first : s.missing.head? = some front)
    (begins : outstanding.fromSeq = front.fromSeq) (undelivered : outstanding.delivered = 0)
    (counts : outstanding.count = BoundParts.requestCount max (front.endSeq - front.fromSeq))
    (small : max ≤ u32Max) :
    Ledger maxGaps book { s with outstanding := some outstanding } next := by
  obtain ⟨rest, shape⟩ := List.head?_eq_some_iff.mp first
  have nonempty := ledger.ascending.nonempty front (by rw [shape]; exact List.mem_cons_self ..)
  have len : outstanding.count ≤ front.endSeq - front.fromSeq ∧ outstanding.count ≤ u32Max := by
    rw [counts]
    unfold BoundParts.requestCount
    split
    · omega
    · omega
  exact {
    toShape := {
      ledger.toShape with
      asked := fun other request => by
        obtain rfl := Option.some.inj request
        exact ⟨⟨front, rest, shape, begins, by omega⟩, by omega, len.2⟩
      batch := fun replay batch => by
        obtain ⟨other, request, -⟩ := ledger.batch replay batch
        rw [unasked] at request
        cases request }
    unstarted := ledger.unstarted
    past := ledger.past
    once := ledger.once
    received := fun n mem due => ledger.received n mem ⟨due.1, fun other request => by
      rw [unasked] at request
      cases request⟩
    genuine := ledger.genuine
    above := ledger.above
    served := fun other request n from_le lt => by
      obtain rfl := Option.some.inj request
      omega
    accounted := ledger.accounted }

theorem Move.ledger {p moved : BoundParts} {acts : List Act} {book : Book} {next : Nat}
    (move : Move p acts moved)
    (ledger : Ledger p.core.config.maxPendingGaps.get book p.session next) :
    ∃ first next', (p.session.startPending = false → first = book.first) ∧
      Ledger p.core.config.maxPendingGaps.get { book.enter acts with first := first }
        moved.session next' := by
  have kept {session : Session} (silent : Act.receipts acts = [])
      (after : Ledger p.core.config.maxPendingGaps.get book session next) :
      ∃ first next', (p.session.startPending = false → first = book.first) ∧
        Ledger p.core.config.maxPendingGaps.get { book.enter acts with first := first }
          session next' := by
    obtain ⟨more, entered⟩ := book.enter_quiet silent
    exact ⟨book.first, next, fun _ => rfl, by rw [entered]; exact after.abandoned more⟩
  have unchanged {session : Session} (outboundNext : Nat) (provider : Option Provider)
      (finalized : Bool)
      (same : session = { p.session with
        outboundNext := outboundNext
        provider := provider
        finalized := finalized }) :
      Ledger p.core.config.maxPendingGaps.get book session next := by
    subst same
    exact ledger.transfer rfl rfl id rfl rfl rfl ledger.batch
  cases move with
  | inflow changes => exact changes.ledger ledger
  | request up flow unasked first nonempty stamped request outstanding begins undelivered counts =>
      exact kept rfl (ledger.request unasked first begins undelivered counts
        (NonZero.fits _))
  | abandon code reason asked =>
      rename_i outstanding
      obtain ⟨-, delivered, -⟩ := ledger.asked outstanding asked
      refine ⟨book.first, next, fun _ => rfl, ledger.settle asked delivered (le_refl _)
        (fun n given => Covered.append.mpr (.inl given)) fun n above below =>
          Covered.append.mpr (.inr ⟨?_, below⟩)⟩
      show outstanding.fromSeq ≤ n
      omega
  | finalize down =>
      obtain ⟨finalized, same⟩ := Session.finalizeIfFinished_eq p.session
      exact kept rfl (unchanged p.session.outboundNext p.session.provider finalized same)
  | number up sequenced numbering fits =>
      exact kept rfl (unchanged (p.session.outboundNext + 1) p.session.provider p.session.finalized rfl)
  | report m up idempotent sequenced numbering fits =>
      exact kept rfl (unchanged (p.session.outboundNext + 1) p.session.provider p.session.finalized rfl)
  | provide inRange =>
      rename_i provider
      exact kept rfl (unchanged p.session.outboundNext provider p.session.finalized rfl)
  | _ => exact kept rfl ledger

/-- What a handler does to the ledger. -/
theorem Steps.ledger {p : BoundParts} {acts : List Act} {turn : Turn} {book : Book} {next : Nat}
    (steps : Steps p acts turn)
    (ledger : Ledger p.core.config.maxPendingGaps.get book p.session next) :
    ∃ first next', (p.session.startPending = false → first = book.first) ∧
      Ledger p.core.config.maxPendingGaps.get { book.enter acts with first := first }
        turn.1.session next' := by
  induction steps generalizing book next with
  | done => exact ⟨book.first, next, fun _ => rfl, ledger⟩
  | close ends =>
      obtain ⟨more, entered⟩ := book.enter_quiet (Act.receipts_silent ends.silent)
      exact ⟨(book.enter _).first, next, fun _ => by rw [entered], ends.ledger ledger⟩
  | move moved _ ih =>
      obtain ⟨first, next', same, after⟩ := moved.ledger ledger
      rw [← moved.config] at after
      obtain ⟨last, final, same', done⟩ := ih after
      refine ⟨last, final, fun fixed => ?_, ?_⟩
      · rw [same' (moved.same.started fixed)]
        exact same fixed
      · rw [moved.config] at done
        rw [Book.enter_append]
        rwa [Book.enter_first] at done

end IronFix.Fixp
