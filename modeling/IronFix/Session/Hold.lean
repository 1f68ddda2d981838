import IronFix.Lib.Runs
import IronFix.Core.Bytes

/-!
# The hold behind a resend

What a session sends while it answers a ResendRequest waits until the resend is
done: messages built when they were asked for, and a marker for the
ResendRequest of the session's own gap, which is built when it is written.
-/

namespace IronFix.Session

open Lib.Decimal Lib.Runs

/-- Most entries held before reading stops. -/
def MAX_HELD_SENDS : Nat := 1024

/-- 4 MiB. -/
def MAX_HELD_BYTES : Nat := 4194304

inductive HeldEntry (M : Type) where
  | message (message : M)
  | resendRequest
  deriving DecidableEq, Repr

def HeldEntry.isResendRequest {M : Type} : HeldEntry M → Bool
  | .message _ => false
  | .resendRequest => true

/-- The hold: its entries, oldest first, and its counts. -/
structure Hold (M : Type) where
  held : List (HeldEntry M)
  heldSends : Nat
  heldBytes : Nat
  deriving DecidableEq, Repr

namespace Hold

variable {M : Type} (bytesOf : HeldEntry M → Nat)

def new : Hold M := ⟨[], 0, 0⟩

/-- Counts one entry in; a count that would overflow stays full. -/
def noteHeld (queue : Hold M) (bytes : Nat) : Hold M :=
  { queue with
    heldSends := (checkedAdd usizeMax queue.heldSends 1).getD usizeMax
    heldBytes := (checkedAdd usizeMax queue.heldBytes bytes).getD usizeMax }

/-- Counts one entry out; a count stops at zero. -/
def noteUnheld (queue : Hold M) (bytes : Nat) : Hold M :=
  { queue with heldSends := queue.heldSends - 1, heldBytes := queue.heldBytes - bytes }

def hold (queue : Hold M) (entry : HeldEntry M) : Hold M :=
  let counted := queue.noteHeld (bytesOf entry)
  { counted with held := counted.held ++ [entry] }

/-- Holds the marker, unless one is held. -/
def holdResendRequest (queue : Hold M) : Bool × Hold M :=
  if queue.held.any HeldEntry.isResendRequest then (false, queue)
  else (true, queue.hold bytesOf .resendRequest)

/-- Takes the oldest entry. -/
def unhold (queue : Hold M) : Option (HeldEntry M) × Hold M :=
  match queue.held with
  | [] => (none, queue)
  | entry :: rest => (some entry, { queue with held := rest }.noteUnheld (bytesOf entry))

/-- Takes every entry. -/
def drainHeld (queue : Hold M) : List (HeldEntry M) × Hold M := (queue.held, new)

/-- Whether the hold reached either bound: reading stops. -/
def holdFull (queue : Hold M) : Bool :=
  queue.heldSends ≥ MAX_HELD_SENDS || queue.heldBytes ≥ MAX_HELD_BYTES

end Hold

/-! ## Calls -/

inductive HoldCall (M : Type) where
  | hold (entry : HeldEntry M)
  | holdResendRequest
  | unhold
  | drainHeld
  deriving DecidableEq, Repr

/-- A hold beside what was put into it and what was taken out, each in order. -/
structure HoldBooks (M : Type) where
  queue : Hold M
  put : List (HeldEntry M)
  taken : List (HeldEntry M)

namespace HoldBooks

variable {M : Type} (bytesOf : HeldEntry M → Nat)

def new : HoldBooks M := ⟨.new, [], []⟩

def serve (books : HoldBooks M) : HoldCall M → HoldBooks M
  | .hold entry => { books with queue := books.queue.hold bytesOf entry, put := books.put ++ [entry] }
  | .holdResendRequest =>
      let (added, queue) := books.queue.holdResendRequest bytesOf
      { books with queue := queue, put := if added then books.put ++ [.resendRequest] else books.put }
  | .unhold =>
      let (entry, queue) := books.queue.unhold bytesOf
      { books with queue := queue, taken := books.taken ++ entry.toList }
  | .drainHeld =>
      let (entries, queue) := books.queue.drainHeld
      { books with queue := queue, taken := books.taken ++ entries }

/-- What is held counts at most `usize::MAX` entries and bytes. -/
def Fits (books : HoldBooks M) : Prop :=
  books.queue.held.length ≤ usizeMax ∧ (books.queue.held.map bytesOf).sum ≤ usizeMax

/-- After the call what is held still fits. -/
def StillFits (books : HoldBooks M) (call : HoldCall M) : Prop := (books.serve bytesOf call).Fits bytesOf

end HoldBooks

/-- The counts are those of the entries, and the entries are those put in and
not yet taken. -/
structure Accounted {M : Type} (bytesOf : HeldEntry M → Nat) (books : HoldBooks M) : Prop where
  sends : books.queue.heldSends = books.queue.held.length
  bytes : books.queue.heldBytes = (books.queue.held.map bytesOf).sum
  order : books.put = books.taken ++ books.queue.held

section

variable {M : Type} {bytesOf : HeldEntry M → Nat} {queue : Hold M} {books : HoldBooks M}
  {entry : HeldEntry M}

@[simp] theorem Hold.hold_held (bytesOf : HeldEntry M → Nat) (queue : Hold M) (entry : HeldEntry M) :
    (queue.hold bytesOf entry).held = queue.held ++ [entry] := rfl

/-- Counting in what fits is addition. -/
theorem Accounted.hold (accounted : Accounted bytesOf books) {put : List (HeldEntry M)}
    (recorded : put = books.put ++ [entry])
    (fits : HoldBooks.Fits bytesOf ⟨books.queue.hold bytesOf entry, put, books.taken⟩) :
    Accounted bytesOf ⟨books.queue.hold bytesOf entry, put, books.taken⟩ := by
  obtain ⟨fewer, smaller⟩ := fits
  rw [Hold.hold_held, List.length_append, List.length_singleton] at fewer
  rw [Hold.hold_held, List.map_append, List.sum_append, List.map_singleton, List.sum_singleton] at smaller
  refine ⟨?_, ?_, ?_⟩
  · have counted : checkedAdd usizeMax books.queue.heldSends 1 = some (books.queue.held.length + 1) := by
      rw [accounted.sends]
      exact checkedAdd_eq_some.mpr ⟨rfl, fewer⟩
    show (checkedAdd usizeMax books.queue.heldSends 1).getD usizeMax = _
    rw [counted, Hold.hold_held, List.length_append, List.length_singleton]
    rfl
  · have counted : checkedAdd usizeMax books.queue.heldBytes (bytesOf entry) =
        some ((books.queue.held.map bytesOf).sum + bytesOf entry) := by
      rw [accounted.bytes]
      exact checkedAdd_eq_some.mpr ⟨rfl, smaller⟩
    show (checkedAdd usizeMax books.queue.heldBytes (bytesOf entry)).getD usizeMax = _
    rw [counted, Hold.hold_held, List.map_append, List.sum_append, List.map_singleton, List.sum_singleton]
    rfl
  · rw [recorded, accounted.order, Hold.hold_held, List.append_assoc]

theorem Accounted.serve (accounted : Accounted bytesOf books) (call : HoldCall M)
    (fits : books.StillFits bytesOf call) : Accounted bytesOf (books.serve bytesOf call) := by
  cases call with
  | hold entry => exact accounted.hold rfl fits
  | holdResendRequest =>
      unfold HoldBooks.StillFits at fits
      unfold HoldBooks.serve Hold.holdResendRequest at fits ⊢
      by_cases already : books.queue.held.any HeldEntry.isResendRequest
      · simp only [already, if_true, Bool.false_eq_true, if_false]
        exact accounted
      · simp only [already, if_false, if_true, Bool.false_eq_true] at fits ⊢
        exact accounted.hold rfl fits
  | unhold =>
      cases held : books.queue.held with
      | nil =>
          have same : books.serve bytesOf .unhold = books := by
            simp [HoldBooks.serve, Hold.unhold, held]
          rw [same]
          exact accounted
      | cons entry rest =>
          have taken : books.serve bytesOf .unhold =
              ⟨⟨rest, books.queue.heldSends - 1, books.queue.heldBytes - bytesOf entry⟩,
                books.put, books.taken ++ [entry]⟩ := by
            simp [HoldBooks.serve, Hold.unhold, Hold.noteUnheld, held]
          have sends := accounted.sends
          have bytes := accounted.bytes
          have order := accounted.order
          rw [held] at sends bytes order
          rw [taken]
          refine ⟨?_, ?_, ?_⟩
          · show books.queue.heldSends - 1 = rest.length
            rw [sends, List.length_cons, Nat.add_sub_cancel]
          · show books.queue.heldBytes - bytesOf entry = (rest.map bytesOf).sum
            rw [bytes, List.map_cons, List.sum_cons, Nat.add_sub_cancel_left]
          · show books.put = books.taken ++ [entry] ++ rest
            rw [order, List.append_assoc, List.singleton_append]
  | drainHeld => exact ⟨rfl, rfl, accounted.order.trans (List.append_nil _).symm⟩

/-- The calls that hold a marker only where none is held. -/
def HoldCall.OneMarker : HoldCall M → Prop
  | .hold entry => entry ≠ .resendRequest
  | _ => True

/-- The markers held. -/
def Hold.markers (queue : Hold M) : Nat := queue.held.countP HeldEntry.isResendRequest

theorem markers_serve (single : books.queue.markers ≤ 1) (call : HoldCall M) (one : call.OneMarker) :
    (books.serve bytesOf call).queue.markers ≤ 1 := by
  cases call with
  | hold entry =>
      have message : entry.isResendRequest = false := by
        cases entry with
        | message message => rfl
        | resendRequest => exact absurd rfl one
      show (books.queue.held ++ [entry]).countP HeldEntry.isResendRequest ≤ 1
      rw [List.countP_append, List.countP_singleton, message, if_neg Bool.false_ne_true]
      exact single
  | holdResendRequest =>
      unfold HoldBooks.serve Hold.holdResendRequest
      by_cases already : books.queue.held.any HeldEntry.isResendRequest
      · simp only [already, if_true]
        exact single
      · have none : books.queue.held.countP HeldEntry.isResendRequest = 0 := by
          rw [List.countP_eq_zero]
          intro entry member marked
          exact already (List.any_eq_true.mpr ⟨entry, member, marked⟩)
        simp only [already, if_false, Bool.false_eq_true]
        show (books.queue.held ++ [HeldEntry.resendRequest]).countP HeldEntry.isResendRequest ≤ 1
        rw [List.countP_append, none]
        exact Nat.le_refl 1
  | unhold =>
      unfold HoldBooks.serve Hold.unhold
      unfold Hold.markers at single
      cases held : books.queue.held with
      | nil =>
          show books.queue.held.countP HeldEntry.isResendRequest ≤ 1
          rw [held]
          exact Nat.zero_le 1
      | cons entry rest =>
          rw [held, List.countP_cons] at single
          show rest.countP HeldEntry.isResendRequest ≤ 1
          omega
  | drainHeld => exact Nat.zero_le 1

variable (bytesOf) in
/-- The books after the calls. -/
def booksOf (calls : List (HoldCall M)) : HoldBooks M := run (HoldBooks.serve bytesOf) .new calls

/-- Along every run of calls that never holds more entries or bytes than a
`usize` counts: the counts are those of the entries held, messages and marker
alike; entries leave in the order they were held; the bounds are reached as the
entries count and measure; and where markers are held by `hold_resend_request`
only, at most one is held. A refused marker changes nothing. -/
theorem hold_accounts (bytesOf : HeldEntry M → Nat) (calls : List (HoldCall M))
    (fits : Along (HoldBooks.serve bytesOf) (HoldBooks.StillFits bytesOf) .new calls) :
    let books := booksOf bytesOf calls
    books.queue.heldSends = books.queue.held.length ∧
    books.queue.heldBytes = (books.queue.held.map bytesOf).sum ∧
    books.put = books.taken ++ books.queue.held ∧
    (books.queue.holdFull = true ↔
      MAX_HELD_SENDS ≤ books.queue.held.length ∨ MAX_HELD_BYTES ≤ (books.queue.held.map bytesOf).sum) ∧
    ((∀ call ∈ calls, call.OneMarker) → books.queue.markers ≤ 1) ∧
    (∀ queue : Hold M, (queue.holdResendRequest bytesOf).1 = false →
      (queue.holdResendRequest bytesOf).2 = queue) := by
  intro books
  have accounted : Accounted bytesOf books :=
    invariant (fun _ call holds fits => holds.serve call fits) ⟨rfl, rfl, rfl⟩ fits
  refine ⟨accounted.sends, accounted.bytes, accounted.order, ?_, ?_, ?_⟩
  · unfold Hold.holdFull
    rw [accounted.sends, accounted.bytes, Bool.or_eq_true, decide_eq_true_eq, decide_eq_true_eq]
  · intro one
    have kept : ∀ (calls : List (HoldCall M)) (books : HoldBooks M), books.queue.markers ≤ 1 →
        (∀ call ∈ calls, call.OneMarker) → (run (HoldBooks.serve bytesOf) books calls).queue.markers ≤ 1 := by
      intro calls
      induction calls with
      | nil => exact fun _ single _ => single
      | cons call calls ih =>
          intro books single one
          exact ih _ (markers_serve single call (one call List.mem_cons_self))
            (fun later member => one later (List.mem_cons_of_mem _ member))
    exact kept calls .new (Nat.zero_le 1) one
  · intro queue refused
    unfold Hold.holdResendRequest at refused ⊢
    split at refused
    · rw [if_pos (by assumption)]
    · cases refused

end

/-- A hold of a message and a marker counts two sends. -/
theorem hold_accounts_marker :
    (booksOf (fun _ : HeldEntry Unit => 8) [.hold (.message ()), .holdResendRequest]).queue.heldSends = 2 :=
  (hold_accounts (fun _ : HeldEntry Unit => 8) [.hold (.message ()), .holdResendRequest]
    ⟨⟨by decide, by decide⟩, ⟨by decide, by decide⟩, trivial⟩).1

/-- With no message held one send is counted, and a marker held as an entry joins
another. -/
theorem held_send_counts_marker :
    (booksOf (fun _ : HeldEntry Unit => 8) [.holdResendRequest]).queue.heldSends = 1 ∧
    (booksOf (fun _ : HeldEntry Unit => 8) [.holdResendRequest]).queue.held.countP
      (fun entry => !entry.isResendRequest) = 0 ∧
    (booksOf (fun _ : HeldEntry Unit => 8) [.holdResendRequest, .hold .resendRequest]).queue.markers = 2 := by
  decide

end IronFix.Session
