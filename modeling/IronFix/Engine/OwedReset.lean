import IronFix.Engine.StoreCalls
import IronFix.Lib.Transitions

/-!
# The owed reset

A reset of the sequences is owed from before it is made until it is declared.
The record of it lives in memory, by generation; a marker in the store mirrors
it for the process that comes after. Tasks record, pay and synchronise at any
time; the store answers a write or does not, and what it did not answer may
still land, in call order.
-/

namespace IronFix.Engine

open Lib.Decimal

/-! ## The record -/

/-- `is_owed`, `loaded` being what was recorded when it looked. -/
def OwedReset.isOwedAt (owed : OwedReset) (loaded : Nat) : Bool := owed.settled < loaded

/-! ## The marker -/

/-- A `set_reset_owed` call. -/
inductive MarkerWrite where
  | set
  /-- Decided when `upTo` was the last obligation recorded. -/
  | clear (upTo : Nat)
  deriving DecidableEq, Repr

def MarkerWrite.owed : MarkerWrite → Bool
  | .set => true
  | .clear _ => false

/-- The write of `desired`, decided when `loaded` was recorded. -/
def MarkerWrite.ofDesired (desired : Bool) (loaded : Nat) : MarkerWrite := if desired then .set else .clear loaded

/-- How far a `sync_marker` that holds the lock is. -/
inductive SyncStage where
  | begun
  | loaded (recorded : Nat)
  | writing (write : MarkerWrite)
  | failing (write : MarkerWrite)
  deriving DecidableEq, Repr

/-- A `sync_marker` call, with the ticket of the `owe_durably` that makes it. -/
structure SyncCall where
  ticket : Option Nat
  deriving DecidableEq, Repr

/-- The record of one process, the marker of the store, and the calls under way. -/
structure ResetKeeping where
  record : OwedReset
  waiting : List SyncCall
  /-- The call that holds the `marker` lock. -/
  holder : Option (SyncCall × SyncStage)
  /-- The `reset_is_owed` calls that found the marker set, with what they loaded. -/
  recovering : List (Option Nat)
  /-- Some `reset_is_owed` of this process returned. -/
  attended : Bool
  /-- What the store reports. -/
  marker : Bool
  /-- Writes the store took that may still take effect, in call order. -/
  outstanding : List MarkerWrite
  /-- The tickets of this process, the newest first. -/
  issued : List Nat
  paid : List Nat
  /-- The tickets `owe_durably` returned. -/
  promised : List Nat
  /-- An earlier process left a promise it had not paid. -/
  inherited : Bool
  deriving DecidableEq, Repr

inductive KeepingAction where
  | owe
  | oweDurably
  | pay (ticket : Nat)
  /-- `sync_marker`, and the second half of `settle`. -/
  | sync
  /-- `reset_is_owed` reads the marker. -/
  | attend
  | loadRecovering (call : Nat)
  | recover (call : Nat)
  | lock (call : Nat)
  | load
  | decide
  /-- The store answers the write, or it fails or overruns the timeout. -/
  | answer (ok : Bool)
  | conclude
  /-- The caller's future is dropped. -/
  | drop (call : Nat)
  | dropHolder
  /-- The first outstanding write takes effect. -/
  | land
  /-- It never will. -/
  | lose
  | restart
  deriving DecidableEq, Repr

namespace ResetKeeping

/-- A process that starts on a store. -/
def start (marker : Bool) : ResetKeeping where
  record := ⟨0, 0⟩
  waiting := []
  holder := none
  recovering := []
  attended := false
  marker
  outstanding := []
  issued := []
  paid := []
  promised := []
  inherited := false

/-- A promise is unpaid: neither that obligation nor a later one was paid. -/
def Unpaid (keeping : ResetKeeping) (ticket : Nat) : Prop := ∀ paid ∈ keeping.paid, paid < ticket

instance (keeping : ResetKeeping) (ticket : Nat) : Decidable (keeping.Unpaid ticket) :=
  inferInstanceAs (Decidable (∀ paid ∈ keeping.paid, paid < ticket))

/-- Some `owe_durably` has returned whose reset is still to be paid. -/
def Promised (keeping : ResetKeeping) : Prop :=
  (∃ ticket ∈ keeping.promised, keeping.Unpaid ticket) ∨ (keeping.inherited = true ∧ keeping.paid = [])

instance (keeping : ResetKeeping) : Decidable keeping.Promised :=
  inferInstanceAs (Decidable ((∃ ticket ∈ keeping.promised, keeping.Unpaid ticket) ∨
    (keeping.inherited = true ∧ keeping.paid = [])))

def owe (keeping : ResetKeeping) : Nat × ResetKeeping :=
  let (ticket, record) := keeping.record.owe
  (ticket, { keeping with
    record
    issued := ticket :: keeping.issued })

/-- `sync_marker` returns `Ok`. -/
def succeed (call : SyncCall) (keeping : ResetKeeping) : ResetKeeping :=
  { keeping with
    holder := none
    promised := call.ticket.toList ++ keeping.promised }

/-- What an outstanding clear is to the next process. -/
def restarted : MarkerWrite → MarkerWrite
  | .set => .set
  | .clear _ => .clear 0

/-- The next state, unless the action cannot be taken. -/
def step (keeping : ResetKeeping) : KeepingAction → Option ResetKeeping
  | .owe => some keeping.owe.2
  | .oweDurably =>
    let (ticket, keeping) := keeping.owe
    some { keeping with waiting := keeping.waiting ++ [⟨some ticket⟩] }
  | .pay ticket =>
    if ticket ∈ keeping.issued then
      some { keeping with
        record := keeping.record.pay ticket
        paid := ticket :: keeping.paid }
    else none
  | .sync =>
    -- every caller has looked at the marker first, or recorded an obligation
    if keeping.attended = true ∨ 0 < keeping.record.recorded then
      some { keeping with waiting := keeping.waiting ++ [⟨none⟩] }
    else none
  | .attend =>
    if keeping.marker then some { keeping with recovering := keeping.recovering ++ [none] }
    else some { keeping with attended := true }
  | .loadRecovering i =>
    match keeping.recovering[i]? with
    | some none => some { keeping with recovering := keeping.recovering.set i (some keeping.record.recorded) }
    | _ => none
  | .recover i =>
    match keeping.recovering[i]? with
    | some (some loaded) =>
      let keeping := { keeping with
        recovering := keeping.recovering.eraseIdx i
        attended := true }
      if keeping.record.isOwedAt loaded then some keeping else some keeping.owe.2
    | _ => none
  | .lock i =>
    match keeping.holder, keeping.waiting[i]? with
    | none, some call =>
      some { keeping with
        holder := some (call, .begun)
        waiting := keeping.waiting.eraseIdx i }
    | _, _ => none
  | .load =>
    match keeping.holder with
    | some (call, .begun) => some { keeping with holder := some (call, .loaded keeping.record.recorded) }
    | _ => none
  | .decide =>
    match keeping.holder with
    | some (call, .loaded loaded) =>
      let desired := keeping.record.isOwedAt loaded
      if keeping.marker = desired then some (keeping.succeed call)
      else
        let write := MarkerWrite.ofDesired desired loaded
        some { keeping with
          holder := some (call, .writing write)
          outstanding := keeping.outstanding ++ [write] }
    | _ => none
  | .answer ok =>
    match keeping.holder with
    | some (call, .writing write) =>
      if ok then
        -- the write has taken effect, and with it whatever was to take effect before it
        some { keeping.succeed call with
          marker := write.owed
          outstanding := [] }
      else some { keeping with holder := some (call, .failing write) }
    | _ => none
  | .conclude =>
    match keeping.holder with
    | some (_, .failing write) =>
      let keeping := { keeping with holder := none }
      if write.owed then some keeping else some keeping.owe.2
    | _ => none
  | .drop i =>
    if i < keeping.waiting.length then some { keeping with waiting := keeping.waiting.eraseIdx i } else none
  | .dropHolder => if keeping.holder.isSome then some { keeping with holder := none } else none
  | .land =>
    match keeping.outstanding with
    | write :: rest =>
      some { keeping with
        marker := write.owed
        outstanding := rest }
    | [] => none
  | .lose =>
    match keeping.outstanding with
    | _ :: rest => some { keeping with outstanding := rest }
    | [] => none
  | .restart =>
    some { start keeping.marker with
      outstanding := keeping.outstanding.map restarted
      inherited := decide keeping.Promised }

end ResetKeeping

end IronFix.Engine
