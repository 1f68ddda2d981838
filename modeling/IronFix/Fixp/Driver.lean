import IronFix.Fixp.Client
import IronFix.Fixp.Server
import IronFix.Lib.Runs

/-!
# The driver of an endpoint

A driver makes calls in any order, drains the outputs after each of them, and
so keeps a record of all that its endpoint hands over and asks for.
-/

namespace IronFix.Fixp

/-- What becomes of the logical session of an endpoint. -/
inductive Life where
  | unborn
  | live (session : Session)
  | ended

def ClientState.life : ClientState → Life
  | .idle | .negotiating .. => .unborn
  | .negotiated session | .establishing session _ _ | .bound session _ => .live session
  | .closed _ => .ended

def ServerState.life : ServerState → Life
  | .awaitingNegotiate _ | .negotiationPending .. => .unborn
  | .negotiated session _ | .establishPending session _ _ _ _ | .bound session _ => .live session
  | .closed _ => .ended

/-- A role with its calls. -/
class Endpoint (R : Type) (C : outParam Type) extends Role R where
  call : R → C → Reply × R
  receipts : R → C → List (Option Nat × Bool)
  life : R → Life
  /-- Whether the call tells the endpoint that its transport is gone. -/
  detaches : C → Bool

instance : Endpoint FixpClient ClientCall where
  call := FixpClient.call
  receipts := FixpClient.receipts
  life client := client.state.life
  detaches
    | .transportClosed => true
    | _ => false

instance : Endpoint FixpServer ServerCall where
  call := FixpServer.call
  receipts := FixpServer.receipts
  life server := server.state.life
  detaches
    | .transportClosed => true
    | _ => false

/-- The range the application is told is given up. -/
def Output.givenUp : Output → Option Gap
  | .event (.retransmitRejected fromSeq count _ _) => some ⟨fromSeq, fromSeq + count⟩
  | _ => none

/-- What a driver sees and does, in order. -/
inductive Entry where
  | detached
  | taken (seq : Option Nat) (retransmitted : Bool)
  | output (output : Output)
  /-- Application messages, behind the outputs of the call that let them go. -/
  | written
  deriving DecidableEq

namespace Entry

/-- The numbers of the application messages handed over. -/
def accepted (record : List Entry) : List Nat :=
  record.filterMap fun
    | .taken seq _ => seq
    | .detached | .output _ | .written => none

/-- The numbers reported as given up. -/
def abandoned (record : List Entry) : List Gap :=
  record.filterMap fun
    | .output queued => queued.givenUp
    | .detached | .taken .. | .written => none

theorem accepted_append (record more : List Entry) :
    accepted (record ++ more) = accepted record ++ accepted more := List.filterMap_append

theorem abandoned_append (record more : List Entry) :
    abandoned (record ++ more) = abandoned record ++ abandoned more := List.filterMap_append

end Entry

section Drive

variable {R C : Type} [Endpoint R C]

/-- What a call adds to the record. -/
def entries (role : R) (call : C) : List Entry :=
  (if Endpoint.detaches R call then [.detached] else []) ++
    (Endpoint.receipts role call).map (fun receipt => .taken receipt.1 receipt.2) ++
    (Role.drain (Endpoint.call role call).2).1.map .output ++
    (if (Endpoint.call role call).1.writes then [.written] else [])

structure Driven (R : Type) where
  role : R
  record : List Entry

/-- One call, after which the driver drains the outputs. -/
def Driven.step (driven : Driven R) (call : C) : Driven R where
  role := (Role.drain (Endpoint.call driven.role call).2).2
  record := driven.record ++ entries driven.role call

/-- Everything from the first call on. -/
def drive (role : R) (calls : List C) : Driven R := Lib.Runs.run Driven.step ⟨role, []⟩ calls

end Drive

end IronFix.Fixp
