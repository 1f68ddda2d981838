import IronFix.Core.Bytes

/-!
# FIX versions

The version a session is configured with decides what it stamps: its
BeginString (8) and, on a FIX 5.0 session, its ApplVerID (1128).
-/

namespace IronFix

inductive FixVersion where
  | fix40
  | fix41
  | fix42
  | fix43
  | fix44
  | fix50
  | fix50Sp1
  | fix50Sp2
  | fixt11
  deriving DecidableEq, Repr

namespace FixVersion

/-- What goes in BeginString (8): FIX 5.0 is framed as FIXT.1.1. -/
def beginString : FixVersion → Bytes
  | fix40 => ascii "FIX.4.0"
  | fix41 => ascii "FIX.4.1"
  | fix42 => ascii "FIX.4.2"
  | fix43 => ascii "FIX.4.3"
  | fix44 => ascii "FIX.4.4"
  | fix50 | fix50Sp1 | fix50Sp2 | fixt11 => ascii "FIXT.1.1"

/-- What goes in ApplVerID (1128), if the session carries it. -/
def applVerId : FixVersion → Option Bytes
  | fix50 => some (ascii "7")
  | fix50Sp1 => some (ascii "8")
  | fix50Sp2 => some (ascii "9")
  | fix40 | fix41 | fix42 | fix43 | fix44 | fixt11 => none

end FixVersion

end IronFix
