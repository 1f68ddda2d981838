import IronFix.Core.Bytes

/-!
# CRC-32

The checksum of a journal's header, slots and records: the reflected CRC-32,
one table entry per byte value.
-/

namespace IronFix.Store

/-- The reflected polynomial. -/
def POLYNOMIAL : UInt32 := 0xEDB88320

/-- Eight shifts of a table entry. -/
def tableLoop : Nat → UInt32 → UInt32
  | 0, crc => crc
  | bit + 1, crc => tableLoop bit (if crc &&& 1 = 1 then (crc >>> 1) ^^^ POLYNOMIAL else crc >>> 1)

/-- One entry per byte value. -/
def TABLE (byte : UInt8) : UInt32 := tableLoop 8 byte.toUInt32

def crc32 (bytes : Bytes) : UInt32 :=
  ~~~ bytes.foldl (fun crc byte => (crc >>> 8) ^^^ TABLE (crc.toUInt8 ^^^ byte)) 0xFFFFFFFF

/-- The check value of the CRC-32 catalogue. -/
example : crc32 (ascii "123456789") = 0xCBF43926 := by decide +kernel

end IronFix.Store
