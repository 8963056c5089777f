import Wheelwright.Text.Utf8
/-!
# The checksum of archive members

The cyclic redundancy check with the reflected polynomial `0xEDB88320`, a bit at a time, started
from all ones and inverted at the end.
-/

namespace Wheelwright.Checksum

/-- One bit of division. -/
def shift (r : UInt32) : UInt32 := if r &&& 1 = 1 then (r >>> 1) ^^^ 0xEDB88320 else r >>> 1

/-- The remainder after one more byte. -/
def feed (r : UInt32) (b : UInt8) : UInt32 :=
  shift (shift (shift (shift (shift (shift (shift (shift (r ^^^ b.toUInt32))))))))

/-- The check value of some bytes. -/
def crc32 (bs : Bytes) : UInt32 := bs.foldl feed 0xFFFFFFFF ^^^ 0xFFFFFFFF

end Wheelwright.Checksum
