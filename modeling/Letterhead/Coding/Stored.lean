import Letterhead.Bytes
import Letterhead.Coding.Checksum

/-!
Writing bytes as a stream of blocks that are not compressed.
-/

namespace Letterhead.Stored

def blockLimit : Nat := 65535

def block (last : Bool) (bs : List UInt8) : List UInt8 :=
  (if last then 1 else 0) :: Bytes.little 2 bs.length ++ Bytes.little 2 (65535 - bs.length) ++ bs

def blocks : Nat → List UInt8 → List UInt8
  | 0, bs => block true bs
  | fuel + 1, bs =>
    if bs.length ≤ blockLimit then block true bs
    else block false (bs.take blockLimit) ++ blocks fuel (bs.drop blockLimit)

def write (b : ByteArray) : List UInt8 :=
  [0x78, 0x01] ++ blocks (b.size / blockLimit) (Bytes.toList b) ++
    Bytes.big 4 (Checksum.adler b)

end Letterhead.Stored
