/-!
Checksums of bytes: the cyclic redundancy check of 32 bits and the sum of sums modulo 65521.
-/

namespace Letterhead.Checksum

def polynomial : UInt32 := 0xEDB88320

def crcBit (r : UInt32) : UInt32 := if r &&& 1 = 1 then (r >>> 1) ^^^ polynomial else r >>> 1

def crcEntry (n : Nat) : UInt32 :=
  (List.range 8).foldl (fun r _ => crcBit r) (UInt32.ofNat n)

def crcTable : Array UInt32 := (Array.range 256).map crcEntry

def crcStep (r : UInt32) (b : UInt8) : UInt32 :=
  (crcTable[((r ^^^ b.toUInt32) &&& 255).toNat]?).getD 0 ^^^ (r >>> 8)

def crc (bs : List UInt8) : UInt32 := bs.foldl crcStep 0xFFFFFFFF ^^^ 0xFFFFFFFF

/-- The sum of the bytes and the sum of those sums, both modulo 65521. -/
def adler (b : ByteArray) : Nat :=
  let s := b.foldl (fun (s : Nat × Nat) x =>
    let a := (s.1 + x.toNat) % 65521
    (a, (s.2 + a) % 65521)) (1, 0)
  s.2 * 65536 + s.1

end Letterhead.Checksum
