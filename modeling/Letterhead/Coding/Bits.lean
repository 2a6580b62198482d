/-!
Bytes read as a row of bits, the low bit of each byte first.
-/

namespace Letterhead

structure Bits where
  data : ByteArray
  position : Nat := 0

namespace Bits

/-- Why reading ended: the bytes ran out, or they hold what no stream may hold. -/
inductive Stop where
  | cut
  | bad
deriving DecidableEq, Repr

def bit (b : Bits) : Except Stop (Nat × Bits) :=
  match b.data[b.position / 8]? with
  | some x => .ok (x.toNat / Nat.pow 2 (b.position % 8) % 2, { b with position := b.position + 1 })
  | none => .error .cut

def number (b : Bits) : Nat → Except Stop (Nat × Bits)
  | 0 => .ok (0, b)
  | k + 1 => do
    let (x, b) ← b.bit
    let (n, b) ← b.number k
    return (x + 2 * n, b)

def align (b : Bits) : Bits := { b with position := (b.position + 7) / 8 * 8 }

def used (b : Bits) : Nat := (b.position + 7) / 8

def left (b : Bits) : Nat := b.data.size * 8 - b.position

end Bits
end Letterhead
