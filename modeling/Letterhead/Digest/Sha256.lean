import Letterhead.Bytes
import Letterhead.Text.Digit

/-!
The digest of bytes that the standard names SHA-256: a state of eight words goes through the blocks
of the padded bytes.
-/

namespace Letterhead.Sha256

/-- The words of the rounds: the first bits of the fractions of cube roots of the first primes. -/
def roundWords : List UInt32 := [
  0x428a2f98, 0x71374491, 0xb5c0fbcf, 0xe9b5dba5, 0x3956c25b, 0x59f111f1, 0x923f82a4, 0xab1c5ed5,
  0xd807aa98, 0x12835b01, 0x243185be, 0x550c7dc3, 0x72be5d74, 0x80deb1fe, 0x9bdc06a7, 0xc19bf174,
  0xe49b69c1, 0xefbe4786, 0x0fc19dc6, 0x240ca1cc, 0x2de92c6f, 0x4a7484aa, 0x5cb0a9dc, 0x76f988da,
  0x983e5152, 0xa831c66d, 0xb00327c8, 0xbf597fc7, 0xc6e00bf3, 0xd5a79147, 0x06ca6351, 0x14292967,
  0x27b70a85, 0x2e1b2138, 0x4d2c6dfc, 0x53380d13, 0x650a7354, 0x766a0abb, 0x81c2c92e, 0x92722c85,
  0xa2bfe8a1, 0xa81a664b, 0xc24b8b70, 0xc76c51a3, 0xd192e819, 0xd6990624, 0xf40e3585, 0x106aa070,
  0x19a4c116, 0x1e376c08, 0x2748774c, 0x34b0bcb5, 0x391c0cb3, 0x4ed8aa4a, 0x5b9cca4f, 0x682e6ff3,
  0x748f82ee, 0x78a5636f, 0x84c87814, 0x8cc70208, 0x90befffa, 0xa4506ceb, 0xbef9a3f7, 0xc67178f2]

structure State where
  a : UInt32
  b : UInt32
  c : UInt32
  d : UInt32
  e : UInt32
  f : UInt32
  g : UInt32
  h : UInt32
deriving DecidableEq, Repr

namespace State

/-- The state before the first block: the first bits of the fractions of the square roots of the
first primes. -/
def first : State :=
  ⟨0x6a09e667, 0xbb67ae85, 0x3c6ef372, 0xa54ff53a, 0x510e527f, 0x9b05688c, 0x1f83d9ab, 0x5be0cd19⟩

def words (s : State) : List UInt32 := [s.a, s.b, s.c, s.d, s.e, s.f, s.g, s.h]

def add (s t : State) : State :=
  ⟨s.a + t.a, s.b + t.b, s.c + t.c, s.d + t.d, s.e + t.e, s.f + t.f, s.g + t.g, s.h + t.h⟩

end State

def turn (x n : UInt32) : UInt32 := (x >>> n) ||| (x <<< (32 - n))

def round (s : State) (w : UInt32) : State :=
  let t := s.h + (turn s.e 6 ^^^ turn s.e 11 ^^^ turn s.e 25) +
    ((s.e &&& s.f) ^^^ (~~~ s.e &&& s.g)) + w
  let u := (turn s.a 2 ^^^ turn s.a 13 ^^^ turn s.a 22) +
    ((s.a &&& s.b) ^^^ (s.a &&& s.c) ^^^ (s.b &&& s.c))
  ⟨t + u, s.a, s.b, s.c, s.d + t, s.e, s.f, s.g⟩

def scheduled (ws : Array UInt32) : UInt32 :=
  let back := fun (n : Nat) => (ws[ws.size - n]?).getD 0
  let x := back 15
  let y := back 2
  back 16 + (turn x 7 ^^^ turn x 18 ^^^ (x >>> 3)) + back 7 +
    (turn y 17 ^^^ turn y 19 ^^^ (y >>> 10))

def schedule (b : ByteArray) (start : Nat) : Array UInt32 :=
  let byte := fun (i : Nat) => ((b[start + i]?).getD 0).toUInt32
  let ws := (Array.range 16).map fun i =>
    (byte (4 * i) <<< 24) ||| (byte (4 * i + 1) <<< 16) ||| (byte (4 * i + 2) <<< 8) |||
      byte (4 * i + 3)
  (List.range 48).foldl (fun ws _ => ws.push (scheduled ws)) ws

def step (b : ByteArray) (s : State) (start : Nat) : State :=
  ((roundWords.zip (schedule b start).toList).foldl (fun s p => round s (p.1 + p.2)) s).add s

/-- Bytes with a mark, zeros and their length in bits, up to a whole number of blocks. -/
def padded (b : ByteArray) : ByteArray :=
  (b.push 0x80).append (Bytes.zeros ((119 - b.size % 64) % 64) |>.append
    (Bytes.ofList (Bytes.big 8 (b.size * 8))))

def digest (b : ByteArray) : List UInt8 :=
  let p := padded b
  let s := (List.range (p.size / 64)).foldl (fun s i => step p s (64 * i)) .first
  s.words.flatMap fun w => Bytes.big 4 w.toNat

def text (b : ByteArray) : Text := (digest b).flatMap fun x => Text.hex 2 x.toNat

end Letterhead.Sha256
