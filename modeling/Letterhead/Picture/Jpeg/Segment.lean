import Letterhead.Picture.Basic
import Letterhead.Coding.Bits

/-!
Segments, the parts of a JPEG file: a marker and, for most markers, data with its length. The data
of a scan stands after its segment and ends at the next marker.
-/

namespace Letterhead.Jpeg

def signature : List UInt8 := [0xFF, 0xD8, 0xFF]

structure Segment where
  marker : Nat
  data : List UInt8
deriving DecidableEq, Repr

def scanMarker : Nat := 0xDA

def endMarker : Nat := 0xD9

def isRestart (m : Nat) : Bool := 0xD0 ≤ m && m ≤ 0xD7

def isBare (m : Nat) : Bool := m == 0xC8 || (0xD0 ≤ m && m ≤ 0xD9) || (0xF0 ≤ m && m ≤ 0xFD)

/-- The segments up to the next scan or the end, latest last, and what follows. Bytes that are no
marker are passed over. -/
def segments : Nat → List UInt8 → Option (List Segment × List UInt8)
  | 0, _ => none
  | fuel + 1, 0xFF :: m :: rest =>
    if m = 0xFF then segments fuel (0xFF :: rest)
    else if m = 0 then segments fuel rest
    else if m < 0xC0 then none
    else if isBare m.toNat then do
      let r ← segments fuel rest
      return (⟨m.toNat, []⟩ :: r.1, r.2)
    else do
      let n ← Bytes.bigAt? 0 2 rest
      let data ← Bytes.part? 2 (n - 2) rest
      let rest := rest.drop (max n 2)
      if m.toNat = scanMarker then return ([⟨m.toNat, data⟩], rest)
      let r ← segments fuel rest
      return (⟨m.toNat, data⟩ :: r.1, r.2)
  | fuel + 1, _ :: rest => segments fuel rest
  | _, [] => none

def bitReversed (b : UInt8) : UInt8 :=
  (List.range 8).foldl (fun r k => r * 2 + (b >>> UInt8.ofNat k) % 2) 0

/-- The data of a scan, cut where it starts anew, the bits of each byte turned round; and the bytes
from the next marker on. -/
def scanData : Nat → List UInt8 → ByteArray → List ByteArray → List ByteArray × List UInt8
  | 0, _, now, before => ((now :: before).reverse, [])
  | fuel + 1, 0xFF :: m :: rest, now, before =>
    if m = 0 then scanData fuel rest (now.push 0xFF) before
    else if m = 0xFF then scanData fuel (0xFF :: rest) now before
    else if isRestart m.toNat then scanData fuel rest .empty (now :: before)
    else ((now :: before).reverse, 0xFF :: m :: rest)
  | fuel + 1, x :: rest, now, before =>
    if x = 0xFF then ((now :: before).reverse, [])
    else scanData fuel rest (now.push (bitReversed x)) before
  | _, [], now, before => ((now :: before).reverse, [])

/-- The next bit; past the end of the bytes all bits are zero. -/
def nextBit (b : Bits) : Nat × Bits :=
  match b.bit with
  | .ok r => r
  | .error _ => (0, b)

def number (b : Bits) : Nat → Nat × Bits
  | 0 => (0, b)
  | k + 1 =>
    let (n, b) := number b k
    let (x, b) := nextBit b
    (2 * n + x, b)

/-- A number of so many bits that may be negative: the lower half of the numbers stands for negative
ones. -/
def signed (b : Bits) (k : Nat) : Int × Bits :=
  let (n, b) := number b k
  (if k ≠ 0 && n < Nat.pow 2 (k - 1) then (n : Int) - (Nat.pow 2 k : Nat) + 1 else n, b)

end Letterhead.Jpeg
