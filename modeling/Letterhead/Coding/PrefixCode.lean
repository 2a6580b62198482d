import Letterhead.Coding.Bits

/-!
Canonical prefix codes: the lengths of its words determine a code. Words of one length follow each
other in the order of their symbols, and come after the shorter ones.
-/

namespace Letterhead

/-- A canonical code: how many words have each length from one on, and the symbols in the order of
their words. -/
structure PrefixCode where
  counts : List Nat
  symbols : Array Nat

namespace PrefixCode

def longest : Nat := 15

def ofLengths (lengths : List Nat) : PrefixCode where
  counts := (List.range longest).map fun n => lengths.count (n + 1)
  symbols := ((List.range longest).flatMap fun n =>
    lengths.zipIdx.filterMap fun p => if p.1 = n + 1 then some p.2 else none).toArray

/-- The words of the greatest length that stay free; none if there are too many words. -/
def free? (c : PrefixCode) : Option Nat :=
  c.counts.foldlM (fun room n => if n ≤ 2 * room then some (2 * room - n) else none) 1

def isEmpty (c : PrefixCode) : Bool := c.symbols.isEmpty

def isComplete (c : PrefixCode) : Bool := c.free? = some 0

def isSingle (c : PrefixCode) : Bool := c.symbols.size = 1 && c.counts.head? = some 1

/-- Reads a word bit by bit: `first` is the first word of the length at hand, and `before` counts
the shorter words. -/
def symbolFrom (c : PrefixCode) (b : Bits) (word first before : Nat) :
    List Nat → Except Bits.Stop (Nat × Bits)
  | [] => .error .bad
  | n :: counts => do
    let (x, b) ← b.bit
    let word := word + x
    if word < first + n then
      match c.symbols[before + (word - first)]? with
      | some s => return (s, b)
      | none => throw .bad
    else symbolFrom c b (2 * word) (2 * (first + n)) (before + n) counts

def symbol (c : PrefixCode) (b : Bits) : Except Bits.Stop (Nat × Bits) :=
  c.symbolFrom b 0 0 0 c.counts

end PrefixCode
end Letterhead
