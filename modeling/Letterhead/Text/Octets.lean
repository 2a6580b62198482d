import Letterhead.Text.Basic

/-!
Reading UTF-8 byte by byte. Bytes that begin no character, and characters that are broken off, are
read as the replacement character.
-/

namespace Letterhead.Octets

def replacement : Char := '\ufffd'

/-- A character of which some bytes were read: its number so far, the bytes owed, and the bounds of
the next one. -/
structure Pending where
  number : Nat
  owed : Nat
  low : Nat := 0x80
  high : Nat := 0xBF
deriving DecidableEq, Repr

def begin? (b : Nat) : Option Pending :=
  if b < 0x80 then some ⟨b, 0, 0x80, 0xBF⟩
  else if 0xC2 ≤ b && b ≤ 0xDF then some ⟨b - 0xC0, 1, 0x80, 0xBF⟩
  else if b = 0xE0 then some ⟨0, 2, 0xA0, 0xBF⟩
  else if b = 0xED then some ⟨13, 2, 0x80, 0x9F⟩
  else if 0xE1 ≤ b && b ≤ 0xEF then some ⟨b - 0xE0, 2, 0x80, 0xBF⟩
  else if b = 0xF0 then some ⟨0, 3, 0x90, 0xBF⟩
  else if 0xF1 ≤ b && b ≤ 0xF3 then some ⟨b - 0xF0, 3, 0x80, 0xBF⟩
  else if b = 0xF4 then some ⟨4, 3, 0x80, 0x8F⟩
  else none

def first (b : Nat) : Text × Option Pending :=
  match begin? b with
  | none => ([replacement], none)
  | some p => if p.owed = 0 then ([Char.ofNat p.number], none) else ([], some p)

/-- Reads a byte of a character that has begun; a byte that cannot go on begins the next one. -/
def next (p : Pending) (b : Nat) : Text × Option Pending :=
  if p.low ≤ b && b ≤ p.high then
    let number := p.number * 64 + b % 64
    if p.owed = 1 then ([Char.ofNat number], none)
    else ([], some ⟨number, p.owed - 1, 0x80, 0xBF⟩)
  else
    let r := first b
    (replacement :: r.1, r.2)

def readFrom : Option Pending → List UInt8 → Text
  | none, [] => []
  | some _, [] => [replacement]
  | none, b :: rest =>
    let r := first b.toNat
    r.1 ++ readFrom r.2 rest
  | some p, b :: rest =>
    let r := next p b.toNat
    r.1 ++ readFrom r.2 rest

def read (bs : List UInt8) : Text := readFrom none bs

end Letterhead.Octets
