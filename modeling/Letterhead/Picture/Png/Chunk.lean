import Letterhead.Coding.Checksum
import Letterhead.Picture.Basic

/-!
Chunks, the parts of a PNG file: a length, a name of four characters, data, and a checksum of name
and data.
-/

namespace Letterhead.Png

def signature : List UInt8 := [0x89, 0x50, 0x4E, 0x47, 0x0D, 0x0A, 0x1A, 0x0A]

structure Chunk where
  name : List UInt8
  data : List UInt8
deriving DecidableEq, Repr

def named (name : String) : List UInt8 := name.toList.map fun c => UInt8.ofNat c.toNat

def Chunk.checksum (c : Chunk) : Nat := (Checksum.crc (c.name ++ c.data)).toNat

def Chunk.write (c : Chunk) : List UInt8 :=
  Bytes.big 4 c.data.length ++ (c.name ++ (c.data ++ Bytes.big 4 c.checksum))

def isNameByte (b : UInt8) : Bool :=
  let n := b.toNat
  (48 ≤ n && n ≤ 57) || (65 ≤ n && n ≤ 90) || (97 ≤ n && n ≤ 122) || n == 95

structure Start where
  length : Nat
  name : List UInt8
deriving DecidableEq, Repr

/-- What is found where a chunk should start: its start and what follows, a name that is none, or
too few bytes for a length. -/
inductive Found where
  | start (s : Start) (rest : List UInt8)
  | misnamed (name : List UInt8)
  | cut

def find (bs : List UInt8) : Found :=
  match Bytes.bigAt? 0 4 bs with
  | none => .cut
  | some n =>
    let name := (bs.drop 4).take 4
    if name.length = 4 && name.all isNameByte then .start ⟨n, name⟩ (bs.drop 8)
    else .misnamed name

def endsFront (name : List UInt8) : Bool := name == named "IDAT" || name == named "IEND"

/-- The front of a file: the chunks before the pixels, and the bytes from the start of the next
chunk on. -/
structure Front where
  chunks : List Chunk
  rest : List UInt8
deriving DecidableEq, Repr

def leastLengths : List (String × Nat) := [
  ("IHDR", 13), ("gAMA", 4), ("sRGB", 1), ("pHYs", 9), ("acTL", 8), ("fcTL", 26)]

def Chunk.isLongEnough (c : Chunk) : Bool :=
  leastLengths.all fun k => named k.1 != c.name || k.2 ≤ c.data.length

/-- Reads the chunks of the front; none if one is cut, misnamed, too short, or has another
checksum. -/
def frontFrom : Nat → List UInt8 → Option (List Chunk × List UInt8)
  | 0, _ => none
  | fuel + 1, bs =>
    match find bs with
    | .start s rest =>
      if endsFront s.name then some ([], bs)
      else do
        let data ← Bytes.part? 0 s.length rest
        let sum ← Bytes.bigAt? s.length 4 rest
        let c : Chunk := ⟨s.name, data⟩
        if sum = c.checksum && c.isLongEnough then
          let r ← frontFrom fuel (rest.drop (s.length + 4))
          return (c :: r.1, r.2)
        else none
    | _ => none

def front? (bs : List UInt8) : Option Front :=
  if signature.isPrefixOf bs then
    (frontFrom (bs.length + 1) (bs.drop 8)).map fun r => ⟨r.1, r.2⟩
  else none

end Letterhead.Png
