import Letterhead.Coding.PrefixCode
import Letterhead.Picture.Jpeg.Segment

/-!
The frame of a JPEG file: the size of the picture and its components, the tables of divisors and of
codes, and the scans.
-/

namespace Letterhead.Jpeg

structure Component where
  name : Nat
  across : Nat
  down : Nat
  table : Nat
deriving DecidableEq, Repr

structure Frame where
  progressive : Bool
  width : Nat
  height : Nat
  components : List Component
deriving DecidableEq, Repr

def startsFrame (m : Nat) : Bool :=
  (0xC0 ≤ m && m ≤ 0xCF && m ≠ 0xC4 && m ≠ 0xC8 && m ≠ 0xCC) || m == 0xDE

def components? : List UInt8 → Option (List Component)
  | [] => some []
  | name :: sides :: table :: rest => do
    let cs ← components? rest
    return ⟨name.toNat, sides.toNat / 16, sides.toNat % 16, table.toNat⟩ :: cs
  | _ => none

def Frame.ofSegment? (s : Segment) : Option Frame := do
  let height ← Bytes.bigAt? 1 2 s.data
  let width ← Bytes.bigAt? 3 2 s.data
  let depth ← s.data[0]?
  let count ← s.data[5]?
  let cs ← components? (s.data.drop 6)
  if depth = 8 && count ∈ [1, 3, 4] then
    return ⟨s.marker = 0xC2, width, height, cs⟩
  else none

def modeOf : Nat → Picture.Mode
  | 1 => .gray
  | 3 => .colour
  | _ => .inks

def countOf (s : Segment) : Nat := ((s.data[5]?).getD 0).toNat

def divisorsAreWhole : Nat → List UInt8 → Bool
  | _, [] => true
  | 0, _ => false
  | fuel + 1, kind :: rest =>
    let size := if kind < 16 then 64 else 128
    size ≤ rest.length && divisorsAreWhole fuel (rest.drop size)

def headerOf? (ss : List Segment) : Option Picture.Header := do
  let frames := ss.filter fun s => startsFrame s.marker
  let _ ← frames.mapM Frame.ofSegment?
  if !ss.all fun s => s.marker ≠ 0xDB || divisorsAreWhole 64 s.data then none
  let last ← frames.getLast?
  let f ← Frame.ofSegment? last
  Picture.Header.ofSize? (modeOf (countOf last)) f.width f.height

/-- The tables that segments set: divisors, codes by their class and number, and the units after
which a scan starts anew. -/
structure Tables where
  divisors : List (Nat × Array Nat) := []
  codes : List ((Nat × Nat) × PrefixCode) := []
  interval : Nat := 0

namespace Tables

def addDivisors : Nat → List UInt8 → Tables → Option Tables
  | _, [], t => some t
  | 0, _, _ => none
  | fuel + 1, kind :: rest, t => do
    let width := if kind < 16 then 1 else 2
    let data ← Bytes.part? 0 (64 * width) rest
    let ns := (List.range 64).map fun k => Bytes.ofBig ((data.drop (k * width)).take width)
    addDivisors fuel (rest.drop (64 * width))
      { t with divisors := (kind.toNat % 16, ns.toArray) :: t.divisors }

def addCodes : Nat → List UInt8 → Tables → Option Tables
  | _, [], t => some t
  | 0, _, _ => none
  | fuel + 1, kind :: rest, t => do
    let counts := (← Bytes.part? 0 16 rest).map UInt8.toNat
    let symbols ← Bytes.part? 16 counts.sum rest
    let c : PrefixCode := ⟨counts, (symbols.map UInt8.toNat).toArray⟩
    if c.free?.isNone then none
    addCodes fuel (rest.drop (16 + counts.sum))
      { t with codes := ((kind.toNat / 16, kind.toNat % 16), c) :: t.codes }

def add? (t : Tables) (s : Segment) : Option Tables :=
  if s.marker = 0xDB then t.addDivisors 64 s.data
  else if s.marker = 0xC4 then t.addCodes 64 s.data
  else if s.marker = 0xDD then (Bytes.bigAt? 0 2 s.data).map fun n => { t with interval := n }
  else some t

end Tables

structure ScanPart where
  component : Nat
  direct : PrefixCode
  alternating : PrefixCode

/-- A scan: its components, the band of coefficients that it brings, whether it makes earlier ones
finer, and the bit at which it ends. -/
structure Scan where
  parts : List ScanPart
  first : Nat
  last : Nat
  refines : Bool
  shift : Nat

def Scan.unit (s : Scan) : Int := (Nat.pow 2 s.shift : Nat)

def noCode : PrefixCode := ⟨[], #[]⟩

def Scan.ofSegment? (f : Frame) (t : Tables) (s : Segment) : Option Scan := do
  let count ← s.data[0]?
  let n := count.toNat
  let parts ← (List.range n).mapM fun i => do
    let name ← s.data[1 + 2 * i]?
    let tables ← s.data[2 + 2 * i]?
    let k ← f.components.findIdx? fun c => c.name = name.toNat
    return (⟨k, (t.codes.lookup (0, tables.toNat / 16)).getD noCode,
      (t.codes.lookup (1, tables.toNat % 16)).getD noCode⟩ : ScanPart)
  let first ← s.data[1 + 2 * n]?
  let last ← s.data[2 + 2 * n]?
  let bits ← s.data[3 + 2 * n]?
  if n = 0 || 4 < n then none
  else if f.progressive then
    return ⟨parts, first.toNat, min 63 last.toNat, 16 ≤ bits, bits.toNat % 16⟩
  else return ⟨parts, 0, 63, false, 0⟩

namespace Frame

def across (f : Frame) : Nat := (f.components.map Component.across).foldl max 1

def down (f : Frame) : Nat := (f.components.map Component.down).foldl max 1

def unitsAcross (f : Frame) : Nat := (f.width + 8 * f.across - 1) / (8 * f.across)

def unitsDown (f : Frame) : Nat := (f.height + 8 * f.down - 1) / (8 * f.down)

def isEven (f : Frame) : Bool :=
  f.components.all fun c =>
    c.across ≠ 0 && c.down ≠ 0 && c.across ≤ 4 && c.down ≤ 4 &&
      f.across % c.across = 0 && f.down % c.down = 0

/-- Samples of a component in a row, without those that fill the last block. -/
def widthOf (f : Frame) (c : Component) : Nat := (f.width * c.across + f.across - 1) / f.across

def heightOf (f : Frame) (c : Component) : Nat := (f.height * c.down + f.down - 1) / f.down

def blocksAcross (f : Frame) (c : Component) : Nat := f.unitsAcross * c.across

end Frame
end Letterhead.Jpeg
