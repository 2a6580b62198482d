import Letterhead.Picture.Jpeg.Frame

/-!
Reading the coefficients of blocks. A scan brings the first coefficient of its blocks as the
difference to the block before, and the others as runs of zeros and values; a progressive file
brings them in bands, and bit by bit.
-/

namespace Letterhead.Jpeg

def diagonal : Array Nat := #[
  0, 1, 8, 16, 9, 2, 3, 10, 17, 24, 32, 25, 18, 11, 4, 5, 12, 19, 26, 33, 40, 48, 41, 34, 27, 20,
  13, 6, 7, 14, 21, 28, 35, 42, 49, 56, 57, 50, 43, 36, 29, 22, 15, 23, 30, 37, 44, 51, 58, 59, 52,
  45, 38, 31, 39, 46, 53, 60, 61, 54, 47, 55, 62, 63]

def placeOf (k : Nat) : Nat := (diagonal[k]?).getD 63

/-- Reading within a component: the bits, the blocks still to come without news in this band, and
the coefficients. -/
structure Cursor where
  bits : Bits
  quiet : Nat := 0
  values : Array Int

/-- The next symbol of a code; bits that are no word stand for the symbol zero. -/
def symbol (c : PrefixCode) (b : Bits) : Nat × Bits :=
  match c.symbol b with
  | .ok r => r
  | .error _ => (0, b)

namespace Cursor

def value (s : Cursor) (i : Nat) : Int := (s.values[i]?).getD 0

def set (s : Cursor) (i : Nat) (v : Int) : Cursor :=
  { s with values := s.values.setIfInBounds i v }

def band (code : PrefixCode) (scan : Scan) (progressive : Bool) (base : Nat) :
    Nat → Nat → Cursor → Cursor
  | 0, _, s => s
  | fuel + 1, k, s =>
    if scan.last < k then s
    else
      let (x, b) := symbol code s.bits
      let zeros := x / 16
      if x % 16 = 0 then
        if zeros = 15 then band code scan progressive base fuel (k + 16) { s with bits := b }
        else if progressive then
          let (n, b) := number b zeros
          { s with bits := b, quiet := Nat.pow 2 zeros + n - 1 }
        else { s with bits := b }
      else
        let (v, b) := signed b (x % 16)
        let s := Cursor.set { s with bits := b } (base + placeOf (k + zeros)) (v * scan.unit)
        band code scan progressive base fuel (k + zeros + 1) s

def refine (scan : Scan) (i : Nat) (s : Cursor) : Cursor :=
  let (x, b) := nextBit s.bits
  let s := { s with bits := b }
  let v := s.value i
  let bit := scan.unit
  if x = 1 && v.natAbs / Nat.pow 2 scan.shift % 2 = 0 then
    s.set i (if 0 ≤ v then v + bit else v - bit)
  else s

def pass (scan : Scan) (base : Nat) : Nat → Nat → Nat → Cursor → Nat × Cursor
  | 0, k, _, s => (k, s)
  | fuel + 1, k, zeros, s =>
    if scan.last < k then (k, s)
    else
      let i := base + placeOf k
      if s.value i ≠ 0 then pass scan base fuel (k + 1) zeros (refine scan i s)
      else if zeros = 0 then (k, s)
      else pass scan base fuel (k + 1) (zeros - 1) s

def refineBand (code : PrefixCode) (scan : Scan) (base : Nat) : Nat → Nat → Cursor → Cursor
  | 0, _, s => s
  | fuel + 1, k, s =>
    if scan.last < k then s
    else if s.quiet ≠ 0 then
      let (_, s) := pass scan base 64 k 64 s
      { s with quiet := s.quiet - 1 }
    else
      let (x, b) := symbol code s.bits
      let zeros := x / 16
      if x % 16 = 0 && zeros ≠ 15 then
        let (n, b) := number b zeros
        refineBand code scan base fuel k { s with bits := b, quiet := Nat.pow 2 zeros + n }
      else
        let (bit, b) := if x % 16 = 0 then (0, b) else nextBit b
        let (k, s) := pass scan base 64 k zeros { s with bits := b }
        let v : Int := if x % 16 = 0 then 0 else if bit = 1 then scan.unit else -scan.unit
        let s := if v = 0 || scan.last < k then s else s.set (base + placeOf k) v
        refineBand code scan base fuel (k + 1) s

def direct (code : PrefixCode) (scan : Scan) (base : Nat) (before : Int) (s : Cursor) :
    Int × Cursor :=
  if scan.refines then
    let (x, b) := nextBit s.bits
    let s := { s with bits := b }
    (before, if x = 1 then s.set base (s.value base + scan.unit) else s)
  else
    let (x, b) := symbol code s.bits
    let (d, b) := signed b x
    let v := before + d
    (v, Cursor.set { s with bits := b } base (v * scan.unit))

def block (part : ScanPart) (scan : Scan) (progressive : Bool) (base : Nat) (before : Int)
    (s : Cursor) : Int × Cursor :=
  let (before, s) := if scan.first = 0 then direct part.direct scan base before s else (before, s)
  let first := max 1 scan.first
  if scan.last = 0 then (before, s)
  else if scan.refines then (before, refineBand part.alternating scan base 64 first s)
  else if s.quiet ≠ 0 then (before, { s with quiet := s.quiet - 1 })
  else (before, band part.alternating scan progressive base 64 first s)

end Cursor

/-- A scan in progress: the bits, the blocks without news, the last first coefficient of each
component, and the coefficients of all components. -/
structure Work where
  bits : Bits
  quiet : Nat := 0
  before : Array Int
  planes : Array (Array Int)

def Work.block (f : Frame) (scan : Scan) (part : ScanPart) (w : Work) (number : Nat) : Work :=
  let i := part.component
  let values := (w.planes[i]?).getD #[]
  let planes := w.planes.setIfInBounds i #[]
  let (before, s) := Cursor.block part scan f.progressive (64 * number) ((w.before[i]?).getD 0)
    ⟨w.bits, w.quiet, values⟩
  ⟨s.bits, s.quiet, w.before.setIfInBounds i before, planes.setIfInBounds i s.values⟩

/-- The blocks of a unit of a scan: for each one its component and its number. A scan of a single
component has units of one block. -/
def unitBlocks (f : Frame) (scan : Scan) (n : Nat) : List (ScanPart × Nat) :=
  match scan.parts with
  | [p] =>
    match f.components[p.component]? with
    | some c =>
      let across := (f.widthOf c + 7) / 8
      [(p, n / across * f.blocksAcross c + n % across)]
    | none => []
  | parts => parts.flatMap fun p =>
    match f.components[p.component]? with
    | some c => (List.range c.down).flatMap fun y => (List.range c.across).map fun x =>
      (p, (n / f.unitsAcross * c.down + y) * f.blocksAcross c + n % f.unitsAcross * c.across + x)
    | none => []

def unitCount (f : Frame) (scan : Scan) : Nat :=
  match scan.parts with
  | [p] =>
    match f.components[p.component]? with
    | some c => (f.widthOf c + 7) / 8 * ((f.heightOf c + 7) / 8)
    | none => 0
  | _ => f.unitsAcross * f.unitsDown

def readUnits (f : Frame) (scan : Scan) (data : ByteArray) (first count : Nat)
    (planes : Array (Array Int)) : Array (Array Int) :=
  ((List.range count).foldl (fun (w : Work) n =>
    (unitBlocks f scan (first + n)).foldl (fun w b => w.block f scan b.1 b.2) w)
    { bits := { data := data }, before := Array.replicate 4 0, planes := planes }).planes

/-- Reads a scan: after every interval it starts anew with the next part of its data. -/
def readScan (f : Frame) (scan : Scan) (interval : Nat) (data : List ByteArray)
    (planes : Array (Array Int)) : Array (Array Int) :=
  let total := unitCount f scan
  let size := if interval = 0 then total else interval
  (data.zipIdx.foldl (fun planes d =>
    readUnits f scan d.1 (d.2 * size) (min size (total - d.2 * size)) planes) planes)

end Letterhead.Jpeg
