import Letterhead.Picture.Png.Header

/-!
Lines of points in a PNG file. Each line is written as differences to its neighbours, and an
interlaced file has its lines in seven passes over the picture.
-/

namespace Letterhead.Png

structure Pass where
  column : Nat
  row : Nat
  columnStep : Nat
  rowStep : Nat
deriving DecidableEq, Repr

def passes (interlaced : Bool) : List Pass :=
  if interlaced then
    [⟨0, 0, 8, 8⟩, ⟨4, 0, 8, 8⟩, ⟨0, 4, 4, 8⟩, ⟨2, 0, 4, 4⟩, ⟨0, 2, 2, 4⟩, ⟨1, 0, 2, 2⟩,
      ⟨0, 1, 1, 2⟩]
  else [⟨0, 0, 1, 1⟩]

def steps (first step bound : Nat) : Nat := (bound + step - 1 - first) / step

/-- A line of a file: its row, its first column and the step between columns, the number of its
points, its bytes, and whether it is the first one of its pass. -/
structure Line where
  row : Nat
  column : Nat
  columnStep : Nat
  points : Nat
  size : Nat
  isFirst : Bool
deriving DecidableEq, Repr

def Pass.lines (p : Pass) (h : Picture.Header) (bits : Nat) : List Line :=
  let points := steps p.column p.columnStep h.width
  if points = 0 then []
  else (List.range (steps p.row p.rowStep h.height)).map fun i =>
    ⟨p.row + i * p.rowStep, p.column, p.columnStep, points, (points * bits + 7) / 8, i = 0⟩

def Info.lines (f : Info) : List Line :=
  (passes f.interlaced).flatMap fun p => p.lines f.header f.layout.bits

def nearest (left up corner : Nat) : Nat :=
  let p : Int := (left : Int) + up - corner
  let dl := (p - left).natAbs
  let du := (p - up).natAbs
  let dc := (p - corner).natAbs
  if dl ≤ du && dl ≤ dc then left else if du ≤ dc then up else corner

/-- What a byte was written as a difference to, from its neighbours; none if the kind of difference
is not known. -/
def foretold? : Nat → Option (Nat → Nat → Nat → Nat)
  | 0 => some fun _ _ _ => 0
  | 1 => some fun left _ _ => left
  | 2 => some fun _ up _ => up
  | 3 => some fun left up _ => (left + up) / 2
  | 4 => some nearest
  | _ => none

/-- The bytes of a line from its differences, which start at a place of the data. The left neighbour
is a point away. -/
def restore (f : Nat → Nat → Nat → Nat) (step start size : Nat) (data above : ByteArray) :
    ByteArray :=
  (List.range size).foldl (fun out i =>
    let at' := fun (b : ByteArray) => if i < step then 0 else ((b[i - step]?).getD 0).toNat
    let up := ((above[i]?).getD 0).toNat
    let x := ((data[start + i]?).getD 0).toNat
    out.push (UInt8.ofNat (x + f (at' out) up (at' above)))) .empty

def Layout.samples (l : Layout) (bytes : ByteArray) (i : Nat) : List UInt8 :=
  let byte := fun (k : Nat) => (bytes[k]?).getD 0
  if l.depth = 8 then (List.range l.channels).map fun k => byte (i * l.channels + k)
  else if l.depth = 16 then
    let high := fun (k : Nat) => byte ((i * l.channels + k) * 2)
    match l.mode, l.channels with
    | .deepGray, _ => [high 0, byte (i * 2 + 1)]
    | _, 2 => [high 0, high 0, high 0, high 1]
    | _, n => (List.range n).map high
  else
    let x := (byte (i * l.depth / 8)).toNat
    let v := x / Nat.pow 2 (8 - l.depth - i * l.depth % 8) % Nat.pow 2 l.depth
    [UInt8.ofNat (if l.mode = .indexed then v else v * (255 / (Nat.pow 2 l.depth - 1)))]

def put (samples : ByteArray) (start : Nat) : List UInt8 → ByteArray
  | [] => samples
  | x :: xs => put (samples.set! start x) (start + 1) xs

def Line.place (l : Line) (f : Info) (bytes samples : ByteArray) : ByteArray :=
  (List.range l.points).foldl (fun out i =>
    put out ((l.row * f.header.width + l.column + i * l.columnStep) * f.header.mode.size)
      (f.layout.samples bytes i)) samples

/-- How the lines were read: all of them, up to the end of the data between two lines, up to the end
within a line, or up to a line whose kind of difference is not known. -/
inductive Reading where
  | whole (samples : ByteArray)
  | between (samples : ByteArray)
  | within
  | unknown

def readLines (f : Info) (data : ByteArray) :
    List Line → Nat → ByteArray → ByteArray → Reading
  | [], _, _, samples => .whole samples
  | l :: ls, start, above, samples =>
    if data.size = start then .between samples
    else if data.size < start + 1 + l.size then .within
    else
      match foretold? ((data[start]?).getD 0).toNat with
      | none => .unknown
      | some g =>
        let above := if l.isFirst then .empty else above
        let bytes := restore g ((f.layout.bits + 7) / 8) (start + 1) l.size data above
        readLines f data ls (start + 1 + l.size) bytes (l.place f bytes samples)

def Info.dataSize (f : Info) : Nat := f.lines.foldl (fun n l => n + (l.size + 1)) 0

def Info.read (f : Info) (data : ByteArray) : Reading :=
  readLines f data f.lines 0 .empty (Bytes.zeros (f.header.pixels * f.header.mode.size))

end Letterhead.Png
