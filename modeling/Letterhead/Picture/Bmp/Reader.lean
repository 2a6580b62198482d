import Letterhead.Picture.Bmp.Header

/-!
Reading a BMP file: rows of points with padding, or runs of equal indexes.
-/

namespace Letterhead.Bmp

def widened (bits v : Nat) : UInt8 := UInt8.ofNat (v % Nat.pow 2 bits * 255 / (Nat.pow 2 bits - 1))

def Points.samples (mode : Picture.Mode) (data : ByteArray) (start i : Nat) : Points → List UInt8
  | packed bits =>
    let x := ((data[start + i * bits / 8]?).getD 0).toNat
    let v := x / Nat.pow 2 (8 - bits - i * bits % 8) % Nat.pow 2 bits
    [UInt8.ofNat (if mode = .bilevel then 255 * v else v)]
  | fives green =>
    let byte := fun (k : Nat) => ((data[start + 2 * i + k]?).getD 0).toNat
    let v := byte 0 + 256 * byte 1
    [widened 5 (v / Nat.pow 2 (5 + green)), widened green (v / 32), widened 5 v]
  | ordered size places => places.map fun k => (data[start + i * size + k]?).getD 0

def Info.rows (f : Info) : List Nat :=
  let rows := List.range f.header.height
  if f.fromTop then rows else rows.reverse

def Info.rowSize (f : Info) : Nat := (f.header.width * f.points.bits + 7) / 8

def Info.rowStart (f : Info) (i : Nat) : Nat :=
  f.start + f.stride * (if f.fromTop then i else f.header.height - 1 - i)

def plainSamples? (f : Info) (data : ByteArray) : Option ByteArray :=
  if f.stride < f.rowSize then none
  else if data.size < f.start + f.stride * (f.header.height - 1) + f.rowSize then none
  else some ((List.range f.header.height).foldl (fun out y =>
    (List.range f.header.width).foldl (fun out i =>
      (f.points.samples f.header.mode data (f.rowStart y) i).foldl ByteArray.push out) out) .empty)

def halvesOf (b : UInt8) : List UInt8 := [b / 16, b % 16]

def fill (out : ByteArray) (b : UInt8) (n : Nat) : ByteArray :=
  (List.range n).foldl (fun out _ => out.push b) out

def fillHalves (out : ByteArray) (b : UInt8) (n : Nat) : ByteArray :=
  (List.range n).foldl (fun out i => out.push (if i % 2 = 0 then b / 16 else b % 16)) out

/-- Reads runs: `place` is the place in the file, `column` the column of the row. -/
def runs (halves : Bool) (width wanted : Nat) (data : ByteArray) :
    Nat → Nat → Nat → ByteArray → ByteArray
  | 0, _, _, out => out
  | fuel + 1, place, column, out =>
    if wanted ≤ out.size then out
    else
      match data[place]?, data[place + 1]? with
      | some n, some b =>
        if n ≠ 0 then
          let count := min n.toNat (width - column)
          runs halves width wanted data fuel (place + 2) (column + count)
            (if halves then fillHalves out b count else fill out b count)
        else if b = 0 then
          runs halves width wanted data fuel (place + 2) 0
            (fill out 0 ((width - out.size % width) % width))
        else if b = 1 then out
        else if b = 2 then
          match data[place + 2]?, data[place + 3]?, data[place + 4]?, data[place + 5]? with
          | some _, some _, some right, some up =>
            let out := fill out 0 (right.toNat + up.toNat * width)
            runs halves width wanted data fuel (place + 6) (out.size % width) out
          | _, _, _, _ => out
        else
          let count := if halves then b.toNat / 2 else b.toNat
          let bytes := Bytes.toList (data.extract (place + 2) (place + 2 + count))
          let out := (if halves then bytes.flatMap halvesOf else bytes).foldl ByteArray.push out
          if bytes.length < count then out
          else
            let after := place + 2 + count
            runs halves width wanted data fuel (after + after % 2) (column + b.toNat) out
      | _, _ => out

def runSamples? (f : Info) (halves : Bool) (data : ByteArray) : Option ByteArray :=
  let wanted := f.header.pixels
  let out := runs halves f.header.width wanted data (data.size + 1) f.start 0 .empty
  if out.size < wanted || (f.header.mode ≠ .gray && f.header.mode ≠ .indexed) then none
  else
    let width := f.header.width
    let row y := out.extract (y * width) ((y + 1) * width)
    some (f.rows.foldl (fun rows y => rows.append (row y)) .empty)

def samples? (f : Info) (data : ByteArray) : Option ByteArray :=
  match f.packing with
  | .plain => plainSamples? f data
  | .runs halves => runSamples? f halves data

def header (bs : List UInt8) : Except Picture.Fault Picture.Header :=
  match info? bs with
  | some f => f.header.check
  | none => .error .unreadable

def read (bs : List UInt8) : Except Picture.Fault Picture :=
  match info? bs with
  | none => .error .unreadable
  | some f => do
    let _ ← f.header.check
    match samples? f (Bytes.ofList bs) with
    | some b =>
      if f.palette.entries.size ≤ Palette.limit then return ⟨f.header, b, f.palette, none⟩
      else throw .unreadable
    | none => throw .unreadable

end Letterhead.Bmp
