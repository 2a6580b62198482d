import Letterhead.Picture.Basic

/-!
The header of a BMP file: the size of the picture, how its points are stored, and where they start.
-/

namespace Letterhead.Bmp

def signature : List UInt8 := [0x42, 0x4D]

inductive Points where
  | packed (bits : Nat)
  | fives (greenBits : Nat)
  | ordered (size : Nat) (places : List Nat)
deriving DecidableEq, Repr

def Points.bits : Points → Nat
  | packed n => n
  | fives _ => 16
  | ordered size _ => 8 * size

inductive Packing where
  | plain
  | runs (halves : Bool)
deriving DecidableEq, Repr

/-- What the start of a file tells: the header of its picture, its points, how they are packed,
bytes of a row with its padding, whether the first row is the top one, where the points start, and
the palette. -/
structure Info where
  header : Picture.Header
  points : Points
  packing : Packing
  stride : Nat
  fromTop : Bool
  start : Nat
  palette : Palette

structure Fields where
  width : Nat
  height : Nat
  fromTop : Bool
  bits : Nat
  compression : Nat
  colours : Nat
  padding : Nat
deriving DecidableEq, Repr

def oldFields? (bs : List UInt8) : Option Fields := do
  return ⟨← Bytes.littleAt? 18 2 bs, ← Bytes.littleAt? 20 2 bs, false, ← Bytes.littleAt? 24 2 bs,
    0, 0, 3⟩

/-- Reads the fields of a header of the newer kinds. A height that counts down means that the first
row is the top one. -/
def newFields? (bs : List UInt8) : Option Fields := do
  let height ← Bytes.littleAt? 22 4 bs
  let fromTop := bs[25]? = some 0xFF
  return ⟨← Bytes.littleAt? 18 4 bs, if fromTop then Nat.pow 2 32 - height else height, fromTop,
    ← Bytes.littleAt? 28 2 bs, ← Bytes.littleAt? 30 4 bs, ← Bytes.littleAt? 46 4 bs, 4⟩

def newSizes : List Nat := [40, 52, 56, 64, 108, 124]

def fields? (size : Nat) (bs : List UInt8) : Option Fields := do
  let _ ← Bytes.part? 14 size bs
  let f ← if size = 12 then oldFields? bs else if size ∈ newSizes then newFields? bs else none
  return { f with colours := if f.colours = 0 then Nat.pow 2 f.bits else f.colours }

def masks? (size : Nat) (bs : List UInt8) : Option (List Nat × Nat) := do
  let colours ← [54, 58, 62].mapM fun at' => Bytes.littleAt? at' 4 bs
  let alpha ← if 56 ≤ size then Bytes.littleAt? 66 4 bs else some 0
  return (colours ++ [alpha], if size = 40 then 12 else 0)

def wide? : List Nat → Option Points
  | [0xFF0000, 0xFF00, 0xFF, 0] => some (.ordered 4 [2, 1, 0])
  | [0xFF000000, 0xFF0000, 0xFF00, 0] => some (.ordered 4 [3, 2, 1])
  | [0xFF000000, 0xFF00, 0xFF, 0] => some (.ordered 4 [3, 1, 0])
  | [0xFF000000, 0xFF0000, 0xFF00, 0xFF] => some (.ordered 4 [3, 2, 1, 0])
  | [0xFF, 0xFF00, 0xFF0000, 0xFF000000] => some (.ordered 4 [0, 1, 2, 3])
  | [0xFF0000, 0xFF00, 0xFF, 0xFF000000] => some (.ordered 4 [2, 1, 0, 3])
  | [0xFF000000, 0xFF00, 0xFF, 0xFF0000] => some (.ordered 4 [3, 1, 0, 2])
  | [0, 0, 0, 0] => some (.ordered 4 [2, 1, 0, 3])
  | _ => none

def masked? (bits : Nat) (masks : List Nat) : Option Points :=
  match bits, masks.take 3 with
  | 32, _ => wide? masks
  | 24, [0xFF0000, 0xFF00, 0xFF] => some (.ordered 3 [2, 1, 0])
  | 16, [0xF800, 0x7E0, 0x1F] => some (.fives 6)
  | 16, [0x7C00, 0x3E0, 0x1F] => some (.fives 5)
  | _, _ => none

def plain? : Nat → Option Points
  | 1 => some (.packed 1)
  | 4 => some (.packed 4)
  | 8 => some (.packed 8)
  | 16 => some (.fives 5)
  | 24 => some (.ordered 3 [2, 1, 0])
  | 32 => some (.ordered 4 [2, 1, 0])
  | _ => none

def Points.mode : Points → Picture.Mode
  | ordered _ [_, _, _, _] => .colourAlpha
  | _ => .colour

/-- The gray levels of a table that is no palette: black and white, or each the level of its
index. -/
def levels (count : Nat) : List Nat := if count = 2 then [0, 255] else List.range count

def tableColours (padding : Nat) (data : List UInt8) : List (List UInt8) :=
  let bytes := data.toArray
  (List.range (bytes.size / padding)).map fun i =>
    [2, 1, 0].map (fun k => (bytes[i * padding + k]?).getD 0) ++ [255]

def isGray (padding count : Nat) (data : List UInt8) : Bool :=
  let bytes := data.toArray
  (levels count).zipIdx.all fun e => (List.range 3).all fun k =>
    bytes[e.2 * padding + k]? == some (UInt8.ofNat e.1)

def strideOf (width bits : Nat) : Nat := (width * bits + 31) / 32 * 4

def coloured (f : Fields) (table : List UInt8) : Picture.Mode × Points × Palette :=
  if isGray f.padding f.colours table then
    if f.colours = 2 then (.bilevel, .packed 1, {}) else (.gray, .packed 8, {})
  else (.indexed, .packed f.bits, ⟨(tableColours f.padding table).toArray⟩)

/-- Points and packing of a kind of compression, and the bytes that it adds to the header. -/
def packing? (f : Fields) (size : Nat) (bs : List UInt8) : Option (Points × Packing × Nat) := do
  let points ← plain? f.bits
  match f.compression with
  | 0 => return (points, .plain, 0)
  | 1 => return (points, .runs false, 0)
  | 2 => return (points, .runs true, 0)
  | 3 =>
    let (masks, n) ← masks? size bs
    return (← masked? f.bits masks, .plain, n)
  | _ => none

def info? (bs : List UInt8) : Option Info := do
  if !signature.isPrefixOf bs then none
  let start ← Bytes.littleAt? 10 4 bs
  let size ← Bytes.littleAt? 14 4 bs
  let f ← fields? size bs
  let (points, packing, masksSize) ← packing? f size bs
  let afterHeader := 14 + size
  let start := if start = afterHeader && f.bits ≤ 8 then start + 4 * f.colours else start
  let stride := strideOf f.width f.bits
  let begins := fun (read : Nat) => if start = 0 then min bs.length (afterHeader + read) else start
  match points with
  | .packed _ =>
    if 65536 < f.colours then none
    let tableSize := f.padding * f.colours
    let (mode, points, palette) := coloured f ((bs.drop afterHeader).take tableSize)
    let h ← Picture.Header.ofSize? mode f.width f.height
    return ⟨h, points, packing, stride, f.fromTop, begins tableSize, palette⟩
  | points =>
    let h ← Picture.Header.ofSize? points.mode f.width f.height
    return ⟨h, points, packing, stride, f.fromTop, begins masksSize, {}⟩

end Letterhead.Bmp
