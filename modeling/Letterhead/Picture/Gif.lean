import Letterhead.Coding.Lzw
import Letterhead.Picture.Basic

/-!
Reading the first frame of a GIF file. A palette that is a plain ramp of grays is none; the picture
grows to hold its frame.
-/

namespace Letterhead.Gif

def signatures : List (List UInt8) :=
  ["GIF87a", "GIF89a"].map fun s => s.toList.map fun c => UInt8.ofNat c.toNat

def colours : List UInt8 → List (List UInt8)
  | r :: g :: b :: rest => [r, g, b, 255] :: colours rest
  | _ => []

def isRamp (cs : List (List UInt8)) : Bool :=
  cs.zipIdx.all fun e =>
    e.1 == [UInt8.ofNat e.2, UInt8.ofNat e.2, UInt8.ofNat e.2, 255]

inductive Table where
  | none
  | ramp
  | palette (p : Palette)

def table? (flags : UInt8) (bs : List UInt8) : Option (Table × List UInt8) :=
  if flags < 128 then some (.none, bs)
  else
    let size := 3 * Nat.pow 2 (flags.toNat % 8 + 1)
    (Bytes.part? 0 size bs).map fun data =>
      let cs := colours data
      (if isRamp cs then .ramp else .palette ⟨cs.toArray⟩, bs.drop size)

def part : List UInt8 → List UInt8 × List UInt8
  | [] => ([], [])
  | n :: rest => (rest.take n.toNat, rest.drop n.toNat)

def skipParts : Nat → List UInt8 → List UInt8
  | 0, bs => bs
  | fuel + 1, bs =>
    let p := part bs
    if p.1.isEmpty then p.2 else skipParts fuel p.2

/-- A frame: its place, whether its lines are interlaced, its table, the index that is transparent,
the width of its codes, and its data. -/
structure Frame where
  left : Nat
  top : Nat
  width : Nat
  height : Nat
  interlaced : Bool
  table : Table
  clear : Option Nat
  bits : Nat
  data : List UInt8

def frame? (clear : Option Nat) (bs : List UInt8) : Option Frame := do
  let left ← Bytes.littleAt? 0 2 bs
  let top ← Bytes.littleAt? 2 2 bs
  let width ← Bytes.littleAt? 4 2 bs
  let height ← Bytes.littleAt? 6 2 bs
  let flags ← bs[8]?
  let (table, rest) ← table? flags (bs.drop 9)
  match rest with
  | bits :: data =>
    return ⟨left, top, width, height, flags.toNat / 64 % 2 = 1, table, clear, bits.toNat, data⟩
  | [] => none

/-- The first part of data that names a program: one more part belongs to it. -/
def loopMark : List UInt8 := "NETSCAPE2.0".toList.map fun c => UInt8.ofNat c.toNat

def findFrame? : Nat → Option Nat → List UInt8 → Option Frame
  | 0, _, _ => none
  | _, _, [] => none
  | fuel + 1, clear, 0x21 :: label :: rest =>
    let p := part rest
    if label = 0xFE then
      findFrame? fuel clear (if p.1.isEmpty then p.2 else skipParts rest.length p.2)
    else if label = 0xF9 && !p.1.isEmpty then
      match p.1 with
      | flags :: _ :: _ :: more =>
        if flags % 2 = 1 then
          match more with
          | i :: _ => findFrame? fuel (some i.toNat) (skipParts rest.length p.2)
          | [] => none
        else findFrame? fuel clear (skipParts rest.length p.2)
      | _ => none
    else if label = 0xFF && loopMark.isPrefixOf p.1 then
      findFrame? fuel clear (skipParts rest.length (part p.2).2)
    else findFrame? fuel clear (skipParts rest.length p.2)
  | fuel + 1, clear, b :: rest =>
    if b = 0x3B then none
    else if b = 0x2C then frame? clear rest
    else if b = 0x21 then none
    else findFrame? fuel clear rest

structure Info where
  header : Picture.Header
  palette : Palette
  frame : Frame

def info? (bs : List UInt8) : Option Info := do
  if !signatures.any fun s => s.isPrefixOf bs then none
  let width ← Bytes.littleAt? 6 2 bs
  let height ← Bytes.littleAt? 8 2 bs
  let flags ← bs[10]?
  let _ ← bs[12]?
  let (table, rest) ← table? flags (bs.drop 13)
  let f ← findFrame? (rest.length + 1) none rest
  let width := max width (f.left + f.width)
  let height := max height (f.top + f.height)
  let (mode, palette) := match f.table, table with
    | .palette p, _ => (Picture.Mode.indexed, p)
    | .none, .palette p => (Picture.Mode.indexed, p)
    | _, _ => (Picture.Mode.gray, {})
  return ⟨← Picture.Header.ofSize? mode width height, palette, f⟩

def wholeParts : Nat → List UInt8 → List UInt8
  | 0, _ => []
  | _, [] => []
  | fuel + 1, n :: rest =>
    if rest.length < n.toNat then []
    else rest.take n.toNat ++ wholeParts fuel (rest.drop n.toNat)

def rowOrder (interlaced : Bool) (height : Nat) : List Nat :=
  let rows := List.range height
  if interlaced then
    rows.filter (· % 8 = 0) ++ rows.filter (· % 8 = 4) ++ rows.filter (· % 4 = 2) ++
      rows.filter (· % 2 = 1)
  else rows

/-- The place of a frame in its picture; a frame at the left edge without a width fills it. -/
def Info.extent (i : Info) : Nat × Nat × Nat × Nat :=
  let f := i.frame
  if f.left = 0 && f.width = 0 then (0, 0, i.header.width, i.header.height)
  else (f.left, f.top, f.width, f.height)

def place (width left top rowSize : Nat) (rows : List Nat) (data samples : ByteArray) :
    ByteArray :=
  rows.zipIdx.foldl (fun out r =>
    data.copySlice (r.2 * rowSize) out ((top + r.1) * width + left) rowSize) samples

def picture? (i : Info) : Option Picture :=
  let (left, top, width, height) := i.extent
  if width = 0 || height = 0 then none
  else
    let data := Bytes.ofList (wholeParts (i.frame.data.length + 1) i.frame.data)
    (Lzw.read? i.frame.bits (width * height) data).map fun b =>
      let back := UInt8.ofNat (i.frame.clear.getD 0)
      let canvas : ByteArray := ⟨Array.replicate i.header.pixels back⟩
      { header := i.header
        samples := place i.header.width left top width (rowOrder i.frame.interlaced height) b canvas
        palette := match i.frame.clear with
          | some t => i.palette.hide t
          | none => i.palette }

def header (bs : List UInt8) : Except Picture.Fault Picture.Header :=
  match info? bs with
  | some i => i.header.check
  | none => .error .unreadable

def read (bs : List UInt8) : Except Picture.Fault Picture :=
  match info? bs with
  | none => .error .unreadable
  | some i => do
    let _ ← i.header.check
    match picture? i with
    | some p => return p
    | none => throw .unreadable

end Letterhead.Gif
