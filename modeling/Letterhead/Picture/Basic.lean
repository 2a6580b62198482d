import Letterhead.Bytes
import Letterhead.Picture.Fault

/-!
Pictures: rows of points from the top, in the mode in which a file stores them, and rasters, in
which every point has its channels.
-/

namespace Letterhead

inductive Picture.Mode where
  | bilevel
  | gray
  | deepGray
  | grayAlpha
  | indexed
  | colour
  | colourAlpha
  | inks
deriving DecidableEq, Repr

def Picture.Mode.size : Mode → Nat
  | bilevel | gray | indexed => 1
  | deepGray | grayAlpha => 2
  | colour => 3
  | colourAlpha | inks => 4

structure Picture.Header where
  mode : Mode
  width : Nat
  height : Nat
deriving DecidableEq, Repr

namespace Picture.Header

def pixels (h : Header) : Nat := h.width * h.height

def rowSize (h : Header) : Nat := h.width * h.mode.size

def ofSize? (mode : Mode) (width height : Nat) : Option Header :=
  if width = 0 || height = 0 then none else some ⟨mode, width, height⟩

def check (h : Header) : Except Picture.Fault Header :=
  if Picture.pixelLimit < h.pixels then .error (.tooLarge h.pixels) else .ok h

end Picture.Header

structure Palette where
  entries : Array (List UInt8) := #[]

def Palette.limit : Nat := 256

def Palette.colour (p : Palette) (i : UInt8) : List UInt8 :=
  (p.entries[i.toNat]?).getD [0, 0, 0, 255]

def Palette.hide (p : Palette) (i : Nat) : Palette :=
  let full := p.entries ++ Array.replicate (Palette.limit - p.entries.size) [0, 0, 0, 255]
  ⟨full.modify i fun c => c.take 3 ++ [0]⟩

def Palette.fade (p : Palette) (alphas : List UInt8) : Palette :=
  let full := p.entries ++ Array.replicate (Palette.limit - p.entries.size) [0, 0, 0, 255]
  ⟨(full.toList.zipIdx.map fun e =>
    match alphas[e.2]? with
    | some a => e.1.take 3 ++ [a]
    | none => e.1).toArray⟩

/-- A picture as a file stores it. The samples stand row by row; `clear` is a level of gray that is
transparent. -/
structure Picture where
  header : Picture.Header
  samples : ByteArray
  palette : Palette := {}
  clear : Option Nat := none

inductive Channels where
  | gray
  | grayAlpha
  | colour
  | colourAlpha
deriving DecidableEq, Repr

namespace Channels

def count : Channels → Nat
  | gray => 1
  | grayAlpha => 2
  | colour => 3
  | colourAlpha => 4

def hasAlpha : Channels → Bool
  | grayAlpha | colourAlpha => true
  | gray | colour => false

def mode : Channels → Picture.Mode
  | gray => .gray
  | grayAlpha => .grayAlpha
  | colour => .colour
  | colourAlpha => .colourAlpha

@[simp] theorem size_mode (c : Channels) : c.mode.size = c.count := by
  cases c <;> rfl

end Channels

structure Raster where
  channels : Channels
  width : Nat
  height : Nat
  samples : ByteArray

namespace Picture

def spread (size : Nat) (f : List UInt8 → List UInt8) (samples : ByteArray) (count : Nat) :
    ByteArray :=
  (List.range count).foldl (fun out i =>
    let point := (List.range size).map fun k => (samples[i * size + k]?).getD 0
    (f point).foldl ByteArray.push out) .empty

def shade (clear : Option Nat) (v : UInt8) : List UInt8 :=
  [v, v, v, if clear.any fun t => t % 256 == v.toNat then 0 else 255]

def product (a b : Nat) : Nat :=
  let t := a * b + 128
  (t / 256 + t) / 256

def colourOf (p : Picture) : List UInt8 → List UInt8
  | [v] => if p.header.mode = .indexed then p.palette.colour v else shade p.clear v
  | [high, low] => shade p.clear (if high = 0 then low else 255)
  | [c, m, y, k] =>
    let light := fun (x : UInt8) =>
      UInt8.ofNat (255 - k.toNat - product x.toNat (255 - k.toNat))
    [light c, light m, light y, 255]
  | point => point

/-- The raster of a picture: modes that a raster does not have become colour with alpha. -/
def raster (p : Picture) : Raster :=
  let same := fun (c : Channels) => Raster.mk c p.header.width p.header.height p.samples
  match p.header.mode with
  | .gray => same .gray
  | .grayAlpha => same .grayAlpha
  | .colour => same .colour
  | .colourAlpha => same .colourAlpha
  | mode =>
    ⟨.colourAlpha, p.header.width, p.header.height,
      spread mode.size (colourOf p) p.samples p.header.pixels⟩

end Picture
end Letterhead
