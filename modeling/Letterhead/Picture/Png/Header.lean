import Letterhead.Picture.Png.Chunk

/-!
The header of a PNG file: the size of the picture, and how its points are stored.
-/

namespace Letterhead.Png

structure Layout where
  mode : Picture.Mode
  depth : Nat
  channels : Nat
deriving DecidableEq, Repr

def layout? : Nat → Nat → Option Layout
  | 1, 0 => some ⟨.bilevel, 1, 1⟩
  | 2, 0 => some ⟨.gray, 2, 1⟩
  | 4, 0 => some ⟨.gray, 4, 1⟩
  | 8, 0 => some ⟨.gray, 8, 1⟩
  | 16, 0 => some ⟨.deepGray, 16, 1⟩
  | 8, 2 => some ⟨.colour, 8, 3⟩
  | 16, 2 => some ⟨.colour, 16, 3⟩
  | 1, 3 => some ⟨.indexed, 1, 1⟩
  | 2, 3 => some ⟨.indexed, 2, 1⟩
  | 4, 3 => some ⟨.indexed, 4, 1⟩
  | 8, 3 => some ⟨.indexed, 8, 1⟩
  | 8, 4 => some ⟨.grayAlpha, 8, 2⟩
  | 16, 4 => some ⟨.colourAlpha, 16, 2⟩
  | 8, 6 => some ⟨.colourAlpha, 8, 4⟩
  | 16, 6 => some ⟨.colourAlpha, 16, 4⟩
  | _, _ => none

def Layout.bits (l : Layout) : Nat := l.depth * l.channels

def colourType : Channels → Nat
  | .gray => 0
  | .colour => 2
  | .grayAlpha => 4
  | .colourAlpha => 6

structure Info where
  header : Picture.Header
  layout : Layout
  interlaced : Bool
deriving DecidableEq, Repr

def Info.ofData? (data : List UInt8) : Option Info := do
  let width ← Bytes.bigAt? 0 4 data
  let height ← Bytes.bigAt? 4 4 data
  match data.drop 8 with
  | depth :: type :: _ :: filter :: interlace :: _ =>
    let l ← layout? depth.toNat type.toNat
    let h ← Picture.Header.ofSize? l.mode width height
    if filter = 0 then some ⟨h, l, interlace != 0⟩ else none
  | _ => none

def headerData (r : Raster) : List UInt8 :=
  Bytes.big 4 r.width ++ (Bytes.big 4 r.height ++
    [8, UInt8.ofNat (colourType r.channels), 0, 0, 0])

def lastData? (name : String) (cs : List Chunk) : Option (List UInt8) :=
  (cs.reverse.find? fun c => c.name == named name).map Chunk.data

def Front.info? (f : Front) : Option Info := (lastData? "IHDR" f.chunks).bind Info.ofData?

end Letterhead.Png
