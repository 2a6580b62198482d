import Letterhead.Picture.Png.Writer
import Letterhead.Picture.Read
import Letterhead.Picture.Resize

/-!
Libraries of pictures. A library opens a file, which takes no more than its start, and loads, changes
and saves the picture that it has opened. Logos are made with any library; the one that is here knows
four kinds of files.
-/

namespace Letterhead

/-- A picture that a library has opened: its size, and its channels unless its points are stored in
another way. The content is what the library keeps of it. -/
structure Image where
  channels : Option Channels
  width : Nat
  height : Nat
  content : ByteArray

/-- A library of pictures. Converting gives the points red, green, blue and alpha. -/
structure Imaging where
  identify : ByteArray → Except Picture.Fault Image
  load : Image → Except Picture.Fault Image
  convert : Image → Except Picture.Fault Image
  resize : Image → Nat → Nat → Except Picture.Fault Image
  save : Image → Except Picture.Fault ByteArray

namespace Imaging

def opened (g : Imaging) (b : ByteArray) : Except Picture.Fault Image := g.identify b >>= g.load

def redrawn (g : Imaging) (i : Image) (width height : Nat) : Except Picture.Fault ByteArray := do
  let j ← (if i.channels.isSome then .ok i else g.convert i)
  let k ← (if width = i.width && height = i.height then .ok j else g.resize j width height)
  g.save k

end Imaging

def Picture.Mode.channels? : Mode → Option Channels
  | gray => some .gray
  | grayAlpha => some .grayAlpha
  | colour => some .colour
  | colourAlpha => some .colourAlpha
  | bilevel | deepGray | indexed | inks => none

namespace Image

def size (i : Image) : Nat × Nat := (i.width, i.height)

def ofRaster (r : Raster) : Image := ⟨some r.channels, r.width, r.height, r.samples⟩

def raster? (i : Image) : Option Raster := i.channels.map fun c => ⟨c, i.width, i.height, i.content⟩

end Image

namespace Imaging.Plain

def identify (b : ByteArray) : Except Picture.Fault Image :=
  (Picture.readHeader b).map fun h => ⟨h.mode.channels?, h.width, h.height, b⟩

/-- Loads the points that a raster can hold; a picture with other ones keeps its file. -/
def load (i : Image) : Except Picture.Fault Image :=
  (Picture.read i.content).map fun p =>
    ⟨p.header.mode.channels?, p.header.width, p.header.height,
      if p.header.mode.channels?.isSome then p.samples else i.content⟩

def convert (i : Image) : Except Picture.Fault Image :=
  (Picture.read i.content).map fun p =>
    { Image.ofRaster p.raster with width := i.width, height := i.height }

def resize (i : Image) (width height : Nat) : Except Picture.Fault Image :=
  match i.raster? with
  | some r => .ok (.ofRaster (r.resize width height))
  | none => .error .invalid

def save (i : Image) : Except Picture.Fault ByteArray :=
  match i.raster? with
  | some r => .ok (Png.write r)
  | none => .error .invalid

end Imaging.Plain

def Imaging.plain : Imaging where
  identify := Plain.identify
  load := Plain.load
  convert := Plain.convert
  resize := Plain.resize
  save := Plain.save

end Letterhead
