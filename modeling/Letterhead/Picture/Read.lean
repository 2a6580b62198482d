import Letterhead.Picture.Bmp.Reader
import Letterhead.Picture.Gif
import Letterhead.Picture.Jpeg.Reader
import Letterhead.Picture.Png.Reader

/-!
Reading pictures of all kinds: the first bytes tell the kind.
-/

namespace Letterhead.Picture

inductive Kind where
  | png
  | gif
  | bmp
  | jpeg
deriving DecidableEq, Repr

def kind? (bs : List UInt8) : Option Kind :=
  if Png.signature.isPrefixOf bs then some .png
  else if Gif.signatures.any fun s => s.isPrefixOf bs then some .gif
  else if Bmp.signature.isPrefixOf bs then some .bmp
  else if Jpeg.signature.isPrefixOf bs then some .jpeg
  else none

def readHeader (b : ByteArray) : Except Picture.Fault Header :=
  let bs := Bytes.toList b
  match kind? bs with
  | some .png => Png.header bs
  | some .gif => Gif.header bs
  | some .bmp => Bmp.header bs
  | some .jpeg => Jpeg.header bs
  | none => .error .unreadable

def read (b : ByteArray) : Except Picture.Fault Picture :=
  let bs := Bytes.toList b
  match kind? bs with
  | some .png => Png.read bs
  | some .gif => Gif.read bs
  | some .bmp => Bmp.read bs
  | some .jpeg => Jpeg.read bs
  | none => .error .unreadable

end Letterhead.Picture
