import Letterhead.Coding.Stored
import Letterhead.Picture.Png.Header

/-!
Writing a raster as a PNG file: a header, the lines as they are, and the end.
-/

namespace Letterhead.Png

def plainLines (r : Raster) : ByteArray :=
  let size := r.width * r.channels.count
  (List.range r.height).foldl (fun out i =>
    (out.push 0).append (r.samples.extract (i * size) ((i + 1) * size))) .empty

def chunks (r : Raster) : List Chunk := [
  ⟨named "IHDR", headerData r⟩,
  ⟨named "IDAT", Stored.write (plainLines r)⟩,
  ⟨named "IEND", []⟩]

def write (r : Raster) : ByteArray :=
  Bytes.ofList (signature ++ (chunks r).flatMap Chunk.write)

end Letterhead.Png
