import Letterhead.Failure

/-!
Kinds of pictures, told by the bytes that they start with.
-/

namespace Letterhead.Logo

/-- A mark of a kind of pictures: where it stands, its bytes, and the ending of file names. -/
structure Mark where
  offset : Nat
  bytes : List Nat
  ending : String

def marks : List Mark := [
  ⟨0, [0x89, 0x50, 0x4E, 0x47, 0x0D, 0x0A, 0x1A, 0x0A], "png"⟩,
  ⟨6, [0x4A, 0x46, 0x49, 0x46], "jpg"⟩,
  ⟨6, [0x45, 0x78, 0x69, 0x66], "jpg"⟩,
  ⟨0, [0x47, 0x49, 0x46, 0x38, 0x37, 0x61], "gif"⟩,
  ⟨0, [0x47, 0x49, 0x46, 0x38, 0x39, 0x61], "gif"⟩,
  ⟨0, [0x4D, 0x4D, 0x00, 0x2A], "tiff"⟩,
  ⟨0, [0x49, 0x49, 0x2A, 0x00], "tiff"⟩,
  ⟨0, [0x42, 0x4D], "bmp"⟩]

def Mark.isIn (m : Mark) (b : ByteArray) : Bool :=
  ((b.extract m.offset (m.offset + m.bytes.length)).toList.map UInt8.toNat) == m.bytes

def fileName (b : ByteArray) : Except Failure Text :=
  match marks.find? fun m => m.isIn b with
  | some m => .ok ("image.".toList ++ m.ending.toList)
  | none => .error .unrecognizedPicture

end Letterhead.Logo
