import Letterhead.Number.Numeral
import Letterhead.Text.Quoted

/-!
Faults of pictures: why a library of pictures does not do what it is asked for. Two families of them
are told apart from all others, since whoever asks for a logo takes them for an answer.
-/

namespace Letterhead.Picture

/-- What goes wrong with a picture: a file or a stream cannot be read; a value makes no sense; more
points are announced than may be drawn; a part of a file has no name; or anything else. -/
inductive Fault where
  | unreadable
  | invalid
  | tooLarge (pixels : Nat)
  | broken (part : List UInt8)
  | other (kind : Text)
deriving DecidableEq, Repr

def pixelLimit : Nat := 178956970

namespace Fault

def isQuiet : Fault → Bool
  | unreadable | invalid => true
  | _ => false

def message : Fault → Option Text
  | tooLarge pixels =>
    some ("Image size (".toList ++ natText pixels ++ " pixels) exceeds limit of ".toList ++
      natText pixelLimit ++ " pixels, could be decompression bomb DOS attack.".toList)
  | broken part => some ("broken PNG file (chunk ".toList ++ Text.quotedBytes part ++ [')'])
  | _ => none

end Fault
end Letterhead.Picture
