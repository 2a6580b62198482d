import Letterhead.Calendar.Instant
import Letterhead.Text.Letter

/-!
File names of generated documents: the start of the thread, the title reduced to letters and digits,
and the moment in milliseconds.
-/

namespace Letterhead.Filename

def titleLimit : Nat := 50

def threadLimit : Nat := 8

/-- Digits and the letters a to z, in any case. -/
def isKept (c : Char) : Bool :=
  let l := (foldLetter c).toNat
  (97 ≤ l && l ≤ 122) || c.isDigit

def slug (title : Text) : Text :=
  Text.lower ((title.map fun c => if isKept c then c else '_').take titleLimit)

def threadPart : Option Text → Text
  | none => []
  | some thread => if thread.isEmpty then [] else thread.take threadLimit ++ ['_']

def make (title format : Text) (thread : Option Text) (now : Instant) : Text :=
  threadPart thread ++ slug title ++ '_' :: intText now.millis ++ '.' :: format

end Letterhead.Filename
