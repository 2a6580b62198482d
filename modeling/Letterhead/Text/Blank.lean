import Letterhead.Text.Basic

/-!
Blank characters and trimming. The blanks are the white space of Unicode together with the four
information separators; the zero width space and the byte order mark are none.
-/

namespace Letterhead

/-- Blank characters: tab to carriage return, the information separators, the space, and the
wider spaces and line separators of Unicode. -/
def isBlank (c : Char) : Bool :=
  let n := c.toNat
  (9 ≤ n && n ≤ 13) || (28 ≤ n && n ≤ 32) || n == 0x85 || n == 0xA0 || n == 0x1680 ||
    (0x2000 ≤ n && n ≤ 0x200A) || n == 0x2028 || n == 0x2029 || n == 0x202F || n == 0x205F ||
    n == 0x3000

namespace Text

def trimLeft (t : Text) : Text := t.dropWhile isBlank

def trimRight (t : Text) : Text :=
  t.foldr (fun c rest => if rest.isEmpty && isBlank c then [] else c :: rest) []

def trim (t : Text) : Text := t.trimLeft.trimRight

@[simp] theorem trimLeft_nil : trimLeft [] = [] := rfl

@[simp] theorem trimRight_nil : trimRight [] = [] := rfl

theorem trimRight_cons (c : Char) (t : Text) :
    trimRight (c :: t) = if (trimRight t).isEmpty && isBlank c then [] else c :: trimRight t := rfl

@[simp] theorem trim_nil : trim [] = [] := rfl

end Text
end Letterhead
