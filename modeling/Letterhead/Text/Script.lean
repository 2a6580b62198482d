import Letterhead.Text.Blank

/-!
Scripts: text in which half of a character may stand alone, where the other half of a pair is missing.
Such a script has no bytes in UTF-8.
-/

namespace Letterhead

/-- A sign of a script: a character, or the half of one. -/
inductive Sign where
  | char (c : Char)
  | half (n : Fin 2048)
deriving DecidableEq, Repr

abbrev Script := List Sign

def Sign.isBlank : Sign → Bool
  | char c => Letterhead.isBlank c
  | half _ => false

def Sign.char? : Sign → Option Char
  | char c => some c
  | half _ => none

namespace Script

def ofText (t : Text) : Script := t.map .char

def text? (s : Script) : Option Text := s.mapM Sign.char?

def trim (s : Script) : Script :=
  ((s.dropWhile Sign.isBlank).reverse.dropWhile Sign.isBlank).reverse

def startsWith (s : Script) (start : String) : Bool := (ofText start.toList).isPrefixOf s

def after (c : Char) (s : Script) : Script := (s.dropWhile (· != .char c)).drop 1

end Script
end Letterhead
