import Letterhead.Text.Basic

/-!
Markup as a flat list of pieces: tags, and text between them. Text is escaped when the pieces are
written and nowhere else.
-/

namespace Letterhead

/-- A piece of markup. A literal piece is written as it is. -/
inductive Piece where
  | opening (tag : String) (attributes : List (String × Text))
  | closing (tag : String)
  | void (tag : String) (attributes : List (String × Text))
  | text (t : Text)
  | literal (t : Text)
deriving DecidableEq, Repr

abbrev Markup := List Piece

namespace Markup

def reference? (c : Char) : Option Text :=
  if c = '&' then some "&amp;".toList
  else if c = '<' then some "&lt;".toList
  else if c = '>' then some "&gt;".toList
  else if c = '"' then some "&quot;".toList
  else if c = '\'' then some "&#x27;".toList
  else none

def escapeChar (c : Char) : Text := (reference? c).getD [c]

def escape (t : Text) : Text := t.flatMap escapeChar

def writeAttribute (a : String × Text) : Text :=
  ' ' :: a.1.toList ++ '=' :: '"' :: a.2 ++ ['"']

def writePiece : Piece → Text
  | .opening tag attributes => '<' :: tag.toList ++ attributes.flatMap writeAttribute ++ ['>']
  | .closing tag => '<' :: '/' :: tag.toList ++ ['>']
  | .void tag attributes => '<' :: tag.toList ++ attributes.flatMap writeAttribute ++ " />".toList
  | .text t => escape t
  | .literal t => t

def write (m : Markup) : Text := m.flatMap writePiece

def element (tag : String) (attributes : List (String × Text)) (inner : Markup) : Markup :=
  .opening tag attributes :: inner ++ [.closing tag]

def shown (m : Markup) : Text :=
  m.flatMap fun
    | .text t => t
    | _ => []

@[simp] theorem escape_nil : escape [] = [] := rfl

theorem escape_append (s t : Text) : escape (s ++ t) = escape s ++ escape t := by
  simp [escape]

@[simp] theorem write_nil : write [] = [] := rfl

theorem write_append (m n : Markup) : write (m ++ n) = write m ++ write n := by
  simp [write]

end Markup
end Letterhead
