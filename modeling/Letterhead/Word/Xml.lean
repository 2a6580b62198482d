import Letterhead.Text.Basic

/-!
XML as a tree. An element without content is written as one tag.
-/

namespace Letterhead

inductive Xml where
  | element (name : String) (attributes : List (String × Text)) (content : List Xml)
  | text (t : Text)
deriving Repr

namespace Xml

def escapeText (c : Char) : Text :=
  if c = '&' then "&amp;".toList
  else if c = '<' then "&lt;".toList
  else if c = '>' then "&gt;".toList
  else [c]

def escapeValue (c : Char) : Text := if c = '"' then "&quot;".toList else escapeText c

def writeAttribute (a : String × Text) : Text :=
  ' ' :: a.1.toList ++ '=' :: '"' :: a.2.flatMap escapeValue ++ ['"']

mutual

def write : Xml → Text
  | text t => t.flatMap escapeText
  | element name attributes [] =>
    '<' :: name.toList ++ attributes.flatMap writeAttribute ++ "/>".toList
  | element name attributes (c :: rest) =>
    '<' :: name.toList ++ attributes.flatMap writeAttribute ++ '>' ::
      (write c ++ writeAll rest) ++ '<' :: '/' :: name.toList ++ ['>']

def writeAll : List Xml → Text
  | [] => []
  | c :: rest => write c ++ writeAll rest

end

def leaf (name : String) (attributes : List (String × String)) : Xml :=
  element name (attributes.map fun a => (a.1, a.2.toList)) []

def value (name : String) (t : Text) : Xml := element name [("w:val", t)] []

def group (name : String) (content : List Xml) : Xml := element name [] content

end Xml
end Letterhead
