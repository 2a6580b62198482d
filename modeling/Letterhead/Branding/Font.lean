import Letterhead.Text.Blank
import Letterhead.Text.Letter

/-!
Font families. A family is looked up by the first name of its list; printing knows three base
families, word processors find installed fonts by name.
-/

namespace Letterhead.Font

def defaultFamily : Text := "Calibri".toList

def isQuote (c : Char) : Bool := c == '\'' || c == '"'

def firstName (family : Text) : Text :=
  let name := Text.trim (Text.cutAt ',' family).1
  Text.trim ((name.dropWhile isQuote).reverse.dropWhile isQuote).reverse

inductive Base where
  | sans
  | serif
  | mono
deriving DecidableEq, Repr

namespace Base

def name : Base → String
  | sans => "Helvetica"
  | serif => "Times-Roman"
  | mono => "Courier"

def stack : Base → String
  | sans => "Helvetica, Arial, 'Liberation Sans', sans-serif"
  | serif => "'Times New Roman', Times, 'Liberation Serif', serif"
  | mono => "'Courier New', Courier, 'Liberation Mono', monospace"

end Base

/-- Families that are printed in serif or monospaced type; all others are printed without serifs. -/
def bases : List (String × Base) :=
  [("times new roman", .serif), ("times", .serif), ("courier", .mono), ("courier new", .mono),
    ("georgia", .serif)]

def base (family : Text) : Base :=
  (bases.lookup (String.ofList (Text.lower (firstName family)))).getD .sans

def installed : List (String × String) :=
  [("calibri", "Calibri"), ("arial", "Arial"), ("times new roman", "Times New Roman"),
    ("times", "Times New Roman"), ("courier", "Courier New"), ("courier new", "Courier New"),
    ("georgia", "Georgia"), ("verdana", "Verdana"), ("tahoma", "Tahoma"),
    ("trebuchet ms", "Trebuchet MS"), ("trebuchet", "Trebuchet MS"), ("segoe ui", "Segoe UI"),
    ("segoe", "Segoe UI")]

def wordName (family : Text) : Text :=
  let name := firstName family
  match installed.lookup (String.ofList (Text.lower name)) with
  | some known => known.toList
  | none => if name.isEmpty then defaultFamily else name

end Letterhead.Font
