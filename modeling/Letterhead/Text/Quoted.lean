import Letterhead.Text.Digit
import Letterhead.Text.Printable

/-!
Text between quotes, as it stands in messages and inside the text of a list. The quotes are single
unless the text holds single quotes and no double one.
-/

namespace Letterhead.Text

def quoteChar (q c : Char) : Text :=
  if c == q || c == '\\' then ['\\', c]
  else if c == '\t' then ['\\', 't']
  else if c == '\n' then ['\\', 'n']
  else if c == '\r' then ['\\', 'r']
  else if isPrintable c then [c]
  else if c.toNat < 0x100 then '\\' :: 'x' :: hex 2 c.toNat
  else if c.toNat < 0x10000 then '\\' :: 'u' :: hex 4 c.toNat
  else '\\' :: 'U' :: hex 8 c.toNat

def quoted (t : Text) : Text :=
  let q := if t.contains '\'' && !t.contains '"' then '"' else '\''
  q :: t.flatMap (quoteChar q) ++ [q]

def quotedBytes (bs : List UInt8) : Text :=
  let t := bs.map fun b => Char.ofNat b.toNat
  let q := if t.contains '\'' && !t.contains '"' then '"' else '\''
  let quoted c := if c.toNat < 127 then quoteChar q c else '\\' :: 'x' :: hex 2 c.toNat
  'b' :: q :: t.flatMap quoted ++ [q]

end Letterhead.Text
