import Letterhead.Content.Block
import Letterhead.Content.Inline
import Letterhead.Word.Element

/-!
Content blocks as elements of a Word document. Code and diagrams are cells of one column; the rows
of a table are filled up to the widest one.
-/

namespace Letterhead.Word

def codeFill : Text := "F5F5F5".toList

def codeFont : Text := "Courier New".toList

def white : Text := "FFFFFF".toList

def textWidth : Nat := 8640

structure Theme where
  font : Text
  primary : Text
deriving DecidableEq, Repr

def bodyRun (font : Text) (r : Run) : Content :=
  .run { font := some font, bold := some r.bold, size := some 24 } r.text

def headRun (font : Text) (r : Run) : Content :=
  .run { font := some font, bold := some true, colour := some white, size := some 24 } r.text

def bodyRuns (th : Theme) (t : Text) : List Content := (Inline.runs t).map (bodyRun th.font)

def spacer (after : Nat) : Element := .paragraph { spacing := some { after := some after } }

def items (th : Theme) (style : String) (ts : List Text) : List Element :=
  ts.map fun t => .paragraph { style := some style, content := bodyRuns th t }

def codeLine (size : Nat) (line : Text) : Paragraph where
  spacing := some { after := some 0, before := some 0, line := some 240 }
  content :=
    [.run { font := some codeFont, size := some size } (if line.isEmpty then [' '] else line)]

def cellParagraphs (ps : List Paragraph) : List Paragraph := if ps.isEmpty then [{}] else ps

def verbatim (size : Nat) (lines : List Text) : List Element :=
  [.table
    { centered := true
      widths := [textWidth]
      rows := [{ cells := [
        { width := textWidth
          fill := some codeFill
          padded := true
          paragraphs := cellParagraphs (lines.map (codeLine size)) }] }] },
    spacer 80]

def cell (th : Theme) (width : Nat) (head : Bool) (t : Text) : Cell where
  width := width
  fill := if head then some th.primary else none
  paragraphs := [{
    alignment := some .left
    content := (Inline.runs t).map (if head then headRun th.font else bodyRun th.font) }]

def fillUp (columns : Nat) (row : List Text) : List Text :=
  row ++ List.replicate (columns - row.length) []

def columns (rows : List (List Text)) : Nat := rows.foldl (fun n r => max n r.length) 0

def row (th : Theme) (width count : Nat) (head : Bool) (ts : List Text) : Row where
  head := head
  cells := (fillUp count ts).map (cell th width head)

def table (th : Theme) (first : List Text) (rest : List (List Text)) : List Element :=
  let count := columns (first :: rest)
  let width := textWidth / count
  [.table
    { widths := List.replicate count width
      rows := row th width count true first :: rest.map (row th width count false) },
    spacer 80]

def headingStyle (level : Nat) : String := "Heading" ++ numeral level

def heading (level : Nat) (t : Text) : Element :=
  .paragraph
    { style := some (headingStyle level)
      content := if t.isEmpty then [] else [.run {} t] }

def ofBlock (th : Theme) : Block → List Element
  | .heading level t => [heading (Block.clampLevel level) (Inline.shown t)]
  | .paragraph ls =>
    ls.map fun l => .paragraph { spacing := some { after := some 200 }, content := bodyRuns th l }
  | .bullets ts => items th "ListBullet" ts
  | .numbered ts => items th "ListNumber" ts
  | .code t => verbatim 20 (t.splitOn '\n')
  | .diagram ls => verbatim 18 ls
  | .table [] => []
  | .table (first :: rest) => table th first rest

end Letterhead.Word
