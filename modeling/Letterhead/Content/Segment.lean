import Letterhead.Content.Block
import Letterhead.Content.Line

/-!
Segmentation: one pass over the lines of a text that gives its content blocks in order. Between two
lines at most one block is open, and inside a fence none is. A diagram goes before a table, a table
before headings, lists and paragraphs; fenced lines are taken as they are.
-/

namespace Letterhead

/-- The block that the next line may continue. Lines, items and rows are held last one first; a
diagram counts the blank lines that follow its last drawn line. -/
inductive OpenBlock where
  | none
  | paragraph (lines : List Text)
  | bullets (items : List Text)
  | numbered (items : List Text)
  | table (rows : List (List Text))
  | diagram (lines : List Text) (blanks : Nat)
deriving DecidableEq, Repr

def OpenBlock.close : OpenBlock → List Block
  | none => []
  | paragraph ls => [.paragraph ls.reverse]
  | bullets is => [.bullets is.reverse]
  | numbered is => [.numbered is.reverse]
  | table rows => [.table rows.reverse]
  | diagram ls _ => [.diagram ls.reverse]

/-- What a scan knows between two lines: the finished blocks, last one first, the open block, and
the lines of an open fence, last one first. -/
structure Scan where
  done : List Block := []
  current : OpenBlock := .none
  fence : Option (List Text) := Option.none
deriving DecidableEq, Repr

namespace Scan

def start : Scan := {}

def close (s : Scan) : Scan := { s with done := s.current.close ++ s.done, current := .none }

def emit (s : Scan) (b : Block) : Scan := { s with done := b :: s.done }

def reopen (s : Scan) (b : OpenBlock) : Scan := { s.close with current := b }

def addLine (s : Scan) (line : Text) : Scan :=
  match s.current with
  | .paragraph ls => { s with current := .paragraph (line :: ls) }
  | _ => s.reopen (.paragraph [line])

def addBullet (s : Scan) (item : Text) : Scan :=
  match s.current with
  | .bullets is => { s with current := .bullets (item :: is) }
  | _ => s.reopen (.bullets [item])

def addNumbered (s : Scan) (item : Text) : Scan :=
  match s.current with
  | .numbered is => { s with current := .numbered (item :: is) }
  | _ => s.reopen (.numbered [item])

/-- Takes a line that continues neither a table nor a diagram. Markers are sought on the line as it
is written, so that a bare marker keeps its kind. -/
def begin (s : Scan) (raw : Text) : Scan :=
  let line := raw.trimRight
  if Line.isDiagram line then s.reopen (.diagram [line] 0)
  else if Line.isRow line then s.reopen (.table [Line.cells line])
  else
    match Line.heading? raw with
    | some (level, text) => s.close.emit (.heading level text.trimRight)
    | none =>
      match Line.bullet? raw with
      | some item => s.addBullet item.trimRight
      | none =>
        match Line.numbered? raw with
        | some item => s.addNumbered item.trimRight
        | none => if line.isEmpty then s.close else s.addLine line

/-- Takes a line outside a fence. A table goes on over its rows and skips separator lines; a diagram
goes on over drawn lines and keeps the indented blank lines between them. -/
def takeLine (s : Scan) (raw : Text) : Scan :=
  let line := raw.trimRight
  match s.current with
  | .table rows =>
    if Line.isSeparator line then s
    else if Line.isRow line then { s with current := .table (Line.cells line :: rows) }
    else s.close.begin raw
  | .diagram ls blanks =>
    if line.isEmpty && Line.diagramIndent ≤ Line.indent raw then
      { s with current := .diagram ls (blanks + 1) }
    else if Line.isDiagram line then
      { s with current := .diagram (line :: List.replicate blanks [] ++ ls) 0 }
    else s.close.begin raw
  | _ => s.begin raw

def codeOf (lines : List Text) : Block := .code (['\n'].intercalate lines.reverse)

def step (s : Scan) (raw : Text) : Scan :=
  if Line.isFence raw then
    match s.fence with
    | some code => { s.emit (codeOf code) with fence := none }
    | none => { s.close with fence := some [] }
  else
    match s.fence with
    | some code => { s with fence := some (raw :: code) }
    | none => s.takeLine raw

/-- The line opens a table: outside a fence, a row that continues no table and is not drawn. -/
def opensTable (s : Scan) (raw : Text) : Bool :=
  let isTable :=
    match s.current with
    | .table _ => true
    | _ => false
  s.fence.isNone && !isTable && !Line.isFence raw && !Line.isDiagram raw.trimRight &&
    Line.isRow raw.trimRight

/-- Takes lines in order. A separator line right after the first row of a table goes with it. -/
def run : Scan → List Text → Scan
  | s, [] => s
  | s, [l] => s.step l
  | s, l :: next :: rest =>
    if s.opensTable l && Line.isSeparator next then run (s.step l) rest
    else run (s.step l) (next :: rest)

def finish (s : Scan) : List Block :=
  let s :=
    match s.fence with
    | some code => s.emit (codeOf code)
    | none => s
  s.close.done.reverse

end Scan

def segment (t : Text) : List Block := (Scan.start.run t.lines).finish

end Letterhead
