import Letterhead.Proofs.Content.Scan

/-! Segmentation with trays. Text, tables and diagrams are gathered in a tray each, and marks beside the
trays tell which of them is in use. Nothing in the data keeps two trays from being full, or a mark from
being set over an empty one. -/
namespace Letterhead
open Line Text

inductive ItemKind where
  | paragraph
  | bullet
  | numbered
deriving DecidableEq, Repr

def ItemKind.block : ItemKind → List Text → Block
  | paragraph => .paragraph
  | bullet => .bullets
  | numbered => .numbered

inductive Tray where
  | text
  | table
  | diagram
deriving DecidableEq, Repr

structure Trays where
  blocks : List Block := []
  kind : Option ItemKind := none
  items : List Text := []
  inTable : Bool := false
  rows : List (List Text) := []
  inDiagram : Bool := false
  drawn : List Text := []
  gaps : List Text := []
  inCode : Bool := false
  code : List Text := []
deriving DecidableEq, Repr

namespace Trays

def flush (s : Trays) : Tray → Trays
  | .text =>
    let block :=
      match s.kind with
      | some k => if s.items.isEmpty then [] else [k.block s.items]
      | none => []
    { s with blocks := s.blocks ++ block, kind := none, items := [] }
  | .table =>
    let block := if s.inTable && !s.rows.isEmpty then [.table s.rows] else []
    { s with blocks := s.blocks ++ block, inTable := false, rows := [] }
  | .diagram =>
    let block := if s.inDiagram && !s.drawn.isEmpty then [.diagram s.drawn] else []
    { s with blocks := s.blocks ++ block, inDiagram := false, drawn := [], gaps := [] }

def flushAll (order : List Tray) (s : Trays) : Trays := order.foldl flush s

def append (s : Trays) (k : ItemKind) (item : Text) : Trays :=
  let s := if s.kind = some k then s else { s.flush .text with kind := some k }
  { s with items := s.items ++ [item] }

def emit (s : Trays) (b : Block) : Trays := { s with blocks := s.blocks ++ [b] }

def begin (s : Trays) (raw : Text) : Trays :=
  match Line.kind raw with
  | .drawn l => { s.flush .text with inDiagram := true, drawn := [l] }
  | .row cs => { s.flush .text with inTable := true, rows := [cs] }
  | .heading k t => (s.flush .text).emit (.heading k t)
  | .bullet i => s.append .bullet i
  | .numbered i => s.append .numbered i
  | .plain l => s.append .paragraph l
  | .blank => s.flush .text

def takeDrawn (s : Trays) (raw : Text) : Trays :=
  let line := raw.trimRight
  if s.inDiagram then
    if line.isEmpty && diagramIndent ≤ indent raw then { s with gaps := s.gaps ++ [[]] }
    else if isDiagram line then { s with drawn := s.drawn ++ s.gaps ++ [line], gaps := [] }
    else (s.flush .diagram).begin raw
  else s.begin raw

def takeLine (s : Trays) (raw : Text) : Trays :=
  let line := raw.trimRight
  if s.inTable then
    if isSeparator line then s
    else if isRow line then { s with rows := s.rows ++ [cells line] }
    else (s.flush .table).takeDrawn raw
  else s.takeDrawn raw

def closeFence (s : Trays) : Trays :=
  { s.emit (.code (unlines s.code)) with inCode := false, code := [] }

section Order
variable (order : List Tray)

/-- Takes one line. At a fence the trays are emptied in the given order. -/
def step (s : Trays) (raw : Text) : Trays :=
  if isFence raw then
    if s.inCode then s.closeFence else { s.flushAll order with inCode := true }
  else if s.inCode then { s with code := s.code ++ [raw] }
  else s.takeLine raw

/-- The trays before each line that is read, and after the last one. A separator line right after the
first row of a table is passed over. -/
def through : Trays → List Text → List Trays
  | s, [] => [s]
  | s, [l] => [s, s.step order l]
  | s, l :: next :: rest =>
    if !s.inTable && (s.step order l).inTable && isSeparator next then
      s :: through (s.step order l) rest
    else s :: through (s.step order l) (next :: rest)

def finish (s : Trays) : List Block :=
  ((if s.inCode then s.closeFence else s).flushAll order).blocks

def gather (t : Text) : List Block := (((through order {} t.lines).getLastD {}).finish order)

end Order

def isFull (s : Trays) : Tray → Bool
  | .text => !s.items.isEmpty
  | .table => !s.rows.isEmpty
  | .diagram => !s.drawn.isEmpty

def isMarked (s : Trays) : Tray → Bool
  | .text => s.kind.isSome
  | .table => s.inTable
  | .diagram => s.inDiagram

/-- At most one tray is full, the marks tell which one, gaps stand in diagrams only, and in a fence nothing
is held back. -/
structure IsTidy (s : Trays) : Prop where
  one : ∀ a b, s.isFull a = true → s.isFull b = true → a = b
  marked : ∀ tray, s.isFull tray = s.isMarked tray
  gaps : s.gaps ≠ [] → s.inDiagram = true
  code : s.inCode = true → (∀ tray, s.isFull tray = false) ∧ s.gaps = []

end Trays
end Letterhead
