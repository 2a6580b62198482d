import Letterhead.Content.Block
import Letterhead.Content.Inline

/-! What a document shows, entry by entry, whatever format it is laid out in. -/
namespace Letterhead

inductive Entry where
  | heading (level : Nat) (text : Text)
  | line (runs : List Run)
  | bullet (runs : List Run)
  | numbered (runs : List Run)
  | code (lines : List Text)
  | diagram (lines : List Text)
  | table (head : List (List Run)) (body : List (List (List Run)))
deriving DecidableEq, Repr

namespace Entry

def ofBlock : Block → List Entry
  | .heading level t => [.heading (Block.clampLevel level) (Inline.shown t)]
  | .paragraph ls => ls.map fun l => .line (Inline.runs l)
  | .bullets ts => ts.map fun t => .bullet (Inline.runs t)
  | .numbered ts => ts.map fun t => .numbered (Inline.runs t)
  | .code t => [.code (t.splitOn '\n')]
  | .diagram ls => [.diagram ls]
  | .table [] => []
  | .table (head :: body) =>
    [.table (head.map Inline.runs) (body.map fun row => row.map Inline.runs)]

def embolden (r : Run) : Run := { r with bold := true }

def spaced (line : Text) : Text := if line.isEmpty then [' '] else line

def widest (rows : List (List (List Run))) : Nat := (rows.map List.length).foldr max 0

def padTo (count : Nat) (row : List (List Run)) : List (List Run) :=
  row ++ List.replicate (count - row.length) []

/-- The entry as a Word document shows it. The head of a table is set in bold, its rows are as wide
as the widest one, and an empty verbatim line holds a space. -/
def inWord : Entry → Entry
  | code ls => code (ls.map spaced)
  | diagram ls => diagram (ls.map spaced)
  | table head body =>
    let count := widest (head :: body)
    table ((padTo count head).map fun cell => cell.map embolden) (body.map (padTo count))
  | e => e

end Entry

section Lists
variable {α β γ : Type}

theorem mapM_map {f : α → β} {g : β → Option γ} {h : α → γ} {xs : List α}
    (hg : ∀ x ∈ xs, g (f x) = some (h x)) : (xs.map f).mapM g = some (xs.map h) := by
  induction xs with
  | nil => rfl
  | cons x xs ih =>
    obtain ⟨hx, hxs⟩ := List.forall_mem_cons.1 hg
    rw [List.map_cons, List.mapM_cons, hx, ih hxs]
    rfl

theorem flatten_map_singleton (f : α → β) (xs : List α) :
    (xs.map fun x => [f x]).flatten = xs.map f := by
  rw [← List.flatMap_def, ← List.map_eq_flatMap]

end Lists
end Letterhead
