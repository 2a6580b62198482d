import Letterhead.Text.Basic

/-!
Content blocks, the parts that a document is laid out from. Renderers take blocks in order; the text
inside a block still carries its inline marks.
-/

namespace Letterhead

inductive Block where
  | heading (level : Int) (text : Text)
  | paragraph (lines : List Text)
  | bullets (items : List Text)
  | numbered (items : List Text)
  | code (text : Text)
  | table (rows : List (List Text))
  | diagram (lines : List Text)
deriving DecidableEq, Repr

namespace Block

def clampLevel (level : Int) : Nat := (min (max level 1) 3).toNat

theorem clampLevel_mem (level : Int) : 1 ≤ clampLevel level ∧ clampLevel level ≤ 3 := by
  unfold clampLevel
  omega

end Block
end Letterhead
