import Letterhead.Logo.Basic
import Letterhead.Logo.Fit
import Letterhead.Logo.Source
import Letterhead.Picture.Imaging

/-!
Making a logo of a source: a library opens its picture, shrinks it into a box and saves it anew. What
cannot be read gives no logo.
-/

namespace Letterhead.Logo

structure Box where
  width : Int
  height : Int
deriving DecidableEq, Repr

def Box.usual : Box := ⟨200, 80⟩

def Box.header : Box := ⟨150, 50⟩

def ofLibrary {α : Type} (x : Except Picture.Fault α) : Except Failure α := x.mapError .picture

def ofImage (g : Imaging) (box : Box) (i : Image) : Except Failure (Option Logo) :=
  if i.width = 0 || i.height = 0 then .ok none
  else do
    let (w, h) ← fit i.width i.height box.width box.height
    let b ← ofLibrary (g.redrawn i w.toNat h.toNat)
    return some { bytes := b, width := w, height := h }

/-- Failures that only mean that there is no logo. -/
def isQuiet : Failure → Bool
  | .picture f => f.isQuiet
  | _ => false

def process (g : Imaging) (w : Surroundings) (s : Source) (box : Box) :
    Except Failure (Option Logo) :=
  match s.bytes? w with
  | none => .ok none
  | some b =>
    match ofLibrary (g.opened b) >>= ofImage g box with
    | .ok r => .ok r
    | .error e => if isQuiet e then .ok none else .error e

end Letterhead.Logo
