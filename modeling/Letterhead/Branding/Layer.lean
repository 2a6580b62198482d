import Letterhead.Branding.Patch
import Letterhead.Failure

/-!
Layers of branding. Layers are laid one over the other, and each replaces the settings that it
gives. A layer written as JSON gives no setting by a null. The outcome is read like a branding that
was written, so that every setting of it has passed its own reader.
-/

namespace Letterhead

namespace Json

mutual

def dropNulls : Json → Json
  | object fields => object (dropNullFields fields)
  | v => v

def dropNullFields : List (Text × Json) → List (Text × Json)
  | [] => []
  | f :: rest => dropNullField f ++ dropNullFields rest

def dropNullField : Text × Json → List (Text × Json)
  | (_, null) => []
  | (name, v) => [(name, dropNulls v)]

end

end Json

/-- A layer of branding: none, a value as it was written, or a patch that was read before. -/
inductive BrandingLayer where
  | empty
  | raw (value : Json)
  | patch (p : BrandingPatch)
deriving Repr

namespace BrandingLayer

def toPatch : BrandingLayer → Except Failure BrandingPatch
  | empty => .ok {}
  | patch p => .ok p
  | raw .null => .ok {}
  | raw (.object fields) =>
    match BrandingPatch.read (Json.dropNulls (.object fields)) with
    | .ok p => .ok p
    | .faulty fs => .error (.faulty fs)
  | raw _ => .error .notAnObject

end BrandingLayer

namespace Branding

def overlay (b : Branding) (layers : List BrandingLayer) : Except Failure Branding :=
  layers.foldlM (fun b l => l.toPatch.map fun p => p.apply b) b

def reread (b : Branding) : Except Failure Branding :=
  match read b.toJson with
  | .ok c => .ok c
  | .faulty fs => .error (.faulty fs)

/-- Layers laid over the default branding; what they give is read again. -/
def merge (layers : List BrandingLayer) : Except Failure Branding := overlay {} layers >>= reread

theorem overlay_append (b : Branding) (xs ys : List BrandingLayer) :
    overlay b (xs ++ ys) = overlay b xs >>= fun c => overlay c ys := by
  simp [overlay, List.foldlM_append]

end Branding
end Letterhead
