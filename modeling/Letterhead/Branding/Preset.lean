import Letterhead.Branding.Layer

/-!
Presets of branding that categories name.
-/

namespace Letterhead.Preset

def sample : BrandingPatch where
  enabled := some true
  organization := some "Sample Organization".toList
  primary := some ⟨0x2c, 0x52, 0x82⟩
  font := some "Segoe UI".toList
  header := some
    { enabled := some true
      content := some "\x7b\x7borganization\x7d\x7d Policy Library".toList }
  footer := some
    { enabled := some true
      content := some
        "\x7b\x7borganization\x7d\x7d · Confidential · \x7b\x7bdate\x7d\x7d".toList
      pageNumber := some true }

def all : List (String × BrandingPatch) := [("default", {}), ("sample", sample)]

def find? (name : Text) : Option BrandingPatch := all.lookup (String.ofList name)

/-- The layer of the preset of a name; an unknown name gives no layer. -/
def layer (name : Text) : BrandingLayer := (find? name).elim .empty .patch

end Letterhead.Preset
