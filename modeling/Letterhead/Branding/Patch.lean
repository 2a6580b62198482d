import Letterhead.Branding.Basic
import Letterhead.Form.Reader

/-!
Patches read from JSON and written back. A setting may stand under several names; the first of them
that is there counts.
-/

namespace Letterhead

def Form.label : Reader Text
  | .null => .ok []
  | v => .ok (Text.trim v.display)

def Form.fontFamily : Reader Text := fun v =>
  let name := Text.trim v.displayTruthy
  .ok (if name.isEmpty then Font.defaultFamily else name)

def Form.colour : Reader Colour := fun v => .ok (Colour.ofJson v)

namespace HeaderPatch

def read : Reader HeaderPatch :=
  Form.record .recordType fun fields =>
    HeaderPatch.mk <$> Form.field ["enabled"] fields Form.bool
      <*> Form.field ["content"] fields Form.text

def toJson (p : HeaderPatch) : Json :=
  .object ((p.enabled.map fun b => ("enabled".toList, Json.bool b)).toList ++
    (p.content.map fun t => ("content".toList, Json.text t)).toList)

end HeaderPatch

namespace FooterPatch

def read : Reader FooterPatch :=
  Form.record .recordType fun fields =>
    FooterPatch.mk <$> Form.field ["enabled"] fields Form.bool
      <*> Form.field ["content"] fields Form.text
      <*> Form.field ["include_page_number", "includePageNumber"] fields Form.bool

def toJson (p : FooterPatch) : Json :=
  .object ((p.enabled.map fun b => ("enabled".toList, Json.bool b)).toList ++
    (p.content.map fun t => ("content".toList, Json.text t)).toList ++
    (p.pageNumber.map fun b => ("include_page_number".toList, Json.bool b)).toList)

end FooterPatch

namespace BrandingPatch

def read : Reader BrandingPatch :=
  Form.record .recordType fun fields =>
    BrandingPatch.mk <$> Form.field ["enabled"] fields Form.bool
      <*> Form.field ["logo_url", "logoUrl", "logoSource", "logo_source"] fields Form.label
      <*> Form.field ["organization_name", "organizationName"] fields Form.label
      <*> Form.field ["primary_color", "primaryColor"] fields Form.colour
      <*> Form.field ["font_family", "fontFamily"] fields Form.fontFamily
      <*> Form.field ["header"] fields HeaderPatch.read
      <*> Form.field ["footer"] fields FooterPatch.read

def toFields (p : BrandingPatch) : Named Json :=
  (p.enabled.map fun b => ("enabled".toList, Json.bool b)).toList ++
    (p.logo.map fun t => ("logo_url".toList, Json.text t)).toList ++
    (p.organization.map fun t => ("organization_name".toList, Json.text t)).toList ++
    (p.primary.map fun c => ("primary_color".toList, Json.text c.text)).toList ++
    (p.font.map fun t => ("font_family".toList, Json.text t)).toList ++
    (p.header.map fun h => ("header".toList, h.toJson)).toList ++
    (p.footer.map fun f => ("footer".toList, f.toJson)).toList

end BrandingPatch

namespace Branding

def toPatch (b : Branding) : BrandingPatch where
  enabled := some b.enabled
  logo := some b.logo
  organization := some b.organization
  primary := some b.primary
  font := some b.font
  header := some { enabled := some b.header.enabled, content := some b.header.content }
  footer := some
    { enabled := some b.footer.enabled
      content := some b.footer.content
      pageNumber := some b.footer.pageNumber }

def toJson (b : Branding) : Json := .object b.toPatch.toFields

def read : Reader Branding := fun v => (fun p => p.apply {}) <$> BrandingPatch.read v

end Branding
end Letterhead
