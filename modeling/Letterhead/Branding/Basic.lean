import Letterhead.Branding.Colour
import Letterhead.Branding.Font

/-!
Branding of a document, and patches of it. A patch gives values to some settings; applying it
replaces these and keeps the others. Settings of header and footer are replaced one by one.
-/

namespace Letterhead

structure HeaderSettings where
  enabled : Bool := true
  content : Text := []
deriving DecidableEq, Repr

structure FooterSettings where
  enabled : Bool := true
  content : Text := []
  pageNumber : Bool := true
deriving DecidableEq, Repr

structure Branding where
  enabled : Bool := false
  logo : Text := []
  organization : Text := []
  primary : Colour := .ofText Colour.defaultText
  font : Text := Font.defaultFamily
  header : HeaderSettings := {}
  footer : FooterSettings := {}
deriving DecidableEq, Repr

structure HeaderPatch where
  enabled : Option Bool := none
  content : Option Text := none
deriving DecidableEq, Repr

structure FooterPatch where
  enabled : Option Bool := none
  content : Option Text := none
  pageNumber : Option Bool := none
deriving DecidableEq, Repr

structure BrandingPatch where
  enabled : Option Bool := none
  logo : Option Text := none
  organization : Option Text := none
  primary : Option Colour := none
  font : Option Text := none
  header : Option HeaderPatch := none
  footer : Option FooterPatch := none
deriving DecidableEq, Repr

namespace HeaderPatch

def apply (p : HeaderPatch) (s : HeaderSettings) : HeaderSettings where
  enabled := p.enabled.getD s.enabled
  content := p.content.getD s.content

end HeaderPatch

namespace FooterPatch

def apply (p : FooterPatch) (s : FooterSettings) : FooterSettings where
  enabled := p.enabled.getD s.enabled
  content := p.content.getD s.content
  pageNumber := p.pageNumber.getD s.pageNumber

end FooterPatch

namespace BrandingPatch

def apply (p : BrandingPatch) (b : Branding) : Branding where
  enabled := p.enabled.getD b.enabled
  logo := p.logo.getD b.logo
  organization := p.organization.getD b.organization
  primary := p.primary.getD b.primary
  font := p.font.getD b.font
  header := (p.header.getD {}).apply b.header
  footer := (p.footer.getD {}).apply b.footer

end BrandingPatch

namespace Branding

def primaryDigits (b : Branding) : Text := b.primary.text.drop 1

end Branding
end Letterhead
