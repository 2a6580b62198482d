import Letterhead.Branding.Basic
import Letterhead.Branding.Template
import Letterhead.Logo.Basic
import Letterhead.Word.Body

/-!
The running header and footer of a Word document. Page numbers are fields that are worked out when
the document is laid out.
-/

namespace Letterhead.Word

def gray : Text := "666666".toList

def primaryOf (b : Branding) : Text := Text.upperAscii b.primaryDigits

/-- The text of the header: its content, or else the organization. -/
def headerText (b : Branding) (now : Instant) : Text :=
  Template.fill now [("organization".toList, b.organization)]
    (if b.header.content.isEmpty then b.organization else b.header.content)

def footerText (b : Branding) (now : Instant) : Text :=
  Template.fill now [("organization".toList, b.organization)] b.footer.content

def unitsPerPixel : Int := 9525

def logoContent (name : Text) (l : Logo) : List Content :=
  [.picture name (unitsPerPixel * l.width) (unitsPerPixel * l.height),
    .run {} "    ".toList]

def header (b : Branding) (logo : List Content) (now : Instant) : Paragraph :=
  let t := headerText b now
  let content := logo ++ if t.isEmpty then [] else
    [.run { bold := some true, colour := some (primaryOf b), size := some 20 } t]
  if content.isEmpty then { style := some "Header" }
  else
    { style := some "Header"
      border := some ⟨.bottom, primaryOf b, 8, 4⟩
      spacing := some { after := some 200 }
      alignment := some (if logo.isEmpty then .center else .left)
      content := content }

def footerStyle : RunStyle := { colour := some gray, size := some 18 }

def pageLine : Paragraph where
  alignment := some .right
  content := [.run footerStyle "Page ".toList, .field "PAGE".toList footerStyle ['1'],
    .run footerStyle " of ".toList, .field "NUMPAGES".toList footerStyle ['1']]

def footer (b : Branding) (now : Instant) : List Paragraph :=
  let t := footerText b now
  { style := some "Footer"
    border := some ⟨.top, primaryOf b, 8, 4⟩
    spacing := some { before := some 200 } } ::
  (if t.isEmpty then [] else
    [{ alignment := some .center, content := [.run footerStyle t] }]) ++
  if b.footer.pageNumber then [pageLine] else []

end Letterhead.Word
