import Letterhead.Document.Author
import Letterhead.Failure
import Letterhead.Logo.Kind
import Letterhead.Word.Running
import Letterhead.Word.Style

/-!
Word documents: styles, properties, header, footer and body. A document fails on text that XML
cannot hold, on a property that is too long, and on a logo that is no picture; its parts are written
in order, and the first failure counts.
-/

namespace Letterhead.Word

def isAllowed (c : Char) : Bool :=
  let n := c.toNat
  (32 ≤ n || isBreak c) && n != 0xFFFE && n != 0xFFFF

def checkText (t : Text) : Except Failure Unit :=
  if t.all isAllowed then .ok () else .error .forbiddenCharacter

def checkProperty (t : Text) : Except Failure Unit :=
  if Failure.propertyLimit < t.length then .error (.longProperty t) else checkText t

def Content.text : Content → Text
  | run _ t => t
  | _ => []

def checkParagraph (p : Paragraph) : Except Failure Unit :=
  p.content.forM fun c => checkText c.text

structure Properties where
  title : Text
  author : Text
  subject : Text
  keywords : Text
  comments : Text
deriving DecidableEq, Repr

def properties (title : Text) (b : Branding) (m : Metadata) : Properties where
  title := title
  author := m.authorFor b
  subject := m.subjectText
  keywords := m.keywordText
  comments := m.description.getD []

def Properties.all (p : Properties) : List Text :=
  [p.title, p.author, p.subject, p.keywords, p.comments]

def titleElements (th : Theme) (title : Text) : List Element :=
  [.paragraph
    { border := some ⟨.bottom, th.primary, 16, 8⟩
      spacing := some { after := some 400 }
      alignment := some .center
      content := [.run
        { font := some th.font, bold := some true, colour := some th.primary, size := some 48 }
        title] },
    spacer 400]

def contentsInstruction : Text := "TOC \\o \"1-3\" \\h \\z \\u".toList

def contentsElements (th : Theme) : List Element :=
  [.paragraph { content := [.run
      { font := some th.font, bold := some true, colour := some th.primary, size := some 32 }
      "Table of Contents".toList] },
    .paragraph { content := [.field contentsInstruction { colour := some gray, size := some 24 }
      "Right-click to update table of contents.".toList] },
    spacer 400]

structure Document where
  styles : List (Text × Xml)
  properties : Properties
  header : Option Paragraph
  footer : Option (List Paragraph)
  body : List Element
deriving Repr

def logoPart (b : Branding) (l : Option Logo) : Except Failure (List Content) :=
  match l with
  | some l =>
    if b.enabled then (Logo.fileName l.bytes).map fun name => logoContent name l else .ok []
  | none => .ok []

def headerPart (b : Branding) (l : Option Logo) (now : Instant) :
    Except Failure (Option Paragraph) := do
  if b.header.enabled then
    let p := header b (← logoPart b l) now
    checkParagraph p
    return some p
  else return none

def footerPart (b : Branding) (now : Instant) : Except Failure (Option (List Paragraph)) := do
  if b.footer.enabled then
    let ps := footer b now
    ps.forM checkParagraph
    return some ps
  else return none

def body (th : Theme) (title : Text) (contents : Bool) (blocks : List Block) : List Element :=
  titleElements th title ++ (if contents then contentsElements th else []) ++
    blocks.flatMap (ofBlock th)

def themeOf (b : Branding) : Theme := ⟨Font.wordName b.font, primaryOf b⟩

def document (blocks : List Block) (b : Branding) (title : Text) (m : Option Metadata)
    (l : Option Logo) (now : Instant) : Except Failure Document := do
  let th := themeOf b
  let m := m.getD {}
  checkText th.font
  let ps := properties title b m
  ps.all.forM checkProperty
  let head ← headerPart b l now
  let foot ← footerPart b now
  let elements := body th title m.contents blocks
  elements.forM fun e => e.paragraphs.forM checkParagraph
  return { styles := styles th, properties := ps, header := head, footer := foot, body := elements }

end Letterhead.Word
