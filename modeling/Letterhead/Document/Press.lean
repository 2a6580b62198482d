import Letterhead.Document.Rendering
import Letterhead.Document.Settings
import Letterhead.Document.Size
import Letterhead.Content.Segment
import Letterhead.Logo.Cache
import Letterhead.Markdown
import Letterhead.Store.Location

/-!
The press: it renders requested documents under its settings, with tools that are not its own. A
document is refused, in this order, when its format is not enabled, when its branding cannot be
resolved, when it cannot be rendered, and when it is too large.
-/

namespace Letterhead

/-- What documents are made with and kept in: a printer, a library of pictures, where logos come from
and whether they can be kept, the libraries that make the bytes of a Word document and of a printed
one, or none if they fail, the brandings that are not nested too deep to be read, and the folders that
there are. -/
structure Tools where
  printer : Page.Printer := .absent
  imaging : Imaging := .plain
  surroundings : Logo.Surroundings := {}
  keepsLogos : Bool := true
  pack : Word.Document → Option Logo → Option ByteArray := fun d _ => some (Rendering.archive d)
  finish : Page.PrintJob → List (String × Text) → Nat → Option ByteArray :=
    fun j information pages => some (Rendering.printed j information pages)
  isShallow : Json → Bool := fun _ => true
  layout : Layout := {}

structure Press extends Tools where
  settings : Settings := {}
  category : BrandingLayer := .empty

def Branding.logo? (b : Branding) (t : Tools) (c : Logo.Cache) :
    Except Failure (Option Logo) × Logo.Cache :=
  if b.enabled && !b.logo.isEmpty then
    c.load t.imaging t.keepsLogos t.surroundings (.text (.ofText b.logo)) .header
  else (.ok none, c)

namespace Press

def logoFor (p : Press) (c : Logo.Cache) (b : Branding) :
    Format → Except Failure (Option Logo) × Logo.Cache
  | .md => (.ok none, c)
  | .docx | .pdf => b.logo? p.toTools c

def madeBytes : Option ByteArray → Except Failure ByteArray
  | some b => .ok b
  | none => .error .unfinished

def compose (p : Press) (now : Instant) (b : Branding) (r : Request) (l : Option Logo) :
    Except Failure Rendering :=
  match r.format with
  | .md => .ok (.ofText (Markdown.document r.title r.content b r.metadata now))
  | .docx => do
    let d ← Word.document (segment r.content) b r.title r.metadata l now
    return { bytes := ← madeBytes (p.pack d l) }
  | .pdf => do
    let job := Page.job (segment r.content) b r.title l now
    let pages ← p.printer.print job
    let information := Page.information r.title b (r.metadata.getD {})
    return { bytes := ← madeBytes (p.finish job information pages), pages := some pages }

def render (p : Press) (c : Logo.Cache) (now : Instant) (b : Branding) (r : Request) :
    Except Failure Rendering × Logo.Cache :=
  let l := p.logoFor c b r.format
  (l.1 >>= p.compose now b r, l.2)

def checkFormat (s : Settings) (f : Format) : Except Failure Unit :=
  if s.allows f.name then .ok () else .error (.formatDisabled f.name (s.formats.map Format.name))

def checkSize (s : Settings) (d : Rendering) : Except Failure Unit := do
  let size ← Size.megabytes d.bytes.size
  if s.maxMegabytes.lt size then .error (.tooLarge size s.maxMegabytes) else .ok ()

/-- A layer of a branding is not nested too deep to be read. -/
def reaches (p : Press) : BrandingLayer → Bool
  | .raw v => p.isShallow v
  | .empty | .patch _ => true

def brandingOf (p : Press) (r : Request) : Except Failure Branding :=
  let base : BrandingLayer := .raw (.object p.settings.branding)
  if !p.reaches base then .error .tooDeep
  else if p.reaches (Settings.override p.category r) then p.settings.resolve p.category r
  -- The settings are read first, and their faults are told.
  else Branding.merge [base] >>= fun _ => .error .tooDeep

def make (p : Press) (c : Logo.Cache) (now : Instant) (r : Request) :
    Except Failure (Branding × Rendering) × Logo.Cache :=
  match checkFormat p.settings r.format >>= fun _ => p.brandingOf r with
  | .error e => (.error e, c)
  | .ok b =>
    let made := p.render c now b r
    (made.1 >>= fun d => checkSize p.settings d >>= fun _ => .ok (b, d), made.2)

end Press
end Letterhead
