import Letterhead.Branding.Preset
import Letterhead.Document.Request

/-!
Settings of document generation: the enabled formats, a branding for all documents, the days until a
document expires, and the greatest size. They are read from JSON or from an environment.
-/

namespace Letterhead

structure Settings where
  enabled : Bool := true
  defaultFormat : Format := .pdf
  formats : List Format := Format.all
  branding : Named Json := []
  expirationDays : Int := 30
  maxMegabytes : Binary64 := .ofInt 50
deriving Repr

namespace Settings

def read : Reader Settings :=
  Form.record .recordType fun fields =>
    let standard : Settings := {}
    Settings.mk
      <$> (Option.getD · standard.enabled) <$> Form.field ["enabled"] fields Form.bool
      <*> (Option.getD · standard.defaultFormat) <$>
        Form.field ["default_format"] fields Format.read
      <*> (Option.getD · standard.formats) <$>
        Form.field ["enabled_formats"] fields (Form.list Format.read)
      <*> (Option.getD · standard.branding) <$> Form.field ["branding"] fields Form.object
      <*> (Option.getD · standard.expirationDays) <$>
        Form.field ["expiration_days"] fields
          (fun v => (Form.int v).andThen (Form.intWithin 0 365))
      <*> (Option.getD · standard.maxMegabytes) <$>
        Form.field ["max_document_size_mb"] fields
          (fun v => (Form.float v).andThen (Form.floatWithin (.ofInt 1) (.ofInt 100)))

def addFormat (formats : List Format) (f : Format) : List Format :=
  if formats.contains f then formats else formats ++ [f]

def formatsOf (t : Text) : List Format :=
  (t.splitOn ',').foldl (fun formats part =>
    match Format.ofName? (Text.lower (Text.trim part)) with
    | some f => addFormat formats f
    | none => formats) []

def valueOf (env : Named Text) (name fallback : String) : Text :=
  (env.lookup name.toList).getD fallback.toList

def orElse (fallback t : Text) : Text := if t.isEmpty then fallback else t

def brandingValue : BrandingLayer → Json
  | .empty => .object []
  | .patch p => .object p.toFields
  | .raw v => if v.isTruthy then v else .object []

/-- The settings of an environment. Where no format is named, all are enabled. -/
def ofEnvironment (env : Named Text) (branding : BrandingLayer) : Except Failure Settings := do
  let named := formatsOf (valueOf env "DOCGEN_ENABLED_FORMATS" "pdf,docx,md")
  let formats := if named.isEmpty then Format.all else named
  let standard := Text.lower (Text.trim (valueOf env "DOCGEN_DEFAULT_FORMAT" "pdf"))
  let days ← Numeral.whole (valueOf env "DOCGEN_EXPIRATION_DAYS" "30")
  let size ← Numeral.real (valueOf env "DOCGEN_MAX_SIZE_MB" "50")
  let value : Json := .object [
    ("default_format".toList, .text (orElse "pdf".toList standard)),
    ("enabled_formats".toList, .array (formats.map fun f => .text f.name)),
    ("branding".toList, brandingValue branding),
    ("expiration_days".toList, .int days),
    ("max_document_size_mb".toList, .float size)]
  match read value with
  | .ok s => .ok s
  | .faulty fs => .error (.faulty fs)

def allows (s : Settings) (name : Text) : Bool :=
  s.formats.any fun f => f.name == Text.lower name

/-- The layer over the settings: the branding of the request, or else that of the category, or else
the preset that the request names. -/
def override (category : BrandingLayer) (r : Request) : BrandingLayer :=
  match r.branding, category, r.category with
  | some fields, _, _ => .raw (.object fields)
  | none, .empty, some name => Preset.layer name
  | none, _, _ => category

def resolve (s : Settings) (category : BrandingLayer) (r : Request) : Except Failure Branding :=
  Branding.merge [.raw (.object s.branding), override category r]

end Settings
end Letterhead
