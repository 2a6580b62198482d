import Letterhead.Digest.Sha256
import Letterhead.Logo.Process
import Letterhead.Number.Numeral
import Letterhead.Text.Named

/-!
The cache of logos: bytes under keys that are made of a source and a box. An entry that is no
picture is made anew. A text that has no bytes has no key, and asking for its logo fails.
-/

namespace Letterhead.Logo

/-- The bytes that are digested for a source: its own, or those of its text without blanks around
it. -/
def Source.material? : Source → Option ByteArray
  | bytes b => some b
  | text s => s.trim.text?.map Text.utf8

def keyText (material : ByteArray) (box : Box) : Text :=
  Sha256.text material ++ '|' :: intText box.width ++ 'x' :: intText box.height

def key? (s : Source) (box : Box) : Option Text :=
  s.material?.map fun m => Sha256.text (Text.utf8 (keyText m box))

/-- An entry of the cache: bytes, or something that can be neither read nor written. -/
inductive Entry where
  | bytes (b : ByteArray)
  | blocked

structure Cache where
  entries : Named Entry := []

namespace Cache

def get? (c : Cache) (key : Text) : Option ByteArray :=
  match c.entries.lookup key with
  | some (.bytes b) => some b
  | _ => none

def has (c : Cache) (key : Text) : Bool := (c.entries.lookup key).isSome

def set (c : Cache) (key : Text) (b : ByteArray) : Cache :=
  match c.entries.lookup key with
  | some .blocked => c
  | _ => ⟨Named.set key (.bytes b) c.entries⟩

def block (c : Cache) (key : Text) : Cache := ⟨Named.set key .blocked c.entries⟩

/-- The logo under a key; none if there are no bytes, or they cannot be read as a picture. Its size is
that of the picture, of which no more is opened than tells it. -/
def logo? (g : Imaging) (c : Cache) (key : Text) : Except Failure (Option Logo) :=
  match c.get? key with
  | none => .ok none
  | some b =>
    match g.identify b with
    | .ok i => .ok (some { bytes := b, width := i.width, height := i.height })
    | .error .unreadable => .ok none
    | .error f => .error (.picture f)

/-- The logo of a source from the cache, or else made and kept there, unless the cache cannot be
`writable`. -/
def load (g : Imaging) (c : Cache) (writable : Bool) (w : Surroundings) (s : Source) (box : Box) :
    Except Failure (Option Logo) × Cache :=
  match key? s box with
  | none => (.error .halfCharacter, c)
  | some key =>
    match c.logo? g key with
    | .error e => (.error e, c)
    | .ok (some l) => (.ok (some l), c)
    | .ok none =>
      match process g w s box with
      | .ok (some l) => (.ok (some l), if writable then c.set key l.bytes else c)
      | r => (r, c)

end Cache
end Letterhead.Logo
