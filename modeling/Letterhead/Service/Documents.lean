import Letterhead.Service.Answer
import Letterhead.Service.Call
import Letterhead.Store.Generation

/-!
What the service does with documents: it makes, describes, hands out, lists and deletes them. An
expired document is not handed out; a document that is handed out is counted first.
-/

namespace Letterhead

/-- What the service works with: an environment that holds its settings, the tools that make documents,
how deep a call may be nested, the numbers that are drawn for rows, and what becomes of a call in which
half a character is written, which no text can hold. -/
structure Service extends Tools where
  environment : Named Text := []
  levels : Option Nat := none
  draw : List Int → Option Int := fun _ => none
  halved : Service.Call → Store → Service.Answer × Store := fun _ s => (.broken, s)

namespace Service

def failed (e : Failure) : Answer :=
  let reason := e.message.getD []
  match e with
  | .formatDisabled _ _ => .refused 400 reason
  | .threadMissing _ => .refused 400 reason
  | .tooLarge _ _ => .refused 413 reason
  | .rendererUnavailable _ => .refused 503 reason
  | _ => .broken

def press (w : Service) (settings : Settings) : Press :=
  { toTools := w.toTools, settings := settings }

def make (w : Service) (now : Instant) (s : Store) (body : Option (Checked Request)) :
    Answer × Store :=
  match Settings.ofEnvironment w.environment .empty with
  | .error _ => (.broken, s)
  | .ok settings =>
    match Call.requestOf body with
    | .faulty faults => (.faulty faults, s)
    | .ok r =>
      match s.generate (w.press settings) now .succeeds r (.keyed w.draw) with
      | (.ok d, s) => (.json 200 d.json, s)
      | (.error e, s) => (failed e, s)

def create (w : Service) (now : Instant) (s : Store) (c : Call) : Answer × Store :=
  match c.body w.levels with
  | .error (.notJson offset) => (.faulty [Call.notJson offset], s)
  | .error .tooDeep | .error .tooLong =>
    (.refused 400 "There was an error parsing the body".toList, s)
  | .error .halved => w.halved c s
  | .ok body => w.make now s body

def idOf (t : Text) : Checked Int :=
  Checked.under (.field "path".toList) (Checked.under (.field "doc_id".toList) (Form.intOfText t))

def notFound : Answer := .refused 404 "Document not found".toList

def describe (s : Store) (id : Int) : Answer :=
  match s.get? id with
  | .error _ => .broken
  | .ok none => notFound
  | .ok (some d) => .json 200 d.json

/-- A name can stand in a header: its characters are those of the first 256 numbers. -/
def isHeaderText (t : Text) : Bool := t.all fun c => c.toNat < 256

/-- The file of a document, unless its name cannot stand in a header. -/
def handOut (d : Descriptor) (b : ByteArray) : Answer :=
  if isHeaderText d.filename then .file d.format.mediaType d.filename b else .broken

def download (now : Instant) (s : Store) (id : Int) : Answer × Store :=
  match s.get? id with
  | .error _ => (.broken, s)
  | .ok none => (notFound, s)
  | .ok (some d) =>
    if d.isExpired now then (.refused 410 "Document has expired".toList, s)
    else
      match s.files.get? d.path with
      | none => (.refused 404 "Document file not found".toList, s)
      | some b => (handOut d b, s.countUp true id)

def delete (s : Store) (id : Int) : Answer × Store :=
  match s.delete true id with
  | (.ok deleted, s) => (.json 200 (.object [("deleted".toList, .bool deleted)]), s)
  | (.error _, s) => (.broken, s)

def documents (s : Store) (thread : Text) : Answer :=
  match s.documents thread with
  | .ok ds => .json 200 (.array (ds.map Descriptor.json))
  | .error _ => .broken

def sweep (now : Instant) (s : Store) : Answer × Store :=
  match s.sweep (fun _ => true) now with
  | (.ok n, s) => (.json 200 (.object [("deleted".toList, .int n)]), s)
  | (.error _, s) => (.broken, s)

end Service
end Letterhead
