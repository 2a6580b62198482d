import Letterhead.Document.Filename
import Letterhead.Document.Press
import Letterhead.Store.Basic

/-!
Generation of documents: a request is rendered, its thread is looked up, the file is written, and a
row is recorded. A request without a thread is written and not recorded. Where recording fails, and
where no number is left for the row, the file just written is removed again. A request that cannot be
read is not looked at any further. What is kept of logos stays in every case.
-/

namespace Letterhead

/-- How the recording of a row goes: well, or it fails when the row is added, when that is
committed, or when the row is read back. -/
inductive Recording where
  | succeeds
  | notAdded
  | notCommitted
  | notReadBack
deriving DecidableEq, Repr

namespace Row

def brandingOrigin (b : Branding) : Json :=
  if b.enabled then
    .object [("organization_name".toList, .text b.organization),
      ("primary_color".toList, .text b.primary.text)]
  else .null

def originOf (r : Request) (b : Branding) (d : Rendering) : Json :=
  .object [("title".toList, .text r.title), ("branding".toList, brandingOrigin b),
    ("page_count".toList, d.pages.elim .null fun n => .int n)]

end Row

namespace Store

def checkThread (s : Store) (thread : Option Text) : Except Failure Unit :=
  match thread with
  | none => .ok ()
  | some t => if s.hasThread t then .ok () else .error (.threadMissing t)

/-- The moment at which a document made now expires: never, if documents are kept for no number of
days; days beyond the calendar overflow. -/
def expiry (settings : Settings) (now : Instant) : Except Failure (Option Instant) :=
  if settings.expirationDays ≤ 0 then .ok none
  else
    match now.addDays? settings.expirationDays.toNat with
    | some i => .ok (some i)
    | none => .error .overflow

def record (s : Store) (recording : Recording) (row : Row) : Except Failure Descriptor × Store :=
  match recording with
  | .succeeds => (row.descriptor, s.insert row)
  | .notAdded | .notCommitted => (.error .commitFailed, s.eraseFile row.path)
  | .notReadBack => (.error .commitFailed, (s.insert row).eraseFile row.path)

def rowOf (id : Int) (now : Instant) (r : Request) (thread filename : Text) (l : Location)
    (b : Branding) (d : Rendering) (expires : Option Instant) : Row where
  id := id
  thread := thread
  message := r.message
  filename := filename
  path := l
  format := r.format.name
  size := d.bytes.size
  origin := Row.originOf r b d
  expires := expires
  downloads := 0
  created := some now

def unrecorded (now : Instant) (r : Request) (filename : Text) (l : Location) (d : Rendering) :
    Descriptor where
  id := 0
  thread := none
  message := r.message
  filename := filename
  path := l
  format := r.format
  size := d.bytes.size
  created := now
  pages := d.pages.map fun n => (n : Int)

def keep (s : Store) (p : Press) (now : Instant) (recording : Recording) (numbering : Numbering)
    (r : Request) (b : Branding) (d : Rendering) : Except Failure Descriptor × Store :=
  let filename := Filename.make r.title r.format.name r.thread now
  match s.files.write filename d.bytes p.layout with
  | .error e => (.error e, s)
  | .ok (l, files) =>
    let written : Store := { s with files := files }
    match r.thread with
    | none => (.ok (unrecorded now r filename l d), written)
    | some thread =>
      match expiry p.settings now with
      | .error e => (.error e, written)
      | .ok expires =>
        match s.number? numbering with
        | none => (.error .commitFailed, written.eraseFile l)
        | some id => written.record recording (rowOf id now r thread filename l b d expires)

/-- The store after a request has been rendered, however that went. -/
def afterMake (s : Store) (p : Press) (now : Instant) (r : Request) : Store :=
  { s with logos := (p.make s.logos now r).2 }

def generate (s : Store) (p : Press) (now : Instant) (recording : Recording) (r : Request)
    (numbering : Numbering := .unbounded) : Except Failure Descriptor × Store :=
  let t := s.afterMake p now r
  match (p.make s.logos now r).1, s.checkThread r.thread with
  | .error e, _ => (.error e, t)
  | .ok _, .error e => (.error e, t)
  | .ok (b, d), .ok () => t.keep p now recording numbering r b d

def generateWritten (s : Store) (p : Press) (now : Instant) (recording : Recording) (v : Json)
    (numbering : Numbering := .unbounded) : Except Failure Descriptor × Store :=
  match Request.read v with
  | .faulty faults => (.error (.faulty faults), s)
  | .ok r => s.generate p now recording r numbering

end Store
end Letterhead
