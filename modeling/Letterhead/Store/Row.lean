import Letterhead.Document.Format
import Letterhead.Store.Location
import Letterhead.Calendar.Instant
import Letterhead.Failure

/-!
Rows of the store, one for each document of a thread, and the descriptors that are told about
documents. A row keeps what was written into it; a descriptor is made only of a row that makes
sense.
-/

namespace Letterhead

structure Row where
  id : Int
  thread : Text
  message : Option Text
  filename : Text
  path : Location
  format : Text
  size : Int
  origin : Json
  expires : Option Instant
  downloads : Int
  created : Option Instant
deriving Repr

structure Descriptor where
  id : Int
  thread : Option Text
  message : Option Text
  filename : Text
  path : Location
  format : Format
  size : Int
  url : Text := []
  expires : Option Instant := none
  downloads : Int := 0
  created : Instant
  pages : Option Int := none
deriving DecidableEq, Repr

namespace Descriptor

def isRecorded (d : Descriptor) : Bool := 0 < d.id

def urlOf (id : Int) : Text := "/api/documents/".toList ++ intText id ++ "/download".toList

def isExpired (d : Descriptor) (now : Instant) : Bool := Instant.hasPassed d.expires now

end Descriptor

namespace Row

def isExpired (r : Row) (now : Instant) : Bool := Instant.hasPassed r.expires now

def knownFormat (r : Row) : Except Failure Format :=
  match Format.ofName? r.format with
  | some f => .ok f
  | none => .error (.unknownFormat r.format)

def pages (r : Row) : Except Failure (Checked (Option Int)) :=
  if !r.origin.isTruthy then .ok (.ok none)
  else
    match r.origin with
    | .object fields => .ok (Form.nullable "page_count" fields Form.int)
    | _ => .error .notAnObject

def moment (r : Row) : Checked Instant :=
  match r.created with
  | some i => .ok i
  | none => Checked.under (.field "created_at".toList) (Checked.fault .instantType)

def descriptor (r : Row) : Except Failure Descriptor := do
  let format ← r.knownFormat
  let pages ← r.pages
  let made : Checked Descriptor := (fun created pages =>
    { id := r.id
      thread := some r.thread
      message := r.message
      filename := r.filename
      path := r.path
      format := format
      size := r.size
      url := Descriptor.urlOf r.id
      expires := r.expires
      downloads := r.downloads
      created := created
      pages := pages }) <$> r.moment <*> pages
  match made with
  | .ok d => .ok d
  | .faulty fs => .error (.faulty fs)

/-- Later rows first: by the moment of creation, rows without one last, and then by number. -/
def laterFirst (a b : Row) : Bool :=
  match a.created, b.created with
  | some x, some y => y.before x || (x == y && b.id ≤ a.id)
  | some _, none => true
  | none, some _ => false
  | none, none => b.id ≤ a.id

def soonerFirst (a b : Row) : Bool :=
  match a.expires, b.expires with
  | some x, some y => x.before y || (x == y && a.id ≤ b.id)
  | some _, none => true
  | none, some _ => false
  | none, none => a.id ≤ b.id

end Row
end Letterhead
