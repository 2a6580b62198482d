import Letterhead.Store.Row
import Letterhead.Text.Letter

/-!
Answers of the service: a status, headers and content, and the forms in which descriptors and faults
are written.
-/

namespace Letterhead

def PathStep.json : PathStep → Json
  | field name => .text name
  | index n => .int n

def Fault.json (f : Fault) : Json :=
  .object [("type".toList, .str f.kind.word), ("loc".toList, .array (f.path.map PathStep.json))]

def Descriptor.json (d : Descriptor) : Json :=
  let textOr := fun (t : Option Text) => t.elim Json.null Json.text
  .object [
    ("id".toList, .int d.id),
    ("thread_id".toList, textOr d.thread),
    ("message_id".toList, textOr d.message),
    ("filename".toList, .text d.filename),
    ("filepath".toList, .text d.path.text),
    ("file_type".toList, .text d.format.name),
    ("file_size".toList, .int d.size),
    ("download_url".toList, .text d.url),
    ("expires_at".toList, textOr (d.expires.map Instant.text)),
    ("download_count".toList, .int d.downloads),
    ("created_at".toList, .text d.created.text),
    ("page_count".toList, d.pages.elim .null .int)]

namespace Service

inductive Content where
  | json (v : Json)
  | plain (t : Text)
  | file (bytes : ByteArray)

structure Answer where
  status : Nat
  headers : Named Text
  content : Content

namespace Answer

def header? (a : Answer) (name : String) : Option Text := a.headers.lookup name.toList

def withHeader (a : Answer) (name : String) (value : Text) : Answer :=
  { a with headers := Named.set name.toList value a.headers }

def contentType (medium : Text) : Text :=
  if Text.startsWith medium "text/".toList then medium ++ "; charset=utf-8".toList else medium

def json (status : Nat) (v : Json) : Answer where
  status := status
  headers := [("content-type".toList, contentType "application/json".toList)]
  content := .json v

def plain (status : Nat) (t : String) : Answer where
  status := status
  headers := [("content-type".toList, contentType "text/plain".toList)]
  content := .plain t.toList

def file (medium name : Text) (bytes : ByteArray) : Answer where
  status := 200
  headers := [
    ("content-disposition".toList, "attachment; filename=\"".toList ++ name ++ ['"']),
    ("content-length".toList, natText bytes.size),
    ("content-type".toList, contentType medium)]
  content := .file bytes

def detail (status : Nat) (d : Json) : Answer := json status (.object [("detail".toList, d)])

def refused (status : Nat) (reason : Text) : Answer := detail status (.text reason)

def faulty (faults : List Fault) : Answer := detail 422 (.array (faults.map Fault.json))

def broken : Answer := plain 500 "Internal Server Error"

end Answer
end Service
end Letterhead
