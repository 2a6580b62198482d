import Letterhead.Branding.Patch
import Letterhead.Document.Format

/-!
Requests for a document: title, content and format, the thread it belongs to, and what is said about
branding and properties.
-/

namespace Letterhead

structure Metadata where
  author : Option Text := none
  subject : Option Text := none
  keywords : List Text := []
  description : Option Text := none
  contents : Bool := false
deriving DecidableEq, Repr

structure Request where
  title : Text
  content : Text
  format : Format
  thread : Option Text := none
  message : Option Text := none
  category : Option Text := none
  branding : Option (Named Json) := none
  metadata : Option Metadata := none
deriving Repr

def Form.identifier : Reader (Option Text) := fun v =>
  let t := match v with
    | .null => []
    | v => Text.trim v.display
  .ok (if t.isEmpty then none else some t)

namespace Metadata

def read : Reader Metadata :=
  Form.record .recordType fun fields =>
    Metadata.mk <$> Form.nullable "author" fields Form.text
      <*> Form.nullable "subject" fields Form.text
      <*> (Option.getD · []) <$> Form.field ["keywords"] fields (Form.list Form.text)
      <*> Form.nullable "description" fields Form.text
      <*> (Option.getD · false) <$> Form.field ["include_toc", "includeToc"] fields Form.bool

end Metadata

namespace Request

def readIdentifier (names : List String) (fields : Named Json) : Checked (Option Text) :=
  Option.join <$> Form.field names fields Form.identifier

def readFields (fields : Named Json) : Checked Request :=
  Request.mk <$> Form.required "title" fields Form.text
    <*> Form.required "content" fields Form.text
    <*> Form.required "format" fields Format.read
    <*> readIdentifier ["thread_id", "threadId"] fields
    <*> readIdentifier ["message_id", "messageId"] fields
    <*> readIdentifier ["category_id", "categoryId"] fields
    <*> Form.nullable "branding" fields Form.object
    <*> Form.nullable "metadata" fields Metadata.read

def read : Reader Request := Form.record .recordType readFields

end Request
end Letterhead
