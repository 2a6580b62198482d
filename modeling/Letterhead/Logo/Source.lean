import Letterhead.Bytes
import Letterhead.Logo.Base64
import Letterhead.Text.Script

/-!
Where a logo comes from: bytes, or a text that holds them, or that names an address or a file. What
addresses answer and which files there are belongs to the surroundings.
-/

namespace Letterhead.Logo

inductive Source where
  | bytes (b : ByteArray)
  | text (s : Script)

inductive Answer where
  | unreachable
  | status (code : Int) (body : ByteArray)

structure Surroundings where
  answer : Script → Answer := fun _ => .unreachable
  file? : Script → Option ByteArray := fun _ => none

/-- An answer tells that its caller or its server failed; codes beyond those two hundreds do not. -/
def Answer.isFailure (code : Int) : Bool := 400 ≤ code && code < 600

def Answer.bytes? : Answer → Option ByteArray
  | unreachable => none
  | status code body => if isFailure code then none else some body

def bytesOfText? (w : Surroundings) (s : Script) : Option ByteArray :=
  let s := s.trim
  if s.startsWith "data:image" then (s.after ',').text?.bind Base64.decode?
  else if s.startsWith "http://" || s.startsWith "https://" then (w.answer s).bytes?
  else if s.isEmpty then none
  else w.file? s

def Source.bytes? (w : Surroundings) (s : Source) : Option ByteArray :=
  let found := match s with
    | bytes b => some b
    | text t => bytesOfText? w t
  found.bind fun b => if b.isEmpty then none else some b

end Letterhead.Logo
