import Letterhead.Document.Request
import Letterhead.Json.Parser
import Letterhead.Text.Letter

/-!
Calls of the service, and how the request for a document is read from what a call holds. What is
missing, what is no JSON and what is no request are told apart by their faults.
-/

namespace Letterhead.Service

inductive Payload where
  | absent
  | text (t : Text)
  | json (v : Json)
deriving Repr

structure Call where
  method : Text
  address : Text
  headers : Named Text := []
  payload : Payload := .absent
deriving Repr

namespace Call

def header? (c : Call) (name : String) : Option Text :=
  (c.headers.find? fun h => Text.lowerAscii h.1 == name.toList).map Prod.snd

def isJsonType (t : Text) : Bool :=
  match (Text.lowerAscii (Text.trim (Text.cutAt ';' t).1)).splitOn '/' with
  | [medium, kind] =>
    medium == "application".toList && (kind == "json".toList || Text.endsWith kind "+json".toList)
  | _ => false

def holdsJson (c : Call) : Bool :=
  match c.header? "content-type" with
  | none => true
  | some t => t.isEmpty || isJsonType t

def byteOrderMark : Char := '\ufeff'

def withoutMark (t : Text) : Text := if t.head? = some byteOrderMark then t.drop 1 else t

/-- What a call holds as a request: none if it holds nothing. It is read if it is JSON that is nested no
deeper than some levels. -/
def body (c : Call) (levels : Option Nat := none) :
    Except Json.Refusal (Option (Checked Request)) :=
  let read := Form.record .bodyType Request.readFields
  match c.payload with
  | .absent | .text [] => .ok none
  | .text t =>
    if c.holdsJson then (Json.parse (withoutMark t) levels).map fun v => some (read v)
    else .ok (some (Checked.fault .bodyType))
  | .json v =>
    if !c.holdsJson then .ok (some (Checked.fault .bodyType))
    else if levels.all fun n => v.depth ≤ n then .ok (some (read v))
    else .error .tooDeep

def bodyStep : PathStep := .field "body".toList

def notJson (offset : Nat) : Fault := ⟨.jsonInvalid, [bodyStep, .index offset]⟩

def requestOf : Option (Checked Request) → Checked Request
  | some r => Checked.under bodyStep r
  | none => Checked.under bodyStep (Checked.fault .missing)

end Call
end Letterhead.Service
