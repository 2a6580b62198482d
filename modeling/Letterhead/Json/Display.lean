import Letterhead.Json.Basic
import Letterhead.Number.Numeral
import Letterhead.Text.Quoted

/-!
The text that stands for a JSON value where a text is wanted. A text stands for itself, and a text
inside a list or an object is put between quotes.
-/

namespace Letterhead.Json

mutual

def inner : Json → Text
  | null => "None".toList
  | bool b => if b then "True".toList else "False".toList
  | int n => intText n
  | float x => x.text
  | text t => t.quoted
  | array items => '[' :: ", ".toList.intercalate (innerItems items) ++ [']']
  | object fields => '\x7b' :: ", ".toList.intercalate (innerFields fields) ++ ['\x7d']

def innerItems : List Json → List Text
  | [] => []
  | v :: rest => inner v :: innerItems rest

def innerFields : List (Text × Json) → List Text
  | [] => []
  | f :: rest => innerField f :: innerFields rest

def innerField : Text × Json → Text
  | (name, v) => Text.quoted name ++ ": ".toList ++ inner v

end

def display : Json → Text
  | text t => t
  | v => inner v

def displayTruthy (v : Json) : Text := if v.isTruthy then v.display else []

@[simp] theorem display_text (t : Text) : display (text t) = t := rfl

end Letterhead.Json
