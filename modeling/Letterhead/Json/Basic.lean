import Letterhead.Number.Binary64
import Letterhead.Text.Named

/-!
JSON values. Whole numbers and floating point numbers are told apart, and an object keeps the order
in which its names were first written.
-/

namespace Letterhead

inductive Json where
  | null
  | bool (b : Bool)
  | int (n : Int)
  | float (x : Binary64)
  | text (t : Text)
  | array (items : List Json)
  | object (fields : List (Text × Json))
deriving Repr

namespace Json

def field? (name : Text) : Json → Option Json
  | object fields => fields.lookup name
  | _ => none

def firstField? (names : List Text) (fields : List (Text × Json)) : Option (Text × Json) :=
  names.findSome? fun n => (fields.lookup n).map (n, ·)

def isTruthy : Json → Bool
  | null => false
  | bool b => b
  | int n => n != 0
  | float x => !x.isZero
  | text t => !t.isEmpty
  | array items => !items.isEmpty
  | object fields => !fields.isEmpty

mutual

/-- The lists and objects that stand within each other, at most. -/
def depth : Json → Nat
  | array items => depthOfItems items + 1
  | object fields => depthOfFields fields + 1
  | _ => 0

def depthOfItems : List Json → Nat
  | [] => 0
  | v :: rest => max v.depth (depthOfItems rest)

def depthOfFields : List (Text × Json) → Nat
  | [] => 0
  | f :: rest => max (depthOfField f) (depthOfFields rest)

def depthOfField : Text × Json → Nat
  | (_, v) => v.depth

end

def str (s : String) : Json := text s.toList

@[simp] theorem isTruthy_null : isTruthy null = false := rfl

end Json
end Letterhead
