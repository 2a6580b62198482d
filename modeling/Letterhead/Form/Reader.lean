import Letterhead.Form.Fault
import Letterhead.Json.Basic
import Letterhead.Number.Read

/-!
Readers: how a typed value is read from JSON. Reading is lenient about numbers and yes-or-no values
and strict about texts, lists and objects.
-/

namespace Letterhead

abbrev Reader (α : Type) := Json → Checked α

namespace Form

variable {α : Type}

/-- The white space trimmed from a numeral in a text: blanks but the information separators. -/
def isSpace (c : Char) : Bool := isBlank c && !(28 ≤ c.toNat && c.toNat ≤ 31)

def trimSpaces (t : Text) : Text :=
  ((t.dropWhile isSpace).reverse.dropWhile isSpace).reverse

def noWords : List String := ["0", "off", "f", "false", "n", "no"]

def yesWords : List String := ["1", "on", "t", "true", "y", "yes"]

def boolOfInt (n : Int) : Checked Bool :=
  if n = 0 then .ok false else if n = 1 then .ok true else Checked.fault .boolParsing

/-- Reads yes or no: a truth value, zero or one, or a word for either in any case. -/
def bool : Reader Bool
  | .bool b => .ok b
  | .int n => boolOfInt n
  | .float x =>
    if x.isWhole then
      match x.truncate? with
      | some n => boolOfInt n
      | none => Checked.fault .boolType
    else Checked.fault .boolType
  | .text t =>
    let word := String.ofList (Text.lowerAscii t)
    if noWords.contains word then .ok false
    else if yesWords.contains word then .ok true
    else Checked.fault .boolParsing
  | _ => Checked.fault .boolType

def text : Reader Text
  | .text t => .ok t
  | _ => Checked.fault .textType

def dropZeroPlaces (t : Text) : Text :=
  let rest := t.dropWhile (· != '.')
  if !rest.isEmpty && (rest.drop 1).all (· == '0') && rest.length != 1 then
    t.takeWhile (· != '.')
  else t

def intOfText (t : Text) : Checked Int :=
  match Numeral.int? (dropZeroPlaces (trimSpaces t)) with
  | some n => .ok n
  | none => Checked.fault .intParsing

def int : Reader Int
  | .int n => .ok n
  | .bool b => .ok (if b then 1 else 0)
  | .float x =>
    match x.truncate? with
    | none => Checked.fault .notFinite
    | some n => if x.isWhole then .ok n else Checked.fault .intFromFloat
  | .text t => intOfText t
  | _ => Checked.fault .intType

def float : Reader Binary64
  | .int n => .ok (Binary64.ofInt n)
  | .bool b => .ok (Binary64.ofInt (if b then 1 else 0))
  | .float x => .ok x
  | .text t =>
    let body := trimSpaces t
    match (Numeral.dropUnderscores? ' ' body).bind Numeral.binary64? with
    | some x => .ok x
    | none => Checked.fault .floatParsing
  | _ => Checked.fault .floatType

def list (read : Reader α) : Reader (List α)
  | .array items => Checked.allFrom 0 (items.map read)
  | _ => Checked.fault .listType

def object : Reader (List (Text × Json))
  | .object fields => .ok fields
  | _ => Checked.fault .objectType

def optional (read : Reader α) : Reader (Option α)
  | .null => .ok none
  | v => some <$> read v

def record (kind : FaultKind) (read : List (Text × Json) → Checked α) : Reader α
  | .object fields => read fields
  | _ => Checked.fault kind

/-- Reads a field that may be absent, under the first of its names that is there. -/
def field (names : List String) (fields : List (Text × Json)) (read : Reader α) :
    Checked (Option α) :=
  match Json.firstField? (names.map String.toList) fields with
  | some (name, v) => Checked.under (.field name) (some <$> read v)
  | none => .ok none

def nullable (name : String) (fields : List (Text × Json)) (read : Reader α) :
    Checked (Option α) :=
  Option.join <$> field [name] fields (optional read)

def required (name : String) (fields : List (Text × Json)) (read : Reader α) : Checked α :=
  match fields.lookup name.toList with
  | some v => Checked.under (.field name.toList) (read v)
  | none => Checked.under (.field name.toList) (Checked.fault .missing)

def intWithin (low high : Int) (n : Int) : Checked Int :=
  if high < n then Checked.fault .tooLarge
  else if n < low then Checked.fault .tooSmall
  else .ok n

def floatWithin (low high : Binary64) (x : Binary64) : Checked Binary64 :=
  if x = .nan || high.lt x then Checked.fault .tooLarge
  else if x.lt low then Checked.fault .tooSmall
  else .ok x

end Form
end Letterhead
