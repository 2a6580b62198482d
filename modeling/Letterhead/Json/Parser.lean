import Letterhead.Json.Basic
import Letterhead.Number.Read

/-!
Reading JSON text. A text that is no JSON is refused at an offset: where a value was expected, where
a text between quotes began that does not end, or where a character stands that cannot stand there.
Some texts are refused although they are JSON: those that are nested deeper than allowed, those with a
whole number of very many digits, and those in which only half of a character is written.
-/

namespace Letterhead.Json

inductive Refusal where
  | notJson (offset : Nat)
  | tooDeep
  | tooLong
  | halved
deriving DecidableEq, Repr

/-- What is left to read, how many characters were read before it, and whether half a character was
written in them. -/
structure Cursor where
  offset : Nat
  rest : Text
  halved : Bool := false

namespace Cursor

def isGap (c : Char) : Bool := c == ' ' || c == '\t' || c == '\n' || c == '\r'

def skip (c : Cursor) (n : Nat) : Cursor :=
  { c with offset := c.offset + n, rest := c.rest.drop n }

def skipGaps (c : Cursor) : Cursor := c.skip (c.rest.takeWhile isGap).length

def word? (c : Cursor) (w : Text) : Option Cursor :=
  (Text.after? w c.rest).map fun rest => { c with offset := c.offset + w.length, rest := rest }

end Cursor

def hexUnit? (t : Text) : Option Nat :=
  match (t.take 4).mapM hexDigit? with
  | some [a, b, c, d] => some (((a * 16 + b) * 16 + c) * 16 + d)
  | _ => none

def plainEscape? (c : Char) : Option Char :=
  [('"', '"'), ('\\', '\\'), ('/', '/'), ('b', '\x08'), ('f', '\x0c'), ('n', '\n'), ('r', '\r'),
    ('t', '\t')].lookup c

def ofSurrogates (high low : Nat) : Char :=
  Char.ofNat (0x10000 + (high - 0xD800) * 0x400 + (low - 0xDC00))

def lowSurrogate? : Text → Option Nat
  | '\\' :: 'u' :: t =>
    (hexUnit? t).bind fun n => if 0xDC00 ≤ n && n ≤ 0xDFFF then some n else none
  | _ => none

/-- What stands for half a character until the whole text is refused for it. -/
def replacement : Char := '\ufffd'

/-- Reads the rest of a text between quotes. `start` is the offset of the opening quote, `done` what
was read, last character first. -/
def readText (start : Nat) (done : Text) (halved : Bool) (at' : Nat) (t : Text) :
    Except Refusal (Text × Cursor) :=
  match t with
  | [] => .error (.notJson start)
  | '"' :: rest => .ok (done.reverse, ⟨at' + 1, rest, halved⟩)
  | ['\\'] => .error (.notJson start)
  | '\\' :: 'u' :: rest =>
    if (rest.drop 4).isEmpty then .error (.notJson (at' + 1))
    else
      match hexUnit? rest with
      | none => .error (.notJson (at' + 1))
      | some n =>
        if 0xD800 ≤ n && n ≤ 0xDBFF then
          match lowSurrogate? (rest.drop 4) with
          | some l => readText start (ofSurrogates n l :: done) halved (at' + 12) (rest.drop 10)
          | none => readText start (replacement :: done) true (at' + 6) (rest.drop 4)
        else if 0xDC00 ≤ n && n ≤ 0xDFFF then
          readText start (replacement :: done) true (at' + 6) (rest.drop 4)
        else readText start (Char.ofNat n :: done) halved (at' + 6) (rest.drop 4)
  | '\\' :: c :: rest =>
    match plainEscape? c with
    | some d => readText start (d :: done) halved (at' + 2) rest
    | none => .error (.notJson at')
  | c :: rest =>
    if c.toNat < 32 then .error (.notJson at')
    else readText start (c :: done) halved (at' + 1) rest
termination_by t.length
decreasing_by all_goals simp +arith

def digitLimit : Nat := 4300

def readNumber (c : Cursor) : Except Refusal (Json × Cursor) :=
  let minus := c.rest.head? == some '-'
  let body := if minus then c.rest.drop 1 else c.rest
  let whole := if body.head? == some '0' then ['0'] else body.takeWhile Char.isDigit
  let afterWhole := body.drop whole.length
  let places :=
    if afterWhole.head? == some '.' then (afterWhole.drop 1).takeWhile Char.isDigit else []
  let afterPlaces := if places.isEmpty then afterWhole else afterWhole.drop (places.length + 1)
  let power : Text :=
    match afterPlaces with
    | e :: t =>
      if e == 'e' || e == 'E' then
        let signs := (t.take 1).filter fun s => s == '+' || s == '-'
        let digits := (t.drop signs.length).takeWhile Char.isDigit
        if digits.isEmpty then [] else e :: signs ++ digits
      else []
    | [] => []
  let length := (if minus then 1 else 0) + whole.length +
    (if places.isEmpty then 0 else places.length + 1) + power.length
  match Numeral.digits? whole with
  | none => .error (.notJson c.offset)
  | some n =>
    let rest := c.skip length
    if places.isEmpty && power.isEmpty then
      if digitLimit < whole.length then .error .tooLong
      else .ok (.int (Binary64.signed minus n), rest)
    else
      let numeral := whole ++ (if places.isEmpty then [] else '.' :: places) ++ power
      match Numeral.decimal? numeral with
      | some (m, e) => .ok (.float (Binary64.ofDecimal minus m e), rest)
      | none => .error (.notJson c.offset)

def wordValues : List (Text × Json) :=
  [("null".toList, .null), ("true".toList, .bool true), ("false".toList, .bool false),
    ("NaN".toList, .float .nan), ("Infinity".toList, .float (.infinite false)),
    ("-Infinity".toList, .float (.infinite true))]

/-- The levels that are left within a list or an object, if any are; without a limit there is no end of
them. -/
def within? : Option Nat → Option (Option Nat)
  | none => some none
  | some 0 => none
  | some (n + 1) => some (some n)

mutual

/-- Reads one value that is nested no deeper than some levels. The fuel bounds the depth and the length
of what is read. -/
def readValue (fuel : Nat) (levels : Option Nat) (c : Cursor) : Except Refusal (Json × Cursor) :=
  match fuel with
  | 0 => .error (.notJson c.offset)
  | fuel + 1 =>
    match c.rest with
    | '"' :: rest =>
      (readText c.offset [] c.halved (c.offset + 1) rest).map fun r => (.text r.1, r.2)
    | '[' :: _ =>
      match within? levels with
      | none => .error .tooDeep
      | some levels =>
        let inside := (c.skip 1).skipGaps
        if inside.rest.head? == some ']' then .ok (.array [], inside.skip 1)
        else (readItems fuel levels [] inside).map fun r => (.array r.1, r.2)
    | '\x7b' :: _ =>
      match within? levels with
      | none => .error .tooDeep
      | some levels =>
        let inside := (c.skip 1).skipGaps
        if inside.rest.head? == some '\x7d' then .ok (.object [], inside.skip 1)
        else (readFields fuel levels [] inside).map fun r => (.object r.1, r.2)
    | _ =>
      match wordValues.findSome? fun w => (c.word? w.1).map (w.2, ·) with
      | some r => .ok r
      | none => readNumber c

def readItems (fuel : Nat) (levels : Option Nat) (done : List Json) (c : Cursor) :
    Except Refusal (List Json × Cursor) :=
  match fuel with
  | 0 => .error (.notJson c.offset)
  | fuel + 1 =>
    match readValue fuel levels c with
    | .error e => .error e
    | .ok (v, next) =>
      let next := next.skipGaps
      match next.rest with
      | ']' :: _ => .ok ((v :: done).reverse, next.skip 1)
      | ',' :: _ => readItems fuel levels (v :: done) (next.skip 1).skipGaps
      | _ => .error (.notJson next.offset)

def readFields (fuel : Nat) (levels : Option Nat) (done : List (Text × Json)) (c : Cursor) :
    Except Refusal (List (Text × Json) × Cursor) :=
  match fuel with
  | 0 => .error (.notJson c.offset)
  | fuel + 1 =>
    match c.rest with
    | '"' :: rest =>
      match readText c.offset [] c.halved (c.offset + 1) rest with
      | .error e => .error e
      | .ok (name, next) =>
        let next := next.skipGaps
        if next.rest.head? != some ':' then .error (.notJson next.offset)
        else
          match readValue fuel levels (next.skip 1).skipGaps with
          | .error e => .error e
          | .ok (v, next) =>
            let next := next.skipGaps
            let fields := Named.set name v done
            match next.rest with
            | '\x7d' :: _ => .ok (fields, next.skip 1)
            | ',' :: _ => readFields fuel levels fields (next.skip 1).skipGaps
            | _ => .error (.notJson next.offset)
    | _ => .error (.notJson c.offset)

end

/-- Reads a whole JSON text that is nested no deeper than some levels. Half a character is told of only
where nothing else is wrong. -/
def parse (t : Text) (levels : Option Nat := none) : Except Refusal Json :=
  match readValue (2 * t.length + 2) levels (Cursor.skipGaps { offset := 0, rest := t }) with
  | .error e => .error e
  | .ok (v, c) =>
    let c := c.skipGaps
    if !c.rest.isEmpty then .error (.notJson c.offset)
    else if c.halved then .error .halved
    else .ok v

end Letterhead.Json
