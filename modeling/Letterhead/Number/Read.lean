import Letterhead.Number.Numeral
import Letterhead.Text.Blank
import Letterhead.Text.Letter

/-!
Reading numerals. A single underscore may stand between two digits. The numeral as it is typed
allows blanks around it and the digits of every script; the strict one has the digits 0 to 9 alone.
-/

namespace Letterhead.Numeral

/-- Drops single underscores between digits; any other underscore makes the text no numeral. The
first argument is the character before the text. -/
def dropUnderscores? : Char → Text → Option Text
  | before, [] => if before == '_' then none else some []
  | before, c :: rest =>
    if c == '_' then
      if before.isDigit then dropUnderscores? '_' rest else none
    else if before == '_' && !c.isDigit then none
    else (dropUnderscores? c rest).map (c :: ·)

def digits? (t : Text) : Option Nat :=
  if t.isEmpty || !t.all Char.isDigit then none
  else some (t.foldl (fun n c => 10 * n + (c.toNat - 48)) 0)

def sign : Text → Bool × Text
  | '-' :: rest => (true, rest)
  | '+' :: rest => (false, rest)
  | t => (false, t)

def int? (t : Text) : Option Int :=
  let s := sign t
  ((dropUnderscores? ' ' s.2).bind digits?).map (Binary64.signed s.1)

/-- A decimal numeral without its sign: digits with at most one point, then perhaps an exponent.
The result is a mantissa and a power of ten. -/
def decimal? (t : Text) : Option (Nat × Int) :=
  let isMark := fun c => c == 'e' || c == 'E'
  let body := t.takeWhile (!isMark ·)
  let tail := t.dropWhile (!isMark ·)
  let whole := body.takeWhile (· != '.')
  let places := (body.dropWhile (· != '.')).drop 1
  let power : Option Int :=
    match tail with
    | [] => some 0
    | _ :: e =>
      let s := sign e
      (digits? s.2).map (Binary64.signed s.1)
  match digits? (whole ++ places), power with
  | some n, some e => some (n, e - places.length)
  | _, _ => none

/-- The floating point number of a numeral without blanks and underscores; infinity and `nan` are
spelled in any case. -/
def binary64? (t : Text) : Option Binary64 :=
  let s := sign t
  let word := String.ofList (Text.lowerAscii s.2)
  if word == "inf" || word == "infinity" then some (.infinite s.1)
  else if word == "nan" then some .nan
  else (decimal? s.2).map fun r => Binary64.ofDecimal s.1 r.1 r.2

/-- Puts the digits 0 to 9 for the digits of every script and a space for every blank, and trims. -/
def typed (t : Text) : Text :=
  Text.trim (t.map fun c =>
    match digitValue? c with
    | some n => digitChar n
    | none => if isBlank c then ' ' else c)

def typedInt? (t : Text) : Option Int := int? (typed t)

def typedBinary64? (t : Text) : Option Binary64 := (dropUnderscores? ' ' (typed t)).bind binary64?

end Letterhead.Numeral
