import Letterhead.Text.Basic

/-!
Bytes as text of sixty-four characters, six bits each. Reading passes over characters that are none
of them, and needs padding at the end of what is not whole.
-/

namespace Letterhead.Base64

def alphabet : Array Char :=
  "ABCDEFGHIJKLMNOPQRSTUVWXYZabcdefghijklmnopqrstuvwxyz0123456789+/".toList.toArray

def char (n : Nat) : Char := (alphabet[n]?).getD '='

def encodeGroup : List Nat → Text
  | [] => []
  | [a] => [char (a / 4), char (a % 4 * 16), '=', '=']
  | [a, b] => [char (a / 4), char (a % 4 * 16 + b / 16), char (b % 16 * 4), '=']
  | a :: b :: c :: _ =>
    [char (a / 4), char (a % 4 * 16 + b / 16), char (b % 16 * 4 + c / 64), char (c % 64)]

def encode (b : ByteArray) : Text :=
  (List.range ((b.size + 2) / 3)).flatMap fun i =>
    encodeGroup (((List.range 3).filterMap fun k => (b[3 * i + k]?).map UInt8.toNat))

def value? (c : Char) : Option Nat :=
  let n := c.toNat
  if 65 ≤ n && n ≤ 90 then some (n - 65)
  else if 97 ≤ n && n ≤ 122 then some (n - 71)
  else if 48 ≤ n && n ≤ 57 then some (n + 4)
  else if c == '+' then some 62
  else if c == '/' then some 63
  else none

/-- What was read of a text: whole bytes, the place in the group of four that is next, the bits left
over, and the padding seen since the last value. -/
structure Progress where
  bytes : ByteArray := .empty
  place : Nat := 0
  bits : Nat := 0
  padding : Nat := 0

def Progress.take (p : Progress) (v : Nat) : Progress :=
  match p.place with
  | 0 => { p with place := 1, bits := v, padding := 0 }
  | 1 => ⟨p.bytes.push (UInt8.ofNat (p.bits * 4 + v / 16)), 2, v % 16, 0⟩
  | 2 => ⟨p.bytes.push (UInt8.ofNat (p.bits * 16 + v / 4)), 3, v % 4, 0⟩
  | _ => ⟨p.bytes.push (UInt8.ofNat (p.bits * 64 + v)), 0, 0, 0⟩

/-- Reads on through a text. Padding that completes a group ends it. -/
def decodeFrom (p : Progress) : Text → Option ByteArray
  | [] => if p.place = 0 then some p.bytes else none
  | c :: rest =>
    if c == '=' then
      if p.place < 2 then decodeFrom p rest
      else if 4 ≤ p.place + p.padding + 1 then some p.bytes
      else decodeFrom { p with padding := p.padding + 1 } rest
    else
      match value? c with
      | some v => decodeFrom (p.take v) rest
      | none => decodeFrom p rest

/-- The bytes of a text; characters beyond ASCII make it unreadable. -/
def decode? (t : Text) : Option ByteArray :=
  if t.all fun c => c.toNat < 128 then decodeFrom {} t else none

end Letterhead.Base64
