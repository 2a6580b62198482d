import Letterhead.Coding.Bits

/-!
Codes of growing width that stand for strings of bytes: each code read names a string that is the
one before with one more byte. Two codes start afresh and end.
-/

namespace Letterhead.Lzw

def tableLimit : Nat := 4096

def widthLimit : Nat := 12

/-- The strings named so far, shortest last byte first: each is an earlier code and a byte. The
width of codes, and the string read last. -/
structure Table where
  start : Nat
  links : Array (Nat × UInt8) := #[]
  width : Nat
  last : Option (Nat × UInt8) := none

namespace Table

def fresh (bits : Nat) : Table where
  start := Nat.pow 2 bits
  width := bits + 1

def next (t : Table) : Nat := t.start + 2 + t.links.size

/-- The string of a code, put before some bytes. The links lead to ever lower codes. -/
def expand (t : Table) : Nat → Nat → List UInt8 → Option (List UInt8)
  | 0, _, _ => none
  | fuel + 1, code, rest =>
    if code < t.start then some (UInt8.ofNat code :: rest)
    else
      match t.links[code - (t.start + 2)]? with
      | some (link, x) => expand t fuel link (x :: rest)
      | none => none

/-- The string of a code, which may be the one that is about to be named. -/
def string? (t : Table) (code : Nat) : Option (List UInt8) :=
  match t.last with
  | none => if code < t.start then some [UInt8.ofNat code] else none
  | some (before, first) =>
    if t.next < code then none
    else if code = t.next then t.expand (tableLimit + 1) before [first]
    else t.expand (tableLimit + 1) code []

def name (t : Table) (x : UInt8) : Table :=
  match t.last with
  | none => t
  | some (before, _) =>
    if t.next < tableLimit then
      { t with
        links := t.links.push (before, x)
        width :=
          if t.next + 1 = Nat.pow 2 t.width && t.width < widthLimit then t.width + 1
          else t.width }
    else t

def take? (t : Table) (code : Nat) : Option (List UInt8 × Table) := do
  let s ← t.string? code
  let first ← s.head?
  return (s, { t.name first with last := some (code, first) })

end Table

/-- Reads codes until there are as many bytes as are wanted; the code of the end is passed over. -/
def readFrom (bits wanted : Nat) : Nat → Table → Bits → ByteArray → Option ByteArray
  | 0, _, _, _ => none
  | fuel + 1, t, b, out =>
    if wanted ≤ out.size then some out
    else
      match b.number t.width with
      | .error _ => none
      | .ok (code, b) =>
        if code = t.start then readFrom bits wanted fuel (Table.fresh bits) b out
        else if code = t.start + 1 then none
        else
          match t.take? code with
          | some (s, t) => readFrom bits wanted fuel t b (s.foldl ByteArray.push out)
          | none => none

def read? (bits wanted : Nat) (data : ByteArray) : Option ByteArray :=
  if widthLimit < bits then none
  else (readFrom bits wanted (data.size * 8 + 1) (Table.fresh bits) { data := data } .empty).map
    fun out => out.extract 0 wanted

end Letterhead.Lzw
