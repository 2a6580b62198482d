import Letterhead.Number.Ratio

/-!
Binary floating point numbers of 64 bits, held exactly: a finite number is a mantissa below `2 ^ 53`
times a power of two. An operation computes the exact result and rounds it once, to the nearest
number, a half going to the even mantissa.
-/

namespace Letterhead

/-- A floating point number of 64 bits: `mantissa * 2 ^ exponent` with a sign, an infinity, or no
number. -/
inductive Binary64 where
  | finite (negative : Bool) (mantissa : Nat) (exponent : Int)
  | infinite (negative : Bool)
  | nan
deriving DecidableEq, Repr

namespace Binary64

def leastExponent : Int := -1074

def greatestExponent : Int := 971

def nearest? (n d : Nat) : Option (Nat × Int) :=
  if n = 0 then some (0, leastExponent)
  else
    let e := max (floorLog2 n d - 52) leastExponent
    let p := divPower 2 n d e
    let m := roundRatio p.1 p.2
    let r : Nat × Int := if m = Nat.pow 2 53 then (Nat.pow 2 52, e + 1) else (m, e)
    if r.2 ≤ greatestExponent then some r else none

def ofRatio (negative : Bool) (n d : Nat) : Binary64 :=
  match nearest? n d with
  | some (m, e) => finite negative m e
  | none => infinite negative

def ofScaled (negative : Bool) (n : Nat) (e : Int) : Binary64 :=
  let p := divPower 2 n 1 (-e)
  ofRatio negative p.1 p.2

/-- The number nearest to `n * 10 ^ e`. Powers beyond every number are settled by their size. -/
def ofDecimal (negative : Bool) (n : Nat) (e : Int) : Binary64 :=
  if n = 0 then finite negative 0 leastExponent
  else
    let magnitude := e + floorLog10 n 1
    if 400 < magnitude then infinite negative
    else if magnitude < -400 then finite negative 0 leastExponent
    else
      let p := divPower 10 n 1 (-e)
      ofRatio negative p.1 p.2

def ofInt (n : Int) : Binary64 := ofRatio (n < 0) n.natAbs 1

def zero (negative : Bool) : Binary64 := finite negative 0 leastExponent

def neg : Binary64 → Binary64
  | finite s m e => finite (!s) m e
  | infinite s => infinite (!s)
  | nan => nan

def signed (negative : Bool) (m : Nat) : Int := if negative then -(m : Int) else m

def exactSum (s : Bool) (m : Nat) (e : Int) (s' : Bool) (m' : Nat) (e' : Int) : Int × Int :=
  let low := min e e'
  (signed s m * (Nat.pow 2 (e - low).toNat : Nat) +
    signed s' m' * (Nat.pow 2 (e' - low).toNat : Nat), low)

/-- The sum, rounded once. Opposite numbers add up to positive zero. -/
def add : Binary64 → Binary64 → Binary64
  | nan, _ => nan
  | _, nan => nan
  | infinite s, infinite s' => if s = s' then infinite s else nan
  | infinite s, finite _ _ _ => infinite s
  | finite _ _ _, infinite s => infinite s
  | finite s m e, finite s' m' e' =>
    let r := exactSum s m e s' m' e'
    if r.1 = 0 then zero (s && s') else ofScaled (r.1 < 0) r.1.natAbs r.2

def sub (x y : Binary64) : Binary64 := add x (neg y)

def mul : Binary64 → Binary64 → Binary64
  | nan, _ => nan
  | _, nan => nan
  | infinite s, infinite s' => infinite (s != s')
  | infinite s, finite s' m _ => if m = 0 then nan else infinite (s != s')
  | finite s m _, infinite s' => if m = 0 then nan else infinite (s != s')
  | finite s m e, finite s' m' e' => ofScaled (s != s') (m * m') (e + e')

def divNat : Binary64 → Nat → Binary64
  | nan, _ => nan
  | infinite s, _ => infinite s
  | finite s m e, d =>
    let p := divPower 2 m d (-e)
    ofRatio s p.1 p.2

def lt : Binary64 → Binary64 → Bool
  | nan, _ => false
  | _, nan => false
  | infinite s, infinite s' => s && !s'
  | infinite s, finite _ _ _ => s
  | finite _ _ _, infinite s => !s
  | finite s m e, finite s' m' e' => (exactSum s m e (!s') m' e').1 < 0

def isWhole : Binary64 → Bool
  | finite _ m e => 0 ≤ e || m % Nat.pow 2 (-e).toNat == 0
  | _ => false

def isZero : Binary64 → Bool
  | finite _ m _ => m == 0
  | _ => false

def roundScaled (m : Nat) (e : Int) : Nat :=
  let p := divPower 2 m 1 (-e)
  roundRatio p.1 p.2

def round? : Binary64 → Option Int
  | finite s m e => some (signed s (roundScaled m e))
  | _ => none

def truncate? : Binary64 → Option Int
  | finite s m e =>
    let p := divPower 2 m 1 (-e)
    some (signed s (p.1 / p.2))
  | _ => none

end Binary64
end Letterhead
