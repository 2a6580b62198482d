import Letterhead.Number.Binary64
import Letterhead.Text.Digit

/-!
Decimal numerals of whole and floating point numbers. The numeral of a floating point number has the
fewest digits that read back as the number; numerals with a fixed number of places, or of digits,
round the exact value, a half going to the even digit.
-/

namespace Letterhead

def natText (n : Nat) : Text := Nat.toDigits 10 n

def intText (n : Int) : Text := if n < 0 then '-' :: natText n.natAbs else natText n.natAbs

def padded (width n : Nat) : Text :=
  let ds := natText n
  List.replicate (width - ds.length) '0' ++ ds

namespace Binary64

/-- A point of the decimal grid `10 ^ p` reads back as `m * 2 ^ e` when it lies between the middles
to the neighbouring numbers; the middles themselves go to an even mantissa. -/
def readsBack (m : Nat) (e p : Int) (point : Nat) : Bool :=
  let low := if m = Nat.pow 2 52 && leastExponent < e then 4 * m - 1 else 4 * m - 2
  let high := 4 * m + 2
  let x := divPower 10 point 1 (-p)
  let lo := divPower 2 low 1 (2 - e)
  let hi := divPower 2 high 1 (2 - e)
  let below := lo.1 * x.2
  let above := hi.1 * x.2
  if m % 2 = 0 then below ≤ x.1 * lo.2 && x.1 * hi.2 ≤ above
  else below < x.1 * lo.2 && x.1 * hi.2 < above

/-- The neighbour of `m * 2 ^ e` on the decimal grid `10 ^ p` that reads back and is nearer. -/
def gridPoint? (m : Nat) (e p : Int) : Option Nat :=
  let v := divPower 2 m 1 (-e)
  let g := divPower 10 v.1 v.2 p
  let down := g.1 / g.2
  let near := roundRatio g.1 g.2
  let far := if near = down then down + 1 else down
  if 0 < near && readsBack m e p near then some near
  else if 0 < far && readsBack m e p far then some far
  else none

/-- The fewest digits that read back as the positive number `m * 2 ^ e`, with the power of ten of
the last one. Seventeen digits always read back. -/
def shortestDigits (m : Nat) (e : Int) : Nat × Int :=
  let v := divPower 2 m 1 (-e)
  let top := floorLog10 v.1 v.2
  match (List.range 17).findSome? fun (k : Nat) =>
      (gridPoint? m e (top - k)).map fun n => (n, top - (k : Int)) with
  | some r => r
  | none => (m, 0)

def placePoint (digits : Text) (top : Int) : Text × Text :=
  if top < 0 then (['0'], List.replicate (-top - 1).toNat '0' ++ digits)
  else
    let n := top.toNat + 1
    (digits.take n ++ List.replicate (n - digits.length) '0', digits.drop n)

def exponentText (e : Int) : Text :=
  'e' :: (if e < 0 then '-' else '+') :: padded 2 e.natAbs

def scientific (digits : Text) (top : Int) : Text :=
  match digits with
  | [] => []
  | [d] => d :: exponentText top
  | d :: ds => d :: '.' :: ds ++ exponentText top

def signText (negative : Bool) : Text := if negative then ['-'] else []

/-- The numeral with the fewest digits: positional from `10 ^ -4` up to below `10 ^ 16`, and then
with at least one place. -/
def text : Binary64 → Text
  | nan => "nan".toList
  | infinite s => signText s ++ "inf".toList
  | finite s m e =>
    if m = 0 then signText s ++ "0.0".toList
    else
      let r := shortestDigits m e
      let digits := natText r.1
      let top : Int := r.2 + digits.length - 1
      if -4 ≤ top && top < 16 then
        let p := placePoint digits top
        signText s ++ p.1 ++ '.' :: (if p.2.isEmpty then ['0'] else p.2)
      else signText s ++ scientific digits top

def grouped (digits : Text) : Text :=
  if digits.length ≤ 3 then digits
  else grouped (digits.take (digits.length - 3)) ++ ',' :: digits.drop (digits.length - 3)
termination_by digits.length
decreasing_by simp; omega

def fixed (places : Nat) (comma : Bool) : Binary64 → Text
  | nan => "nan".toList
  | infinite s => signText s ++ "inf".toList
  | finite s m e =>
    let v := divPower 2 m 1 (-e)
    let digits := padded (places + 1) (roundRatio (v.1 * Nat.pow 10 places) v.2)
    let whole := digits.take (digits.length - places)
    let rest := digits.drop (digits.length - places)
    signText s ++ (if comma then grouped whole else whole) ++
      (if places = 0 then [] else '.' :: rest)

def dropZeros (places : Text) : Text := (places.reverse.dropWhile (· == '0')).reverse

/-- The numeral with six digits at most, zeros at the end of its places dropped: positional from
`10 ^ -4` up to below `10 ^ 6`. -/
def brief : Binary64 → Text
  | nan => "nan".toList
  | infinite s => signText s ++ "inf".toList
  | finite s m e =>
    if m = 0 then signText s ++ ['0']
    else
      let v := divPower 2 m 1 (-e)
      let top := floorLog10 v.1 v.2
      let g := divPower 10 v.1 v.2 (top - 5)
      let n := roundRatio g.1 g.2
      let (n, top) := if n = Nat.pow 10 6 then (Nat.pow 10 5, top + 1) else (n, top)
      if -4 ≤ top && top < 6 then
        let p := placePoint (natText n) top
        let rest := dropZeros p.2
        signText s ++ p.1 ++ (if rest.isEmpty then [] else '.' :: rest)
      else
        let digits := natText n
        signText s ++ scientific (digits.take 1 ++ dropZeros (digits.drop 1)) top

end Binary64
end Letterhead
