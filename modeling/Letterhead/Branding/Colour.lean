import Letterhead.Failure
import Letterhead.Json.Display
import Letterhead.Text.Blank
import Letterhead.Text.Digit

/-!
Colours as six hexadecimal digits behind a number sign. Three digits stand for their doubles; any
other text stands for a default. Lighter and darker shades are computed in floating point numbers,
each component on its own.
-/

namespace Letterhead

structure Colour where
  red : Nat
  green : Nat
  blue : Nat
deriving DecidableEq, Repr

namespace Colour

def defaultText : Text := "#003366".toList

def digits? (t : Text) : Option Text :=
  let body := if t.head? == some '#' then t.drop 1 else t
  if body.all (fun c => (hexDigit? c).isSome) then
    if body.length = 6 then some (Text.lowerAscii body)
    else if body.length = 3 then some ((Text.lowerAscii body).flatMap fun c => [c, c])
    else none
  else none

def normalize (fallback : Text) (v : Json) : Text :=
  match digits? (Text.trim v.displayTruthy) with
  | some ds => '#' :: ds
  | none => fallback

def component (t : Text) : Nat :=
  (t.take 2).foldl (fun n c => 16 * n + (hexDigit? c).getD 0) 0

def ofText (t : Text) : Colour :=
  ⟨component (t.drop 1), component (t.drop 3), component (t.drop 5)⟩

def ofJson (v : Json) : Colour := ofText (normalize defaultText v)

def components (c : Colour) : List Nat := [c.red, c.green, c.blue]

def clamp (n : Int) : Nat := (max 0 (min 255 n)).toNat

def textOf (ns : List Int) : Text := '#' :: ns.flatMap fun n => Text.hex 2 (clamp n)

def text (c : Colour) : Text := textOf (c.components.map Int.ofNat)

def componentOf : Json → Except Failure Int
  | .int n => .ok n
  | .bool b => .ok (if b then 1 else 0)
  | .float x => x.truncated
  | .text t => Numeral.whole t
  | _ => .error .wrongType

def textOfValues (vs : List Json) : Except Failure Text := do
  return textOf (← vs.mapM componentOf)

def share : Json → Except Failure Binary64
  | .float x => .ok (x.divNat 100)
  | .int n => hundredth n
  | .bool b => hundredth (if b then 1 else 0)
  | _ => .error .wrongType
where
  hundredth (n : Int) : Except Failure Binary64 :=
    match Binary64.ofRatio (n < 0) n.natAbs 100 with
    | .infinite _ => .error .overflow
    | x => .ok x

def lightened (share : Binary64) (n : Nat) : Except Failure Int := do
  let r ← ((Binary64.ofInt n).add ((Binary64.ofInt (255 - n)).mul share)).rounded
  return min 255 r

def darkened (left : Binary64) (n : Nat) : Except Failure Int :=
  ((Binary64.ofInt n).mul left).rounded

def lighten (c : Colour) (percent : Json) : Except Failure Text := do
  let s ← share percent
  return textOf (← c.components.mapM (lightened s))

def darken (c : Colour) (percent : Json) : Except Failure Text := do
  let s ← share percent
  return textOf (← c.components.mapM (darkened ((Binary64.ofInt 1).sub s)))

def thousandths (n : Nat) : Binary64 := .ofRatio false n 1000

def luma (c : Colour) : Binary64 :=
  let part := fun (weight value : Nat) => (thousandths weight).mul (.ofInt value)
  ((part 299 c.red).add (part 587 c.green)).add (part 114 c.blue)

/-- Light colours have more than half of the brightness of white. -/
def isLight (c : Colour) : Bool := (thousandths 500).lt (c.luma.divNat 255)

def contrast (c : Colour) : Text := (if c.isLight then "#000000" else "#ffffff").toList

theorem clamp_le (n : Int) : clamp n ≤ 255 := by
  unfold clamp
  omega

theorem clamp_ofNat {n : Nat} (h : n ≤ 255) : clamp n = n := by
  unfold clamp
  omega

end Colour
end Letterhead
