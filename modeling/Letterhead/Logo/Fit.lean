import Letterhead.Failure

/-!
Fitting a picture into a box: it is shrunk, never enlarged, and keeps the ratio of its sides up to
rounding.
-/

namespace Letterhead.Logo

/-- The whole number nearest to `n * m / d`, where the quotient is first rounded to a floating point
number. -/
def scaled (n m d : Int) : Except Failure Int :=
  if d = 0 then .error .divisionByZero
  else
    match Binary64.ofRatio ((n * m < 0) != (d < 0)) (n * m).natAbs d.natAbs with
    | .infinite _ => .error .overflow
    | x => x.rounded

def fit (width height boxWidth boxHeight : Int) : Except Failure (Int × Int) := do
  let (w, h) ← if boxWidth < width then pure (boxWidth, ← scaled height boxWidth width)
    else pure (width, height)
  let (w, h) ← if boxHeight < h then pure (← scaled w boxHeight h, boxHeight) else pure (w, h)
  return (max 1 w, max 1 h)

end Letterhead.Logo
