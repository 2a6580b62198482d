/-!
Weights for shrinking a row of samples: each new sample is a mean of the old ones around its place,
weighted by a sine curve that is cut off by another one. All numbers are whole, in units of a power
of two.
-/

namespace Letterhead.Kernel

def one : Int := (Nat.pow 2 40 : Nat)

def halfTurn : Int := 3454217652358

/-- The sine of `t` half turns divided by its argument, from the square of the argument: the sum of
the first terms of its series. -/
def curveOfSquare (square : Int) : Int :=
  ((List.range 24).foldl (fun (s : Int × Int) (k : Nat) =>
    let term := -(s.2 * square / one) / ((2 * k + 2) * (2 * k + 3))
    (s.1 + term, term)) (one, one)).1

def curve (n d : Int) : Int :=
  let x := halfTurn * n / d
  curveOfSquare (x * x / one)

def lobes : Int := 3

def weight (n d : Int) : Int :=
  if -lobes * d ≤ n && n < lobes * d then curve n d * curve n (lobes * d) / one else 0

def unit : Int := (Nat.pow 2 22 : Nat)

/-- The old samples that a new one is made of: the first one, and the weights from there on. -/
structure Window where
  first : Nat
  weights : List Int
deriving Repr

def nearest (n d : Int) : Int := (2 * n + d) / (2 * d)

def window (old new i : Nat) : Window :=
  let centre : Int := (2 * i + 1) * old
  let first := ((centre - 2 * lobes * old + new) / (2 * new)).toNat
  let last := min old ((centre + 2 * lobes * old + new) / (2 * new)).toNat
  let ws := (List.range (last - first)).map fun k =>
    weight ((2 * (first + k : Nat) + 1) * new - centre) (2 * old)
  let total := ws.foldl (· + ·) 0
  ⟨first, if total = 0 then ws else ws.map fun w => nearest (w * unit) total⟩

def Window.mean (w : Window) (samples : ByteArray) (start step : Nat) : UInt8 :=
  let s := w.weights.foldl (fun (s : Int × Nat) k =>
    (s.1 + k * ((samples[s.2]?).getD 0).toNat, s.2 + step)) (0, start + w.first * step)
  UInt8.ofNat (min 255 (nearest s.1 unit).toNat)

end Letterhead.Kernel
