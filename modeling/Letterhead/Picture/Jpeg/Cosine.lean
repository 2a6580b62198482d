/-!
The inverse cosine transform of blocks of eight by eight coefficients, in whole numbers: first the
columns, then the rows.
-/

namespace Letterhead.Jpeg

def cosine (v : Nat → Int) : List Int :=
  let z := (v 2 + v 6) * 4433
  let c := z - v 6 * 15137
  let d := z + v 2 * 6270
  let a := (v 0 + v 4) * 8192
  let b := (v 0 - v 4) * 8192
  let z5 := (v 7 + v 3 + v 5 + v 1) * 9633
  let z1 := (v 7 + v 1) * -7373
  let z2 := (v 5 + v 3) * -20995
  let z3 := (v 7 + v 3) * -16069 + z5
  let z4 := (v 5 + v 1) * -3196 + z5
  let p := v 7 * 2446 + z1 + z3
  let q := v 5 * 16819 + z2 + z4
  let r := v 3 * 25172 + z2 + z3
  let s := v 1 * 12299 + z1 + z4
  [a + d + s, b + c + r, b - c + q, a - d + p, a - d - p, b - c - q, b + c - r, a + d - s]

def descale (n : Int) (bits : Nat) : Int :=
  (n + (Nat.pow 2 (bits - 1) : Nat)) / (Nat.pow 2 bits : Nat)

def sample (n : Int) : UInt8 := UInt8.ofNat (min 255 n.toNat)

def blockSamples (v : Nat → Int) : Array UInt8 :=
  let columns := ((List.range 8).map fun x =>
    ((cosine fun k => v (8 * k + x)).map fun n => descale n 11).toArray).toArray
  let at' := fun (x y : Nat) => (((columns[x]?).getD #[])[y]?).getD 0
  ((List.range 8).flatMap fun y =>
    (cosine fun k => at' k y).map fun n => sample (descale n 18 + 128)).toArray

end Letterhead.Jpeg
