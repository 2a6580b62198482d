import Letterhead.Picture.Jpeg.Cosine
import Letterhead.Picture.Jpeg.Scan

/-!
Planes: the samples of one component. A plane with fewer samples than the picture is widened: each
new sample leans three to one towards the nearer of two old ones.
-/

namespace Letterhead.Jpeg

structure Plane where
  width : Nat
  height : Nat
  samples : ByteArray

namespace Plane

def at' (p : Plane) (x y : Nat) : Nat :=
  ((p.samples[min y (p.height - 1) * p.width + min x (p.width - 1)]?).getD 0).toNat

def ofFunction (width height : Nat) (f : Nat → Nat → Nat) : Plane :=
  ⟨width, height, (List.range height).foldl (fun out y =>
    (List.range width).foldl (fun out x => out.push (UInt8.ofNat (f x y))) out) .empty⟩

def ofValues (f : Frame) (c : Component) (divisors : Array Nat) (values : Array Int) : Plane :=
  let natural := (List.range 64).foldl (fun (a : Array Nat) k =>
    a.setIfInBounds (placeOf k) ((divisors[k]?).getD 1)) (Array.replicate 64 1)
  let across := f.blocksAcross c
  let blocks := (Array.range (values.size / 64)).map fun n =>
    blockSamples fun i => (values[64 * n + i]?).getD 0 * (natural[i]?).getD 1
  ofFunction (f.widthOf c) (f.heightOf c) fun x y =>
    ((((blocks[y / 8 * across + x / 8]?).getD #[])[y % 8 * 8 + x % 8]?).getD 0).toNat

/-- The old sample next to a new one that is not the nearest: before it or after it. -/
def neighbour (i : Nat) : Nat := if i % 2 = 0 then i / 2 - 1 else i / 2 + 1

def wider (p : Plane) : Plane :=
  ofFunction (2 * p.width) p.height fun x y =>
    if x = 0 || x + 1 = 2 * p.width then p.at' (x / 2) y
    else (3 * p.at' (x / 2) y + p.at' (neighbour x) y + (if x % 2 = 0 then 1 else 2)) / 4

def higher (p : Plane) : Plane :=
  ofFunction p.width (2 * p.height) fun x y =>
    (3 * p.at' x (y / 2) + p.at' x (neighbour y) + (if y % 2 = 0 then 1 else 2)) / 4

def larger (p : Plane) : Plane :=
  let column := fun (x y : Nat) => 3 * p.at' x (y / 2) + p.at' x (neighbour y)
  ofFunction (2 * p.width) (2 * p.height) fun x y =>
    let other := if x = 0 || x + 1 = 2 * p.width then x / 2 else neighbour x
    (3 * column (x / 2) y + column other y + (if x % 2 = 0 then 8 else 7)) / 16

def repeated (p : Plane) (across down : Nat) : Plane :=
  ofFunction (across * p.width) (down * p.height) fun x y => p.at' (x / across) (y / down)

def enlarged (p : Plane) (across down : Nat) : Plane :=
  if across = 1 && down = 1 then p
  else if across = 2 && down = 1 && 2 < p.width then p.wider
  else if across = 2 && down = 2 && 2 < p.width then p.larger
  else if across = 1 && down = 2 then p.higher
  else p.repeated across down

end Plane

inductive Colours where
  | plain
  | light (inverse : Bool)
deriving DecidableEq, Repr

def colourOf (y cb cr : Nat) : List Nat :=
  let b : Int := (cb : Int) - 128
  let r : Int := (cr : Int) - 128
  let clip := fun (n : Int) => min 255 n.toNat
  [clip (y + (91881 * r + 32768) / 65536),
    clip (y + (-22554 * b - 46802 * r + 32768) / 65536),
    clip (y + (116130 * b + 32768) / 65536)]

def Colours.samples (inks : Bool) : Colours → List Nat → List Nat
  | light inverse, y :: cb :: cr :: rest =>
    let cs := colourOf y cb cr
    (if inverse then cs.map (255 - ·) else cs) ++ rest.map fun k => if inks then 255 - k else k
  | _, point => if inks then point.map (255 - ·) else point

end Letterhead.Jpeg
