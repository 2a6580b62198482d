import Letterhead.Picture.Basic
import Letterhead.Picture.Kernel

/-!
Rasters in another size. Colours are weighted by their alpha while they are mixed.
-/

namespace Letterhead.Raster

def weighted (point : List UInt8) : List UInt8 :=
  match point.getLast? with
  | some a => point.dropLast.map (fun c => UInt8.ofNat (Picture.product c.toNat a.toNat)) ++ [a]
  | none => []

def unweighted (point : List UInt8) : List UInt8 :=
  match point.getLast? with
  | some a =>
    if a = 0 || a = 255 then point
    else point.dropLast.map (fun c => UInt8.ofNat (min 255 (255 * c.toNat / a.toNat))) ++ [a]
  | none => []

def mapPoints (f : List UInt8 → List UInt8) (r : Raster) : Raster :=
  { r with samples := Picture.spread r.channels.count f r.samples (r.width * r.height) }

def resizeRows (width : Nat) (r : Raster) : Raster :=
  if width = r.width then r
  else
    let n := r.channels.count
    let windows := (List.range width).map (Kernel.window r.width width)
    { r with
      width := width
      samples := (List.range r.height).foldl (fun out y =>
        windows.foldl (fun out w => (List.range n).foldl (fun out c =>
          out.push (w.mean r.samples (y * r.width * n + c) n)) out) out) .empty }

def resizeColumns (height : Nat) (r : Raster) : Raster :=
  if height = r.height then r
  else
    let size := r.width * r.channels.count
    let windows := (List.range height).map (Kernel.window r.height height)
    { r with
      height := height
      samples := windows.foldl (fun out w => (List.range size).foldl (fun out k =>
        out.push (w.mean r.samples k size)) out) .empty }

def resize (width height : Nat) (r : Raster) : Raster :=
  if width = r.width && height = r.height then r
  else if r.channels.hasAlpha then
    ((r.mapPoints weighted).resizeRows width |>.resizeColumns height).mapPoints unweighted
  else r.resizeRows width |>.resizeColumns height

@[simp] theorem resizeRows_height (width : Nat) (r : Raster) :
    (r.resizeRows width).height = r.height := by
  unfold resizeRows
  split <;> rfl

@[simp] theorem resizeRows_width (width : Nat) (r : Raster) :
    (r.resizeRows width).width = width := by
  unfold resizeRows
  split
  · next h => exact h.symm
  · rfl

@[simp] theorem resizeColumns_width (height : Nat) (r : Raster) :
    (r.resizeColumns height).width = r.width := by
  unfold resizeColumns
  split <;> rfl

@[simp] theorem resizeColumns_height (height : Nat) (r : Raster) :
    (r.resizeColumns height).height = height := by
  unfold resizeColumns
  split
  · next h => exact h.symm
  · rfl

@[simp] theorem resize_width (width height : Nat) (r : Raster) :
    (r.resize width height).width = width := by
  unfold resize
  split
  · next h => simp_all
  · split <;> simp [mapPoints]

@[simp] theorem resize_height (width height : Nat) (r : Raster) :
    (r.resize width height).height = height := by
  unfold resize
  split
  · next h => simp_all
  · split <;> simp [mapPoints]

end Letterhead.Raster
