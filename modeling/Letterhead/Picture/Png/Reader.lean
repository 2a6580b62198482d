import Letterhead.Coding.Inflate
import Letterhead.Picture.Png.Line

/-!
Reading a PNG file. Its points may be spread over several chunks; what follows them has to be whole,
but may end anywhere between two chunks.
-/

namespace Letterhead.Png

def holdsPoints (name : List UInt8) : Bool :=
  name == named "IDAT" || name == named "DDAT" || name == named "fdAT"

def pointData : Nat → List UInt8 → List UInt8 × Found
  | 0, _ => ([], .cut)
  | fuel + 1, bs =>
    match find bs with
    | .start s rest =>
      if holdsPoints s.name then
        let r := pointData fuel (rest.drop (s.length + 4))
        (rest.take s.length ++ r.1, r.2)
      else ([], .start s rest)
    | f => ([], f)

def afterPoints : Nat → Nat → List UInt8 → List UInt8
  | 0, _, bs => bs
  | fuel + 1, used, bs =>
    match find bs with
    | .start s rest =>
      let next := rest.drop (s.length + 4)
      if s.length < used then afterPoints fuel (used - s.length) next else next
    | _ => bs

def tail? : Nat → List UInt8 → Option (List Chunk)
  | 0, _ => some []
  | fuel + 1, bs =>
    match find bs with
    | .start s rest =>
      if s.name == named "IEND" then some []
      else do
        let data ← Bytes.part? 0 s.length rest
        let c : Chunk := ⟨s.name, data⟩
        if c.isLongEnough then
          let cs ← tail? fuel (rest.drop (s.length + 4))
          return c :: cs
        else none
    | _ => some []

def palette? (cs : List Chunk) : Option Palette :=
  let data := ((lastData? "PLTE" cs).getD []).toArray
  let count := data.size / 3
  if Palette.limit < count then none
  else some ⟨(Array.range count).map fun i =>
    ((List.range 3).map fun k => (data[3 * i + k]?).getD 0) ++ [255]⟩

/-- Alphas that name one transparent index: all others are opaque. -/
def singleClear? (alphas : List UInt8) : Option Nat :=
  let alphas := if alphas.getLast? = some 10 then alphas.dropLast else alphas
  if alphas.count 0 = 1 && alphas.all (fun a => a = 0 || a = 255) then some (alphas.idxOf 0)
  else none

def faded? (p : Palette) (alphas : List UInt8) : Option Palette :=
  match singleClear? alphas with
  | some i => if i < Palette.limit then some (p.hide i) else none
  | none => if alphas.length ≤ Palette.limit then some (p.fade alphas) else none

def dressed? (f : Info) (front tail : List Chunk) (samples : ByteArray) : Option Picture :=
  let clear := lastData? "tRNS" (front ++ tail)
  match f.header.mode, clear with
  | .indexed, none => (palette? front).map fun p => ⟨f.header, samples, p, none⟩
  | .indexed, some alphas => do
    let p ← palette? front
    return ⟨f.header, samples, ← faded? p alphas, none⟩
  | .bilevel, some level | .gray, some level | .deepGray, some level =>
    (Bytes.bigAt? 0 2 level).map fun t => ⟨f.header, samples, {}, some t⟩
  | .colour, some level => (Bytes.bigAt? 4 2 level).map fun _ => ⟨f.header, samples, {}, none⟩
  | _, _ => some ⟨f.header, samples, {}, none⟩

def header (bs : List UInt8) : Except Picture.Fault Picture.Header :=
  match (front? bs).bind Front.info? with
  | some f => f.header.check
  | none => .error .unreadable

def samples (f : Info) (rest : List UInt8) : Except Picture.Fault (ByteArray × Nat) :=
  let (data, next) := pointData (rest.length + 1) rest
  let short : Except Picture.Fault (ByteArray × Nat) := match next with
    | .misnamed name => .error (.broken name)
    | _ => .error .unreadable
  match Inflate.read? (Bytes.ofList data) f.dataSize with
  | none => .error .unreadable
  | some r =>
    match f.read r.bytes with
    | .whole b => .ok (b, r.used)
    | .between b => if r.ended && 0 < r.bytes.size then .ok (b, r.used) else short
    | .within => short
    | .unknown => .error .unreadable

def read (bs : List UInt8) : Except Picture.Fault Picture :=
  match front? bs with
  | none => .error .unreadable
  | some front =>
    match front.info? with
    | none => .error .unreadable
    | some f => do
      let _ ← f.header.check
      let (b, used) ← samples f front.rest
      let n := front.rest.length + 1
      match (tail? n (afterPoints n used front.rest)).bind
        fun tail => dressed? f front.chunks tail b with
      | some p => return p
      | none => throw .unreadable

end Letterhead.Png
