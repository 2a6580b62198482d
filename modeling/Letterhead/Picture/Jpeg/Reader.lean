import Letterhead.Picture.Jpeg.Plane

/-!
Reading a JPEG file. A file of one scan may end after it with any marker; a file of several scans
has to come to its end.
-/

namespace Letterhead.Jpeg

def opened? (bs : List UInt8) : Option (Picture.Header × List Segment × List UInt8) := do
  if !signature.isPrefixOf bs then none
  let (ss, rest) ← segments (bs.length + 1) (bs.drop 2)
  return (← headerOf? ss, ss, rest)

/-- A first scan has to bring every component, or else more scans follow. -/
def Frame.needsMore (f : Frame) (s : Scan) : Bool :=
  f.progressive || s.parts.length < f.components.length

def Frame.isReadable (f : Frame) (marker : Nat) : Bool :=
  (marker = 0xC0 || marker = 0xC1 || marker = 0xC2) && f.isEven

/-- Reads scans up to the end of the file; `ss` are segments before the next scan, and the scan. -/
def readScans (f : Frame) : Nat → Tables → List Segment → List UInt8 → Array (Array Int) →
    Option (Tables × Array (Array Int))
  | 0, _, _, _, _ => none
  | fuel + 1, t, ss, rest, planes => do
    let t ← ss.foldlM Tables.add? t
    let last ← ss.getLast?
    let scan ← Scan.ofSegment? f t last
    let (data, rest) := scanData (rest.length + 1) rest .empty []
    let planes := readScan f scan t.interval data planes
    match rest with
    | [] => none
    | _ :: m :: _ =>
      if !f.needsMore scan || m.toNat = endMarker then return (t, planes)
      else
        let (ss, rest) ← segments (rest.length + 1) rest
        readScans f fuel t ss rest planes
    | _ => none

def coloursOf (f : Frame) (ss : List Segment) : Colours :=
  let text := fun (s : String) => s.toList.map fun c => UInt8.ofNat c.toNat
  let isPlain := ss.any fun s => s.marker = 0xE0 && (text "JFIF").isPrefixOf s.data
  let number := (ss.find? fun s => s.marker = 0xEE && (text "Adobe").isPrefixOf s.data).bind
    fun s => s.data[11]?
  match f.components.length with
  | 3 =>
    if isPlain then .light false
    else
      match number with
      | some n => if n = 0 then .plain else .light false
      | none =>
        if f.components.map Component.name = [82, 71, 66] then .plain else .light false
  | 4 => if number = some 2 then .light true else .plain
  | _ => .plain

def mixed (f : Frame) (colours : Colours) (planes : List Plane) : ByteArray :=
  let inks := f.components.length = 4
  (List.range f.height).foldl (fun out y => (List.range f.width).foldl (fun out x =>
    (colours.samples inks (planes.map fun p => p.at' x y)).foldl
      (fun out n => out.push (UInt8.ofNat n)) out) out) .empty

def samples? (ss : List Segment) (rest : List UInt8) : Option ByteArray := do
  let s ← (ss.filter fun s => startsFrame s.marker).getLast?
  let f ← Frame.ofSegment? s
  if !f.isReadable s.marker then none
  let start := (f.components.map fun c =>
    Array.replicate (64 * f.blocksAcross c * (f.unitsDown * c.down)) (0 : Int)).toArray
  let (t, planes) ← readScans f (rest.length + 1) {} ss rest start
  let planes ← f.components.zipIdx.mapM fun (c, i) => do
    let divisors ← t.divisors.lookup c.table
    let p := Plane.ofValues f c divisors ((planes[i]?).getD #[])
    return p.enlarged (f.across / c.across) (f.down / c.down)
  return mixed f (coloursOf f ss) planes

def header (bs : List UInt8) : Except Picture.Fault Picture.Header :=
  match opened? bs with
  | some (h, _) => h.check
  | none => .error .unreadable

def read (bs : List UInt8) : Except Picture.Fault Picture :=
  match opened? bs with
  | none => .error .unreadable
  | some (h, ss, rest) => do
    let _ ← h.check
    match samples? ss rest with
    | some b => return { header := h, samples := b }
    | none => throw .unreadable

end Letterhead.Jpeg
