import Letterhead.Picture.Png.Writer
import Letterhead.Proofs.Picture.Header

/-! Chunks of a PNG file are found where they were written, and so the front of a file that was
written for a raster tells the size of the raster. -/
namespace Letterhead

namespace Bytes

theorem part?_append_right (bs rest : List UInt8) (count : Nat) :
    part? bs.length count (bs ++ rest) = part? 0 count rest := by
  simp [part?]

theorem part?_append (bs rest : List UInt8) : part? 0 bs.length (bs ++ rest) = some bs := by
  simp [part?]

theorem bigAt?_append_right (bs rest : List UInt8) (count : Nat) :
    bigAt? bs.length count (bs ++ rest) = bigAt? 0 count rest := by
  simp only [bigAt?, part?_append_right]

theorem bigAt?_big {k n : Nat} (h : n < Nat.pow 256 k) (rest : List UInt8) :
    bigAt? 0 k (big k n ++ rest) = some n := by
  have hpart : part? 0 k (big k n ++ rest) = some (big k n) := by
    simpa using part?_append (big k n) rest
  rw [bigAt?, hpart, Option.map_some, ofBig_big h]

end Bytes

namespace Png

def Chunk.IsNamed (c : Chunk) : Prop := c.name.length = 4 ∧ c.name.all isNameByte = true

instance (c : Chunk) : Decidable c.IsNamed := inferInstanceAs (Decidable (_ ∧ _))

variable {c : Chunk} {rest : List UInt8}

theorem find_start (h : c.IsNamed) (n : Nat) :
    find (Bytes.big 4 n ++ (c.name ++ rest)) =
      .start ⟨Bytes.ofBig (Bytes.big 4 n), c.name⟩ rest := by
  have hafter : ∀ t, (Bytes.big 4 n ++ t).drop 4 = t := fun t => List.drop_left' (by simp)
  have hlength : Bytes.bigAt? 0 4 (Bytes.big 4 n ++ (c.name ++ rest)) =
      some (Bytes.ofBig (Bytes.big 4 n)) := by
    have hpart := Bytes.part?_append (Bytes.big 4 n) (c.name ++ rest)
    rw [Bytes.length_big] at hpart
    rw [Bytes.bigAt?, hpart, Option.map_some]
  have hname : ((Bytes.big 4 n ++ (c.name ++ rest)).drop 4).take 4 = c.name := by
    rw [hafter]
    exact List.take_left' h.1
  have hrest : (Bytes.big 4 n ++ (c.name ++ rest)).drop 8 = rest := by
    rw [show 8 = 4 + 4 from rfl, ← List.drop_drop, hafter]
    exact List.drop_left' h.1
  simp only [find, hlength, hname, hrest, h.1, h.2, decide_true, Bool.and_self, if_true]

theorem find_write (h : c.IsNamed) :
    find (c.write ++ rest) = .start ⟨Bytes.ofBig (Bytes.big 4 c.data.length), c.name⟩
      (c.data ++ (Bytes.big 4 c.checksum ++ rest)) := by
  simpa only [Chunk.write, List.append_assoc] using find_start h c.data.length

theorem checksum_lt (c : Chunk) : c.checksum < Nat.pow 256 4 :=
  UInt32.toNat_lt _

theorem frontFrom_start_of_endsFront (h : c.IsNamed) (hend : endsFront c.name = true)
    (n fuel : Nat) : frontFrom (fuel + 1) (Bytes.big 4 n ++ (c.name ++ rest)) =
      some ([], Bytes.big 4 n ++ (c.name ++ rest)) := by
  simp only [frontFrom, find_start h, hend, if_true]

theorem frontFrom_write (h : c.IsNamed) (hdata : c.data.length < Nat.pow 256 4)
    (hend : endsFront c.name = false) (hlong : c.isLongEnough = true) (fuel : Nat) :
    frontFrom (fuel + 1) (c.write ++ rest) =
      (frontFrom fuel rest).map fun r => (c :: r.1, r.2) := by
  have hsum : Bytes.bigAt? c.data.length 4 (c.data ++ (Bytes.big 4 c.checksum ++ rest)) =
      some c.checksum := by
    rw [Bytes.bigAt?_append_right, Bytes.bigAt?_big (checksum_lt c)]
  have hdrop : (c.data ++ (Bytes.big 4 c.checksum ++ rest)).drop (c.data.length + 4) = rest := by
    rw [← List.drop_drop, List.drop_left]
    exact List.drop_left' (by simp)
  have heta : (⟨c.name, c.data⟩ : Chunk) = c := rfl
  simp only [frontFrom, find_write h, Bytes.ofBig_big hdata, hend, Bool.false_eq_true, if_false,
    Bytes.part?_append, hsum, hdrop, heta, hlong, decide_true, Bool.and_self, if_true, bind,
    Option.bind_some, pure]
  cases frontFrom fuel rest <;> rfl

@[simp] theorem length_headerData (r : Raster) : (headerData r).length = 13 := by
  simp [headerData]

theorem layout?_colourType (c : Channels) :
    layout? 8 (colourType c) = some ⟨c.mode, 8, c.count⟩ := by
  cases c <;> rfl

theorem ofData?_headerData {r : Raster} (hw : 0 < r.width) (hh : 0 < r.height)
    (hw' : r.width < Nat.pow 256 4) (hh' : r.height < Nat.pow 256 4) :
    Info.ofData? (headerData r) = some
      ⟨⟨r.channels.mode, r.width, r.height⟩, ⟨r.channels.mode, 8, r.channels.count⟩, false⟩ := by
  have hwidth : Bytes.bigAt? 0 4 (headerData r) = some r.width := Bytes.bigAt?_big hw' _
  have hheight : Bytes.bigAt? 4 4 (headerData r) = some r.height := by
    have hshift := Bytes.bigAt?_append_right (Bytes.big 4 r.width)
      (Bytes.big 4 r.height ++ [8, UInt8.ofNat (colourType r.channels), 0, 0, 0]) 4
    rw [Bytes.length_big] at hshift
    rw [headerData, hshift, Bytes.bigAt?_big hh']
  have hrest : (headerData r).drop 8 = [8, UInt8.ofNat (colourType r.channels), 0, 0, 0] := by
    rw [headerData, ← List.append_assoc]
    exact List.drop_left' (by simp)
  have htype : (UInt8.ofNat (colourType r.channels)).toNat = colourType r.channels := by
    cases r.channels <;> rfl
  have hdepth : (8 : UInt8).toNat = 8 := rfl
  have hsize : Picture.Header.ofSize? r.channels.mode r.width r.height =
      some ⟨r.channels.mode, r.width, r.height⟩ := by
    simp [Picture.Header.ofSize?, Nat.pos_iff_ne_zero.1 hw, Nat.pos_iff_ne_zero.1 hh]
  simp [Info.ofData?, hwidth, hheight, hrest, htype, hdepth, layout?_colourType, hsize]

def headerChunk (r : Raster) : Chunk := ⟨named "IHDR", headerData r⟩

theorem headerChunk_isNamed (r : Raster) : (headerChunk r).IsNamed :=
  (by decide : (⟨named "IHDR", []⟩ : Chunk).IsNamed)

theorem headerChunk_endsFront (r : Raster) : endsFront (headerChunk r).name = false :=
  (by decide : endsFront (named "IHDR") = false)

theorem length_headerChunk_data (r : Raster) : (headerChunk r).data.length = 13 :=
  length_headerData r

theorem headerChunk_data_lt (r : Raster) : (headerChunk r).data.length < Nat.pow 256 4 := by
  rw [length_headerChunk_data]
  decide

theorem headerChunk_isLongEnough (r : Raster) : (headerChunk r).isLongEnough = true := by
  simp only [Chunk.isLongEnough, headerChunk, length_headerData]
  decide

def pointsStart (r : Raster) : List UInt8 :=
  Bytes.big 4 (Stored.write (plainLines r)).length ++ named "IDAT"

def opening (r : Raster) : List UInt8 := signature ++ ((headerChunk r).write ++ pointsStart r)

theorem toList_write (r : Raster) :
    ∃ rest, rest ≠ [] ∧ Bytes.toList (write r) = opening r ++ rest := by
  let points : Chunk := ⟨named "IDAT", Stored.write (plainLines r)⟩
  refine ⟨points.data ++ (Bytes.big 4 points.checksum ++
    ((⟨named "IEND", []⟩ : Chunk).write ++ [])), by simp [Chunk.write, Bytes.big], ?_⟩
  rw [write, Bytes.toList_ofList, chunks]
  simp only [opening, headerChunk, pointsStart, points, Chunk.write, List.flatMap_cons,
    List.flatMap_nil, List.append_assoc]

/-- The front of a file that starts like that of a raster is its header. -/
theorem front?_opening (r : Raster) (rest : List UInt8) :
    front? (opening r ++ rest) = some ⟨[headerChunk r], pointsStart r ++ rest⟩ := by
  have hsignature : signature.isPrefixOf (opening r ++ rest) = true :=
    List.isPrefixOf_iff_prefix.2
      ⟨(headerChunk r).write ++ pointsStart r ++ rest, by simp [opening, List.append_assoc]⟩
  have hdrop : (opening r ++ rest).drop 8 =
      (headerChunk r).write ++ (Bytes.big 4 (Stored.write (plainLines r)).length ++
        (named "IDAT" ++ rest)) := by
    simp only [opening, pointsStart, List.append_assoc]
    exact List.drop_left' rfl
  obtain ⟨fuel, hfuel⟩ : ∃ fuel, (opening r ++ rest).length = fuel + 1 :=
    Nat.exists_eq_succ_of_ne_zero (by simp [opening, signature])
  -- The front goes up to the first chunk of points, which is the second one of the file.
  have hpoints : ∀ n, frontFrom (fuel + 1) (Bytes.big 4 n ++ (named "IDAT" ++ rest)) =
      some ([], Bytes.big 4 n ++ (named "IDAT" ++ rest)) := fun n =>
    frontFrom_start_of_endsFront (c := ⟨named "IDAT", []⟩) (by decide) (by decide) n fuel
  rw [front?, if_pos hsignature, hdrop, hfuel, frontFrom_write (headerChunk_isNamed r)
    (headerChunk_data_lt r) (headerChunk_endsFront r) (headerChunk_isLongEnough r), hpoints,
    pointsStart, List.append_assoc]
  rfl

theorem header_of_info? {bs : List UInt8} {f : Info} (h : (front? bs).bind Front.info? = some f) :
    header bs = f.header.check := by
  simp only [header, h]

theorem readHeader_of_signature {b : ByteArray}
    (h : signature.isPrefixOf (Bytes.toList b) = true) :
    Picture.readHeader b = header (Bytes.toList b) := by
  simp only [Picture.readHeader, Picture.kind?, if_pos h]

/-- A file that starts like that of a raster is read as a picture of its size. -/
theorem readHeader_of_opening {r : Raster} (hw : 0 < r.width) (hh : 0 < r.height)
    (hlimit : r.width * r.height ≤ Picture.pixelLimit) {b : ByteArray} {rest : List UInt8}
    (hb : Bytes.toList b = opening r ++ rest) :
    Picture.readHeader b = .ok ⟨r.channels.mode, r.width, r.height⟩ := by
  have hlt : Picture.pixelLimit < Nat.pow 256 4 := by decide
  have hw' : r.width < Nat.pow 256 4 :=
    Nat.lt_of_le_of_lt (Nat.le_trans (Nat.le_mul_of_pos_right _ hh) hlimit) hlt
  have hh' : r.height < Nat.pow 256 4 :=
    Nat.lt_of_le_of_lt (Nat.le_trans (Nat.le_mul_of_pos_left _ hw) hlimit) hlt
  have hsignature : signature.isPrefixOf (Bytes.toList b) = true := by
    rw [hb, opening, List.append_assoc]
    exact List.isPrefixOf_iff_prefix.2 (List.prefix_append _ _)
  have hinfo : (front? (Bytes.toList b)).bind Front.info? = Info.ofData? (headerData r) := by
    simp [hb, front?_opening, Front.info?, lastData?, headerChunk]
  rw [readHeader_of_signature hsignature,
    header_of_info? (hinfo.trans (ofData?_headerData hw hh hw' hh'))]
  exact Picture.Header.check_eq_ok hlimit

def openingSize : Nat := signature.length + ((4 + 4 + 13 + 4) + (4 + 4))

theorem length_opening (r : Raster) : (opening r).length = openingSize := by
  have hname : (headerChunk r).name.length = 4 := (headerChunk_isNamed r).1
  have hpoints : (named "IDAT").length = 4 := by decide
  simp [opening, openingSize, Chunk.write, hname, length_headerChunk_data, pointsStart, hpoints]

theorem openingSize_lt_size (r : Raster) : openingSize < (write r).size := by
  have hsize : (write r).size = (Bytes.toList (write r)).length := rfl
  obtain ⟨rest, hne, hfile⟩ := toList_write r
  rw [hsize, hfile, List.length_append, length_opening]
  exact Nat.lt_add_of_pos_right (List.length_pos_iff.2 hne)

/-- The file of a raster is read as a picture of its size, also if it is cut off among its points. -/
theorem readHeader_of_prefix {r : Raster} (hw : 0 < r.width) (hh : 0 < r.height)
    (hlimit : r.width * r.height ≤ Picture.pixelLimit) {b : ByteArray}
    (hb : Bytes.toList b <+: Bytes.toList (write r)) (hle : openingSize ≤ b.size) :
    Picture.readHeader b = .ok ⟨r.channels.mode, r.width, r.height⟩ := by
  obtain ⟨rest, -, hfile⟩ := toList_write r
  rw [hfile] at hb
  have hopening : opening r <+: Bytes.toList b :=
    List.prefix_of_prefix_length_le (List.prefix_append _ _) hb (by rwa [length_opening])
  obtain ⟨u, hu⟩ := hopening
  exact readHeader_of_opening hw hh hlimit hu.symm

end Png
end Letterhead
