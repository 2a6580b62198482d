import Letterhead.Picture.Imaging
import Letterhead.Proofs.Picture.Png
import Mathlib.Data.List.Infix

/-! What a library of pictures is relied on for. It draws no more points than are allowed, converts a
picture without changing its size, gives the size that it is asked for, and tells the size of a file
that it has saved itself. The library that is here does all of this. -/
namespace Letterhead

structure Image.IsDrawable (i : Image) : Prop where
  width : 0 < i.width
  height : 0 < i.height
  pixels : i.width * i.height ≤ Picture.pixelLimit

namespace Imaging

structure IsSound (g : Imaging) : Prop where
  loaded {b : ByteArray} {i j : Image} (hi : g.identify b = .ok i) (hj : g.load i = .ok j) :
    j.width * j.height ≤ Picture.pixelLimit
  converted {i j : Image} (h : g.convert i = .ok j) : j.size = i.size
  resized {i j : Image} {width height : Nat} (h : g.resize i width height = .ok j) :
    j.size = (width, height)
  readBack {i : Image} {b : ByteArray} (hi : i.IsDrawable) (h : g.save i = .ok b) :
    ∃ j, g.identify b = .ok j ∧ j.size = i.size

/-- A library that opens a file takes no more than its start: a file that it has saved is opened from
some of its bytes on, wherever it is cut off behind them. -/
def IsLazy (g : Imaging) : Prop :=
  ∀ {i b}, i.IsDrawable → g.save i = .ok b → ∃ n < b.size, ∀ t : ByteArray,
    Bytes.toList t <+: Bytes.toList b → n ≤ t.size → ∃ j, g.identify t = .ok j ∧ j.size = i.size

/-- A library does not open a file that announces more points than may be drawn. -/
def Guards (g : Imaging) (announced? : ByteArray → Option Nat) : Prop :=
  ∀ b n, announced? b = some n → Picture.pixelLimit < n → g.identify b = .error (.tooLarge n)

section Laws
variable {g : Imaging} {b : ByteArray} {i : Image}

theorem IsSound.pixels_of_opened (hg : g.IsSound) (h : g.opened b = .ok i) :
    i.width * i.height ≤ Picture.pixelLimit := by
  obtain ⟨j, hidentify, hload⟩ := exists_of_bind_eq_ok h
  exact hg.loaded hidentify hload

/-- What is redrawn is the file of a picture of the size that was asked for. -/
theorem IsSound.exists_of_redrawn (hg : g.IsSound) {width height : Nat}
    (h : g.redrawn i width height = .ok b) : ∃ j, j.size = (width, height) ∧ g.save j = .ok b := by
  obtain ⟨j, hj, h⟩ := exists_of_bind_eq_ok h
  obtain ⟨k, hk, hsave⟩ := exists_of_bind_eq_ok h
  have hsize : j.size = i.size := by
    split at hj
    · obtain rfl := Except.ok.inj hj
      rfl
    · exact hg.converted hj
  refine ⟨k, ?_, hsave⟩
  split at hk
  · next hsame =>
    obtain rfl := Except.ok.inj hk
    simp only [Bool.and_eq_true, decide_eq_true_eq] at hsame
    rw [hsize, Image.size, hsame.1, hsame.2]
  · exact hg.resized hk

end Laws

/-! The library that is here -/

/-- The points that the header of a file announces, however many they are. -/
def announced? (b : ByteArray) : Option Nat :=
  let bs := Bytes.toList b
  let header? := match Picture.kind? bs with
    | some .png => ((Png.front? bs).bind Png.Front.info?).map Png.Info.header
    | some .gif => (Gif.info? bs).map Gif.Info.header
    | some .bmp => (Bmp.info? bs).map Bmp.Info.header
    | some .jpeg => (Jpeg.opened? bs).map Prod.fst
    | none => none
  header?.map Picture.Header.pixels

theorem readHeader_of_announced? {b : ByteArray} {n : Nat} (h : announced? b = some n)
    (hlimit : Picture.pixelLimit < n) : Picture.readHeader b = .error (.tooLarge n) := by
  obtain ⟨k, hk, rfl⟩ := Option.map_eq_some_iff.1 h
  have hcheck : k.check = .error (.tooLarge k.pixels) := if_pos hlimit
  unfold Picture.readHeader
  simp only at hk ⊢
  cases hkind : Picture.kind? (Bytes.toList b) with
  | none => simp [hkind] at hk
  | some kind =>
    simp only [hkind] at hk
    cases kind with
    | png =>
      obtain ⟨f, hf, rfl⟩ := Option.map_eq_some_iff.1 hk
      simpa only [Png.header, hf] using hcheck
    | gif =>
      obtain ⟨f, hf, rfl⟩ := Option.map_eq_some_iff.1 hk
      simpa only [Gif.header, hf] using hcheck
    | bmp =>
      obtain ⟨f, hf, rfl⟩ := Option.map_eq_some_iff.1 hk
      simpa only [Bmp.header, hf] using hcheck
    | jpeg =>
      obtain ⟨⟨f, ss, rest⟩, hf, rfl⟩ := Option.map_eq_some_iff.1 hk
      simpa only [Jpeg.header, hf] using hcheck

theorem guards_plain : plain.Guards announced? := fun b n h hlimit => by
  simp only [plain, Plain.identify, readHeader_of_announced? h hlimit]
  rfl

theorem exists_raster_of_save {i : Image} {b : ByteArray} (h : plain.save i = .ok b) :
    ∃ r : Raster, i.width = r.width ∧ i.height = r.height ∧ b = Png.write r := by
  obtain ⟨channels, width, height, content⟩ := i
  cases channels with
  | none => cases h
  | some c => exact ⟨⟨c, width, height, content⟩, rfl, rfl, (Except.ok.inj h).symm⟩

theorem identify_of_prefix {i : Image} {b t : ByteArray} (hi : i.IsDrawable)
    (h : plain.save i = .ok b) (ht : Bytes.toList t <+: Bytes.toList b)
    (hle : Png.openingSize ≤ t.size) : ∃ j, plain.identify t = .ok j ∧ j.size = i.size := by
  obtain ⟨r, hw, hh, rfl⟩ := exists_raster_of_save h
  obtain ⟨hwidth, hheight, hpixels⟩ := hi
  rw [hw, hh] at hpixels
  have hread := Png.readHeader_of_prefix (hw ▸ hwidth) (hh ▸ hheight) hpixels ht hle
  refine ⟨⟨r.channels.mode.channels?, r.width, r.height, t⟩, ?_, ?_⟩
  · simp only [plain, Plain.identify, hread]
    rfl
  · rw [Image.size, Image.size, hw, hh]

theorem isLazy_plain : plain.IsLazy := fun {i b} hi h => by
  obtain ⟨r, -, -, hb⟩ := exists_raster_of_save h
  exact ⟨Png.openingSize, hb ▸ Png.openingSize_lt_size r,
    fun t ht hle => identify_of_prefix hi h ht hle⟩

theorem isSound_plain : plain.IsSound where
  loaded {b i j} hi hj := by
    obtain ⟨p, hp, rfl⟩ := exists_of_map_eq_ok hj
    exact (Picture.isSound_of_read hp).pixels
  converted h := by
    obtain ⟨p, -, rfl⟩ := exists_of_map_eq_ok h
    rfl
  resized {i j width height} h := by
    obtain ⟨channels, w, k, content⟩ := i
    cases channels with
    | none => cases h
    | some c =>
      obtain rfl := Except.ok.inj h
      simp [Image.size, Image.ofRaster]
  readBack hi h := by
    obtain ⟨r, -, -, hb⟩ := exists_raster_of_save h
    exact identify_of_prefix hi h List.prefix_rfl (hb ▸ (Png.openingSize_lt_size r).le)

end Imaging
end Letterhead
