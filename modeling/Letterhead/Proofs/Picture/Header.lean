import Letterhead.Picture.Read
import Letterhead.Proofs.Failure

/-! What a picture that was read tells of itself, of whatever kind its file is: it has points, and no
more of them than may be drawn. -/
namespace Letterhead

namespace Picture.Header

/-- A header of a picture that has points and may be drawn. -/
structure IsSound (h : Header) : Prop where
  width : 0 < h.width
  height : 0 < h.height
  pixels : h.pixels ≤ Picture.pixelLimit

theorem check_eq_ok {h : Header} (hlimit : h.pixels ≤ Picture.pixelLimit) : h.check = .ok h :=
  if_neg (Nat.not_lt.2 hlimit)

theorem isSound_of_check {mode : Mode} {width height : Nat} {h k : Header}
    (hs : ofSize? mode width height = some h) (hc : h.check = .ok k) : h.IsSound := by
  unfold ofSize? at hs
  split at hs
  · cases hs
  · next hne =>
    obtain rfl := Option.some.inj hs
    simp only [Bool.or_eq_true, decide_eq_true_eq, not_or] at hne
    unfold check at hc
    split at hc
    · cases hc
    · next hlimit =>
      exact ⟨Nat.pos_of_ne_zero hne.1, Nat.pos_of_ne_zero hne.2, Nat.not_lt.1 hlimit⟩

end Picture.Header

open Picture.Header

variable {bs : List UInt8} {p : Picture}

namespace Gif

theorem exists_ofSize?_of_info? {i : Info} (h : info? bs = some i) :
    ∃ mode width height, Picture.Header.ofSize? mode width height = some i.header := by
  unfold info? at h
  split at h
  · cases h
  · simp only [Option.bind_eq_bind, Option.bind_eq_some_iff, Option.pure_def,
      Option.some.injEq] at h
    obtain ⟨_, -, _, -, _, -, _, -, _, -, _, -, k, hk, rfl⟩ := h
    exact ⟨_, _, _, hk⟩

theorem header_of_picture? {i : Info} (h : picture? i = some p) : p.header = i.header := by
  simp only [picture?] at h
  split at h
  · cases h
  · obtain ⟨b, -, rfl⟩ := Option.map_eq_some_iff.1 h
    rfl

theorem isSound_of_read (h : read bs = .ok p) : p.header.IsSound := by
  unfold read at h
  split at h
  · cases h
  · next i hi =>
    obtain ⟨k, hk, h⟩ := exists_of_bind_eq_ok h
    obtain ⟨mode, width, height, hs⟩ := exists_ofSize?_of_info? hi
    split at h
    · next q hq =>
      obtain rfl := Except.ok.inj h
      rw [header_of_picture? hq]
      exact isSound_of_check hs hk
    · cases h

end Gif

namespace Bmp

theorem exists_ofSize?_of_info? {f : Info} (h : info? bs = some f) :
    ∃ mode width height, Picture.Header.ofSize? mode width height = some f.header := by
  unfold info? at h
  split at h
  · cases h
  · simp only [Option.bind_eq_bind, Option.bind_eq_some_iff, Option.pure_def] at h
    obtain ⟨start, -, size, -, f, -, ⟨points, packing, n⟩, -, h⟩ := h
    cases points with
    | packed bits =>
      simp only at h
      split at h
      · cases h
      · obtain ⟨k, hk, h⟩ := Option.bind_eq_some_iff.1 h
        obtain rfl := Option.some.inj h
        exact ⟨_, _, _, hk⟩
    | fives bits =>
      obtain ⟨k, hk, h⟩ := Option.bind_eq_some_iff.1 h
      obtain rfl := Option.some.inj h
      exact ⟨_, _, _, hk⟩
    | ordered size places =>
      obtain ⟨k, hk, h⟩ := Option.bind_eq_some_iff.1 h
      obtain rfl := Option.some.inj h
      exact ⟨_, _, _, hk⟩

theorem isSound_of_read (h : read bs = .ok p) : p.header.IsSound := by
  unfold read at h
  split at h
  · cases h
  · next f hf =>
    obtain ⟨k, hk, h⟩ := exists_of_bind_eq_ok h
    obtain ⟨mode, width, height, hs⟩ := exists_ofSize?_of_info? hf
    split at h
    · split at h
      · obtain rfl := Except.ok.inj h
        exact isSound_of_check hs hk
      · cases h
    · cases h

end Bmp

namespace Jpeg

theorem exists_ofSize?_of_headerOf? {h : Picture.Header} {ss : List Segment}
    (hh : headerOf? ss = some h) :
    ∃ mode width height, Picture.Header.ofSize? mode width height = some h := by
  simp only [headerOf?, Option.bind_eq_bind, Option.bind_eq_some_iff] at hh
  obtain ⟨_, -, hh⟩ := hh
  split at hh
  · cases hh
  · simp only [Option.bind_eq_some_iff] at hh
    obtain ⟨last, -, f, -, hs⟩ := hh
    exact ⟨_, _, _, hs⟩

theorem exists_ofSize?_of_opened? {h : Picture.Header} {ss : List Segment} {rest : List UInt8}
    (ho : opened? bs = some (h, ss, rest)) :
    ∃ mode width height, Picture.Header.ofSize? mode width height = some h := by
  unfold opened? at ho
  split at ho
  · cases ho
  · simp only [Option.bind_eq_bind, Option.bind_eq_some_iff, Option.pure_def,
      Option.some.injEq, Prod.mk.injEq] at ho
    obtain ⟨_, -, k, hk, rfl, -⟩ := ho
    exact exists_ofSize?_of_headerOf? hk

theorem isSound_of_read (h : read bs = .ok p) : p.header.IsSound := by
  unfold read at h
  split at h
  · cases h
  · next k ss rest ho =>
    obtain ⟨_, hk, h⟩ := exists_of_bind_eq_ok h
    obtain ⟨mode, width, height, hs⟩ := exists_ofSize?_of_opened? ho
    split at h
    · obtain rfl := Except.ok.inj h
      exact isSound_of_check hs hk
    · cases h

end Jpeg

namespace Png

theorem exists_ofSize?_of_ofData? {data : List UInt8} {f : Info} (h : Info.ofData? data = some f) :
    ∃ mode width height, Picture.Header.ofSize? mode width height = some f.header := by
  simp only [Info.ofData?, Option.bind_eq_bind, Option.bind_eq_some_iff] at h
  obtain ⟨width, -, height, -, h⟩ := h
  split at h
  · simp only [Option.bind_eq_some_iff] at h
    obtain ⟨l, -, k, hk, h⟩ := h
    split at h
    · obtain rfl := Option.some.inj h
      exact ⟨_, _, _, hk⟩
    · cases h
  · cases h

theorem header_of_dressed? {f : Info} {front tail : List Chunk} {samples : ByteArray}
    (h : dressed? f front tail samples = some p) : p.header = f.header := by
  simp only [dressed?] at h
  split at h
  · obtain ⟨_, -, rfl⟩ := Option.map_eq_some_iff.1 h
    rfl
  · simp only [Option.bind_eq_bind, Option.bind_eq_some_iff, Option.pure_def,
      Option.some.injEq] at h
    obtain ⟨_, -, _, -, rfl⟩ := h
    rfl
  all_goals first
    | obtain ⟨_, -, rfl⟩ := Option.map_eq_some_iff.1 h
      rfl
    | obtain rfl := Option.some.inj h
      rfl

theorem isSound_of_read (h : read bs = .ok p) : p.header.IsSound := by
  unfold read at h
  split at h
  · cases h
  · split at h
    · cases h
    · next f hf =>
      obtain ⟨_, hk, h⟩ := exists_of_bind_eq_ok h
      obtain ⟨data, -, hdata⟩ := Option.bind_eq_some_iff.1 hf
      obtain ⟨mode, width, height, hs⟩ := exists_ofSize?_of_ofData? hdata
      obtain ⟨b, -, h⟩ := exists_of_bind_eq_ok h
      simp only at h
      split at h
      · next q hq =>
        obtain rfl := Except.ok.inj h
        obtain ⟨tail, -, hq⟩ := Option.bind_eq_some_iff.1 hq
        rw [header_of_dressed? hq]
        exact isSound_of_check hs hk
      · cases h

end Png

/-- A picture that is read has points, and no more of them than may be drawn. -/
theorem Picture.isSound_of_read {b : ByteArray} (h : Picture.read b = .ok p) :
    p.header.IsSound := by
  unfold Picture.read at h
  simp only at h
  split at h
  · exact Png.isSound_of_read h
  · exact Gif.isSound_of_read h
  · exact Bmp.isSound_of_read h
  · exact Jpeg.isSound_of_read h
  · cases h

end Letterhead
