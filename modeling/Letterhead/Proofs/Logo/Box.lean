import Letterhead.Proofs.Logo.Failing

/-! Logos in their box. Rounding neither carries a side out of the box nor makes it longer than that of
the picture, however flat the picture or the box is. -/
namespace Letterhead.Logo

section Fit
variable {width height boxWidth boxHeight : Int}

/-- A picture that lies in the box stays as it is. -/
theorem fit_eq_self (hw : 0 < width) (hh : 0 < height) (hwidth : width ≤ boxWidth)
    (hheight : height ≤ boxHeight) :
    fit width height boxWidth boxHeight = .ok (width, height) := by
  rw [fit_eq, if_neg (Int.not_lt.2 hwidth), cutHeight, if_neg (Int.not_lt.2 hheight),
    max_eq_right (by omega), max_eq_right (by omega)]

/-- No side exceeds that of the box. -/
theorem fit_le_box {r : Int × Int} (h : fit width height boxWidth boxHeight = .ok r)
    (hw' : width < 2 ^ 53) (hw : 0 < width) (hbw : 0 < boxWidth) (hbh : 0 < boxHeight) :
    r.1 ≤ boxWidth ∧ r.2 ≤ boxHeight := by
  obtain ⟨w, k, hfirst, hsecond⟩ := exists_of_fit h
  have hwidth : 0 < w ∧ w ≤ boxWidth ∧ w < 2 ^ 53 := by
    rcases hfirst with ⟨hle, rfl, -⟩ | ⟨hlt, rfl, -⟩ <;> omega
  rcases of_cutHeight hsecond with ⟨hle, rfl⟩ | ⟨hlt, v, hv, rfl⟩
  · simp only
    omega
  · have hbounds := scaled_mem_Icc hv hwidth.1.le hwidth.2.2 hbh.le hlt.le
    simp only
    omega

end Fit

/-- A picture can be fitted into every box with sides: each side is at least one, and at most that of
the picture and that of the box. A picture that lies in the box stays as it is. So a logo lies in the
box that it was made for, is never larger than the picture of its source, and its bytes are a picture
of its size. -/
theorem fits_box :
    (∀ {width height boxWidth boxHeight : Int}, 0 < width → width < 2 ^ 53 → 0 < height →
      height < 2 ^ 53 → 0 < boxWidth → 0 < boxHeight →
      ∃ r, fit width height boxWidth boxHeight = .ok r ∧
        (1 ≤ r.1 ∧ r.1 ≤ min width boxWidth) ∧ (1 ≤ r.2 ∧ r.2 ≤ min height boxHeight) ∧
        (width ≤ boxWidth → height ≤ boxHeight → r = (width, height))) ∧
    ∀ {g : Imaging} {w : Surroundings} {s : Source} {box : Box} {l : Logo}, g.IsSound →
      0 < box.width → 0 < box.height → process g w s box = .ok (some l) →
      ∃ b i, s.bytes? w = some b ∧ g.opened b = .ok i ∧ l.IsReadable g ∧
        (1 ≤ l.width ∧ l.width ≤ min (i.width : Int) box.width) ∧
        (1 ≤ l.height ∧ l.height ≤ min (i.height : Int) box.height) := by
  constructor
  · intro width height boxWidth boxHeight hw hw' hh hh' hbw hbh
    obtain ⟨r, hr⟩ := exists_fit hw hw' hh hh' hbw hbh
    have hle := fit_le hr hw hw' hh hh'
    have hbox := fit_le_box hr hw' hw hbw hbh
    refine ⟨r, hr, by omega, by omega, fun hwidth hheight => ?_⟩
    rw [fit_eq_self hw hh hwidth hheight] at hr
    exact (Except.ok.inj hr).symm
  · intro g w s box l hg hbw hbh hmade
    obtain ⟨b, i, hb, hmakes⟩ := process_eq_some_iff.1 hmade
    have hlt := hmakes.sides_lt hg
    have hpos := hmakes.width
    have hle := hmakes.sides_le hg
    have hbox := fit_le_box hmakes.fit (by omega) (by omega) hbw hbh
    exact ⟨b, i, hb, hmakes.opened, hmakes.isReadable hg, by omega, by omega⟩

/-- A flat picture in a small box, and the logo of one red point. -/
theorem fits_box_flat :
    (∃ r, fit 400 3 200 1 = .ok r ∧ (1 ≤ r.1 ∧ r.1 ≤ min 400 200) ∧ (1 ≤ r.2 ∧ r.2 ≤ min 3 1)) ∧
    ∃ l i, process .plain {} (.bytes (bitmap 1 0)) Box.usual = .ok (some l) ∧
      Imaging.plain.opened (bitmap 1 0) = .ok i ∧ l.width ≤ min (i.width : Int) Box.usual.width := by
  constructor
  · obtain ⟨r, hr, hw, hh, -⟩ := fits_box.1 (show (0 : Int) < 400 by decide) (by decide)
      (show (0 : Int) < 3 by decide) (by decide) (show (0 : Int) < 200 by decide)
      (show (0 : Int) < 1 by decide)
    exact ⟨r, hr, hw, hh⟩
  · have hmade : process .plain {} (.bytes (bitmap 1 0)) Box.usual = .ok (some
        { bytes := Png.write ⟨.colour, 1, 1, Bytes.ofList [0xFF, 0, 0]⟩, width := 1, height := 1 }) := by
      rfl
    obtain ⟨b, i, hb, hopened, -, hw, -⟩ :=
      fits_box.2 Imaging.isSound_plain (by decide) (by decide) hmade
    obtain rfl : bitmap 1 0 = b := Option.some.inj hb
    exact ⟨_, i, hmade, hopened, hw.2⟩

end Letterhead.Logo
