import Letterhead.Proofs.Logo.Fit
import Mathlib.Algebra.Order.Group.MinMax

/-! How well fitting keeps the ratio of the sides. The height is always close to the exact one. The
width is too, unless it is scaled with a height that has been rounded itself: what rounding has done
to the height is then multiplied by the ratio of the sides. -/
namespace Letterhead.Logo

structure IsScaled (n k : Int) (x : ℚ) : Prop where
  nonneg : 0 ≤ k
  le : k ≤ n
  near : |(k : ℚ) - x| ≤ 3 / 4
  near_of_small : n < 2 ^ 26 → |(k : ℚ) - x| ≤ 1 / 2 + 1 / 2 ^ 28

theorem isScaled_of_scaled {n m d k : Int} (h : scaled n m d = .ok k) (hn : 0 ≤ n)
    (hlt : n < 2 ^ 53) (hm : 0 ≤ m) (hle : m ≤ d) : IsScaled n k ((n : ℚ) * m / d) := by
  obtain ⟨hnonneg, hkle⟩ := scaled_mem_Icc h hn hlt hm hle
  obtain ⟨hd, a, e, hr, rfl⟩ := exists_of_scaled h
  have hpos : 0 < d := by omega
  rw [sign_eq_false (Int.mul_nonneg hn hm) hpos] at hnonneg hkle ⊢
  lift n to Nat using hn
  lift m to Nat using hm
  lift d to Nat using hpos.le
  rw [← Int.natCast_mul, Int.natAbs_natCast, Int.natAbs_natCast] at hr
  have hprod : n * m ≤ n * d := Nat.mul_le_mul_left n (by omega)
  obtain ⟨hnear, hnear'⟩ := Binary64.abs_roundScaled_sub_le (by omega) (by omega) hprod hr
  simp only [Nat.cast_mul] at hnear hnear'
  simp only [Binary64.signed, Bool.false_eq_true, if_false] at hnonneg hkle ⊢
  refine ⟨hnonneg, hkle, hnear, fun hsmall => hnear' 27 26 rfl (hprod.trans_lt ?_)⟩
  rw [Nat.mul_comm d]
  exact Nat.mul_lt_mul_of_pos_right (by omega) (by omega)

namespace IsScaled
variable {n k q : Int} {x : ℚ}

/-- Scaling carries a side past no whole number. -/
theorem le_of_le (h : IsScaled n k x) (hx : x ≤ q) : k ≤ q := by
  have hnear := (abs_le.1 h.near).2
  have hlt : (k : ℚ) < (q + 1 : Int) := by
    push_cast
    linarith
  exact Int.lt_add_one_iff.1 (Int.cast_lt.1 hlt)

theorem ge_of_le (h : IsScaled n k x) (hx : (q : ℚ) ≤ x) : q ≤ k := by
  have hnear := (abs_le.1 h.near).1
  have hlt : (q : ℚ) < (k + 1 : Int) := by
    push_cast
    linarith
  exact Int.lt_add_one_iff.1 (Int.cast_lt.1 hlt)

theorem eq_of_eq (h : IsScaled n k x) (hx : x = q) : k = q :=
  le_antisymm (h.le_of_le hx.le) (h.ge_of_le hx.ge)

theorem self (hn : 0 ≤ n) (hx : x = n) : IsScaled n n x := by
  have hzero : |(n : ℚ) - x| ≤ 0 := by rw [hx, sub_self, abs_zero]
  exact ⟨hn, le_rfl, hzero.trans (by norm_num), fun _ => hzero.trans (by norm_num)⟩

end IsScaled

section Ratio
variable {width height boxWidth boxHeight : Int}

structure IsSized (width height boxWidth boxHeight : Int) : Prop where
  width_pos : 0 < width
  width_lt : width < 2 ^ 53
  height_pos : 0 < height
  height_lt : height < 2 ^ 53
  boxWidth_pos : 0 < boxWidth
  boxHeight_pos : 0 < boxHeight

/-- The height is too large even after the width has been cut: it is scaled to `k`, cut to that of the
box, and the width is scaled with it to `v`. -/
structure ScaledTwice (width height boxWidth boxHeight k v : Int) : Prop where
  cut : boxWidth < width
  higher : boxHeight * width < height * boxWidth
  first : IsScaled height k ((height : ℚ) * boxWidth / width)
  le : boxHeight ≤ k
  second : IsScaled boxWidth v ((boxWidth : ℚ) * boxHeight / k)

/-- What fitting gives: the picture as it is, with one side cut and the other one scaled with it, or
with both sides scaled. -/
inductive Fitted (width height boxWidth boxHeight : Int) : Int × Int → Prop where
  | whole (hw : width ≤ boxWidth) (hh : height ≤ boxHeight) :
      Fitted width height boxWidth boxHeight (width, height)
  | high {v : Int} (hw : width ≤ boxWidth) (hh : boxHeight < height)
      (hv : IsScaled width v ((width : ℚ) * boxHeight / height)) :
      Fitted width height boxWidth boxHeight (max 1 v, boxHeight)
  | wide {k : Int} (hw : boxWidth < width) (hh : height * boxWidth ≤ boxHeight * width)
      (hk : IsScaled height k ((height : ℚ) * boxWidth / width)) :
      Fitted width height boxWidth boxHeight (boxWidth, max 1 k)
  | twice {k v : Int} (h : ScaledTwice width height boxWidth boxHeight k v) :
      Fitted width height boxWidth boxHeight (max 1 v, boxHeight)

theorem fitted_of_fit {r : Int × Int} (hs : IsSized width height boxWidth boxHeight)
    (h : fit width height boxWidth boxHeight = .ok r) :
    Fitted width height boxWidth boxHeight r := by
  obtain ⟨hw, hw', hh, hh', hbw, hbh⟩ := hs
  obtain ⟨w, k, hfirst, hsecond⟩ := exists_of_fit h
  rcases hfirst with ⟨hle, rfl, rfl⟩ | ⟨hlt, rfl, hk⟩
  · rcases of_cutHeight hsecond with ⟨hfits, rfl⟩ | ⟨hcut, v, hv, rfl⟩
    · rw [max_eq_right (by omega), max_eq_right (by omega)]
      exact .whole hle hfits
    · rw [max_eq_right (by omega : 1 ≤ boxHeight)]
      exact .high hle hcut (isScaled_of_scaled hv hw.le hw' hbh.le hcut.le)
  · -- Rounding does not carry the height past that of the box, so that the exact quotient tells
    -- which side is cut last. A height that is rounded to that of the box is not cut any more, but
    -- cutting it would leave the width as it is.
    have hwidth : (0 : ℚ) < width := Int.cast_pos.2 hw
    have hscaled := isScaled_of_scaled hk hh.le hh' hbw.le hlt.le
    by_cases hwide : height * w ≤ boxHeight * width
    · have hle := hscaled.le_of_le ((div_le_iff₀ hwidth).2 (by exact_mod_cast hwide))
      rcases of_cutHeight hsecond with ⟨-, rfl⟩ | ⟨hcut, -⟩
      · rw [max_eq_right (by omega : 1 ≤ w)]
        exact .wide hlt hwide hscaled
      · omega
    · have hnarrow := Int.not_le.1 hwide
      have hge := hscaled.ge_of_le ((le_div_iff₀ hwidth).2 (by exact_mod_cast hnarrow.le))
      rcases of_cutHeight hsecond with ⟨hfits, rfl⟩ | ⟨hcut, v, hv, rfl⟩
      · obtain rfl : k = boxHeight := by omega
        have hk' : (k : ℚ) ≠ 0 := Int.cast_ne_zero.2 hbh.ne'
        rw [max_eq_right (by omega : 1 ≤ k)]
        exact .twice ⟨hlt, hnarrow, hscaled, le_rfl, .self hbw.le (mul_div_cancel_right₀ _ hk')⟩
      · rw [max_eq_right (by omega : 1 ≤ boxHeight)]
        exact .twice ⟨hlt, hnarrow, hscaled, hge,
          isScaled_of_scaled hv hbw.le (hlt.trans hw') hbh.le hcut.le⟩

/-- The factor by which a picture is shrunk exactly: by as little as the box allows. -/
def factor (width height boxWidth boxHeight : Int) : ℚ :=
  min 1 (min ((boxWidth : ℚ) / width) ((boxHeight : ℚ) / height))

theorem factor_of_le (hs : IsSized width height boxWidth boxHeight) (hw : width ≤ boxWidth)
    (hh : height ≤ boxHeight) : factor width height boxWidth boxHeight = 1 := by
  have hwidth : (0 : ℚ) < width := Int.cast_pos.2 hs.width_pos
  have hheight : (0 : ℚ) < height := Int.cast_pos.2 hs.height_pos
  refine min_eq_left (le_min ?_ ?_)
  · exact (one_le_div₀ hwidth).2 (Int.cast_le.2 hw)
  · exact (one_le_div₀ hheight).2 (Int.cast_le.2 hh)

theorem factor_of_wide (hs : IsSized width height boxWidth boxHeight) (hw : boxWidth ≤ width)
    (hh : height * boxWidth ≤ boxHeight * width) :
    factor width height boxWidth boxHeight = (boxWidth : ℚ) / width := by
  have hwidth : (0 : ℚ) < width := Int.cast_pos.2 hs.width_pos
  have hheight : (0 : ℚ) < height := Int.cast_pos.2 hs.height_pos
  have hle : (boxWidth : ℚ) / width ≤ boxHeight / height := by
    rw [div_le_div_iff₀ hwidth hheight, mul_comm]
    exact_mod_cast hh
  rw [factor, min_eq_left hle, min_eq_right ((div_le_one₀ hwidth).2 (Int.cast_le.2 hw))]

theorem factor_of_high (hs : IsSized width height boxWidth boxHeight) (hh : boxHeight ≤ height)
    (hw : boxHeight * width ≤ height * boxWidth) :
    factor width height boxWidth boxHeight = (boxHeight : ℚ) / height := by
  have hwidth : (0 : ℚ) < width := Int.cast_pos.2 hs.width_pos
  have hheight : (0 : ℚ) < height := Int.cast_pos.2 hs.height_pos
  have hle : (boxHeight : ℚ) / height ≤ boxWidth / width := by
    rw [div_le_div_iff₀ hheight hwidth, mul_comm (boxWidth : ℚ)]
    exact_mod_cast hw
  rw [factor, min_eq_right hle, min_eq_right ((div_le_one₀ hheight).2 (Int.cast_le.2 hh))]

/-- A side is no further than a distance from the exact one, which is at least one. -/
def IsWithin (distance : ℚ) (side : Int) (exact : ℚ) : Prop :=
  |(side : ℚ) - max 1 exact| ≤ distance

theorem IsWithin.mono {a b exact : ℚ} {side : Int} (h : IsWithin a side exact) (hab : a ≤ b) :
    IsWithin b side exact := h.trans hab

theorem isWithin_self {side : Int} {exact : ℚ} (h : 0 < side) (heq : exact = side) :
    IsWithin 0 side exact := by
  have hone : (1 : ℚ) ≤ side := by exact_mod_cast h
  rw [IsWithin, heq, max_eq_right hone, sub_self, abs_zero]

theorem isWithin_max_one {v : Int} {exact a : ℚ} (h : |(v : ℚ) - exact| ≤ a) :
    IsWithin a (max 1 v) exact := by
  rw [IsWithin, Int.cast_max, Int.cast_one, max_comm 1 (v : ℚ), max_comm 1 exact]
  exact (abs_max_sub_max_le_abs _ _ _).trans h

/-- The error of the height is multiplied by the ratio of the sides, and the error of the width is
added. -/
theorem abs_width_sub_le {w h W H k v a b : ℚ} (hw : 0 < w) (hh : 0 < h) (hH : 0 < H) (hk : 0 < k)
    (hheight : |k - h * W / w| ≤ a) (hwidth : |v - W * H / k| ≤ b) :
    |v - w * (H / h)| ≤ b + a * (w / h * (H / k)) := by
  have hratio : 0 ≤ w / h * (H / k) := by positivity
  have hsplit : W * H / k - w * (H / h) = (h * W / w - k) * (w / h * (H / k)) := by
    field_simp
  rw [abs_sub_comm] at hheight
  calc |v - w * (H / h)| ≤ |v - W * H / k| + |W * H / k - w * (H / h)| := abs_sub_le ..
    _ = |v - W * H / k| + |h * W / w - k| * (w / h * (H / k)) := by
      rw [hsplit, abs_mul, abs_of_nonneg hratio]
    _ ≤ b + a * (w / h * (H / k)) :=
      add_le_add hwidth (mul_le_mul_of_nonneg_right hheight hratio)

/-- A side that is scaled at most once is close to the exact one. -/
theorem Fitted.isWithin_of_once {r : Int × Int} (hs : IsSized width height boxWidth boxHeight)
    (h : Fitted width height boxWidth boxHeight r)
    (honce : width ≤ boxWidth ∨ height * boxWidth ≤ boxHeight * width) :
    IsWithin (3 / 4) r.1 (width * factor width height boxWidth boxHeight) ∧
      IsWithin (3 / 4) r.2 (height * factor width height boxWidth boxHeight) := by
  have hwidth : (width : ℚ) ≠ 0 := Int.cast_ne_zero.2 hs.width_pos.ne'
  have hheight : (height : ℚ) ≠ 0 := Int.cast_ne_zero.2 hs.height_pos.ne'
  have hzero : (0 : ℚ) ≤ 3 / 4 := by norm_num
  cases h with
  | whole hw hh =>
    rw [factor_of_le hs hw hh, mul_one, mul_one]
    exact ⟨(isWithin_self hs.width_pos rfl).mono hzero, (isWithin_self hs.height_pos rfl).mono hzero⟩
  | high hw hh hv =>
    have hprod := mul_le_mul hh.le hw hs.width_pos.le hs.height_pos.le
    have hnear := hv.near
    rw [mul_div_assoc] at hnear
    rw [factor_of_high hs hh.le hprod]
    exact ⟨isWithin_max_one hnear,
      (isWithin_self hs.boxHeight_pos (mul_div_cancel₀ _ hheight)).mono hzero⟩
  | wide hw hh hk =>
    have hnear := hk.near
    rw [mul_div_assoc] at hnear
    rw [factor_of_wide hs hw.le hh]
    exact ⟨(isWithin_self hs.boxWidth_pos (mul_div_cancel₀ _ hwidth)).mono hzero,
      isWithin_max_one hnear⟩
  | twice h =>
    have hcut := h.cut
    have hhigher := h.higher
    omega

namespace ScaledTwice
variable {k v : Int} {a b : ℚ}

/-- The height is that of the box, which is the exact one. The width has the second error and what the
ratio of the sides makes of the first one. -/
theorem isWithin (h : ScaledTwice width height boxWidth boxHeight k v)
    (hs : IsSized width height boxWidth boxHeight)
    (hk : |(k : ℚ) - height * boxWidth / width| ≤ a)
    (hv : |(v : ℚ) - boxWidth * boxHeight / k| ≤ b) :
    IsWithin (b + a * ((width : ℚ) / height * (boxHeight / k))) (max 1 v)
        (width * factor width height boxWidth boxHeight) ∧
      IsWithin 0 boxHeight (height * factor width height boxWidth boxHeight) := by
  have hheight : (0 : ℚ) < height := Int.cast_pos.2 hs.height_pos
  have hbox : (0 : ℚ) < boxHeight := Int.cast_pos.2 hs.boxHeight_pos
  have hkpos : (0 : ℚ) < k := Int.cast_pos.2 (hs.boxHeight_pos.trans_le h.le)
  rw [factor_of_high hs (h.le.trans h.first.le) h.higher.le]
  exact ⟨isWithin_max_one (abs_width_sub_le (Int.cast_pos.2 hs.width_pos) hheight hbox hkpos hk hv),
    isWithin_self hs.boxHeight_pos (mul_div_cancel₀ _ hheight.ne')⟩

/-- The width is close to the exact one if the height has not been rounded before. -/
theorem isWithin_one_of_dvd (h : ScaledTwice width height boxWidth boxHeight k v)
    (hs : IsSized width height boxWidth boxHeight) (hdvd : width ∣ height * boxWidth) :
    IsWithin 1 (max 1 v) (width * factor width height boxWidth boxHeight) := by
  have hwidth : (width : ℚ) ≠ 0 := Int.cast_ne_zero.2 hs.width_pos.ne'
  obtain ⟨c, hc⟩ := hdvd
  have hquotient : (height : ℚ) * boxWidth / width = c := by
    rw [div_eq_iff hwidth, mul_comm (c : ℚ)]
    exact_mod_cast hc
  have hwhole : |(k : ℚ) - height * boxWidth / width| ≤ 0 := by
    rw [h.first.eq_of_eq hquotient, hquotient, sub_self, abs_zero]
  refine (h.isWithin hs hwhole h.second.near).1.mono ?_
  norm_num

/-- The width is close to the exact one if the picture is not wider than high. -/
theorem isWithin_one_of_le (h : ScaledTwice width height boxWidth boxHeight k v)
    (hs : IsSized width height boxWidth boxHeight) (hle : width ≤ height)
    (hsmall : height < 2 ^ 26) :
    IsWithin 1 (max 1 v) (width * factor width height boxWidth boxHeight) := by
  have hkpos : (0 : ℚ) < k := Int.cast_pos.2 (hs.boxHeight_pos.trans_le h.le)
  have hratio : (width : ℚ) / height ≤ 1 :=
    (div_le_one₀ (Int.cast_pos.2 hs.height_pos)).2 (Int.cast_le.2 hle)
  rcases h.le.eq_or_lt with rfl | hcut
  · -- The height is that of the box, so that scaling it leaves the width as it is.
    obtain rfl := h.second.eq_of_eq (mul_div_cancel_right₀ _ hkpos.ne')
    have hsame : |(v : ℚ) - v * boxHeight / boxHeight| ≤ 0 := by
      rw [mul_div_cancel_right₀ _ hkpos.ne', sub_self, abs_zero]
    refine (h.isWithin hs h.first.near hsame).1.mono ?_
    rw [div_self hkpos.ne', mul_one]
    linarith
  · -- The first error is multiplied by less than one, and by so much less that it makes up for
    -- what both errors have beyond one half.
    have hrest : 0 ≤ (boxHeight : ℚ) / k :=
      div_nonneg (Int.cast_nonneg hs.boxHeight_pos.le) hkpos.le
    have hsteps : (boxHeight : ℚ) / k ≤ 1 - 1 / 2 ^ 26 := by
      have hsucc : (boxHeight : ℚ) + 1 ≤ k := by exact_mod_cast hcut
      have hbound : (k : ℚ) ≤ 2 ^ 26 := by exact_mod_cast h.first.le.trans hsmall.le
      rw [div_le_iff₀ hkpos]
      linarith
    have hmul : (width : ℚ) / height * (boxHeight / k) ≤ 1 - 1 / 2 ^ 26 :=
      (mul_le_of_le_one_left hrest hratio).trans hsteps
    have hwidth : boxWidth < 2 ^ 26 := h.cut.trans (hle.trans_lt hsmall)
    refine (h.isWithin hs (h.first.near_of_small hsmall) (h.second.near_of_small hwidth)).1.mono ?_
    linarith

end ScaledTwice

/-- Every picture can be fitted into every box. The height of the result is always close to the exact
one, the width up to an error that grows with the ratio of the sides. The width is close to the exact
one if the picture is not wider than the box, if it is at least as flat as the box, if cutting the
width leaves a whole height, or if the picture is not wider than high, below `2 ^ 26`. -/
theorem exists_fit_isWithin (hs : IsSized width height boxWidth boxHeight) :
    ∃ r, fit width height boxWidth boxHeight = .ok r ∧
      IsWithin (3 / 4) r.2 (height * factor width height boxWidth boxHeight) ∧
      IsWithin (3 / 4 * (1 + width / height)) r.1
        (width * factor width height boxWidth boxHeight) ∧
      (width ≤ boxWidth ∨ height * boxWidth ≤ boxHeight * width ∨ width ∣ height * boxWidth ∨
          width ≤ height ∧ height < 2 ^ 26 →
        IsWithin 1 r.1 (width * factor width height boxWidth boxHeight)) := by
  have hratio : (0 : ℚ) ≤ width / height :=
    div_nonneg (Int.cast_nonneg hs.width_pos.le) (Int.cast_nonneg hs.height_pos.le)
  obtain ⟨r, hr⟩ := exists_fit hs.width_pos hs.width_lt hs.height_pos hs.height_lt hs.boxWidth_pos
    hs.boxHeight_pos
  have hfitted := fitted_of_fit hs hr
  refine ⟨r, hr, ?_⟩
  by_cases honce : width ≤ boxWidth ∨ height * boxWidth ≤ boxHeight * width
  · obtain ⟨hwidth, hheight⟩ := hfitted.isWithin_of_once hs honce
    exact ⟨hheight, hwidth.mono (by linarith), fun _ => hwidth.mono (by norm_num)⟩
  · cases hfitted with
    | whole hw hh => exact absurd (Or.inl hw) honce
    | high hw hh hv => exact absurd (Or.inl hw) honce
    | wide hw hh hk => exact absurd (Or.inr hh) honce
    | @twice k v h =>
      obtain ⟨hwidth, hheight⟩ := h.isWithin hs h.first.near h.second.near
      have hcut : (boxHeight : ℚ) / k ≤ 1 :=
        (div_le_one₀ (Int.cast_pos.2 (hs.boxHeight_pos.trans_le h.le))).2 (Int.cast_le.2 h.le)
      have hmul := mul_le_mul_of_nonneg_left hcut hratio
      refine ⟨hheight.mono (by norm_num), hwidth.mono (by linarith), fun hkept => ?_⟩
      rcases hkept with hwhole | hwide | hdvd | ⟨hle, hsmall⟩
      · exact absurd (Or.inl hwhole) honce
      · exact absurd (Or.inr hwide) honce
      · exact h.isWithin_one_of_dvd hs hdvd
      · exact h.isWithin_one_of_le hs hle hsmall

end Ratio

/-- A picture that is as flat as four to one, in the usual box. -/
theorem exists_fit_isWithin_banner : IsSized 400 100 200 80 ∧ ∃ r, fit 400 100 200 80 = .ok r ∧
    IsWithin 1 r.1 ((400 : Int) * factor 400 100 200 80) := by
  have hs : IsSized 400 100 200 80 :=
    ⟨by decide, by decide, by decide, by decide, by decide, by decide⟩
  obtain ⟨r, hr, -, -, hwidth⟩ := exists_fit_isWithin hs
  exact ⟨hs, r, hr, hwidth (Or.inr (Or.inl (by decide)))⟩

/-- The height of a strip is rounded from one and a half to two and then cut to one, which halves the
width again: it gets 250 pixels wide, where 333 would keep the ratio. -/
theorem not_isWithin_strip : fit 1000 3 500 1 = .ok (250, 1) ∧
    ¬ IsWithin 1 250 ((1000 : Int) * factor 1000 3 500 1) := by
  refine ⟨by rfl, ?_⟩
  norm_num [IsWithin, factor, abs_le]

end Letterhead.Logo
