import Letterhead.Logo.Fit
import Letterhead.Proofs.Failure
import Letterhead.Proofs.Number.Rounding
import Mathlib.Algebra.Order.Ring.Int
import Mathlib.Algebra.Order.Group.Unbundled.Int

/-! Fitting a picture into a box, whatever the sides of the box are: each side of the result is at
least one and at most the side of the picture. -/
namespace Letterhead.Logo

/-- What a scaled side is made of: a rounded quotient without its sign, and the sign. -/
theorem exists_of_scaled {n m d k : Int} (h : scaled n m d = .ok k) :
    d ≠ 0 ∧ ∃ a e, Binary64.nearest? (n * m).natAbs d.natAbs = some (a, e) ∧
      k = Binary64.signed ((n * m < 0) != (d < 0)) (Binary64.roundScaled a e) := by
  unfold scaled at h
  split at h
  · cases h
  · next hd =>
    refine ⟨hd, ?_⟩
    unfold Binary64.ofRatio at h
    cases hr : Binary64.nearest? (n * m).natAbs d.natAbs with
    | none => simp [hr] at h
    | some r =>
      simp only [hr, Binary64.rounded, Binary64.round?, Except.ok.injEq] at h
      exact ⟨r.1, r.2, rfl, h.symm⟩

theorem sign_eq_false {n d : Int} (hn : 0 ≤ n) (hd : 0 < d) :
    ((n < 0) != (d < 0) : Bool) = false := by
  simp only [bne_eq_false_iff_eq, decide_eq_decide]
  omega

/-- A side that is not negative is shrunk to one between zero and itself. -/
theorem exists_scaled {n m d : Int} (hn : 0 ≤ n) (hlt : n < 2 ^ 53) (hm : 0 ≤ m) (hle : m ≤ d)
    (hd : 0 < d) : ∃ k, scaled n m d = .ok k ∧ 0 ≤ k ∧ k ≤ n := by
  have hsign := sign_eq_false (Int.mul_nonneg hn hm) hd
  have habs : (n * m).natAbs ≤ n.natAbs * d.natAbs := by
    rw [Int.natAbs_mul]
    exact Nat.mul_le_mul_left _ (by omega)
  obtain ⟨a, e, hr, hround⟩ := Binary64.exists_nearest?_le (by omega) (by omega) habs
  refine ⟨Binary64.signed false (Binary64.roundScaled a e), ?_, ?_⟩
  · simp only [scaled, if_neg hd.ne', Binary64.ofRatio, hr, hsign, Binary64.rounded,
      Binary64.round?]
  · simp only [Binary64.signed, Bool.false_eq_true, if_false]
    omega

theorem scaled_mem_Icc {n m d k : Int} (h : scaled n m d = .ok k) (hn : 0 ≤ n)
    (hlt : n < 2 ^ 53) (hm : 0 ≤ m) (hle : m ≤ d) : 0 ≤ k ∧ k ≤ n := by
  have hd := (exists_of_scaled h).1
  obtain ⟨l, hl, hbounds⟩ := exists_scaled hn hlt hm hle (by omega)
  rw [h] at hl
  rwa [Except.ok.inj hl]

/-- A quotient that is not positive is not rounded up past zero. -/
theorem scaled_nonpos {n m d k : Int} (h : scaled n m d = .ok k)
    (hsign : n * m ≤ 0 ∧ 0 < d ∨ 0 ≤ n * m ∧ d < 0) : k ≤ 0 := by
  obtain ⟨hd, a, e, hr, rfl⟩ := exists_of_scaled h
  by_cases hzero : n * m = 0
  · obtain ⟨b, f, hr', hround⟩ := Binary64.exists_nearest?_le (q := 0) (by omega) (by decide)
      (show (n * m).natAbs ≤ 0 * d.natAbs by simp [hzero])
    rw [hr] at hr'
    obtain ⟨rfl, rfl⟩ := Prod.mk.inj (Option.some.inj hr')
    unfold Binary64.signed
    split <;> omega
  · have hneg : ((n * m < 0) != (d < 0) : Bool) = true := by
      simp only [bne_iff_ne, ne_eq, decide_eq_decide]
      omega
    rw [hneg]
    simp only [Binary64.signed, if_true]
    omega

/-- A step of fitting: the second side is cut to its bound and the first one scaled with it. Sides of
one sign stay within themselves, or get down to zero or below. -/
theorem scaled_le_of_signs {n m d k : Int} (h : scaled n m d = .ok k) (hlt : n < 2 ^ 53)
    (hmd : m < d) (hsigns : 0 ≤ n ∧ 0 ≤ d ∨ n ≤ 0 ∧ d ≤ 0) : k ≤ max 0 n := by
  have hd := (exists_of_scaled h).1
  rcases hsigns with ⟨hn, hd'⟩ | ⟨hn, hd'⟩
  · rcases le_or_gt 0 m with hm | hm
    · exact le_max_of_le_right (scaled_mem_Icc h hn hlt hm hmd.le).2
    · exact le_max_of_le_left (scaled_nonpos h
        (Or.inl ⟨Int.mul_nonpos_of_nonneg_of_nonpos hn hm.le, by omega⟩))
  · exact le_max_of_le_left (scaled_nonpos h
      (Or.inr ⟨Int.mul_nonneg_of_nonpos_of_nonpos hn (by omega), by omega⟩))

def cutHeight (boxHeight w k : Int) : Except Failure (Int × Int) :=
  if boxHeight < k then scaled w boxHeight k >>= fun v => .ok (max 1 v, max 1 boxHeight)
  else .ok (max 1 w, max 1 k)

/-- Fitting cuts the width first, and scales the height with it. -/
theorem fit_eq (width height boxWidth boxHeight : Int) :
    fit width height boxWidth boxHeight =
      if boxWidth < width then
        scaled height boxWidth width >>= fun k => cutHeight boxHeight boxWidth k
      else cutHeight boxHeight width height := rfl

theorem of_cutHeight {boxHeight w k : Int} {r : Int × Int} (h : cutHeight boxHeight w k = .ok r) :
    k ≤ boxHeight ∧ r = (max 1 w, max 1 k) ∨ boxHeight < k ∧
      ∃ v, scaled w boxHeight k = .ok v ∧ r = (max 1 v, max 1 boxHeight) := by
  unfold cutHeight at h
  split at h
  · next hcut =>
    obtain ⟨v, hv, h⟩ := exists_of_bind_eq_ok h
    exact Or.inr ⟨hcut, v, hv, (Except.ok.inj h).symm⟩
  · next hfits => exact Or.inl ⟨Int.not_lt.1 hfits, (Except.ok.inj h).symm⟩

theorem exists_of_fit {width height boxWidth boxHeight : Int} {r : Int × Int}
    (h : fit width height boxWidth boxHeight = .ok r) :
    ∃ w k, (width ≤ boxWidth ∧ w = width ∧ k = height ∨
        boxWidth < width ∧ w = boxWidth ∧ scaled height boxWidth width = .ok k) ∧
      cutHeight boxHeight w k = .ok r := by
  rw [fit_eq] at h
  split at h
  · next hcut =>
    obtain ⟨k, hk, h⟩ := exists_of_bind_eq_ok h
    exact ⟨boxWidth, k, Or.inr ⟨hcut, rfl, hk⟩, h⟩
  · next hfits => exact ⟨width, height, Or.inl ⟨Int.not_lt.1 hfits, rfl, rfl⟩, h⟩

def IsOfNumber : Failure → Prop
  | .overflow | .divisionByZero | .noWholeForNan => True
  | _ => False

theorem failsOnly_scaled (n m d : Int) : FailsOnly IsOfNumber (scaled n m d) := by
  unfold scaled
  split
  · exact failsOnly_error ⟨⟩
  · split
    · exact failsOnly_error ⟨⟩
    · unfold Binary64.rounded
      split
      · exact failsOnly_ok _
      · refine failsOnly_error ?_
        split <;> exact ⟨⟩

theorem failsOnly_fit (width height boxWidth boxHeight : Int) :
    FailsOnly IsOfNumber (fit width height boxWidth boxHeight) := by
  have hsecond : ∀ w k, FailsOnly IsOfNumber (cutHeight boxHeight w k) := by
    intro w k
    unfold cutHeight
    split
    · exact (failsOnly_scaled _ _ _).bind fun _ _ => failsOnly_ok _
    · exact failsOnly_ok _
  rw [fit_eq]
  split
  · exact (failsOnly_scaled _ _ _).bind fun _ _ => hsecond _ _
  · exact hsecond _ _

/-- Fitting never enlarges a picture, and takes no side away. -/
theorem fit_le {width height boxWidth boxHeight : Int} {r : Int × Int}
    (h : fit width height boxWidth boxHeight = .ok r) (hw : 0 < width) (hw' : width < 2 ^ 53)
    (hh : 0 < height) (hh' : height < 2 ^ 53) :
    (0 < r.1 ∧ r.1 ≤ width) ∧ 0 < r.2 ∧ r.2 ≤ height := by
  obtain ⟨w, k, hfirst, hsecond⟩ := exists_of_fit h
  -- Between the two cuts no side is greater than before, and the sides have one sign: a width that
  -- is cut to zero or below takes the height with it.
  have hinv : w ≤ width ∧ k ≤ height ∧ (0 ≤ w ∧ 0 ≤ k ∨ w ≤ 0 ∧ k ≤ 0) := by
    rcases hfirst with ⟨-, rfl, rfl⟩ | ⟨hlt, rfl, hk⟩
    · omega
    · rcases le_or_gt 0 w with hpos | hneg
      · have hbounds := scaled_mem_Icc hk hh.le hh' hpos hlt.le
        omega
      · have hneg' := scaled_nonpos hk
          (Or.inl ⟨Int.mul_nonpos_of_nonneg_of_nonpos hh.le hneg.le, hw⟩)
        omega
  rcases of_cutHeight hsecond with ⟨-, rfl⟩ | ⟨hlt, v, hv, rfl⟩
  · simp only
    omega
  · have hbound := scaled_le_of_signs hv (by omega) hlt hinv.2.2
    simp only
    omega

/-- A picture can be fitted into every box with sides. -/
theorem exists_fit {width height boxWidth boxHeight : Int} (hw : 0 < width) (hw' : width < 2 ^ 53)
    (hh : 0 < height) (hh' : height < 2 ^ 53) (hbw : 0 < boxWidth) (hbh : 0 < boxHeight) :
    ∃ r, fit width height boxWidth boxHeight = .ok r := by
  have hsecond : ∀ w k : Int, 0 ≤ w → w < 2 ^ 53 → ∃ r, cutHeight boxHeight w k = .ok r := by
    intro w k hpos hlt
    unfold cutHeight
    split
    · next hcut =>
      obtain ⟨v, hv, -⟩ := exists_scaled hpos hlt hbh.le hcut.le (hbh.trans hcut)
      exact ⟨_, by rw [hv]; rfl⟩
    · exact ⟨_, rfl⟩
  rw [fit_eq]
  split
  · next hcut =>
    obtain ⟨k, hk, -⟩ := exists_scaled hh.le hh' hbw.le hcut.le hw
    obtain ⟨r, hr⟩ := hsecond boxWidth k hbw.le (hcut.trans hw')
    exact ⟨r, by rw [hk]; exact hr⟩
  · exact hsecond width height hw.le hw'

end Letterhead.Logo
