import Letterhead.Number.Binary64
import Mathlib.Algebra.Order.Field.Rat
import Mathlib.Tactic.FieldSimp
import Mathlib.Tactic.Linarith
import Mathlib.Tactic.Positivity

/-! Rounding twice, to a floating point number and from there to a whole number, does not carry a
quotient past a whole number that a floating point number can hold, and moves it by less than one. -/
namespace Letterhead

/-- Rounding does not carry a quotient past a whole number. -/
theorem roundRatio_le {n d q : Nat} (hd : 0 < d) (h : n ≤ q * d) : roundRatio n d ≤ q := by
  have hdiv : n / d ≤ q := Nat.div_le_of_le_mul (by rwa [Nat.mul_comm] at h)
  rcases Nat.lt_or_eq_of_le hdiv with hlt | heq
  · unfold roundRatio
    simp only
    split
    · omega
    · split <;> omega
  · -- the quotient is the bound itself, so nothing is left to round up
    have hmod : n % d = 0 := by
      have hn := Nat.div_add_mod n d
      rw [heq, Nat.mul_comm] at hn
      omega
    simp [roundRatio, hmod, hd, heq]

theorem roundRatio_mul_le {n d q : Nat} (hd : 0 < d) (h : n ≤ q * d) (s : Nat) :
    roundRatio (n * s) d ≤ q * s :=
  roundRatio_le hd (by
    rw [Nat.mul_right_comm]
    exact Nat.mul_le_mul_right _ h)

theorem abs_roundRatio_sub_le (n : Nat) {d : Nat} (hd : 0 < d) :
    |(roundRatio n d : ℚ) - n / d| ≤ 1 / 2 := by
  have hd' : (0 : ℚ) < d := Nat.cast_pos.2 hd
  obtain ⟨hup, hdown⟩ := roundRatio_near (n := n) hd
  have hup' : (2 * n : ℚ) ≤ 2 * (roundRatio n d * d) + d := mod_cast hup
  have hdown' : (2 * (roundRatio n d * d) : ℚ) ≤ 2 * n + d := mod_cast hdown
  have hle : (n : ℚ) / d ≤ roundRatio n d + 1 / 2 := (div_le_iff₀ hd').2 (by linarith)
  have hge : (roundRatio n d : ℚ) - 1 / 2 ≤ n / d := (le_div_iff₀ hd').2 (by linarith)
  exact abs_le.2 ⟨by linarith, by linarith⟩

theorem floorLog2_lt {n d k : Nat} (hn : 0 < n) (h : n < d * 2 ^ k) :
    floorLog2 n d < k := by
  have hlog : n.log2 ≤ d.log2 + k := by
    have hlt : 2 ^ n.log2 < 2 ^ (d.log2 + 1 + k) := calc
      2 ^ n.log2 ≤ n := Nat.log2_self_le hn.ne'
      _ < d * 2 ^ k := h
      _ ≤ 2 ^ (d.log2 + 1) * 2 ^ k := Nat.mul_le_mul_right _ Nat.lt_log2_self.le
      _ = 2 ^ (d.log2 + 1 + k) := (pow_add ..).symm
    have := (Nat.pow_lt_pow_iff_right (by decide : 1 < 2)).1 hlt
    omega
  unfold floorLog2
  simp only
  split
  · next hle =>
    by_contra hge
    have hk : (n.log2 : Int) - d.log2 = k := by omega
    rw [hk] at hle
    simp only [powerLe, divPower, Int.natCast_nonneg, if_true, Int.toNat_natCast,
      decide_eq_true_eq, Nat.pow_eq] at hle
    omega
  · omega

theorem divPower_neg (base n d s : Nat) :
    divPower base n d (-(s : Int)) = (n * base ^ s, d) := by
  unfold divPower
  rcases Nat.eq_zero_or_pos s with rfl | hs
  · simp
  · rw [if_neg (by omega)]
    simp

theorem divPower_natCast (base n d s : Nat) : divPower base n d s = (n, d * base ^ s) := by
  simp [divPower]

namespace Binary64

@[simp] theorem roundScaled_zero (e : Int) : roundScaled 0 e = 0 := by
  unfold roundScaled divPower
  split <;> simp

theorem roundScaled_neg (m s : Nat) : roundScaled m (-(s : Int)) = roundRatio m (2 ^ s) := by
  rw [roundScaled, Int.neg_neg, divPower_natCast, Nat.one_mul]

/-- A quotient that does not exceed a whole number below `2 ^ 53` is in range. It is scaled up by a
power of two and rounded to a whole number, and the mantissa stands for that number. The smaller the
quotient is, the more binary digits it is scaled up by. -/
theorem exists_nearest?_eq {n d q : Nat} (hd : 0 < d) (hq : q < 2 ^ 53) (h : n ≤ q * d) :
    ∃ t m s : Nat, nearest? n d = some (m, -(s : Int)) ∧
      m * 2 ^ t = roundRatio (n * 2 ^ t) d * 2 ^ s ∧ (t = 0 → s = 0) ∧
      ∀ k, n < d * 2 ^ k → 53 ≤ t + k := by
  rcases Nat.eq_zero_or_pos n with rfl | hn
  · refine ⟨1074, 0, 1074, by simp [nearest?, leastExponent], ?_, by omega, by omega⟩
    rw [Nat.zero_mul (2 ^ 1074), roundRatio_zero, Nat.zero_mul]
  · have hlog : floorLog2 n d < (53 : Nat) :=
      floorLog2_lt hn (by
        rw [Nat.mul_comm]
        exact h.trans_lt (Nat.mul_lt_mul_of_pos_right hq hd))
    -- no digit of the mantissa stands before the point, so the quotient is only scaled up
    obtain ⟨t, ht⟩ : ∃ t : Nat, max (floorLog2 n d - 52) leastExponent = -(t : Int) :=
      ⟨(-max (floorLog2 n d - 52) leastExponent).toNat, by unfold leastExponent; omega⟩
    have hdigits : ∀ k, n < d * 2 ^ k → 53 ≤ t + k := fun k hk => by
      have hlt := floorLog2_lt hn hk
      unfold leastExponent at ht
      omega
    have hr := roundRatio_mul_le hd h (2 ^ t)
    have hrange : ∀ k : Nat, -(k : Int) ≤ greatestExponent := fun k => by
      unfold greatestExponent
      omega
    simp only [nearest?, if_neg hn.ne', ht, divPower_neg]
    by_cases hfull : roundRatio (n * 2 ^ t) d = Nat.pow 2 53
    · cases t with
      | zero =>
        rw [hfull, Nat.pow_eq] at hr
        omega
      | succ s =>
        have he : -((s + 1 : Nat) : Int) + 1 = -(s : Int) := by omega
        simp only [if_pos hfull, he, if_pos (hrange s)]
        refine ⟨s + 1, Nat.pow 2 52, s, rfl, ?_, fun hzero => absurd hzero s.succ_ne_zero, hdigits⟩
        rw [hfull, Nat.pow_eq, Nat.pow_eq, ← pow_add, ← pow_add]
        congr 1
        omega
    · simp only [if_neg hfull, if_pos (hrange t)]
      exact ⟨t, _, t, rfl, rfl, id, hdigits⟩

theorem roundScaled_le {m q s : Nat} (h : m ≤ q * 2 ^ s) : roundScaled m (-(s : Int)) ≤ q := by
  rw [roundScaled_neg]
  exact roundRatio_le (Nat.two_pow_pos s) h

/-- The whole number nearest to a rounded quotient does not exceed a whole number that the quotient
does not exceed. -/
theorem exists_nearest?_le {n d q : Nat} (hd : 0 < d) (hq : q < 2 ^ 53) (h : n ≤ q * d) :
    ∃ m e, nearest? n d = some (m, e) ∧ roundScaled m e ≤ q := by
  obtain ⟨t, m, s, hnearest, hm, -⟩ := exists_nearest?_eq hd hq h
  refine ⟨m, _, hnearest, roundScaled_le (Nat.le_of_mul_le_mul_right ?_ (Nat.two_pow_pos t))⟩
  calc m * 2 ^ t = roundRatio (n * 2 ^ t) d * 2 ^ s := hm
    _ ≤ q * 2 ^ t * 2 ^ s := Nat.mul_le_mul_right _ (roundRatio_mul_le hd h (2 ^ t))
    _ = q * 2 ^ s * 2 ^ t := Nat.mul_right_comm ..

theorem abs_mantissa_sub_le {n d t m s : Nat} (hd : 0 < d)
    (hm : m * 2 ^ t = roundRatio (n * 2 ^ t) d * 2 ^ s) :
    |(m : ℚ) / 2 ^ s - n / d| ≤ 1 / 2 ^ (t + 1) := by
  have hpow : (0 : ℚ) < 2 ^ t := by positivity
  have hvalue : (m : ℚ) / 2 ^ s = roundRatio (n * 2 ^ t) d / 2 ^ t := by
    rw [div_eq_div_iff (by positivity) hpow.ne']
    exact_mod_cast hm
  have hsub : (m : ℚ) / 2 ^ s - n / d =
      (roundRatio (n * 2 ^ t) d - ((n * 2 ^ t : Nat) : ℚ) / d) / 2 ^ t := by
    rw [hvalue]
    push_cast
    field_simp
  rw [hsub, abs_div, abs_of_pos hpow, div_le_iff₀ hpow]
  calc _ ≤ (1 : ℚ) / 2 := abs_roundRatio_sub_le (n * 2 ^ t) hd
    _ = 1 / 2 ^ (t + 1) * 2 ^ t := by rw [pow_succ]; field_simp

/-- Rounding twice moves a quotient below `2 ^ 53` by three quarters at most, and by little more than
one half if the quotient is small. -/
theorem abs_roundScaled_sub_le {n d q m : Nat} {e : Int} (hd : 0 < d) (hq : q < 2 ^ 53)
    (h : n ≤ q * d) (hnearest : nearest? n d = some (m, e)) :
    |(roundScaled m e : ℚ) - n / d| ≤ 3 / 4 ∧ ∀ u k, u + k = 53 → n < d * 2 ^ k →
      |(roundScaled m e : ℚ) - n / d| ≤ 1 / 2 + 1 / 2 ^ (u + 1) := by
  obtain ⟨t, m', s, heq, hm, hzero, hdigits⟩ := exists_nearest?_eq hd hq h
  rw [hnearest] at heq
  obtain ⟨rfl, rfl⟩ := Prod.mk.inj (Option.some.inj heq)
  have hmantissa := abs_mantissa_sub_le hd hm
  have hround : |(roundScaled m (-(s : Int)) : ℚ) - m / 2 ^ s| ≤ 1 / 2 := by
    rw [roundScaled_neg]
    simpa using abs_roundRatio_sub_le m (Nat.two_pow_pos s)
  have hsum := abs_sub_le (roundScaled m (-(s : Int)) : ℚ) (m / 2 ^ s) (n / d)
  have hanti : ∀ u ≤ t, (1 : ℚ) / 2 ^ (t + 1) ≤ 1 / 2 ^ (u + 1) := fun u hu =>
    one_div_le_one_div_of_le (by positivity)
      (pow_le_pow_right₀ (by norm_num) (Nat.succ_le_succ hu))
  constructor
  · rcases Nat.eq_zero_or_pos t with ht | ht
    · -- the mantissa is a whole number already, so that it is rounded once
      obtain rfl := hzero ht
      have hwhole : (roundScaled m (-((0 : Nat) : Int)) : ℚ) = m / 2 ^ 0 := by
        rw [roundScaled_neg, pow_zero, pow_zero, roundRatio_one, div_one]
      rw [hwhole]
      have hhalf : (1 : ℚ) / 2 ^ (t + 1) ≤ 1 / 2 := by simpa using hanti 0 t.zero_le
      linarith
    · have hquarter : (1 : ℚ) / 2 ^ (t + 1) ≤ 1 / 2 ^ 2 := hanti 1 ht
      linarith
  · intro u k hk hlt
    have hu := hanti u (by have := hdigits k hlt; omega)
    linarith

end Binary64
end Letterhead
