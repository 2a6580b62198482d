import Letterhead.Text.Basic

/-!
Exact quotients of whole numbers: rounding to the nearest whole number, a half going to the even
neighbour, and the powers of two and ten that bracket a quotient.
-/

namespace Letterhead

/-- The whole number nearest to `n / d`; of two equally near ones the even one. -/
def roundRatio (n d : Nat) : Nat :=
  let q := n / d
  let r := n % d
  if 2 * r < d then q else if d < 2 * r then q + 1 else q + q % 2

def divPower (base n d : Nat) (e : Int) : Nat × Nat :=
  if 0 ≤ e then (n, d * Nat.pow base e.toNat) else (n * Nat.pow base (-e).toNat, d)

def powerLe (base : Nat) (e : Int) (n d : Nat) : Bool :=
  let p := divPower base n d e
  p.2 ≤ p.1

def floorLog2 (n d : Nat) : Int :=
  let k : Int := (n.log2 : Int) - d.log2
  if powerLe 2 k n d then k else k - 1

/-- The greatest `k` with `10 ^ k ≤ n / d`, for positive `n` and `d`. The logarithm to base two
gives it up to one. -/
def floorLog10 (n d : Nat) : Int :=
  let k : Int := ((n.log2 : Int) - d.log2) * 30103 / 100000
  if powerLe 10 (k + 1) n d then k + 1 else if powerLe 10 k n d then k else k - 1

@[simp] theorem roundRatio_zero (d : Nat) : roundRatio 0 d = 0 := by
  unfold roundRatio
  rcases Nat.eq_zero_or_pos d with h | h <;> simp [h]

theorem roundRatio_one (n : Nat) : roundRatio n 1 = n := by
  simp [roundRatio, Nat.mod_one]

theorem roundRatio_near {n d : Nat} (h : 0 < d) :
    2 * n ≤ 2 * (roundRatio n d * d) + d ∧ 2 * (roundRatio n d * d) ≤ 2 * n + d := by
  have hn : d * (n / d) + n % d = n := Nat.div_add_mod n d
  have hr : n % d < d := Nat.mod_lt n h
  unfold roundRatio
  simp only
  generalize hq : n / d = q at *
  generalize hm : n % d = r at *
  have hqd : q * d = d * q := Nat.mul_comm q d
  split
  · omega
  · split
    · rw [Nat.add_mul, hqd]; omega
    · rcases Nat.mod_two_eq_zero_or_one q with h2 | h2
      · rw [h2, Nat.add_zero, hqd]; omega
      · rw [h2, Nat.add_mul, hqd]; omega

end Letterhead
