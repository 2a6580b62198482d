import Letterhead.Proofs.Number.Numeral
import Letterhead.Text.Blank
import Letterhead.Text.Letter

/-! Characters of ASCII. What holds of them is checked one by one, and lower case is the same for them
whichever way it is taken. Hexadecimal digits are among them. -/
namespace Letterhead

@[elab_as_elim]
theorem forall_ascii {P : Char → Prop} {c : Char} (hc : c.toNat < 128)
    (h : ∀ n < 128, P (Char.ofNat n)) : P c := by
  have hn := h c.toNat hc
  rwa [Char.ofNat_toNat] at hn

theorem lowerOf_of_ascii {c : Char} (hc : c.toNat < 128) : lowerOf c = [c.toLower] := by
  have hdot : (c == '\u0130') = false := by
    rw [beq_eq_false_iff_ne]
    rintro rfl
    exact absurd hc (by decide)
  rw [lowerOf, hdot, simpleLower, if_pos hc]
  rfl

theorem Text.lower_of_ascii {t : Text} (h : ∀ c ∈ t, c.toNat < 128) : lower t = lowerAscii t := by
  induction t with
  | nil => rfl
  | cons c t ih =>
    obtain ⟨hc, ht⟩ := List.forall_mem_cons.1 h
    rw [lower, List.flatMap_cons, lowerOf_of_ascii hc]
    exact congrArg (c.toLower :: ·) (ih ht)

theorem lt_of_hexDigit? {c : Char} (h : (hexDigit? c).isSome = true) : c.toNat < 128 := by
  by_contra hlarge
  have hdigit : c.isDigit = false := by
    by_contra hd
    have hle := (le_of_isDigit (Bool.of_not_eq_false hd)).2
    omega
  have hnone : hexDigit? c = none := by
    simp only [hexDigit?, hdigit]
    rw [if_neg (by simp), if_neg (by simp; omega), if_neg (by simp; omega)]
  rw [hnone] at h
  cases h

theorem isBlank_of_hexDigit? {c : Char} (h : (hexDigit? c).isSome = true) : isBlank c = false := by
  have hlt := lt_of_hexDigit? h
  revert h
  exact forall_ascii hlt (by decide +kernel)

end Letterhead
