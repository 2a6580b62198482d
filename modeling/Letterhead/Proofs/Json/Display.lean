import Letterhead.Branding.Layer
import Letterhead.Proofs.Branding.Leaf
import Letterhead.Proofs.Number.Numeral
import Mathlib.Data.List.Forall2

/-! Texts that stand for values. Dropping nulls does not make such a text longer, that of a value which
counts as no is short, and only a text starts with a number sign. -/
namespace Letterhead

/-- Fewer and shorter texts are shorter when they are put together. -/
theorem Text.length_intercalate_le (sep : Text) {ss ts : List Text}
    (h : List.SublistForall₂ (fun s t => s.length ≤ t.length) ss ts) :
    (sep.intercalate ss).length ≤ (sep.intercalate ts).length := by
  induction h with
  | nil => exact Nat.zero_le _
  | @cons s t ss ts hst hrest ih =>
    cases ss with
    | nil =>
      cases ts with
      | nil => simpa using hst
      | cons t' ts =>
        simp only [List.intercalate_singleton, List.intercalate_cons_cons, List.length_append]
        omega
    | cons s' ss =>
      cases ts with
      | nil => cases hrest
      | cons t' ts =>
        simp only [List.intercalate_cons_cons, List.length_append]
        omega
  | @cons_right t ss ts hrest ih =>
    cases ts with
    | nil =>
      cases hrest
      exact Nat.zero_le _
    | cons t' ts =>
      simp only [List.intercalate_cons_cons, List.length_append]
      omega

namespace Json

mutual

/-- Without its nulls a value is not longer where it stands inside another one. -/
theorem length_inner_dropNulls_le : ∀ v : Json, v.dropNulls.inner.length ≤ v.inner.length
  | .object fields => by
    have hle := Text.length_intercalate_le ", ".toList (innerFields_dropNullFields fields)
    simp only [dropNulls, inner, List.length_cons, List.length_append]
    omega
  | .null | .bool _ | .int _ | .float _ | .text _ | .array _ => by simp [dropNulls]

theorem innerFields_dropNullFields : ∀ fields : List (Text × Json),
    List.SublistForall₂ (fun s t => s.length ≤ t.length) (innerFields (dropNullFields fields))
      (innerFields fields)
  | [] => by
    rw [dropNullFields, innerFields]
    exact .nil
  | (name, v) :: rest => by
    have hrest := innerFields_dropNullFields rest
    have hv := length_inner_dropNulls_le v
    rw [dropNullFields, innerFields]
    cases hnull : v.isNull with
    | true =>
      rw [dropNullField_of_isNull hnull]
      exact .cons_right hrest
    | false =>
      rw [dropNullField_of_not_isNull hnull, List.singleton_append, innerFields]
      refine .cons ?_ hrest
      simp only [innerField, List.length_append]
      omega

end

theorem length_display_dropNulls_le (v : Json) :
    v.dropNulls.display.length ≤ v.display.length := by
  cases v with
  | object fields => simpa [dropNulls, display] using length_inner_dropNulls_le (.object fields)
  | _ => simp [dropNulls]

theorem length_display_of_not_isTruthy {v : Json} (h : v.isTruthy = false) :
    v.display.length ≤ 5 := by
  cases v with
  | null => decide
  | bool b => cases b <;> decide
  | int n =>
    obtain rfl : n = 0 := by simpa [isTruthy] using h
    decide
  | float x =>
    cases x with
    | finite s m e =>
      obtain rfl : m = 0 := by simpa [isTruthy, Binary64.isZero] using h
      cases s <;> exact Nat.le_of_ble_eq_true rfl
    | infinite s => cases h
    | nan => cases h
  | text t =>
    obtain rfl : t = [] := by simpa [isTruthy] using h
    decide
  | array items =>
    obtain rfl : items = [] := by simpa [isTruthy] using h
    simp [display, inner, innerItems]
  | object fields =>
    obtain rfl : fields = [] := by simpa [isTruthy] using h
    simp [display, inner, innerFields]

theorem eq_text_of_display {v : Json} {t : Text} (h : v.display = '#' :: t) :
    v = .text ('#' :: t) := by
  cases v with
  | text u => exact congrArg text h
  | null => cases h
  | bool b => cases b <;> cases h
  | int n =>
    have hsign : '#' = '-' ∨ Char.isDigit '#' = true :=
      mem_intText (n := n) (by rw [show intText n = '#' :: t from h]; exact List.mem_cons_self)
    exact absurd hsign (by decide)
  | float x =>
    obtain ⟨c, u, hx, hc⟩ := x.exists_text_eq
    obtain rfl := (List.cons.inj (hx.symm.trans h)).1
    exact absurd hc (by unfold Binary64.IsStart; decide)
  | array items => simp [display, inner] at h
  | object fields => simp [display, inner] at h

end Json
end Letterhead
