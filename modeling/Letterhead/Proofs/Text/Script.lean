import Letterhead.Proofs.Text.Trim
import Letterhead.Text.Script

/-! Scripts without halves are the texts, and trimming does not tell the two apart. -/
namespace Letterhead.Script

theorem text?_cons_char (c : Char) (s : Script) :
    text? (.char c :: s) = s.text?.map (c :: ·) := by
  rw [text?, text?, List.mapM_cons]
  cases s.mapM Sign.char? with
  | none => rfl
  | some t => rfl

@[simp] theorem text?_ofText (t : Text) : (ofText t).text? = some t := by
  induction t with
  | nil => rfl
  | cons c t ih => exact (text?_cons_char c _).trans (by rw [← ofText, ih]; rfl)

theorem text?_eq_some_iff {s : Script} {t : Text} : s.text? = some t ↔ s = ofText t := by
  refine ⟨fun h => ?_, fun h => h ▸ text?_ofText t⟩
  induction s generalizing t with
  | nil =>
    obtain rfl : [] = t := Option.some.inj h
    rfl
  | cons c s ih =>
    cases c with
    | half n => simp [text?, Sign.char?] at h
    | char c =>
      rw [text?_cons_char] at h
      obtain ⟨u, hu, rfl⟩ := Option.map_eq_some_iff.1 h
      rw [ih hu]
      rfl

theorem trim_ofText (t : Text) : trim (ofText t) = ofText (Text.trim t) := by
  have hdrop : ∀ u : Text, (ofText u).dropWhile Sign.isBlank = ofText (u.dropWhile isBlank) :=
    fun u => List.dropWhile_map ..
  rw [trim, hdrop, ofText, ← List.map_reverse, ← ofText, hdrop, ofText, ← List.map_reverse, Text.trim,
    Text.trimRight_eq_rdropWhile, List.rdropWhile]
  rfl

end Letterhead.Script
