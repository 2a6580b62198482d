import Letterhead.Text.Blank
import Mathlib.Data.List.DropRight
import Mathlib.Tactic.Conv

/-! Trimming. A text is its right-trimmed part followed by blanks, and trimming the two ends commutes.
Whatever ignores blanks cannot tell a text from its trimmed forms. -/
namespace Letterhead.Text

theorem trimRight_eq_rdropWhile (t : Text) : trimRight t = t.rdropWhile isBlank := by
  induction t with
  | nil => rfl
  | cons c t ih =>
    rw [trimRight_cons, ih, List.rdropWhile, List.rdropWhile, List.reverse_cons,
      List.dropWhile_append]
    by_cases ht : List.dropWhile isBlank t.reverse = [] <;> by_cases hc : isBlank c = true <;>
      simp [ht, hc]

theorem trimRight_eq_nil_iff {t : Text} : trimRight t = [] ↔ ∀ c ∈ t, isBlank c = true := by
  rw [trimRight_eq_rdropWhile, List.rdropWhile_eq_nil_iff]

@[simp] theorem trimRight_trimRight (t : Text) : trimRight (trimRight t) = trimRight t := by
  simp only [trimRight_eq_rdropWhile, List.rdropWhile_idempotent]

theorem isPrefix_trimRight (t : Text) : trimRight t <+: t := by
  rw [trimRight_eq_rdropWhile]
  exact List.rdropWhile_prefix _ _

theorem exists_eq_trimRight_append (t : Text) :
    ∃ bs, t = trimRight t ++ bs ∧ ∀ c ∈ bs, isBlank c = true := by
  refine ⟨t.rtakeWhile isBlank, ?_, fun c hc => List.mem_rtakeWhile_imp hc⟩
  rw [trimRight_eq_rdropWhile, List.rdropWhile_append_rtakeWhile]

/-- What follows a text is trimmed alone, unless nothing is left of it. -/
theorem trimRight_append (s t : Text) :
    trimRight (s ++ t) = if trimRight t = [] then trimRight s else s ++ trimRight t := by
  simp only [trimRight_eq_rdropWhile, List.rdropWhile, List.reverse_append, List.dropWhile_append,
    List.reverse_eq_nil_iff, List.isEmpty_iff]
  split <;> simp

theorem trimRight_append_blanks (s : Text) {bs : Text} (h : ∀ c ∈ bs, isBlank c = true) :
    trimRight (s ++ bs) = trimRight s := by
  rw [trimRight_append, if_pos (trimRight_eq_nil_iff.2 h)]

theorem trimRight_cons_of_not_blank {c : Char} (h : isBlank c = false) (t : Text) :
    trimRight (c :: t) = c :: trimRight t := by
  simp [trimRight_cons, h]

theorem trimRight_append_singleton {c : Char} (h : isBlank c = false) (t : Text) :
    trimRight (t ++ [c]) = t ++ [c] := by
  rw [trimRight_eq_rdropWhile, List.rdropWhile_concat_neg _ _ _ (by simp [h])]

theorem mem_of_mem_trimRight {c : Char} {t : Text} (h : c ∈ trimRight t) : c ∈ t :=
  (isPrefix_trimRight t).mem h

theorem trimLeft_cons_of_blank {c : Char} (h : isBlank c = true) (t : Text) :
    trimLeft (c :: t) = trimLeft t :=
  List.dropWhile_cons_of_pos h

theorem trimLeft_cons_of_not_blank {c : Char} (h : isBlank c = false) (t : Text) :
    trimLeft (c :: t) = c :: t :=
  List.dropWhile_cons_of_neg (by simp [h])

theorem trimLeft_suffix (t : Text) : trimLeft t <:+ t := List.dropWhile_suffix _

theorem trimLeft_trimLeft (t : Text) : trimLeft (trimLeft t) = trimLeft t :=
  List.dropWhile_idempotent _ t

theorem trimLeft_trimRight (t : Text) : trimLeft (trimRight t) = trimRight (trimLeft t) := by
  induction t with
  | nil => rfl
  | cons c t ih =>
    by_cases hc : isBlank c = true
    · rw [trimLeft_cons_of_blank hc, ← ih, trimRight_cons]
      by_cases ht : trimRight t = []
      · simp [ht, hc]
      · simp [ht, trimLeft_cons_of_blank hc]
    · have hc' : isBlank c = false := by simpa using hc
      rw [trimLeft_cons_of_not_blank hc', trimRight_cons_of_not_blank hc',
        trimLeft_cons_of_not_blank hc']

@[simp] theorem trim_trimRight (t : Text) : trim (trimRight t) = trim t := by
  rw [trim, trim, trimLeft_trimRight, trimRight_trimRight]

@[simp] theorem trim_trim (t : Text) : trim (trim t) = trim t := by
  rw [trim, trim, trimLeft_trimRight, trimLeft_trimLeft, trimRight_trimRight]

theorem mem_of_mem_trim {c : Char} {t : Text} (h : c ∈ trim t) : c ∈ t :=
  (trimLeft_suffix t).mem (mem_of_mem_trimRight h)

theorem trim_framed {c d : Char} (hc : isBlank c = false) (hd : isBlank d = false) (t : Text) :
    trim (c :: (t ++ [d])) = c :: (t ++ [d]) := by
  rw [trim, trimLeft_cons_of_not_blank hc, ← List.cons_append, trimRight_append_singleton hd]

section Filter
variable {p : Char → Bool}

theorem filter_trimRight (hp : ∀ c, isBlank c = true → p c = false) (t : Text) :
    (trimRight t).filter p = t.filter p := by
  obtain ⟨bs, ht, hbs⟩ := exists_eq_trimRight_append t
  have hnil : bs.filter p = [] := List.filter_eq_nil_iff.2 fun c hc => by simp [hp c (hbs c hc)]
  conv_rhs => rw [ht, List.filter_append, hnil, List.append_nil]

theorem filter_trimLeft (hp : ∀ c, isBlank c = true → p c = false) (t : Text) :
    (trimLeft t).filter p = t.filter p := by
  induction t with
  | nil => rfl
  | cons c t ih =>
    by_cases hc : isBlank c = true
    · rw [trimLeft_cons_of_blank hc, ih, List.filter_cons_of_neg (by simp [hp c hc])]
    · rw [trimLeft_cons_of_not_blank (by simpa using hc)]

theorem filter_trim (hp : ∀ c, isBlank c = true → p c = false) (t : Text) :
    (trim t).filter p = t.filter p := by
  rw [trim, filter_trimRight hp, filter_trimLeft hp]

end Filter

/-- Trimming takes away nothing but blanks. -/
theorem mem_trim_iff {c : Char} (h : isBlank c = false) {t : Text} : c ∈ trim t ↔ c ∈ t := by
  have hf := filter_trim (p := fun c => !isBlank c) (by simp) t
  have hm : c ∈ (trim t).filter (fun c => !isBlank c) ↔ c ∈ t.filter fun c => !isBlank c := by
    rw [hf]
  simpa [List.mem_filter, h] using hm

end Letterhead.Text
