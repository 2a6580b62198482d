import Letterhead.Form.Reader
import Mathlib.Data.List.TakeWhile

/-! Numerals of whole numbers. They tell a number apart from all others, and they are read back. -/
namespace Letterhead

theorem natText_injective {m n : Nat} (h : natText m = natText n) : m = n := by
  have hread := congrArg (fun t => Nat.ofDigitChars 10 t 0) h
  simpa only [natText, Nat.ofDigitChars_ten_toDigits] using hread

theorem isDigit_of_mem_natText {c : Char} {n : Nat} (h : c ∈ natText n) : c.isDigit = true :=
  Nat.isDigit_of_mem_toDigits (by decide) (by decide) h

theorem exists_natText_eq (n : Nat) : ∃ d ds, natText n = d :: ds ∧ d.isDigit = true := by
  obtain ⟨d, ds, h⟩ := List.exists_cons_of_ne_nil (Nat.toDigits_ne_nil (n := n) (b := 10))
  exact ⟨d, ds, h, isDigit_of_mem_natText (n := n) (by simp [natText, h])⟩

theorem mem_intText {c : Char} {n : Int} (h : c ∈ intText n) : c = '-' ∨ c.isDigit = true := by
  unfold intText at h
  split at h
  · rcases List.mem_cons.1 h with h | h
    · exact Or.inl h
    · exact Or.inr (isDigit_of_mem_natText h)
  · exact Or.inr (isDigit_of_mem_natText h)

theorem intText_injective {m n : Int} (h : intText m = intText n) : m = n := by
  have hsign : ∀ k l : Nat, '-' :: natText k ≠ natText l := fun k l he => by
    have hd := isDigit_of_mem_natText (n := l) (c := '-') (by rw [← he]; simp)
    exact absurd hd (by decide)
  unfold intText at h
  split at h
  · split at h
    · have habs := natText_injective (List.cons.inj h).2
      omega
    · exact absurd h (hsign _ _)
  · split at h
    · exact absurd h.symm (hsign _ _)
    · have habs := natText_injective h
      omega

theorem le_of_isDigit {c : Char} (h : c.isDigit = true) : 48 ≤ c.toNat ∧ c.toNat ≤ 57 :=
  Char.isDigit_iff_toNat.1 h

namespace Binary64

def IsStart (c : Char) : Prop := c = 'n' ∨ c = 'i' ∨ c = '-' ∨ c.isDigit = true

theorem exists_placePoint_eq {d : Char} (hd : d.isDigit = true) (ds : Text) (top : Int) :
    ∃ c t, (placePoint (d :: ds) top).1 = c :: t ∧ c.isDigit = true := by
  unfold placePoint
  split
  · exact ⟨'0', [], rfl, by decide⟩
  · exact ⟨d, _, rfl, hd⟩

theorem exists_scientific_eq (d : Char) (ds : Text) (top : Int) :
    ∃ t, scientific (d :: ds) top = d :: t := by
  cases ds with
  | nil => exact ⟨_, rfl⟩
  | cons d' ds => exact ⟨_, rfl⟩

theorem exists_text_eq (x : Binary64) : ∃ c t, x.text = c :: t ∧ IsStart c := by
  have hsigned : ∀ (s : Bool) {c : Char} {t : Text}, IsStart c →
      ∃ d u, signText s ++ c :: t = d :: u ∧ IsStart d := by
    intro s c t hc
    cases s with
    | false => exact ⟨c, t, rfl, hc⟩
    | true => exact ⟨'-', c :: t, rfl, .inr (.inr (.inl rfl))⟩
  have hdigit : ∀ {d : Char}, d.isDigit = true → IsStart d := fun hd => .inr (.inr (.inr hd))
  cases x with
  | nan => exact ⟨'n', ['a', 'n'], rfl, .inl rfl⟩
  | infinite s => exact hsigned s (c := 'i') (t := ['n', 'f']) (.inr (.inl rfl))
  | finite s m e =>
    unfold text
    simp only
    split
    · exact hsigned s (c := '0') (t := ['.', '0']) (hdigit (by decide))
    · obtain ⟨d, ds, hdigits, hd⟩ := exists_natText_eq (shortestDigits m e).1
      rw [hdigits]
      generalize (shortestDigits m e).2 + ((d :: ds).length : Nat) - 1 = top
      split
      · obtain ⟨c, t, hpoint, hc⟩ := exists_placePoint_eq hd ds top
        rw [hpoint, List.append_assoc]
        exact hsigned s (hdigit hc)
      · obtain ⟨t, hscientific⟩ := exists_scientific_eq d ds top
        rw [hscientific]
        exact hsigned s (hdigit hd)

end Binary64

namespace Numeral

theorem dropUnderscores?_of_isDigit {c : Char} (hc : c ≠ '_') {t : Text}
    (ht : ∀ d ∈ t, d.isDigit = true) : dropUnderscores? c t = some t := by
  induction t generalizing c with
  | nil => simp [dropUnderscores?, hc]
  | cons d t ih =>
    have hd := ht d (by simp)
    have hne : d ≠ '_' := by
      rintro rfl
      exact absurd hd (by decide)
    have hrest := ih hne fun e he => ht e (List.mem_cons_of_mem d he)
    simp [dropUnderscores?, hc, hne, hrest]

theorem digits?_natText (n : Nat) : digits? (natText n) = some n := by
  have hdigits : (natText n).all Char.isDigit = true :=
    List.all_eq_true.2 fun _ hc => isDigit_of_mem_natText hc
  have hempty : (natText n).isEmpty = false := List.isEmpty_eq_false_iff.2 Nat.toDigits_ne_nil
  rw [digits?, hdigits, hempty]
  exact congrArg some Nat.ofDigitChars_ten_toDigits

theorem sign_natText (n : Nat) : sign (natText n) = (false, natText n) := by
  cases h : natText n with
  | nil => rfl
  | cons c t =>
    have hc : c.isDigit = true := isDigit_of_mem_natText (n := n) (by simp [h])
    unfold sign
    split
    · next he => exact absurd hc (by rw [(List.cons.inj he).1]; decide)
    · next he => exact absurd hc (by rw [(List.cons.inj he).1]; decide)
    · rfl

/-- The numeral of a whole number is read as that number. -/
theorem int?_intText (n : Int) : int? (intText n) = some n := by
  have hread : ∀ k : Nat, (dropUnderscores? ' ' (natText k)).bind digits? = some k := fun k => by
    rw [dropUnderscores?_of_isDigit (by decide) fun _ hc => isDigit_of_mem_natText hc]
    exact digits?_natText k
  unfold int? intText
  by_cases hneg : n < 0
  · have hsign : sign ('-' :: natText n.natAbs) = (true, natText n.natAbs) := rfl
    simp only [if_pos hneg, hsign, hread, Option.map_some, Binary64.signed, if_true]
    exact congrArg some (by omega)
  · simp only [if_neg hneg, sign_natText, hread, Option.map_some, Binary64.signed]
    exact congrArg some (by simp; omega)

end Numeral

namespace Form

theorem isSpace_of_mem_intText {c : Char} {n : Int} (h : c ∈ intText n) : isSpace c = false := by
  rcases mem_intText h with rfl | hd
  · decide
  · have hle := le_of_isDigit hd
    simp [isSpace, isBlank]
    omega

theorem trimSpaces_of_forall {t : Text} (h : ∀ c ∈ t, isSpace c = false) : trimSpaces t = t := by
  have hdrop : ∀ u : Text, (∀ c ∈ u, isSpace c = false) → u.dropWhile isSpace = u := fun u hu =>
    List.dropWhile_eq_self_iff.2 fun hl => by simp [hu _ (List.getElem_mem hl)]
  rw [trimSpaces, hdrop t h, hdrop t.reverse fun c hc => h c (by simpa using hc),
    List.reverse_reverse]

theorem dropZeroPlaces_of_not_mem {t : Text} (h : '.' ∉ t) : dropZeroPlaces t = t := by
  have hdrop : t.dropWhile (· != '.') = [] := by
    refine List.dropWhile_eq_nil_iff.2 fun c hc => ?_
    rw [bne_iff_ne]
    rintro rfl
    exact h hc
  simp [dropZeroPlaces, hdrop]

theorem intOfText_intText (n : Int) : intOfText (intText n) = .ok n := by
  have hpoint : '.' ∉ intText n := fun h => by
    rcases mem_intText h with h | h
    · cases h
    · exact absurd h (by decide)
  rw [intOfText, trimSpaces_of_forall fun c hc => isSpace_of_mem_intText hc,
    dropZeroPlaces_of_not_mem hpoint, Numeral.int?_intText]

end Form
end Letterhead
