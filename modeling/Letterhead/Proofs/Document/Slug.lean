import Letterhead.Document.Filename
import Letterhead.Proofs.Text.Ascii

/-! Slugs of titles. Case is ignored when a title is searched for letters, so that four letters
beyond ASCII are kept; the Kelvin sign turns into a letter of ASCII, the others stay beyond it. -/
namespace Letterhead

theorem toNat_ofNat_or (n : Nat) : (Char.ofNat n).toNat = n ∨ (Char.ofNat n).toNat = 0 := by
  by_cases h : n.isValidChar
  · exact Or.inl (congrArg Char.toNat (dif_pos h))
  · exact Or.inr (congrArg Char.toNat (dif_neg h))

namespace Filename

def IsLetter (n : Nat) : Prop := 97 ≤ n ∧ n ≤ 122

instance (n : Nat) : Decidable (IsLetter n) := inferInstanceAs (Decidable (_ ∧ _))

/-- Only the dotless i and the long s share their upper case with a letter a to z. -/
theorem isLetter_simpleLower_of_foldLetter {c : Char} (h : IsLetter (foldLetter c).toNat) :
    IsLetter (simpleLower c).toNat ∨ simpleLower c = '\u0131' ∨ simpleLower c = '\u017f' := by
  have hvariants : ∀ v ∈ letterVariants, IsLetter (Char.ofNat v.2).toNat →
      v.1 = 0x131 ∨ v.1 = 0x17F := by decide
  simp only [foldLetter] at h
  cases hl : letterVariants.lookup (simpleLower c).toNat with
  | none =>
    rw [hl] at h
    exact Or.inl h
  | some n =>
    rw [hl] at h
    obtain ⟨before, after, hmem, -⟩ := List.lookup_eq_some_iff.1 hl
    have hkey := hvariants ((simpleLower c).toNat, n) (by simp [hmem]) h
    refine Or.inr (hkey.imp (fun hn => ?_) fun hn => ?_)
    · exact (Char.ofNat_toNat _).symm.trans (congrArg Char.ofNat hn)
    · exact (Char.ofNat_toNat _).symm.trans (congrArg Char.ofNat hn)

def Avoids (r : CaseRow) : Prop :=
  122 < (r.first : Int) + r.shift ∧
    ((r.last : Int) + r.shift < 0x131 ∨ 0x131 < (r.first : Int) + r.shift) ∧
    ((r.last : Int) + r.shift < 0x17F ∨ 0x17F < (r.first : Int) + r.shift)

instance (r : CaseRow) : Decidable (Avoids r) := inferInstanceAs (Decidable (_ ∧ _))

theorem avoids_caseRows : ∀ r ∈ caseRows, r.first = 0x130 ∧ r.last = 0x130 ∨
    r.first = 0x212A ∧ r.last = 0x212A ∨ Avoids r := by
  decide +kernel

theorem simpleLower_of_not_ascii {c : Char} (hc : ¬ c.toNat < 128)
    (h : IsLetter (simpleLower c).toNat ∨ simpleLower c = '\u0131' ∨ simpleLower c = '\u017f') :
    c ∈ ['\u0130', '\u0131', '\u017f', '\u212a'] := by
  have heq : ∀ n, c.toNat = n → c = Char.ofNat n := fun n hn => by
    rw [← hn, Char.ofNat_toNat]
  have hnat : IsLetter (simpleLower c).toNat ∨ (simpleLower c).toNat = 0x131 ∨
      (simpleLower c).toNat = 0x17F := by
    rcases h with h | h | h
    · exact Or.inl h
    · exact Or.inr (Or.inl (by rw [h]; decide))
    · exact Or.inr (Or.inr (by rw [h]; decide))
  unfold IsLetter simpleLower at hnat
  rw [if_neg hc] at hnat
  split at hnat
  · next r hr =>
    have hrow := List.find?_some hr
    simp only [Bool.and_eq_true, decide_eq_true_eq] at hrow
    -- Two rows of the table lead to letters that are kept, and each is a row of one character.
    rcases avoids_caseRows r (List.mem_of_find?_eq_some hr) with hone | hone | ⟨hlow, hi, hs⟩
    · obtain rfl := heq 0x130 (by omega)
      decide
    · obtain rfl := heq 0x212A (by omega)
      decide
    · have hsum := toNat_ofNat_or ((c.toNat : Int) + r.shift).toNat
      omega
  · rcases hnat with hn | hn | hn
    · omega
    · obtain rfl := heq _ hn
      decide
    · obtain rfl := heq _ hn
      decide

inductive Writes : Char → Text → Prop where
  | plain {c d : Char} (hc : c ∉ ['\u0130', '\u0131', '\u017f'])
      (hd : d = '_' ∨ d.isDigit = true ∨ IsLetter d.toNat) : Writes c [d]
  | dotted : Writes '\u0130' ['i', '\u0307']
  | stays {c : Char} (hc : c ∈ ['\u0131', '\u017f']) : Writes c [c]

theorem isKept_toLower : ∀ n < 128, isKept (Char.ofNat n) = true →
    (Char.ofNat n).toLower.isDigit = true ∨ IsLetter (Char.ofNat n).toLower.toNat := by
  decide +kernel

theorem writes_slug (c : Char) : Writes c (if isKept c then lowerOf c else ['_']) := by
  by_cases hkept : isKept c = true
  · rw [if_pos hkept]
    by_cases hc : c.toNat < 128
    · have hplain : c.toLower.isDigit = true ∨ IsLetter c.toLower.toNat := by
        revert hkept
        exact forall_ascii hc isKept_toLower
      have hfew : c ∉ ['\u0130', '\u0131', '\u017f'] := fun hm => by
        simp only [List.mem_cons, List.not_mem_nil, or_false] at hm
        rcases hm with rfl | rfl | rfl <;> exact absurd hc (by decide)
      rw [lowerOf_of_ascii hc]
      exact .plain hfew (Or.inr hplain)
    · have hletter : IsLetter (foldLetter c).toNat := by
        unfold isKept at hkept
        simp only [Bool.or_eq_true, Bool.and_eq_true, decide_eq_true_eq] at hkept
        rcases hkept with h | h
        · exact h
        · have hle := (le_of_isDigit h).2
          omega
      have hmem := simpleLower_of_not_ascii hc (isLetter_simpleLower_of_foldLetter hletter)
      simp only [List.mem_cons, List.not_mem_nil, or_false] at hmem
      rcases hmem with rfl | rfl | rfl | rfl
      · exact .dotted
      · exact .stays (by decide)
      · exact .stays (by decide)
      · exact .plain (d := 'k') (by decide) (by decide)
  · rw [if_neg hkept]
    refine .plain (fun hm => ?_) (Or.inl rfl)
    simp only [List.mem_cons, List.not_mem_nil, or_false] at hm
    rcases hm with rfl | rfl | rfl <;> exact hkept (by decide)

theorem slug_eq (title : Text) : slug title =
    (title.take titleLimit).flatMap fun c => if isKept c then lowerOf c else ['_'] := by
  rw [slug, Text.lower, ← List.map_take, List.flatMap_map]
  congr 1
  funext c
  split
  · rfl
  · decide

theorem mem_slug {d : Char} {title : Text} (h : d ∈ slug title) :
    d = '_' ∨ d.isDigit = true ∨ IsLetter d.toNat ∨ d ∈ ['\u0307', '\u0131', '\u017f'] := by
  rw [slug_eq, List.mem_flatMap] at h
  obtain ⟨c, -, hd⟩ := h
  have hw := writes_slug c
  generalize (if isKept c then lowerOf c else ['_']) = t at hd hw
  cases hw with
  | plain hc hplain =>
    obtain rfl := List.mem_singleton.1 hd
    rcases hplain with h | h | h
    · exact Or.inl h
    · exact Or.inr (Or.inl h)
    · exact Or.inr (Or.inr (Or.inl h))
  | dotted =>
    simp only [List.mem_cons, List.not_mem_nil, or_false] at hd
    rcases hd with rfl | rfl <;> decide
  | stays hc =>
    obtain rfl := List.mem_singleton.1 hd
    exact Or.inr (Or.inr (Or.inr (List.mem_cons_of_mem _ hc)))

/-- What holds of underscores, digits and letters a to z, and of none of the other characters that a
slug can have, holds throughout a slug unless the title has a dotted capital I, a dotless i or a
long s near its start. -/
theorem forall_mem_slug_iff {P : Char → Prop}
    (hplain : ∀ d, d = '_' ∨ d.isDigit = true ∨ IsLetter d.toNat → P d)
    (hfew : ¬ P '\u0307' ∧ ¬ P '\u0131' ∧ ¬ P '\u017f') (title : Text) :
    (∀ d ∈ slug title, P d) ↔
      ∀ c ∈ title.take titleLimit, c ∉ ['\u0130', '\u0131', '\u017f'] := by
  have hone : ∀ c, (∀ d ∈ (if isKept c then lowerOf c else ['_']), P d) ↔
      c ∉ ['\u0130', '\u0131', '\u017f'] := by
    intro c
    have hw := writes_slug c
    generalize (if isKept c then lowerOf c else ['_']) = t at hw
    cases hw with
    | @plain _ d hc hd => exact iff_of_true (by simpa using hplain d hd) hc
    | dotted => exact iff_of_false (fun h => hfew.1 (h '\u0307' (by decide))) (by decide)
    | stays hc =>
      simp only [List.mem_cons, List.not_mem_nil, or_false] at hc
      rcases hc with rfl | rfl
      · exact iff_of_false (fun h => hfew.2.1 (h '\u0131' (by decide))) (by decide)
      · exact iff_of_false (fun h => hfew.2.2 (h '\u017f' (by decide))) (by decide)
  rw [slug_eq]
  constructor
  · intro h c hc
    exact (hone c).1 fun d hd => h d (List.mem_flatMap.2 ⟨c, hc, hd⟩)
  · intro h d hd
    obtain ⟨c, hc, hd⟩ := List.mem_flatMap.1 hd
    exact (hone c).2 (h c hc) d hd

/-- A slug keeps to the first 256 characters unless the title has a dotted capital I, a dotless i or
a long s near its start. -/
theorem slug_lt_iff (title : Text) : (∀ d ∈ slug title, d.toNat < 256) ↔
    ∀ c ∈ title.take titleLimit, c ∉ ['\u0130', '\u0131', '\u017f'] := by
  refine forall_mem_slug_iff ?_ (by decide) title
  rintro d (rfl | h | h)
  · decide
  · have hle := (le_of_isDigit h).2
    omega
  · have hle := h.2
    omega

/-- Only the dotted capital I turns into more than one character, and it turns into two. -/
theorem length_slug (title : Text) : (slug title).length =
    min titleLimit title.length + (title.take titleLimit).count '\u0130' := by
  have hone : ∀ c, (if isKept c then lowerOf c else ['_']).length =
      1 + if c = '\u0130' then 1 else 0 := by
    intro c
    have hw := writes_slug c
    generalize (if isKept c then lowerOf c else ['_']) = t at hw
    cases hw with
    | plain hc hd =>
      rw [if_neg fun h => hc (by rw [h]; decide)]
      rfl
    | dotted => rfl
    | stays hc =>
      rw [if_neg fun h => absurd (h ▸ hc) (by decide)]
      rfl
  rw [slug_eq, ← List.length_take]
  induction title.take titleLimit with
  | nil => rfl
  | cons c cs ih =>
    rw [List.flatMap_cons, List.length_append, hone, ih, List.length_cons, List.count_cons]
    simp only [beq_iff_eq]
    omega

def IsClean (t : Text) : Prop := ∀ d ∈ t, d = '_' ∨ d.isDigit = true ∨ IsLetter d.toNat

instance (t : Text) : Decidable (IsClean t) := List.decidableBAll _ t

/-- What a name has between the thread and the moment is clean exactly if the title has no dotted
capital I, no dotless i and no long s among its first 50 characters. It has one character for each
of these 50, and one more for each dotted capital I. -/
theorem clean_slug_iff (title format : Text) (thread : Option Text) (now : Instant) :
    make title format thread now =
      threadPart thread ++ slug title ++ '_' :: intText now.millis ++ '.' :: format ∧
    (IsClean (slug title) ↔ ∀ c ∈ title.take 50, c ∉ ['\u0130', '\u0131', '\u017f']) ∧
    (slug title).length = min 50 title.length + (title.take 50).count '\u0130' :=
  ⟨by simp [make], forall_mem_slug_iff (fun _ h => h) (by decide) title, length_slug title⟩

/-- A dotted capital I becomes an i and a combining dot: a name has six characters for a title of
five, and one of them is no letter. -/
theorem slug_dotted : make "\u0130zmir".toList "md".toList none ⟨1705314600000000⟩ =
      "i\u0307zmir_1705314600000.md".toList ∧
    ¬ IsClean (slug "\u0130zmir".toList) ∧
    (slug "\u0130zmir".toList).length ≠ min 50 "\u0130zmir".toList.length := by
  decide

end Filename
end Letterhead
