import Letterhead.Proofs.Content.Mark

/-! Code spans. What a code span holds is shown as it is written, unless a bold span stands in it: bold
spans are cut out first, and the marks around the code are then left alone. -/
namespace Letterhead

namespace Text
variable {w r s u v : Text} {a b : Char}

/-- Where a word starts that starts nowhere in a text, the text has come to its end. -/
theorem exists_of_append_eq (hhead : w.head? = some a) (ha : a ∉ u)
    (h : u ++ s = v ++ (w ++ r)) : ∃ v', v = u ++ v' ∧ s = v' ++ (w ++ r) := by
  induction u generalizing v with
  | nil => exact ⟨v, rfl, h⟩
  | cons c u ih =>
    rw [List.mem_cons, not_or] at ha
    cases v with
    | nil =>
      cases w with
      | nil => cases hhead
      | cons d w =>
        have hd : d = a := Option.some.inj hhead
        exact absurd (hd.symm.trans (List.cons.inj h).1.symm) ha.1
    | cons d v =>
      obtain ⟨rfl, htail⟩ := List.cons.inj h
      obtain ⟨v', rfl, hs⟩ := ih ha.2 htail
      exact ⟨v', rfl, hs⟩

theorem infix_of_infix_append_left (hhead : w.head? = some a) (ha : a ∉ u)
    (h : w <:+: u ++ s) : w <:+: s := by
  obtain ⟨v, r, hr⟩ := h
  rw [List.append_assoc] at hr
  obtain ⟨v', -, hs⟩ := exists_of_append_eq hhead ha hr.symm
  exact ⟨v', r, by rw [hs, List.append_assoc]⟩

/-- A word whose ends stand nowhere else stands in the middle of a text. -/
theorem infix_of_infix_append (hhead : w.head? = some a) (ha : a ∉ u)
    (hlast : w.getLast? = some b) (hb : b ∉ v) (h : w <:+: u ++ (s ++ v)) : w <:+: s := by
  have hright := infix_of_infix_append_left hhead ha h
  rw [← List.reverse_infix, List.reverse_append] at hright
  rw [← List.reverse_infix]
  exact infix_of_infix_append_left (by rwa [List.head?_reverse]) (by simpa using hb) hright

end Text

namespace Inline
open Text

section Ends
variable {opening closing x w : Text} {a b stop : Char}

theorem Wrapped.head? (h : Wrapped (a :: opening) closing stop x w) : w.head? = some a := by
  rw [h.1]
  rfl

theorem Wrapped.getLast? (h : Wrapped opening (closing ++ [b]) stop x w) :
    w.getLast? = some b := by
  rw [h.1, ← List.append_assoc, ← List.append_assoc, List.getLast?_concat]

theorem IsLink.head? (h : IsLink x w) : w.head? = some '[' := by
  obtain ⟨address, rfl, -⟩ := h
  rfl

end Ends

section Markup
variable {s : Text}

theorem cleanMarkup_append (hstar : '*' ∉ s) (hbracket : '[' ∉ s) (t : Text) :
    cleanMarkup (s ++ t) = s ++ cleanMarkup t := by
  have hemphasis : ∀ rest, Unbegun IsEmphasis s rest :=
    unbegun_of_head (fun _ _ h => h.head?) hstar
  have hlink : ∀ rest, Unbegun IsLink s rest := unbegun_of_head (fun _ _ h => h.head?) hbracket
  rw [cleanMarkup, unwrapSpans_append takes_emphasis (hemphasis t),
    unwrapSpans_append takes_link (hlink _), cleanMarkup]

theorem cleanMarkup_of_not_mem (hstar : '*' ∉ s) (hbracket : '[' ∉ s) : cleanMarkup s = s := by
  have h := cleanMarkup_append hstar hbracket []
  have hnil : cleanMarkup [] = [] := by simp [cleanMarkup, unwrapSpans]
  rwa [hnil, List.append_nil] at h

/-- A single mark opens no code span. -/
theorem clean_of_count_le (h : s.count '\x60' ≤ 1) : clean s = cleanMarkup s := by
  refine unwrapSpans_of_not_holds takes_code ?_
  rintro ⟨x, w, ⟨rfl, -⟩, hw⟩
  have hcount := hw.sublist.count_le '\x60'
  simp at hcount
  omega

end Markup

section Code
variable {p s q : Text}

def codeText (p s q : Text) : Text := p ++ (['\x60'] ++ (s ++ ['\x60']) ++ q)

def IsUnmarked (t : Text) : Prop := '*' ∉ t ∧ '\x60' ∉ t ∧ '[' ∉ t ∧ ']' ∉ t

instance (t : Text) : Decidable (IsUnmarked t) := inferInstanceAs (Decidable (_ ∧ _))

theorem holds_bold_codeText (hp : IsUnmarked p) (hq : IsUnmarked q) :
    Holds IsBold (codeText p s q) ↔ Holds IsBold s := by
  constructor
  · rintro ⟨x, w, hx, hw⟩
    have hsplit : codeText p s q = (p ++ ['\x60']) ++ (s ++ ('\x60' :: q)) := by
      simp [codeText]
    have hclosed : Wrapped ['*', '*'] (['*'] ++ ['*']) '*' x w := hx
    rw [hsplit] at hw
    exact ⟨x, w, hx, infix_of_infix_append hx.head? (by simpa using hp.1) hclosed.getLast?
      (by simpa using hq.1) hw⟩
  · rintro ⟨x, w, hx, hw⟩
    refine ⟨x, w, hx, hw.trans ⟨p ++ ['\x60'], '\x60' :: q, by simp [codeText]⟩⟩

theorem clean_codeText (hp : IsUnmarked p) (hq : IsUnmarked q) (hne : s ≠ []) (hs : '\x60' ∉ s) :
    clean (codeText p s q) = p ++ (s ++ q) := by
  have hfree : ∀ {t}, IsUnmarked t → ∀ rest, Unbegun IsCode t rest := fun ht =>
    unbegun_of_head (fun _ _ h => h.head?) ht.2.1
  have hcut : Cut IsCode [(p, s)] q (codeText p s q) :=
    .span (hfree hp _) ⟨rfl, hne, hs⟩ (.last (hfree hq _))
  rw [clean, unwrapSpans_of_cut takes_code hcut]
  simp [cleanMarkup_of_not_mem hp.1 hp.2.2.1, cleanMarkup_of_not_mem hq.1 hq.2.2.1]

/-- A bold span parts the two marks of the code around it, and the first one stays. -/
theorem exists_shown_codeText (hp : IsUnmarked p) (hs : '\x60' ∉ s) (hbold : Holds IsBold s)
    (hq : IsUnmarked q) : ∃ r, shown (codeText p s q) = p ++ '\x60' :: r := by
  have hholds := (holds_bold_codeText hp hq).2 hbold
  obtain ⟨ps, rest, hcut⟩ := exists_cut takes_bold (codeText p s q)
  rw [shown_eq_unwrapSpans, unwrapSpans_of_cut takes_bold hcut]
  -- The first bold span starts within the code, so the part before it holds one mark of the two.
  generalize ht : codeText p s q = t at hcut hholds
  cases hcut with
  | last hnone => exact absurd hholds ((unbegun_iff_not_holds takes_bold).1 hnone)
  | @span v x w t rest ps _ hx _ =>
    have hstar : '*' ∈ w := List.mem_of_mem_head? hx.head?
    have hsplit : (p ++ ['\x60']) ++ (s ++ '\x60' :: q) = v ++ (w ++ t) := by
      rw [← ht]
      simp [codeText]
    have hfront : '*' ∉ p ++ ['\x60'] := by simpa using hp.1
    obtain ⟨u, rfl, hback⟩ := exists_of_append_eq hx.head? hfront hsplit
    have hu : '\x60' ∉ u := by
      intro hm
      rcases List.append_eq_append_iff.1 hback with ⟨a, rfl, hq'⟩ | ⟨a, rfl, -⟩
      · have hmem : '*' ∈ '\x60' :: q := by rw [hq']; simp [hstar]
        exact hq.1 (by simpa using hmem)
      · exact hs (List.mem_append_left _ hm)
    have hone : (p ++ ['\x60'] ++ u).count '\x60' ≤ 1 := by
      simp [List.count_append, List.count_eq_zero_of_not_mem hp.2.1,
        List.count_eq_zero_of_not_mem hu]
    rw [List.flatMap_cons, clean_of_count_le hone,
      cleanMarkup_append hfront (by simpa using hp.2.2.1)]
    simp only [List.append_assoc, List.singleton_append]
    exact ⟨_, rfl⟩

/-- A code span shows what it holds, word for word, exactly if no bold span stands in it. -/
theorem shown_codeText_iff (hp : IsUnmarked p) (hq : IsUnmarked q) (hne : s ≠ []) (hs : '\x60' ∉ s) :
    shown (codeText p s q) = p ++ (s ++ q) ↔ ¬ Holds IsBold s := by
  constructor
  · intro hshown hbold
    obtain ⟨r, hr⟩ := exists_shown_codeText hp hs hbold hq
    rw [hr, List.append_right_inj] at hshown
    cases s with
    | nil => exact hne rfl
    | cons c s => exact hs (List.mem_cons.2 (Or.inl (List.cons.inj hshown).1))
  · intro hbold
    have hnone := mt (holds_bold_codeText hp hq).1 hbold
    rw [shown_eq_unwrapSpans, unwrapSpans_of_not_holds takes_bold hnone, clean_codeText hp hq hne hs]

/-- Marks of all kinds within code, but no bold span. -/
theorem shown_codeText_loneStars :
    (IsUnmarked "run ".toList ∧ IsUnmarked " (now)".toList ∧ "a ** *b* [c](d)".toList ≠ [] ∧
        '\x60' ∉ "a ** *b* [c](d)".toList) ∧
      ¬ Holds IsBold "a ** *b* [c](d)".toList ∧
        shown (codeText "run ".toList "a ** *b* [c](d)".toList " (now)".toList) =
          "run ".toList ++ ("a ** *b* [c](d)".toList ++ " (now)".toList) := by
  have hp : IsUnmarked "run ".toList := by decide +kernel
  have hq : IsUnmarked " (now)".toList := by decide +kernel
  have hne : "a ** *b* [c](d)".toList ≠ [] := by decide +kernel
  have hs : '\x60' ∉ "a ** *b* [c](d)".toList := by decide +kernel
  have hbold : ¬ Holds IsBold "a ** *b* [c](d)".toList := by decide +kernel
  exact ⟨⟨hp, hq, hne, hs⟩, hbold, (shown_codeText_iff hp hq hne hs).2 hbold⟩

/-- Between two powers the exponent is set in bold, and the marks of the code are shown. -/
theorem shown_codeText_powers :
    (IsUnmarked [] ∧ "2**3**4".toList ≠ [] ∧ '\x60' ∉ "2**3**4".toList) ∧
      shown (codeText [] "2**3**4".toList []) = "\x60234\x60".toList ∧
        shown (codeText [] "2**3**4".toList []) ≠ [] ++ ("2**3**4".toList ++ []) := by
  decide +kernel

end Code

end Inline
end Letterhead
