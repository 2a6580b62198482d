import Letterhead.Page.Style
import Letterhead.Proofs.Branding.Colour
import Letterhead.Proofs.Markup.Reading
import Letterhead.Proofs.Text.Lines

/-! Style sheets. Of a branding they have a colour, written in digits, and one of three families, so
that nothing in them starts a tag. -/
namespace Letterhead

namespace Page

def IsPlain (s : String) : Prop := Markup.IsPlain s.toList

instance (s : String) : Decidable (IsPlain s) := inferInstanceAs (Decidable (Markup.IsPlain _))

theorem IsPlain.append {s t : String} (hs : IsPlain s) (ht : IsPlain t) : IsPlain (s ++ t) := by
  unfold IsPlain Markup.IsPlain
  simp only [String.toList_append, List.mem_append, not_or]
  exact ⟨⟨hs.1, ht.1⟩, hs.2, ht.2⟩

theorem isPlain_intercalate {s : String} {ts : List String} (hs : IsPlain s)
    (hts : ∀ t ∈ ts, IsPlain t) : IsPlain (s.intercalate ts) := by
  have hnot : ∀ c, c ∉ s.toList → (∀ t ∈ ts, c ∉ t.toList) → c ∉ (s.intercalate ts).toList := by
    intro c hc hcs hm
    rw [String.toList_intercalate] at hm
    rcases Text.mem_of_mem_intercalate hm with hm | ⟨l, hl, hm⟩
    · exact hc hm
    · obtain ⟨t, ht, rfl⟩ := List.mem_map.1 hl
      exact hcs t ht hm
  exact ⟨hnot _ hs.1 fun t ht => (hts t ht).1, hnot _ hs.2 fun t ht => (hts t ht).2⟩

theorem isPlain_colour (c : Colour) : IsPlain (String.ofList c.text) := by
  obtain ⟨ds, htext, -, hds⟩ := c.exists_text_eq
  have hdigits : Markup.IsPlain Colour.hexDigits := by decide +kernel
  have hnot : ∀ {d}, d ≠ '#' → d ∉ Colour.hexDigits → d ∉ c.text := by
    intro d hhash hd hm
    rw [htext, List.mem_cons] at hm
    exact hm.elim hhash fun hm => hd (hds hm)
  unfold IsPlain
  rw [String.toList_ofList]
  exact ⟨hnot (by decide) hdigits.1, hnot (by decide) hdigits.2⟩

theorem isPlain_stack (f : Font.Base) : IsPlain f.stack := by
  cases f <;> decide +kernel

def StyleRule.IsPlain (r : StyleRule) : Prop :=
  Page.IsPlain r.selector ∧ ∀ l ∈ r.lines, ∀ d ∈ l, Page.IsPlain d.1 ∧ Page.IsPlain d.2

instance (r : StyleRule) : Decidable r.IsPlain := inferInstanceAs (Decidable (_ ∧ _))

theorem StyleRule.IsPlain.text {r : StyleRule} (h : r.IsPlain) : Page.IsPlain r.text := by
  have hdeclaration : ∀ l ∈ r.lines, ∀ d ∈ l, Page.IsPlain (declarationText d) := by
    intro l hl d hd
    obtain ⟨hname, hvalue⟩ := h.2 l hl d hd
    exact ((hname.append (by decide +kernel)).append hvalue).append (by decide +kernel)
  have hlines : Page.IsPlain
      ("\n  ".intercalate (r.lines.map fun l => " ".intercalate (l.map declarationText))) := by
    refine isPlain_intercalate (by decide +kernel) fun t ht => ?_
    obtain ⟨l, hl, rfl⟩ := List.mem_map.1 ht
    refine isPlain_intercalate (by decide +kernel) fun t ht => ?_
    obtain ⟨d, hd, rfl⟩ := List.mem_map.1 ht
    exact hdeclaration l hl d hd
  exact ((h.1.append (by decide +kernel)).append hlines).append (by decide +kernel)

theorem isPlain_of_mem_styleRules {primary families : String} (hp : IsPlain primary)
    (hf : IsPlain families) : ∀ r ∈ styleRules primary families, r.IsPlain := by
  have hborder : IsPlain ("2px solid " ++ primary) := IsPlain.append (by decide +kernel) hp
  -- Four rules have a colour or families filled in; the others are closed.
  simp only [styleRules, List.forall_mem_cons, List.not_mem_nil, IsEmpty.forall_iff, implies_true,
    and_true]
  refine ⟨by decide +kernel, by decide +kernel, ?_, ?_, ?_, by decide +kernel, by decide +kernel,
    by decide +kernel, by decide +kernel, by decide +kernel, by decide +kernel, by decide +kernel,
    by decide +kernel, by decide +kernel, by decide +kernel, ?_, by decide +kernel,
    by decide +kernel⟩
  all_goals
    simp only [StyleRule.IsPlain, List.forall_mem_cons, List.not_mem_nil, IsEmpty.forall_iff,
      implies_true, and_true, hp, hf, hborder]
    decide +kernel

def css (primary families : String) : Text :=
  ("\n".intercalate ((styleRules primary families).map StyleRule.text)).toList

theorem styleText_eq (c : Colour) (f : Font.Base) :
    ∃ ds, styleText c f = css (String.ofList ('#' :: ds)) f.stack ∧ ds.length = 6 ∧
      ds ⊆ Colour.hexDigits := by
  obtain ⟨ds, htext, hlength, hds⟩ := c.exists_text_eq
  exact ⟨ds, by rw [← htext]; rfl, hlength, hds⟩

theorem isPlain_styleText (c : Colour) (f : Font.Base) : Markup.IsPlain (styleText c f) := by
  refine isPlain_intercalate (by decide +kernel) fun t ht => ?_
  obtain ⟨r, hr, rfl⟩ := List.mem_map.1 ht
  exact (isPlain_of_mem_styleRules (isPlain_colour c) (isPlain_stack f) r hr).text

end Page
end Letterhead
