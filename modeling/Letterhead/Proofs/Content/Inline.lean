import Letterhead.Content.Inline
import Mathlib.Data.List.Chain

/-! Runs of inline text. A run is never empty, no plain run stands beside another one, and every
character that is shown stands in the text; a text that is not empty shows something. -/
namespace Letterhead

namespace Text
variable {rule : SpanRule} {between : Text → Text}

/-- What a rule shows is a part of the text, and not empty. -/
def ShowsPart (rule : SpanRule) : Prop :=
  ∀ ⦃t shown n⦄, rule t = some (shown, n) → shown ≠ [] ∧ shown ⊆ t

theorem ne_nil_of_mem_cutSpans (h : ShowsPart rule) (before t : Text) :
    ∀ p ∈ (cutSpans rule before t).1, p.2 ≠ [] := by
  fun_induction cutSpans rule before t with
  | case1 before => simp
  | case2 before c rest shown n hrule r ih => exact List.forall_mem_cons.2 ⟨(h hrule).1, ih⟩
  | case3 before c rest hrule ih => exact ih

theorem cutSpans_subset (h : ShowsPart rule) (before t : Text) :
    (∀ p ∈ (cutSpans rule before t).1, p.1 ++ p.2 ⊆ before ++ t) ∧
      (cutSpans rule before t).2 ⊆ before ++ t := by
  fun_induction cutSpans rule before t with
  | case1 before => simp
  | case2 before c rest shown n hrule r ih =>
    have hrest : [] ++ rest.drop (n - 1) ⊆ before ++ c :: rest := fun d hd =>
      List.mem_append_right _ (List.mem_cons_of_mem c (List.mem_of_mem_drop hd))
    have hspan : before.reverse ++ shown ⊆ before ++ c :: rest :=
      List.append_subset.2 ⟨fun d hd => List.mem_append_left _ (List.mem_reverse.1 hd),
        fun d hd => List.mem_append_right _ ((h hrule).2 hd)⟩
    exact ⟨List.forall_mem_cons.2 ⟨hspan, fun p hp => List.Subset.trans (ih.1 p hp) hrest⟩,
      List.Subset.trans ih.2 hrest⟩
  | case3 before c rest hrule ih =>
    have hmove : c :: before ++ rest ⊆ before ++ c :: rest := fun d hd => by
      simpa [or_left_comm] using hd
    exact ⟨fun p hp => List.Subset.trans (ih.1 p hp) hmove, List.Subset.trans ih.2 hmove⟩

theorem cutSpans_snd_of_nil {before t : Text} (h : (cutSpans rule before t).1 = []) :
    (cutSpans rule before t).2 = before.reverse ++ t := by
  fun_induction cutSpans rule before t with
  | case1 before => simp
  | case2 before c rest shown n hrule r ih => simp at h
  | case3 before c rest hrule ih => simpa using ih h

theorem unwrapSpans_subset (h : ShowsPart rule) (hbetween : ∀ s, between s ⊆ s) (t : Text) :
    unwrapSpans rule between t ⊆ t := by
  obtain ⟨hspans, hrest⟩ := cutSpans_subset h [] t
  rw [List.nil_append] at hspans hrest
  refine List.append_subset.2 ⟨fun c hc => ?_, List.Subset.trans (hbetween _) hrest⟩
  obtain ⟨p, hp, hc⟩ := List.mem_flatMap.1 hc
  refine hspans p hp (List.mem_append.2 ?_)
  exact (List.mem_append.1 hc).imp_left fun hc => hbetween _ hc

/-- A text that is not empty still shows something once its marks are gone. -/
theorem eq_nil_of_unwrapSpans_eq_nil (h : ShowsPart rule)
    (hbetween : ∀ s, between s = [] → s = []) {t : Text} (ht : unwrapSpans rule between t = []) :
    t = [] := by
  rw [unwrapSpans, List.append_eq_nil_iff, List.flatMap_eq_nil_iff] at ht
  obtain ⟨hspans, hrest⟩ := ht
  have hnone : (cutSpans rule [] t).1 = [] := by
    refine List.eq_nil_iff_forall_not_mem.2 fun p hp => ?_
    exact ne_nil_of_mem_cutSpans h [] t p hp (List.append_eq_nil_iff.1 (hspans p hp)).2
  have hall := cutSpans_snd_of_nil hnone
  rw [hbetween _ hrest] at hall
  simpa using hall.symm

end Text

namespace Inline
open Text

theorem showsPart_delimited (opening closing : Text) (stop : Char) :
    ShowsPart (delimited opening closing stop) := by
  intro t shown n h
  simp only [delimited] at h
  split at h
  · cases h
  · next rest hrest =>
    split at h
    · next hbody =>
      cases h
      rw [Bool.and_eq_true] at hbody
      refine ⟨by simpa using hbody.1, fun c hc => ?_⟩
      rw [← List.append_eq_of_isPrefixOf?_eq_some hrest]
      exact List.mem_append_right _ (List.takeWhile_subset _ hc)
    · cases h

theorem showsPart_link : ShowsPart link := by
  intro t shown n h
  simp only [link] at h
  split at h
  · cases h
  · next label m hlabel =>
    split at h
    · cases h
      exact showsPart_delimited _ _ _ hlabel
    · cases h

theorem cleanMarkup_subset (t : Text) : cleanMarkup t ⊆ t :=
  List.Subset.trans (unwrapSpans_subset showsPart_link List.Subset.refl _)
    (unwrapSpans_subset (showsPart_delimited _ _ _) List.Subset.refl t)

theorem clean_subset (t : Text) : clean t ⊆ t :=
  unwrapSpans_subset (showsPart_delimited _ _ _) cleanMarkup_subset t

theorem eq_nil_of_clean_eq_nil {t : Text} (h : clean t = []) : t = [] := by
  refine eq_nil_of_unwrapSpans_eq_nil (showsPart_delimited _ _ _) (fun s hs => ?_) h
  exact eq_nil_of_unwrapSpans_eq_nil (showsPart_delimited _ _ _) (fun _ hu => hu)
    (eq_nil_of_unwrapSpans_eq_nil showsPart_link (fun _ hu => hu) hs)

section PlainRun
variable {t : Text} {r : Run}

theorem eq_nil_of_plainRun_eq_nil (h : plainRun t = []) : t = [] := by
  refine eq_nil_of_clean_eq_nil ?_
  by_contra hne
  simp [plainRun, hne] at h

theorem of_mem_plainRun (h : r ∈ plainRun t) : r.text ≠ [] ∧ r.text ⊆ t := by
  rw [plainRun] at h
  split at h
  · simp at h
  · next hne =>
    rw [List.mem_singleton.1 h]
    exact ⟨by simpa using hne, clean_subset t⟩

end PlainRun

/-- A run is not empty and a part of the text. -/
theorem of_mem_runs {t : Text} {r : Run} (h : r ∈ runs t) : r.text ≠ [] ∧ r.text ⊆ t := by
  have hbold : ShowsPart bold := showsPart_delimited _ _ _
  obtain ⟨hspans, hrest⟩ := cutSpans_subset hbold [] t
  rw [List.nil_append] at hspans hrest
  rw [runs, List.mem_append, List.mem_flatMap] at h
  rcases h with ⟨p, hp, h⟩ | h
  · obtain ⟨hbefore, hspan⟩ := List.append_subset.1 (hspans p hp)
    rcases List.mem_append.1 h with h | h
    · exact (of_mem_plainRun h).imp_right fun hr => List.Subset.trans hr hbefore
    · rw [List.mem_singleton.1 h]
      exact ⟨ne_nil_of_mem_cutSpans hbold [] t p hp, hspan⟩
  · exact (of_mem_plainRun h).imp_right fun hr => List.Subset.trans hr hrest

theorem shown_subset (t : Text) : shown t ⊆ t := fun c hc => by
  obtain ⟨r, hr, hc⟩ := List.mem_flatMap.1 hc
  exact (of_mem_runs hr).2 hc

/-- A text shows something unless it is empty. -/
theorem runs_eq_nil_iff {t : Text} : runs t = [] ↔ t = [] := by
  refine ⟨fun h => ?_, fun h => by rw [h, runs_nil]⟩
  rw [runs, List.append_eq_nil_iff, List.flatMap_eq_nil_iff] at h
  have hnone : (cutSpans bold [] t).1 = [] :=
    List.eq_nil_iff_forall_not_mem.2 fun p hp => by simpa using h.1 p hp
  have hall := cutSpans_snd_of_nil hnone
  rw [eq_nil_of_plainRun_eq_nil h.2] at hall
  simpa using hall.symm

/-- Of two runs beside each other one is bold. -/
def Alternates (rs : List Run) : Prop := rs.IsChain fun r s => r.bold = true ∨ s.bold = true

theorem alternates_plainRun_append {t : Text} {rs : List Run} (h : Alternates rs)
    (hrs : ∀ r ∈ rs.head?, r.bold = true) : Alternates (plainRun t ++ rs) := by
  rw [plainRun]
  split
  · exact h
  · exact List.isChain_cons.2 ⟨fun r hr => Or.inr (hrs r hr), h⟩

theorem alternates_runs (t : Text) : Alternates (runs t) := by
  rw [runs]
  generalize (cutSpans bold [] t).2 = rest
  induction (cutSpans bold [] t).1 with
  | nil =>
    have hnil : Alternates [] := List.isChain_nil
    simpa using alternates_plainRun_append hnil (by simp)
  | cons p ps ih =>
    have hbold : Alternates (⟨p.2, true⟩ :: (ps.flatMap (fun p => plainRun p.1 ++ [⟨p.2, true⟩]) ++
        plainRun rest)) :=
      List.isChain_cons.2 ⟨fun r _ => Or.inl rfl, ih⟩
    simpa using alternates_plainRun_append hbold (by simp)

end Inline
end Letterhead
