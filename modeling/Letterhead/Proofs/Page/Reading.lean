import Letterhead.Proofs.Markup.Visible
import Letterhead.Proofs.Page.Running

/-! Running headers and footers as they are read. Nothing is read of a frame but the line that tells the
number of the page; of what is written in it, braces are lost wherever a number of a page stands. -/
namespace Letterhead.Page
open Markup

section Frames
variable {b : Branding} {l : Option Logo} {now : Instant} {P : Piece → Prop} {inner : Markup}

theorem forall_mem_headerFrame (hframe : ∀ p ∈ headerFrame b l [], P p)
    (hinner : ∀ p ∈ inner, P p) : ∀ p ∈ headerFrame b l inner, P p := by
  unfold headerFrame at hframe ⊢
  split
  · next henabled =>
    simp only [henabled, if_true, element, List.cons_append, List.append_assoc, List.nil_append,
      List.forall_mem_cons, List.forall_mem_append] at hframe ⊢
    obtain ⟨houter, hlogo, hspan, hrest⟩ := hframe
    exact ⟨houter, hlogo, hspan, hinner, hrest⟩
  · next hdisabled => rwa [if_neg hdisabled] at hframe

theorem forall_mem_footerFrame (hframe : ∀ p ∈ footerFrame b (footerInner b now []), P p)
    (hinner : ∀ p ∈ inner, P p) : ∀ p ∈ footerFrame b (footerInner b now inner), P p := by
  unfold footerFrame footerInner at hframe ⊢
  split
  · next henabled =>
    rw [if_pos henabled] at hframe
    split
    · next hempty => rwa [if_pos hempty] at hframe
    · next hne =>
      rw [if_neg hne] at hframe
      simp only [Option.map_some, Option.getD_some, element, List.cons_append, List.append_assoc,
        List.nil_append, List.forall_mem_cons, List.forall_mem_append] at hframe ⊢
      obtain ⟨houter, hcentre, hrest⟩ := hframe
      exact ⟨houter, hcentre, hinner, hrest⟩
  · next hdisabled => rwa [if_neg hdisabled] at hframe

end Frames

section Reading
variable {b : Branding} {l : Option Logo} {now : Instant}

def numberMarkup (b : Branding) : Markup := if b.footer.pageNumber then pageLine else []

theorem isWhole_numberMarkup (b : Branding) : ∀ p ∈ numberMarkup b, IsWhole p := by
  unfold numberMarkup
  split
  · intro p hp
    refine isWhole_of_isClean (hasTags_pageLine.clean p hp) ?_
    rintro t rfl
    simp [element, pageLine, pageCounter, totalCounter, counter] at hp
  · exact fun p hp => by cases hp

theorem isWhole_headerMarkup (hl : ∀ p ∈ l, IsPicture p) :
    ∀ p ∈ headerMarkup b l now, IsWhole p := by
  have htags := hasTags_headerText b now
  rw [write, List.flatMap_singleton, writePiece] at htags
  refine forall_mem_headerFrame (fun p hp => ?_) (List.forall_mem_singleton.2 ⟨_, htags⟩)
  refine isWhole_of_isClean ((hasTags_headerFrame b hl HasTags.nil).clean p hp) ?_
  rintro t rfl
  unfold headerFrame at hp
  split at hp
  · cases hlogo : shownLogo b l <;> simp [hlogo, logoMarkup, element] at hp
  · simp [noRunning, element] at hp

theorem isWhole_footerMarkup : ∀ p ∈ footerMarkup b now, IsWhole p := by
  obtain ⟨ms, -, htags⟩ := exists_hasTags_footerText b now
  rw [write, List.flatMap_singleton, writePiece] at htags
  rw [footerMarkup_eq]
  refine forall_mem_footerFrame (fun p hp => ?_) (List.forall_mem_singleton.2 ⟨_, htags⟩)
  refine isWhole_of_isClean ((hasTags_footerFrame b HasTags.nil now).clean p hp) ?_
  rintro t rfl
  unfold footerFrame footerInner at hp
  split at hp
  · split at hp <;> split at hp <;>
      simp [element, pageLine, pageCounter, totalCounter, counter] at hp
  · simp [noRunning, element] at hp

theorem reading_headerMarkup (henabled : b.header.enabled = true) (hl : ∀ p ∈ l, IsPicture p) :
    reading (write (headerMarkup b l now)) = reading (headerText b now) := by
  rw [reading, dropTags_write (isWhole_headerMarkup hl), reading, headerMarkup_eq, headerFrame,
    if_pos henabled]
  cases shownLogo b l <;> simp [logoMarkup, leftOf]

theorem reading_footerMarkup (henabled : b.footer.enabled = true) :
    reading (write (footerMarkup b now)) =
      unescape (dropTags (footerText b now) ++ dropTags (write (numberMarkup b))) := by
  rw [reading, dropTags_write isWhole_footerMarkup, dropTags_write (isWhole_numberMarkup b),
    footerMarkup, if_pos henabled, flatMap_leftOf_element, List.flatMap_append]
  refine congrArg unescape (congrArg (· ++ _) ?_)
  split
  · next hempty =>
    rw [List.isEmpty_iff.1 hempty]
    rfl
  · simp [leftOf]

end Reading

section Braces
variable {w line : Text}

theorem isLiteral_page : Template.IsLiteral "page".toList := Template.isLiteral_ofList (by decide)

theorem isLiteral_total : Template.IsLiteral "total".toList := Template.isLiteral_ofList (by decide)

theorem not_mem_write_pageCounter : '\x7b' ∉ write pageCounter := by decide

theorem not_mem_write_totalCounter : '\x7b' ∉ write totalCounter := by decide

/-- A text that has lost braces is not read as it was. -/
theorem eq_zero_of_reading {u : Text} {n : Nat} (hline : '\x7b' ∉ line)
    (hcount : u.count '\x7b' + n ≤ w.count '\x7b')
    (h : unescape (dropTags u ++ line) = w ++ unescape line) : n = 0 := by
  have hle := count_brace_reading_le u line
  rw [h, List.count_append, List.count_eq_zero.2 hline] at hle
  omega

theorem reading_page_iff :
    reading (Template.replaceName "page".toList (write pageCounter) (escape w)) = w ↔
      Template.count "page".toList w = 0 := by
  have hpages := (Template.replaceName_escape isLiteral_page [] w).2
  constructor
  · intro h
    have hcount := Template.count_brace_replaceName "page".toList not_mem_write_pageCounter
      (escape w)
    rw [hpages, Template.count_brace_escape] at hcount
    have hread : unescape (dropTags (Template.replaceName "page".toList (write pageCounter)
        (escape w)) ++ []) = w ++ unescape [] := by
      simpa [reading, unescape] using h
    exact eq_zero_of_reading (by simp) hcount hread
  · intro h
    rw [Template.replaceName_of_count_eq_zero _ (hpages.trans h), reading_escape]

theorem reading_total_iff (hline : '\x7b' ∉ line) :
    unescape (dropTags (Template.replaceName "total".toList (write totalCounter)
        (Template.replaceName "page".toList (write pageCounter) (escape w))) ++ line) =
        w ++ unescape line ↔
      Template.count "page".toList w = 0 ∧ Template.count "total".toList w = 0 := by
  have hpages := (Template.replaceName_escape isLiteral_page [] w).2
  have htotals := (Template.replaceName_escape isLiteral_total [] w).2
  constructor
  · intro h
    have hfirst := Template.count_brace_replaceName "page".toList not_mem_write_pageCounter
      (escape w)
    have hsecond := Template.count_brace_replaceName "total".toList not_mem_write_totalCounter
      (Template.replaceName "page".toList (write pageCounter) (escape w))
    rw [hpages, Template.count_brace_escape] at hfirst
    have hzero := eq_zero_of_reading hline
      ((Nat.add_le_add_right (Nat.le_of_add_right_le hsecond) _).trans hfirst) h
    -- Without numbers of pages the text is still the escaped one, and its braces are counted anew.
    have hsame := Template.replaceName_of_count_eq_zero (write pageCounter) (hpages.trans hzero)
    rw [hsame] at h hsecond
    rw [htotals, Template.count_brace_escape] at hsecond
    exact ⟨hzero, eq_zero_of_reading hline hsecond h⟩
  · rintro ⟨hp, ht⟩
    rw [Template.replaceName_of_count_eq_zero _ (hpages.trans hp),
      Template.replaceName_of_count_eq_zero _ (htotals.trans ht), unescape_dropTags_escape]

end Braces

end Letterhead.Page
