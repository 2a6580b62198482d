import Letterhead.Proofs.Page.Reading
import Letterhead.Proofs.Word.Writable

/-! Running headers and footers in both formats. A printed page fills in more names than a Word document,
and where a header has no content it puts the name of the organization as it stands; where neither shows,
both formats read alike. -/
namespace Letterhead
open Markup

section Texts
variable {b : Branding} {now : Instant}

/-- Before numbers of pages are put in, a page has the text of a Word document, escaped. -/
theorem Page.unnumbered_eq_escape (b : Branding) (now : Instant) (content : Text) :
    unnumbered b now content =
      escape (Template.fill now [("organization".toList, b.organization)] content) :=
  Template.fill_escape now b.organization content

theorem reading_headerText_iff :
    reading (Page.headerText b now) = Word.headerText b now ↔
      if b.header.content = [] then Word.headerText b now = b.organization
      else Template.count "page".toList (Word.headerText b now) = 0 := by
  rw [Page.headerText_eq, Page.numbered, Page.unnumbered_eq_escape]
  by_cases hcontent : b.header.content = []
  · have hfill : Template.fill now [("organization".toList, b.organization)] [] = [] :=
      Template.fill_of_not_mem (by simp) now _
    rw [if_pos hcontent, hcontent, hfill, escape_nil, Template.replaceName_nil,
      if_pos List.isEmpty_nil, reading_escape]
    exact eq_comm
  · have hword : Word.headerText b now =
        Template.fill now [("organization".toList, b.organization)] b.header.content := by
      rw [Word.headerText, if_neg (by simpa using hcontent)]
    rw [if_neg hcontent, ← hword]
    generalize Word.headerText b now = w at hword
    split
    · next hempty =>
      -- Only for an empty organization nothing is left, and then nothing is put in its place.
      have hescape : escape w = [] :=
        (Template.eq_nil_of_replaceName_eq_nil (List.isEmpty_iff.1 hempty)).resolve_right (by decide)
      obtain rfl := escape_eq_nil_iff.1 hescape
      have horganization := Template.eq_nil_of_fill_eq_nil hcontent hword.symm
      exact iff_of_true (by rw [reading_escape, horganization]) Template.count_nil
    · exact Page.reading_page_iff

theorem reading_footerText_iff {line : Text} (hline : '\x7b' ∉ line) :
    unescape (dropTags (Page.footerText b now) ++ line) =
        Word.footerText b now ++ unescape line ↔
      Template.count "page".toList (Word.footerText b now) = 0 ∧
        Template.count "total".toList (Word.footerText b now) = 0 := by
  have hword : Template.fill now [("organization".toList, b.organization)] b.footer.content =
    Word.footerText b now := rfl
  rw [Page.footerText_eq, Page.numbered, Page.unnumbered_eq_escape, hword]
  exact Page.reading_total_iff hline

end Texts

namespace Word
variable {b : Branding} {l : Option Logo} {now : Instant}

def Paragraph.text (p : Paragraph) : Text := p.content.flatMap Content.text

def numberLines (b : Branding) : List Paragraph := if b.footer.pageNumber then [pageLine] else []

theorem text_header {logo : List Content} (hlogo : logo.flatMap Content.text = logoSpace b l) :
    (header b logo now).text = logoSpace b l ++ headerText b now := by
  rw [Paragraph.text, content_header, List.flatMap_append, hlogo]
  split
  · next h => rw [List.isEmpty_iff.1 h, List.flatMap_nil]
  · simp [Content.text]

theorem exists_footer_eq (b : Branding) (now : Instant) :
    ∃ ps, footer b now = ps ++ numberLines b ∧ ps.flatMap Paragraph.text = footerText b now := by
  refine ⟨_, rfl, ?_⟩
  split
  · next h =>
    rw [List.isEmpty_iff.1 h]
    rfl
  · simp [Paragraph.text, Content.text]

/-- A header is made when XML can hold its text, and then it has that text behind its logo. -/
theorem exists_headerPart_text_iff (hl : IsNamed l) (henabled : b.header.enabled = true) {t : Text} :
    (∃ p, headerPart b l now = .ok (some p) ∧ p.text = logoSpace b l ++ t) ↔
      IsAllowedText (headerText b now) ∧ t = headerText b now := by
  obtain ⟨cs, hspace, hpart⟩ := exists_headerPart_eq hl henabled now
  rw [← checkParagraph_header_iff (isAllowed_logoSpace hspace), hpart]
  constructor
  · rintro ⟨p, hp, htext⟩
    obtain ⟨⟨⟩, hcheck, hp⟩ := exists_of_bind_eq_ok hp
    obtain rfl := Option.some.inj (Except.ok.inj hp)
    rw [text_header hspace] at htext
    exact ⟨hcheck, (List.append_cancel_left htext).symm⟩
  · rintro ⟨hcheck, rfl⟩
    refine ⟨_, ?_, text_header hspace⟩
    rw [hcheck]
    rfl

/-- A footer is made when XML can hold its text, and then it has that text in front of the number of
the page. -/
theorem exists_footerPart_text_iff (henabled : b.footer.enabled = true) {P : Text → Prop} :
    (∃ ps, footerPart b now = .ok (some (ps ++ numberLines b)) ∧ P (ps.flatMap Paragraph.text)) ↔
      IsAllowedText (footerText b now) ∧ P (footerText b now) := by
  obtain ⟨ps, hps, htext⟩ := exists_footer_eq b now
  rw [← forM_footer_iff, footerPart_eq henabled]
  constructor
  · rintro ⟨qs, hqs, hP⟩
    obtain ⟨⟨⟩, hcheck, hqs⟩ := exists_of_bind_eq_ok hqs
    rw [hps] at hqs
    obtain rfl := List.append_cancel_right (Option.some.inj (Except.ok.inj hqs))
    exact ⟨hcheck, htext ▸ hP⟩
  · rintro ⟨hcheck, hP⟩
    refine ⟨ps, ?_, htext.symm ▸ hP⟩
    rw [hcheck, hps]
    rfl

end Word

/-- A Word document has a header, and but for the space behind a logo it reads as the one of a page. -/
def HeadersAgree (b : Branding) (l : Option Logo) (now : Instant) : Prop :=
  ∃ p, Word.headerPart b l now = .ok (some p) ∧
    p.text = Word.logoSpace b l ++ reading (write (Page.headerMarkup b l now))

/-- A Word document has a footer, and in front of the number of the page it reads as the one of a page. -/
def FootersAgree (b : Branding) (now : Instant) : Prop :=
  ∃ ps, Word.footerPart b now = .ok (some (ps ++ Word.numberLines b)) ∧
    reading (write (Page.footerMarkup b now)) =
      ps.flatMap Word.Paragraph.text ++ reading (write (Page.numberMarkup b))

/-- Headers and footers agree exactly where XML can hold their texts, nothing is filled into the name of
the organization that stands for an empty header, and filling assembles no names of page numbers. -/
theorem running_agree_iff {b : Branding} {l : Option Logo} (now : Instant)
    (hheader : b.header.enabled = true) (hfooter : b.footer.enabled = true)
    (hnamed : Word.IsNamed l) (hl : ∀ p ∈ l, Page.IsPicture p) :
    (HeadersAgree b l now ↔ Word.IsAllowedText (Word.headerText b now) ∧
      if b.header.content = [] then Word.headerText b now = b.organization
      else Template.count "page".toList (Word.headerText b now) = 0) ∧
    (FootersAgree b now ↔ Word.IsAllowedText (Word.footerText b now) ∧
      Template.count "page".toList (Word.footerText b now) = 0 ∧
      Template.count "total".toList (Word.footerText b now) = 0) := by
  constructor
  · rw [← reading_headerText_iff, ← Page.reading_headerMarkup hheader hl]
    exact Word.exists_headerPart_text_iff hnamed hheader
  · have hline : '\x7b' ∉ dropTags (write (Page.numberMarkup b)) := by
      unfold Page.numberMarkup
      split
      · decide +kernel
      · decide
    rw [← reading_footerText_iff hline, ← Page.reading_footerMarkup hfooter]
    exact Word.exists_footerPart_text_iff hfooter
      (P := fun t => reading (write (Page.footerMarkup b now)) =
        t ++ reading (write (Page.numberMarkup b)))

def letterBranding : Branding where
  organization := "R&D <\x7b1\x7d>".toList
  header := { content := "\x7b\x7bOrganization\x7d\x7d".toList }
  footer := { content := "\x7b\x7byear\x7d\x7d".toList }

theorem running_agree_letterBranding :
    HeadersAgree letterBranding none ⟨0⟩ ∧ FootersAgree letterBranding ⟨0⟩ := by
  obtain ⟨hheader, hfooter⟩ := running_agree_iff (b := letterBranding) (l := none) ⟨0⟩ rfl rfl
    nofun nofun
  have hallowed : (Word.headerText letterBranding ⟨0⟩).all Word.isAllowed = true ∧
      (Word.footerText letterBranding ⟨0⟩).all Word.isAllowed = true := by
    decide +kernel
  exact ⟨hheader.2 ⟨List.all_eq_true.1 hallowed.1, by decide +kernel⟩,
    hfooter.2 ⟨List.all_eq_true.1 hallowed.2, by decide +kernel⟩⟩

def yearBranding : Branding where
  organization := "ACME \x7b\x7byear\x7d\x7d".toList

/-- The year is filled in for a Word document, and on a page the name stands as it is. -/
theorem running_disagree_yearBranding :
    (∀ t ∈ [yearBranding.header.content, yearBranding.footer.content, yearBranding.organization],
      Template.count "page".toList t = 0 ∧ Template.count "total".toList t = 0) ∧
    (yearBranding.header.enabled = true ∧ yearBranding.footer.enabled = true) ∧
    (∃ p, Word.headerPart yearBranding none ⟨0⟩ = .ok (some p) ∧ p.text = "ACME 1970".toList) ∧
    reading (write (Page.headerMarkup yearBranding none ⟨0⟩)) = yearBranding.organization ∧
    ¬ HeadersAgree yearBranding none ⟨0⟩ := by
  have hallowed : (Word.headerText yearBranding ⟨0⟩).all Word.isAllowed = true := by
    decide +kernel
  have hword : Word.headerText yearBranding ⟨0⟩ = "ACME 1970".toList := by decide +kernel
  have hpage : reading (write (Page.headerMarkup yearBranding none ⟨0⟩)) =
      yearBranding.organization := by
    decide +kernel
  have hpart : ∀ t, (∃ p, Word.headerPart yearBranding none ⟨0⟩ = .ok (some p) ∧
      p.text = Word.logoSpace yearBranding none ++ t) ↔
        Word.IsAllowedText (Word.headerText yearBranding ⟨0⟩) ∧
          t = Word.headerText yearBranding ⟨0⟩ :=
    fun _ => Word.exists_headerPart_text_iff (l := none) nofun rfl
  refine ⟨by decide +kernel, ⟨rfl, rfl⟩, (hpart _).2 ⟨List.all_eq_true.1 hallowed, hword.symm⟩, hpage, ?_⟩
  intro hagree
  have hsame := ((hpart _).1 hagree).2
  rw [hpage, hword] at hsame
  exact absurd hsame (by decide +kernel)

end Letterhead
