import Letterhead.Proofs.Branding.Filling
import Letterhead.Proofs.Page.Frame

/-! Running headers and footers. Their tags are those of a frame and the counters that stand for page
numbers; what is written in them, or for the name of the organization, brings in no others. -/
namespace Letterhead.Page
open Markup

def unnumbered (b : Branding) (now : Instant) (content : Text) : Text :=
  Template.fill now [("organization".toList, escape b.organization)] (escape content)

def numbered (b : Branding) (now : Instant) (content : Text) : Text :=
  Template.replaceName "page".toList (write pageCounter) (unnumbered b now content)

theorem headerText_eq (b : Branding) (now : Instant) : headerText b now =
    if (numbered b now b.header.content).isEmpty then escape b.organization
    else numbered b now b.header.content := by
  have hfill := Template.fill_concat now [("organization".toList, escape b.organization)]
    "page".toList (write pageCounter) (escape b.header.content)
    (by simp [Named.setAll, Named.set, Template.clockValues])
  rw [numbered, unnumbered, ← hfill]
  rfl

theorem footerText_eq (b : Branding) (now : Instant) : footerText b now =
    Template.replaceName "total".toList (write totalCounter)
      (numbered b now b.footer.content) := by
  have hpage := Template.fill_concat now [("organization".toList, escape b.organization)]
    "page".toList (write pageCounter) (escape b.footer.content)
    (by simp [Named.setAll, Named.set, Template.clockValues])
  have htotal := Template.fill_concat now
    [("organization".toList, escape b.organization), ("page".toList, write pageCounter)]
    "total".toList (write totalCounter) (escape b.footer.content)
    (by simp [Named.setAll, Named.set, Template.clockValues])
  rw [numbered, unnumbered, ← hpage]
  exact htotal

def pageCount (b : Branding) (now : Instant) (content : Text) : Nat :=
  Template.count "page".toList (unnumbered b now content)

def totalCount (b : Branding) (now : Instant) (content : Text) : Nat :=
  Template.count "total".toList (numbered b now content)

theorem isBare_unnumbered (b : Branding) (now : Instant) (content : Text) :
    IsBare (unnumbered b now content) := by
  have hsafe : Template.IsSafe "organization".toList := Template.isSafe_ofList (by decide)
  refine Template.isBare_fill ?_ now (isBare_escape content)
  rw [List.forall_mem_singleton]
  exact ⟨hsafe, isBare_escape b.organization⟩

theorem woven_numbered (b : Branding) (now : Instant) (content : Text) :
    Woven write (List.replicate (pageCount b now content) pageCounter) (numbered b now content) := by
  have hvalue : Woven write [pageCounter] (write pageCounter) := woven_singleton rfl
  have hsafe : Template.IsSafe "page".toList := Template.isSafe_ofList (by decide)
  obtain ⟨ms, hms, hperm⟩ := Template.exists_woven_replaceName hsafe hvalue
    (isBare_unnumbered b now content).woven (by simp)
  rw [List.nil_append, List.flatten_replicate_singleton] at hperm
  rwa [List.perm_replicate.1 hperm] at hms

theorem hasTags_of_woven {ms : List Markup} {t : Text} (h : Woven write ms t)
    (hms : ∀ m ∈ ms, m ∈ counters) : HasTags ms.flatten (write [.literal t]) := by
  have hwrite : write [.literal t] = t := by simp [write, writePiece]
  have hclean : ∀ m ∈ ms, ∀ p ∈ m, p.isTag = true ∧ p.IsClean := by
    intro m hm p hp
    refine ⟨?_, (hasTags_counter (hms m hm)).clean p hp⟩
    have htags : ∀ m ∈ counters, ∀ p ∈ m, p.isTag = true := by decide
    exact htags m (hms m hm) p hp
  have hall : ∀ p ∈ ms.flatten, p.isTag = true ∧ p.IsClean := by
    intro p hp
    obtain ⟨m, hm, hp⟩ := List.mem_flatten.1 hp
    exact hclean m hm p hp
  refine ⟨fun p hp => (hall p hp).2, ?_⟩
  rw [List.filter_eq_self.2 fun p hp => (hall p hp).1, hwrite]
  exact h.flatten hclean

theorem mem_counters {n k : Nat} {m : Markup}
    (h : m ∈ List.replicate n pageCounter ++ List.replicate k totalCounter) : m ∈ counters := by
  cases List.mem_append.1 h with
  | inl h => simp [counters, List.eq_of_mem_replicate h]
  | inr h => simp [counters, List.eq_of_mem_replicate h]

theorem mem_counters_of_replicate {n : Nat} {m : Markup} (h : m ∈ List.replicate n pageCounter) :
    m ∈ counters :=
  mem_counters (k := 0) (List.mem_append_left _ h)

theorem isRunning_flatten {ms : List Markup} (h : ∀ m ∈ ms, m ∈ counters) :
    ∀ p ∈ ms.flatten, p.IsRunning := by
  intro p hp
  obtain ⟨m, hm, hp⟩ := List.mem_flatten.1 hp
  exact isRunning_counter (h m hm) p hp

theorem hasTags_headerText (b : Branding) (now : Instant) :
    HasTags (List.replicate (pageCount b now b.header.content) pageCounter).flatten
      (write [.literal (headerText b now)]) := by
  have hwoven := woven_numbered b now b.header.content
  rw [headerText_eq]
  split
  · next hempty =>
    -- An empty text has no counters, and the name of the organization has none either.
    rw [List.isEmpty_iff.1 hempty] at hwoven
    generalize List.replicate (pageCount b now b.header.content) pageCounter = ms at hwoven
    cases hwoven
    exact hasTags_of_woven (isBare_escape b.organization).woven (by simp)
  · exact hasTags_of_woven hwoven fun m => mem_counters_of_replicate

theorem exists_hasTags_footerText (b : Branding) (now : Instant) : ∃ ms : List Markup,
    ms.Perm (List.replicate (pageCount b now b.footer.content) pageCounter ++
      List.replicate (totalCount b now b.footer.content) totalCounter) ∧
    HasTags ms.flatten (write [.literal (footerText b now)]) := by
  have hvalue : Woven write [totalCounter] (write totalCounter) := woven_singleton rfl
  have hbraces : ∀ m ∈ counters, '\x7b' ∉ write m := by decide
  have hsafe : Template.IsSafe "total".toList := Template.isSafe_ofList (by decide)
  obtain ⟨ms, hms, hperm⟩ := Template.exists_woven_replaceName hsafe hvalue
    (woven_numbered b now b.footer.content)
    fun m hm => hbraces m (mem_counters_of_replicate hm)
  rw [List.flatten_replicate_singleton] at hperm
  refine ⟨ms, hperm, ?_⟩
  rw [footerText_eq]
  exact hasTags_of_woven hms fun m hm => mem_counters (hperm.subset hm)

/-- A content that is shown as it stands: it is not empty, and no name can stand in it. -/
structure IsVerbatim (t : Text) : Prop where
  nonempty : t ≠ []
  braceless : '\x7b' ∉ t

theorem IsVerbatim.escape {t : Text} (h : IsVerbatim t) : IsVerbatim (escape t) := by
  have hcount := Template.count_brace_escape t
  rw [List.count_eq_zero.2 h.braceless] at hcount
  exact ⟨mt escape_eq_nil_iff.1 h.nonempty, List.count_eq_zero.1 hcount⟩

/-- Into a content without braces nothing is put. -/
theorem numbered_of_isVerbatim {t : Text} (h : IsVerbatim t) (b : Branding) (now : Instant) :
    pageCount b now t = 0 ∧ totalCount b now t = 0 ∧ numbered b now t = escape t := by
  have hunnumbered : unnumbered b now t = escape t :=
    Template.fill_of_not_mem h.escape.braceless now _
  have hnumbered : numbered b now t = escape t := by
    rw [numbered, hunnumbered]
    exact Template.replaceName_of_not_mem h.escape.braceless
  refine ⟨?_, ?_, hnumbered⟩
  · rw [pageCount, hunnumbered]
    exact Template.count_of_not_mem h.escape.braceless
  · rw [totalCount, hnumbered]
    exact Template.count_of_not_mem h.escape.braceless

theorem hasTags_headerMarkup (b : Branding) {l : Option Logo}
    (hl : ∀ p ∈ l, IsPicture p) (now : Instant) :
    HasTags (headerFrame b l (List.replicate (pageCount b now b.header.content) pageCounter).flatten)
      (write (headerMarkup b l now)) := by
  rw [headerMarkup_eq]
  exact hasTags_headerFrame b hl (hasTags_headerText b now)

theorem exists_hasTags_footerMarkup (b : Branding) (now : Instant) : ∃ ms : List Markup,
    ms.Perm (List.replicate (pageCount b now b.footer.content) pageCounter ++
      List.replicate (totalCount b now b.footer.content) totalCounter) ∧
    HasTags (footerFrame b (footerInner b now ms.flatten)) (write (footerMarkup b now)) := by
  obtain ⟨ms, hperm, hms⟩ := exists_hasTags_footerText b now
  rw [footerMarkup_eq]
  exact ⟨ms, hperm, hasTags_footerFrame b hms now⟩

theorem hasTags_headerMarkup_of_isVerbatim {b : Branding} (h : IsVerbatim b.header.content)
    {l : Option Logo} (hl : ∀ p ∈ l, IsPicture p)
    (now : Instant) : HasTags (headerFrame b l []) (write (headerMarkup b l now)) := by
  have htags := hasTags_headerMarkup b hl now
  rwa [(numbered_of_isVerbatim h b now).1] at htags

theorem hasTags_footerMarkup_of_isVerbatim {b : Branding} (h : IsVerbatim b.footer.content)
    (now : Instant) : HasTags (footerFrame b (some [])) (write (footerMarkup b now)) := by
  obtain ⟨hpages, htotal, hnumbered⟩ := numbered_of_isVerbatim h b now
  obtain ⟨ms, hperm, hms⟩ := exists_hasTags_footerMarkup b now
  have htext : footerText b now = escape b.footer.content := by
    rw [footerText_eq, hnumbered]
    exact Template.replaceName_of_not_mem h.escape.braceless
  have hinner : footerInner b now ms.flatten = some ms.flatten := by
    rw [footerInner, htext, if_neg (by simpa using h.escape.nonempty)]
  rw [hpages, htotal] at hperm
  obtain rfl : ms = [] := by simpa using hperm
  rwa [hinner] at hms

def retext (b : Branding) (header footer organization : Text) : Branding :=
  { b with
    header := { b.header with content := header }
    footer := { b.footer with content := footer }
    organization := organization }

/-- A text has the tags of some markup, which are div, img and span. -/
structure HasRunningTags (m : Markup) (t : Text) : Prop where
  tags : HasTags m t
  running : ∀ p ∈ m, p.IsRunning

/-- Header and footer have the tags of their frames and one counter for every place of a page number,
and outside of them no angle and no double quote, whatever is written in them. With contents that are
shown as they stand, their tags do not depend on the texts at all. -/
theorem hasTags_running :
    (∀ (b : Branding) (l : Option Logo) (now : Instant), (∀ p ∈ l, IsPicture p) →
      HasRunningTags
        (headerFrame b l (List.replicate (pageCount b now b.header.content) pageCounter).flatten)
        (write (headerMarkup b l now))) ∧
    (∀ (b : Branding) (now : Instant), ∃ ms : List Markup,
      ms.Perm (List.replicate (pageCount b now b.footer.content) pageCounter ++
        List.replicate (totalCount b now b.footer.content) totalCounter) ∧
      HasRunningTags (footerFrame b (footerInner b now ms.flatten)) (write (footerMarkup b now))) ∧
    ∀ (b : Branding) (l : Option Logo) (now later : Instant) (header footer organization : Text),
      (∀ p ∈ l, IsPicture p) →
      IsVerbatim b.header.content → IsVerbatim b.footer.content →
      IsVerbatim header → IsVerbatim footer →
      tags (write (headerMarkup (retext b header footer organization) l later)) =
          tags (write (headerMarkup b l now)) ∧
        tags (write (footerMarkup (retext b header footer organization) later)) =
          tags (write (footerMarkup b now)) := by
  refine ⟨fun b l now hl => ?_, fun b now => ?_, ?_⟩
  · refine ⟨hasTags_headerMarkup b hl now, isRunning_headerFrame ?_ b l⟩
    exact isRunning_flatten fun m => mem_counters_of_replicate
  · obtain ⟨ms, hperm, hms⟩ := exists_hasTags_footerMarkup b now
    have hcounters := isRunning_flatten fun m hm => mem_counters (hperm.subset hm)
    exact ⟨ms, hperm, hms, isRunning_footerFrame b now hcounters⟩
  · intro b l now later header footer organization hl hbheader hbfooter hheader hfooter
    have hheaders := hasTags_headerMarkup_of_isVerbatim hbheader hl now
    have hfooters := hasTags_footerMarkup_of_isVerbatim hbfooter now
    have hheaders' := hasTags_headerMarkup_of_isVerbatim
      (b := retext b header footer organization) hheader hl later
    have hfooters' := hasTags_footerMarkup_of_isVerbatim
      (b := retext b header footer organization) hfooter later
    -- The frames read no text of the branding.
    have hheaderFrame : headerFrame (retext b header footer organization) l [] =
        headerFrame b l [] := rfl
    have hfooterFrame : footerFrame (retext b header footer organization) (some []) =
        footerFrame b (some []) := rfl
    constructor
    · rw [hheaders.tags_eq, hheaders'.tags_eq, hheaderFrame]
    · rw [hfooters.tags_eq, hfooters'.tags_eq, hfooterFrame]

def markedBranding : Branding where
  enabled := true
  organization := "\"\x7b\x7bPage\x7d\x7d".toList
  header := { content := "<\x7b\x7borganization\x7d\x7d".toList }
  footer := { content := "\x7b\x7btotal\x7d\x7d>".toList }

def smallLogo : Logo where
  bytes := ⟨#[1, 2, 3, 4]⟩
  width := 3
  height := 2

/-- The header has a counter for the name that stands in the name of the organization. -/
theorem hasTags_running_markedBranding :
    HasRunningTags (headerFrame markedBranding (some smallLogo) pageCounter)
        (write (headerMarkup markedBranding (some smallLogo) ⟨0⟩)) ∧
      HasRunningTags (footerFrame markedBranding (footerInner markedBranding ⟨0⟩ totalCounter))
        (write (footerMarkup markedBranding ⟨0⟩)) ∧
      tags (write (headerMarkup (retext markedBranding ['<', 'p', '>'] ['"'] ['>'])
          (some smallLogo) ⟨0⟩)) =
        tags (write (headerMarkup (retext markedBranding ['a'] ['b'] ['c']) (some smallLogo) ⟨1⟩)) := by
  have hkind : ∀ p ∈ some smallLogo, IsPicture p := by
    intro p hp
    obtain rfl := Option.mem_some.1 hp
    exact Or.inl rfl
  obtain ⟨hheader, hfooter, hsame⟩ := hasTags_running
  have hheader := hheader markedBranding (some smallLogo) ⟨0⟩ hkind
  obtain ⟨ms, hperm, hfooter⟩ := hfooter markedBranding ⟨0⟩
  have hcounts : pageCount markedBranding ⟨0⟩ markedBranding.header.content = 1 ∧
      pageCount markedBranding ⟨0⟩ markedBranding.footer.content = 0 ∧
      totalCount markedBranding ⟨0⟩ markedBranding.footer.content = 1 := by
    decide +kernel
  rw [hcounts.1] at hheader
  rw [hcounts.2.1, hcounts.2.2] at hperm
  obtain rfl : ms = [totalCounter] := List.perm_singleton.1 hperm
  refine ⟨hheader, hfooter, ?_⟩
  exact (hsame (retext markedBranding ['a'] ['b'] ['c']) (some smallLogo) ⟨1⟩ ⟨0⟩ ['<', 'p', '>']
    ['"'] ['>'] hkind ⟨by decide, by decide⟩ ⟨by decide, by decide⟩ ⟨by decide, by decide⟩
    ⟨by decide, by decide⟩).1

end Letterhead.Page
