import Letterhead.Markdown
import Letterhead.Proofs.Content.Canonical
import Letterhead.Proofs.Number.Numeral

/-! Documents as Markdown, read as content again. They are segmented into the title, the blocks of the
content, and the list of facts; the content ends before the facts begin. -/
namespace Letterhead
open Line Text Scan

namespace Scan

/-- Lines with a bullet go on with an open list. -/
theorem foldl_step_bulletLines (is acc : List Text) (done : List Block) :
    (is.map fun i => '-' :: ' ' :: i).foldl step { done := done, current := .bullets acc } =
      { done := done, current := .bullets ((is.map trimRight).reverse ++ acc) } := by
  induction is generalizing acc with
  | nil => rfl
  | cons i is ih =>
    have hext : (OpenBlock.bullets acc).extend? ('-' :: ' ' :: i) =
        some (.bullets (i.trimRight :: acc)) := by
      rw [OpenBlock.extend?, kind_bullet]
      · rfl
      all_goals simp
    rw [List.map_cons, List.foldl_cons, step_of_extend? rfl (isFence_cons_of_ne (by decide) _) hext,
      ih]
    simp

/-- A line of text above a list is a paragraph of its own. -/
theorem blocksOf_bulletLines {l m : Text} (hf : isFence l = false) (hl : kind l = .plain m)
    (i : Text) (is : List Text) :
    blocksOf (l :: (i :: is).map fun i => '-' :: ' ' :: i) =
      [.paragraph [m], .bullets ((i :: is).map trimRight)] := by
  have hfirst : step { done := [] } l = { done := [], current := .paragraph [m] } := by
    rw [step_of_done hf, hl]
    rfl
  have hnext : step { done := [], current := .paragraph [m] } ('-' :: ' ' :: i) =
      { done := [.paragraph [m]], current := .bullets [i.trimRight] } := by
    have hnone : (OpenBlock.paragraph [m]).extend? ('-' :: ' ' :: i) = none := by
      rw [OpenBlock.extend?, kind_bullet]
      · rfl
      all_goals simp
    rw [step_of_not_isFence (isFence_cons_of_ne (by decide) _)]
    exact (takeLine_of_extend?_eq_none hnone).trans (by rw [kind_bullet]; rfl)
  rw [blocksOf, List.foldl_cons, start, hfirst, List.map_cons, List.foldl_cons, hnext,
    foldl_step_bulletLines, finish_eq]
  simp [OpenBlock.close]

end Scan

theorem countP_isFence_lines_append (s t : Text) :
    (lines (s ++ '\n' :: t)).countP isFence = s.lines.countP isFence + t.lines.countP isFence := by
  obtain ⟨r, rfl | rfl, h⟩ := exists_lines_append_lineFeed s t
  · rw [h, List.countP_append]
  · rw [h, lines_concat_carriageReturn, List.countP_append, List.countP_append]
    rfl

theorem segment_boundary_append {raw : Text} (hline : IsLine raw) (h : IsBoundary raw) (t : Text) :
    segment (raw ++ '\n' :: t) = (kind raw).emitted ++ segment t := by
  have heven : ([] : List Text).countP isFence % 2 = 0 := rfl
  rw [segment_eq, segment_eq, lines_line_append hline]
  exact blocksOf_append_boundary heven h _

namespace Text

theorem isLine_append {s t : Text} : IsLine (s ++ t) ↔ IsLine s ∧ IsLine t := by
  simp only [IsLine, List.mem_append, not_or]
  exact and_and_and_comm

theorem isLine_cons {c : Char} {t : Text} :
    IsLine (c :: t) ↔ (c ≠ '\n' ∧ c ≠ '\r') ∧ IsLine t := by
  simp only [IsLine, List.mem_cons, not_or, eq_comm (a := c), ne_eq]
  exact and_and_and_comm

end Text

namespace Markdown

theorem segment_endLine {t : Text} (ht : t.lines.countP isFence % 2 = 0) :
    segment (endLine t) = segment t := by
  unfold endLine
  split
  · rfl
  · obtain ⟨r, rfl | rfl, h⟩ := exists_lines_append_lineFeed t []
    · rw [segment_eq, segment_eq, h, lines_nil, blocksOf_append_boundary ht isBoundary_nil]
      simp [Kind.emitted, blocksOf, start, finish_eq, OpenBlock.close]
    · -- The return and the line feed put behind it are one line break.
      rw [segment_eq, segment_eq, h, lines_nil, lines_concat_carriageReturn]

def factItems (title : Text) (b : Branding) (m : Metadata) (now : Instant) : List Text :=
  (if b.organization.isEmpty then [] else ["Organization: ".toList ++ b.organization]) ++
    ["Document: ".toList ++ title, "Author: ".toList ++ m.authorFor b,
      "Date: ".toList ++ now.date.long]

def caption : Text := "*Document Information:*".toList

def factBlocks (title : Text) (b : Branding) (m : Metadata) (now : Instant) : List Block :=
  [.paragraph ["---".toList], .paragraph [caption],
    .bullets ((factItems title b m now).map trimRight)]

theorem facts_eq (title : Text) (b : Branding) (m : Metadata) (now : Instant) :
    facts title b m now =
      [] :: "---".toList :: [] :: caption ::
        (factItems title b m now).map fun i => '-' :: ' ' :: i := by
  unfold facts factItems
  split <;> rfl

theorem isLine_long (d : Date) : IsLine d.long := by
  have hnames : ∀ name ∈ Date.monthNames, IsLine name.toList := by decide
  have hmonth : IsLine d.monthName := by
    unfold Date.monthName
    cases hname : Date.monthNames[d.month - 1]? with
    | none => decide
    | some name => exact hnames name (List.mem_of_getElem? hname)
  have hdigit : ∀ {t : Text}, (∀ c ∈ t, c = '-' ∨ c.isDigit = true) → IsLine t := fun h =>
    ⟨fun hc => absurd (h _ hc) (by decide), fun hc => absurd (h _ hc) (by decide)⟩
  have hday : IsLine (natText d.day) := hdigit fun _ hc => Or.inr (isDigit_of_mem_natText hc)
  have hyear : IsLine (intText d.year) := hdigit fun _ hc => mem_intText hc
  have hcomma : IsLine ", ".toList := by decide
  simp only [Date.long, isLine_append, isLine_cons]
  exact ⟨⟨⟨hmonth, by decide, hday⟩, hcomma⟩, hyear⟩

theorem isLine_authorFor {b : Branding} {m : Metadata} (hb : IsLine b.organization)
    (hm : ∀ a, m.author = some a → IsLine a) : IsLine (m.authorFor b) := by
  unfold Metadata.authorFor
  split
  · next h => exact hm _ h
  · split
    · decide
    · exact hb

theorem isLine_factItems {title : Text} {b : Branding} {m : Metadata} (now : Instant)
    (htitle : IsLine title) (hb : IsLine b.organization) (hm : ∀ a, m.author = some a → IsLine a) :
    ∀ i ∈ factItems title b m now, IsLine i := by
  have hlabel : ∀ {label : String} {t : Text}, IsLine label.toList → IsLine t →
      IsLine (label.toList ++ t) := fun h ht => isLine_append.2 ⟨h, ht⟩
  have horganization : ∀ i ∈ (if b.organization.isEmpty then [] else
      ["Organization: ".toList ++ b.organization]), IsLine i := by
    split
    · simp
    · exact List.forall_mem_singleton.2 (hlabel (by decide) hb)
  refine List.forall_mem_append.2 ⟨horganization, ?_⟩
  simp only [List.forall_mem_cons, List.not_mem_nil, IsEmpty.forall_iff, implies_true, and_true]
  exact ⟨hlabel (by decide) htitle, hlabel (by decide) (isLine_authorFor hb hm),
    hlabel (by decide) (isLine_long _)⟩

/-- The facts are read as a rule, a caption and a list, and open no fence. -/
theorem segment_facts {title : Text} {b : Branding} {m : Metadata} {now : Instant}
    (h : ∀ i ∈ factItems title b m now, IsLine i) :
    (lines (unlines (facts title b m now))).countP isFence = 0 ∧
      segment (unlines (facts title b m now)) = factBlocks title b m now := by
  obtain ⟨i, is, his⟩ : ∃ i is, factItems title b m now = i :: is := by
    unfold factItems
    split <;> exact ⟨_, _, rfl⟩
  have hbullets : ∀ l ∈ (i :: is).map fun i => '-' :: ' ' :: i, IsLine l ∧ isFence l = false := by
    refine List.forall_mem_map.2 fun j hj => ⟨?_, isFence_cons_of_ne (by decide) _⟩
    exact isLine_cons.2 ⟨by decide, isLine_cons.2 ⟨by decide, h j (his ▸ hj)⟩⟩
  have hfacts : ∀ l ∈ facts title b m now, IsLine l ∧ isFence l = false := by
    rw [facts_eq, his]
    iterate 4 refine List.forall_mem_cons.2 ⟨by decide, ?_⟩
    exact hbullets
  have hlines : lines (unlines (facts title b m now)) = facts title b m now :=
    lines_unlines (by simp [facts_eq]) fun l hl => (hfacts l hl).1
  rw [segment_eq, hlines]
  refine ⟨List.countP_eq_zero.2 fun l hl => by simp [(hfacts l hl).2], ?_⟩
  have hrule : blocksOf [[], "---".toList] = [.paragraph ["---".toList]] := by decide
  -- The empty line after the rule ends its paragraph.
  calc
    blocksOf (facts title b m now) = blocksOf ([[], "---".toList] ++
        [] :: caption :: (i :: is).map fun i => '-' :: ' ' :: i) := by rw [facts_eq, his]; rfl
    _ = [.paragraph ["---".toList]] ++
        blocksOf (caption :: (i :: is).map fun i => '-' :: ' ' :: i) := by
      rw [blocksOf_append_boundary rfl isBoundary_nil, hrule]
      rfl
    _ = factBlocks title b m now := by
      rw [blocksOf_bulletLines (m := caption) (by decide) (by decide), factBlocks, his]
      rfl

theorem segment_titled {title body : Text} (htitle : IsLine title)
    (hbody : (lines body).countP isFence % 2 = 0) :
    segment (endLine ("# ".toList ++ title ++ '\n' :: ([] ++ '\n' :: body))) =
      .heading 1 title.trimRight :: segment body := by
  have hhead : "# ".toList ++ title = List.replicate 1 '#' ++ ' ' :: title := rfl
  have hline : IsLine ("# ".toList ++ title) := isLine_append.2 ⟨by decide, htitle⟩
  have hboundary := isBoundary_heading (k := 1) (by decide) title
  have hkind := kind_heading (k := 1) (by decide) title
  rw [← hhead] at hboundary hkind
  have hfences : (lines ("# ".toList ++ title ++ '\n' :: ([] ++ '\n' :: body))).countP isFence =
      (lines body).countP isFence := by
    rw [lines_line_append hline, lines_line_append (by decide),
      List.countP_cons_of_neg (p := isFence) (by rw [hboundary.not_fence]; simp),
      List.countP_cons_of_neg (by simp)]
  rw [segment_endLine (hfences ▸ hbody), segment_boundary_append hline hboundary, hkind,
    segment_boundary_append (by decide) isBoundary_nil]
  rfl

/-- A document as Markdown is the same document when it is read as content: its title is a heading,
the blocks of its content follow, and the facts are blocks of their own after them. -/
theorem segment_document {title content : Text} {b : Branding} {m : Option Metadata}
    (now : Instant) (htitle : IsLine title) (hcontent : content.lines.countP isFence % 2 = 0)
    (horganization : IsLine b.organization)
    (hauthor : ∀ a, (m.getD {}).author = some a → IsLine a) :
    segment (document title content b m now) =
      [.heading 1 title.trimRight] ++ segment content ++
        if b.enabled then factBlocks title b (m.getD {}) now else [] := by
  cases hb : b.enabled with
  | false =>
    have hdocument : document title content b m now =
        endLine ("# ".toList ++ title ++ '\n' :: ([] ++ '\n' :: content)) := by
      simp [document, hb]
    rw [hdocument, segment_titled htitle hcontent]
    simp
  | true =>
    obtain ⟨hfences, hfacts⟩ :=
      segment_facts (isLine_factItems now htitle horganization hauthor)
    obtain ⟨t, ht⟩ : ∃ t, unlines (facts title b (m.getD {}) now) = [] ++ '\n' :: t := by
      rw [facts_eq, unlines_cons_cons]
      exact ⟨_, rfl⟩
    have hdocument : document title content b m now = endLine ("# ".toList ++ title ++
        '\n' :: ([] ++ '\n' :: (content ++ '\n' :: ([] ++ '\n' :: t)))) := by
      rw [← ht, facts_eq]
      simp [document, hb, facts_eq, unlines, List.intercalate_cons_cons]
    rw [ht] at hfences hfacts
    have hbody : (lines (content ++ '\n' :: ([] ++ '\n' :: t))).countP isFence % 2 = 0 := by
      rw [countP_isFence_lines_append, hfences, Nat.add_zero, hcontent]
    rw [hdocument, segment_titled htitle hbody,
      segment_append_boundary hcontent (by decide) isBoundary_nil, ← hfacts,
      segment_boundary_append (by decide) isBoundary_nil]
    simp [Kind.emitted]

def namedBranding : Branding := { enabled := true, organization := "Acme".toList }

/-- An open table at the end of the content does not go on over the rule line of the facts, and the
two break characters between them are one break. -/
theorem segment_document_openTable :
    IsLine "Plan  ".toList ∧ openTable.lines.countP isFence % 2 = 0 ∧
      IsLine namedBranding.organization ∧ IsLine "Sam |".toList ∧
      segment (document "Plan  ".toList openTable namedBranding
          (some { author := some "Sam |".toList }) ⟨1705314600000000⟩) =
        [.heading 1 "Plan".toList, .code "# x".toList, .table [["a".toList, "b".toList]],
          .paragraph ["---".toList], .paragraph ["*Document Information:*".toList],
          .bullets ["Organization: Acme".toList, "Document: Plan".toList, "Author: Sam |".toList,
            "Date: January 15, 2024".toList]] := by
  have htitle : IsLine "Plan  ".toList := by decide
  have hcontent : openTable.lines.countP isFence % 2 = 0 := by decide
  have horganization : IsLine namedBranding.organization := by decide
  have hauthor : IsLine "Sam |".toList := by decide
  refine ⟨htitle, hcontent, horganization, hauthor, ?_⟩
  let m : Metadata := { author := some "Sam |".toList }
  have hall : ∀ a, ((some m).getD {}).author = some a → IsLine a := fun a ha =>
    Option.some.inj ha ▸ hauthor
  rw [segment_document _ htitle hcontent horganization hall]
  decide +kernel

end Markdown
end Letterhead
