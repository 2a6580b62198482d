import Letterhead.Page.Sheet
import Letterhead.Proofs.Markup.Reading
import Letterhead.Proofs.Page.Style
import Mathlib.Logic.Function.Basic

/-! Printed pages. Whatever title and blocks are, a page has the tags of its own markup and no
others, and what stands between the tags of a block is the text that the block shows. -/
namespace Letterhead

def Block.visible : Block → Text
  | heading _ t => Inline.shown t
  | paragraph ls => ls.flatMap Inline.shown
  | bullets items => items.flatMap Inline.shown
  | numbered items => items.flatMap Inline.shown
  | code t => t
  | table rows => rows.flatMap fun row => row.flatMap Inline.shown
  | diagram ls => ['\n'].intercalate ls

namespace Page
open Markup

def tagWords : List String := [
  "!doctype html", "html lang=\"en\"", "head", "meta charset=\"utf-8\" /", "title", "/title",
  "style", "/style", "/head", "body", "div class=\"doc-title\"", "/div", "h1", "/h1", "h2", "/h2",
  "h3", "/h3", "p", "/p", "ul", "/ul", "ol", "/ol", "li", "/li", "pre class=\"code\"",
  "pre class=\"diagram\"", "/pre", "strong", "/strong", "table class=\"data\"", "thead", "tr",
  "th", "/th", "/tr", "/thead", "tbody", "td", "/td", "/tbody", "/table", "/body", "/html"]

def pageTags : List Text := tagWords.map fun w => angled w.toList

theorem areTags_pageTags : AreTags pageTags := by
  have hmap : pageTags = (tagWords.map String.toList).map angled := by
    simp [pageTags]
  rw [hmap]
  exact areTags_map_angled (by decide +kernel)

def elements : List (String × List (String × Text)) := [
  ("html", [("lang", "en".toList)]), ("head", []), ("title", []), ("style", []), ("body", []),
  ("div", [("class", "doc-title".toList)]), ("h1", []), ("h2", []), ("h3", []), ("p", []),
  ("ul", []), ("ol", []), ("li", []), ("pre", [("class", "code".toList)]),
  ("pre", [("class", "diagram".toList)]), ("strong", []), ("table", [("class", "data".toList)]),
  ("thead", []), ("tbody", []), ("tr", []), ("th", []), ("td", [])]

theorem mem_pageTags : ∀ e ∈ elements, writePiece (.opening e.1 e.2) ∈ pageTags ∧
    writePiece (.closing e.1) ∈ pageTags := by
  decide +kernel

theorem forall_mem_element {P : Piece → Prop} {tag : String} {attributes : List (String × Text)}
    (ho : P (.opening tag attributes)) (hc : P (.closing tag)) {m : Markup} (h : ∀ p ∈ m, P p) :
    ∀ p ∈ element tag attributes m, P p := by
  intro p hp
  rw [element, List.mem_append, List.mem_cons, List.mem_singleton] at hp
  rcases hp with (rfl | hp) | rfl
  · exact ho
  · exact h p hp
  · exact hc

theorem inner_element {tag : String} {attributes : List (String × Text)}
    (he : (tag, attributes) ∈ elements) {m : Markup} (h : ∀ p ∈ m, Inner pageTags p) :
    ∀ p ∈ element tag attributes m, Inner pageTags p :=
  forall_mem_element (.tag (mem_pageTags _ he).1) (.tag (mem_pageTags _ he).2) h

theorem drawn_element {tag : String} {attributes : List (String × Text)}
    (he : (tag, attributes) ∈ elements) {m : Markup} (h : ∀ p ∈ m, Drawn pageTags p) :
    ∀ p ∈ element tag attributes m, Drawn pageTags p :=
  forall_mem_element (.inner (.tag (mem_pageTags _ he).1)) (.inner (.tag (mem_pageTags _ he).2)) h

theorem inner_text (t : Text) : ∀ p ∈ [Piece.text t], Inner pageTags p := by
  intro p hp
  rw [List.mem_singleton.1 hp]
  exact .text t

theorem inner_flatMap {α : Type} {f : α → Markup} (h : ∀ x, ∀ p ∈ f x, Inner pageTags p)
    (xs : List α) : ∀ p ∈ xs.flatMap f, Inner pageTags p := by
  intro p hp
  obtain ⟨x, -, hp⟩ := List.mem_flatMap.1 hp
  exact h x p hp

theorem inner_inlineMarkup (t : Text) : ∀ p ∈ inlineMarkup t, Inner pageTags p := by
  refine inner_flatMap (fun r => ?_) (Inline.runs t)
  unfold runMarkup
  split
  · exact inner_element (by simp [elements]) (inner_text r.text)
  · exact inner_text r.text

theorem inner_entries {tag : String} (he : (tag, []) ∈ elements) (ts : List Text) :
    ∀ p ∈ entries tag ts, Inner pageTags p :=
  inner_flatMap (fun t => inner_element he (inner_inlineMarkup t)) ts

theorem inner_tableMarkup (head : List Text) (body : List (List Text)) :
    ∀ p ∈ tableMarkup head body, Inner pageTags p := by
  have hhead : ∀ p ∈ element "thead" [] (element "tr" [] (entries "th" head)), Inner pageTags p :=
    inner_element (by simp [elements])
      (inner_element (by simp [elements]) (inner_entries (by simp [elements]) head))
  have hrow : ∀ row, ∀ p ∈ element "tr" [] (entries "td" row), Inner pageTags p := fun row =>
    inner_element (by simp [elements]) (inner_entries (by simp [elements]) row)
  have hbody : ∀ p ∈ element "tbody" []
      (body.flatMap fun row => element "tr" [] (entries "td" row)), Inner pageTags p :=
    inner_element (by simp [elements]) (inner_flatMap hrow body)
  exact inner_element (by simp [elements]) (List.forall_mem_append.2 ⟨hhead, hbody⟩)

theorem headingTag_mem_elements (level : Int) :
    (headingTag (Block.clampLevel level), []) ∈ elements := by
  have hlevel := Block.clampLevel_mem level
  obtain h | h | h : Block.clampLevel level = 1 ∨ Block.clampLevel level = 2 ∨
      Block.clampLevel level = 3 := by omega
  all_goals
    rw [h]
    decide +kernel

theorem inner_blockMarkup (b : Block) : ∀ p ∈ blockMarkup b, Inner pageTags p := by
  cases b with
  | heading level t => exact inner_element (headingTag_mem_elements level) (inner_text _)
  | paragraph ls => exact inner_entries (by simp [elements]) ls
  | bullets items =>
    exact inner_element (by simp [elements]) (inner_entries (by simp [elements]) items)
  | numbered items =>
    exact inner_element (by simp [elements]) (inner_entries (by simp [elements]) items)
  | code t => exact inner_element (by simp [elements]) (inner_text t)
  | diagram ls => exact inner_element (by simp [elements]) (inner_text _)
  | table rows =>
    cases rows with
    | nil => exact fun p hp => by cases hp
    | cons head body => exact inner_tableMarkup head body

theorem shown_append (m n : Markup) : shown (m ++ n) = shown m ++ shown n := List.flatMap_append

theorem shown_flatMap {α : Type} {f : α → Markup} {g : α → Text} (h : ∀ x, shown (f x) = g x)
    (xs : List α) : shown (xs.flatMap f) = xs.flatMap g := by
  induction xs with
  | nil => rfl
  | cons x xs ih => rw [List.flatMap_cons, List.flatMap_cons, shown_append, h, ih]

theorem shown_element (tag : String) (attributes : List (String × Text)) (m : Markup) :
    shown (element tag attributes m) = shown m := by
  simp [element, shown]

theorem shown_text (t : Text) : shown [.text t] = t := by
  simp [shown]

theorem shown_inlineMarkup (t : Text) : shown (inlineMarkup t) = Inline.shown t := by
  refine shown_flatMap (fun r => ?_) (Inline.runs t)
  unfold runMarkup
  split
  · rw [shown_element, shown_text]
  · rw [shown_text]

theorem shown_entries (tag : String) (ts : List Text) :
    shown (entries tag ts) = ts.flatMap Inline.shown :=
  shown_flatMap (fun t => by rw [shown_element, shown_inlineMarkup]) ts

theorem shown_blockMarkup (b : Block) : shown (blockMarkup b) = b.visible := by
  cases b with
  | heading level t => rw [blockMarkup, shown_element, shown_text, Block.visible]
  | paragraph ls => rw [blockMarkup, shown_entries, Block.visible]
  | bullets items => rw [blockMarkup, shown_element, shown_entries, Block.visible]
  | numbered items => rw [blockMarkup, shown_element, shown_entries, Block.visible]
  | code t => rw [blockMarkup, verbatim, shown_element, shown_text, Block.visible]
  | diagram ls => rw [blockMarkup, verbatim, shown_element, shown_text, Block.visible]
  | table rows =>
    cases rows with
    | nil => rfl
    | cons head body =>
      have hrow : ∀ row, shown (element "tr" [] (entries "td" row)) = row.flatMap Inline.shown :=
        fun row => by rw [shown_element, shown_entries]
      rw [blockMarkup, tableMarkup, shown_element, shown_append, shown_element, shown_element,
        shown_entries, shown_element, shown_flatMap hrow, Block.visible, List.flatMap_cons]

theorem drawn_gap (n : Nat) : Drawn pageTags (gap n) := by
  have hnot : ∀ c, c ≠ '\n' → c ≠ ' ' → c ∉ '\n' :: List.replicate n ' ' := by
    intro c hbreak hspace hm
    rcases List.mem_cons.1 hm with hm | hm
    · exact hbreak hm
    · exact hspace (List.eq_of_mem_replicate hm)
  exact .literal ⟨hnot _ (by decide) (by decide), hnot _ (by decide) (by decide)⟩

theorem drawn_bodyMarkup (blocks : List Block) : ∀ p ∈ bodyMarkup blocks, Drawn pageTags p := by
  intro p hp
  rcases Text.mem_of_mem_intercalate hp with hp | ⟨m, hm, hp⟩
  · rw [List.mem_singleton.1 hp]
    exact drawn_gap 0
  · obtain ⟨b, -, rfl⟩ := List.mem_map.1 hm
    exact .inner (inner_blockMarkup b p hp)

theorem drawn_sheet (blocks : List Block) (b : Branding) (title : Text) :
    ∀ p ∈ sheet blocks b title, Drawn pageTags p := by
  have htag : ∀ {p}, writePiece p ∈ pageTags → Drawn pageTags p := fun h => .inner (.tag h)
  have htext : ∀ p ∈ [Piece.text title], Drawn pageTags p := fun p hp =>
    .inner (inner_text title p hp)
  have hstyle : ∀ p ∈ [Piece.literal (styleText b.primary (Font.base b.font))],
      Drawn pageTags p := by
    intro p hp
    rw [List.mem_singleton.1 hp]
    exact .literal (isPlain_styleText b.primary (Font.base b.font))
  have hhtml := mem_pageTags ("html", [("lang", "en".toList)]) (by simp [elements])
  have hhead := mem_pageTags ("head", []) (by simp [elements])
  have hbody := mem_pageTags ("body", []) (by simp [elements])
  -- The title is drawn twice, the style sheet once; between them and the body stand bare tags.
  simp only [sheet, List.forall_mem_append]
  refine ⟨⟨⟨⟨⟨⟨⟨⟨?_, drawn_element (by simp [elements]) htext⟩, ?_⟩,
    drawn_element (by simp [elements]) hstyle⟩, ?_⟩, drawn_element (by simp [elements]) htext⟩, ?_⟩,
    drawn_bodyMarkup blocks⟩, ?_⟩
  · simp only [List.forall_mem_cons, List.not_mem_nil, IsEmpty.forall_iff, implies_true, and_true]
    exact ⟨htag (by decide +kernel), drawn_gap 0, htag hhtml.1, drawn_gap 0, htag hhead.1,
      drawn_gap 2, htag (by decide +kernel), drawn_gap 2⟩
  · exact List.forall_mem_singleton.2 (drawn_gap 2)
  · simp only [List.forall_mem_cons, List.not_mem_nil, IsEmpty.forall_iff, implies_true, and_true]
    exact ⟨drawn_gap 0, htag hhead.2, drawn_gap 0, htag hbody.1, drawn_gap 2⟩
  · exact List.forall_mem_singleton.2 (drawn_gap 2)
  · simp only [List.forall_mem_cons, List.not_mem_nil, IsEmpty.forall_iff, implies_true, and_true]
    exact ⟨drawn_gap 0, htag hbody.2, drawn_gap 0, htag hhtml.2⟩

theorem write_intercalate (p : Piece) (ms : List Markup) :
    write ([p].intercalate ms) = (writePiece p).intercalate (ms.map write) := by
  induction ms with
  | nil => rfl
  | cons m ms ih =>
    cases ms with
    | nil => simp
    | cons n ms =>
      have hp : write [p] = writePiece p := List.flatMap_singleton ..
      rw [List.intercalate_cons_cons, List.map_cons, List.map_cons, List.intercalate_cons_cons,
        write_append, write_append, ih, List.map_cons, hp]

/-- A page has its title in its head and again before its blocks, and its blocks one after the other;
the rest is the same for every title and all blocks. -/
theorem exists_write_sheet (b : Branding) : ∃ front middle back : Text, ∀ blocks title,
    write (sheet blocks b title) = front ++ write (element "title" [] [.text title]) ++ middle ++
      write (element "div" [("class", "doc-title".toList)] [.text title]) ++ "\n  ".toList ++
      ['\n'].intercalate (blocks.map fun block => write (blockMarkup block)) ++ back := by
  -- The head up to the title, the style sheet with the tags around it, the tags at the end.
  refine ⟨write [.literal "<!doctype html>".toList, gap 0, .opening "html" [("lang", "en".toList)],
      gap 0, .opening "head" [], gap 2, .void "meta" [("charset", "utf-8".toList)], gap 2],
    write ([gap 2] ++ element "style" [] [.literal (styleText b.primary (Font.base b.font))] ++
      [gap 0, .closing "head", gap 0, .opening "body" [], gap 2]),
    write [gap 0, .closing "body", gap 0, .closing "html"], fun blocks title => ?_⟩
  have hgap : write [gap 2] = "\n  ".toList := by decide
  have hbody : write (bodyMarkup blocks) =
      ['\n'].intercalate (blocks.map fun block => write (blockMarkup block)) := by
    rw [bodyMarkup, write_intercalate, List.map_map]
    rfl
  simp only [sheet, write_append, hbody, hgap, List.append_assoc]

theorem reading_title {tag : String} {attributes : List (String × Text)}
    (he : (tag, attributes) ∈ elements) (title : Text) :
    unescape (dropTags (write (element tag attributes [.text title]))) = title := by
  rw [unescape_dropTags_write areTags_pageTags (inner_element he (inner_text title)),
    shown_element, shown_text]

/-- A page has its title in its head and again before its blocks, where it is read as it is, and its
blocks one after the other, with the same text around them for every title and all blocks. On it
every angle starts a tag of the page, its tags are those of its markup, and every ampersand starts a
reference; a block without its tags reads as the text that it shows; of a branding nothing but six
digits and one of three families reaches the page, in its style sheet; and the digits are those of
the value that was given. -/
theorem page_faithful :
    (∀ b, ∃ front middle back : Text, ∀ blocks title,
      write (sheet blocks b title) = front ++ write (element "title" [] [.text title]) ++ middle ++
        write (element "div" [("class", "doc-title".toList)] [.text title]) ++ "\n  ".toList ++
        ['\n'].intercalate (blocks.map fun block => write (blockMarkup block)) ++ back) ∧
    (∀ title, unescape (dropTags (write (element "title" [] [.text title]))) = title ∧
      unescape (dropTags (write (element "div" [("class", "doc-title".toList)] [.text title]))) =
        title) ∧
    (∀ blocks b title, Text.EachStarts '<' pageTags (write (sheet blocks b title)) ∧
      tags (write (sheet blocks b title)) =
        ((sheet blocks b title).map writePiece).filter (fun w => w ∈ pageTags) ∧
      Text.EachStarts '&' references (write (sheet blocks b title))) ∧
    (∀ block, unescape (dropTags (write (blockMarkup block))) = block.visible) ∧
    (∀ blocks title, (fun b => sheet blocks b title).FactorsThrough
      fun b => styleText b.primary (Font.base b.font)) ∧
    (∀ b : Branding, ∃ ds, ∃ f : Font.Base,
      styleText b.primary (Font.base b.font) = css (String.ofList ('#' :: ds)) f.stack ∧
        ds.length = 6 ∧ ds ⊆ Colour.hexDigits) ∧
    ∀ v, (Colour.ofJson v).text = Colour.normalize Colour.defaultText v := by
  refine ⟨exists_write_sheet, fun title => ⟨reading_title (by simp [elements]) title,
    reading_title (by simp [elements]) title⟩, fun blocks b title => ?_, fun block => ?_,
    fun blocks title b c h => ?_, fun b => ?_, Colour.text_ofJson⟩
  · have hdrawn := drawn_sheet blocks b title
    exact ⟨eachStarts_write areTags_pageTags hdrawn, tags_write areTags_pageTags hdrawn,
      eachStarts_references_write areTags_pageTags hdrawn⟩
  · rw [unescape_dropTags_write areTags_pageTags (inner_blockMarkup block), shown_blockMarkup]
  · have hstyle : styleText b.primary (Font.base b.font) =
        styleText c.primary (Font.base c.font) := h
    simp only [sheet, hstyle]
  · obtain ⟨ds, hstyle, hlength, hds⟩ := styleText_eq b.primary (Font.base b.font)
    exact ⟨ds, Font.base b.font, hstyle, hlength, hds⟩

end Page
end Letterhead
