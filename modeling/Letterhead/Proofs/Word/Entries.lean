import Letterhead.Proofs.Content.WellFormed
import Letterhead.Proofs.Document.Entry
import Letterhead.Proofs.Word.Characters
import Letterhead.Proofs.Word.Reading
import Mathlib.Data.List.Fold

/-! Entries of a Word document. The elements of a block, read back from XML, hold the entries of the
block as Word shows them. -/
namespace Letterhead.Word
open Xml

/-! Reading -/

def makers : List (Text × (List Run → Entry)) :=
  ([1, 2, 3].map fun level =>
    ((headingStyle level).toList, fun rs => .heading level (rs.flatMap Run.text))) ++
  [("ListBullet".toList, .bullet), ("ListNumber".toList, .numbered)]

/-- The entries of a paragraph. One without style and runs only leaves space. -/
def paragraph? (x : Xml) : Option (List Entry) :=
  match styleOf x with
  | [] => some (if (runsOf x).isEmpty then [] else [.line (runsOf x)])
  | [some style] => (makers.lookup style).map fun make => [make (runsOf x)]
  | _ => none

def cell? (x : Xml) : Option (List Run) :=
  match x.elements "w:p" with
  | [p] => some (runsOf p)
  | _ => none

def cells? (x : Xml) : Option (List (List Run)) := (x.elements "w:tc").mapM cell?

def haveSize (size : Nat) (ps : List Xml) : Bool :=
  ps.all fun p => sizesOf p = [[some (natText size)]]

/-- Verbatim lines; the size of their runs tells code from diagrams. -/
def verbatim? (ps : List Xml) : Option Entry :=
  let lines := ps.map fun p => (runsOf p).flatMap Run.text
  if haveSize 20 ps then some (.code lines)
  else if haveSize 18 ps then some (.diagram lines)
  else none

/-- The entry of a table. One without head row is the single cell that verbatim lines stand in. -/
def table? (x : Xml) : Option Entry :=
  match x.elements "w:tr" with
  | [] => none
  | first :: rest =>
    if isHead first then
      match cells? first, rest.mapM cells? with
      | some head, some body => some (.table head body)
      | _, _ => none
    else
      match rest, first.elements "w:tc" with
      | [], [c] => verbatim? (c.elements "w:p")
      | _, _ => none

def entriesOf? (x : Xml) : Option (List Entry) :=
  if x.isNamed "w:p" then paragraph? x
  else if x.isNamed "w:tbl" then (table? x).map fun e => [e]
  else none

def entries? (xs : List Xml) : Option (List Entry) := (xs.mapM entriesOf?).map List.flatten

/-! Paragraphs -/

section Paragraph
variable {p : Paragraph} {t font : Text}

/-- Runs of inline text, each in a look of its own, are read as these runs. -/
theorem holdsRuns_of_content {f : Run → RunStyle}
    (hp : p.content = (Inline.runs t).map fun r => .run (f r) r.text) (ht : '\r' ∉ t) :
    p.HoldsRuns ∧
      runsOf p.xml = (Inline.runs t).map fun r => ⟨r.text, (f r).bold == some true⟩ := by
  have hruns : p.HoldsRuns := by
    intro c hc
    rw [hp] at hc
    obtain ⟨r, hr, rfl⟩ := List.mem_map.1 hc
    exact ⟨_, _, rfl, fun h => ht ((Inline.of_mem_runs hr).2 h)⟩
  refine ⟨hruns, ?_⟩
  rw [runsOf_xml hruns, hp, List.map_map]
  rfl

theorem holdsRuns_bodyRuns (hp : p.content = (Inline.runs t).map (bodyRun font))
    (ht : '\r' ∉ t) : p.HoldsRuns ∧ runsOf p.xml = Inline.runs t := by
  have h := holdsRuns_of_content
    (f := fun r => { font := some font, bold := some r.bold, size := some 24 }) hp ht
  simpa using h

theorem holdsRuns_headRuns (hp : p.content = (Inline.runs t).map (headRun font))
    (ht : '\r' ∉ t) : p.HoldsRuns ∧ runsOf p.xml = (Inline.runs t).map Entry.embolden :=
  holdsRuns_of_content
    (f := fun _ => { font := some font, bold := some true, colour := some white, size := some 24 })
    hp ht

theorem entriesOf?_paragraph (p : Paragraph) :
    entriesOf? (Element.paragraph p).xml = paragraph? p.xml := rfl

theorem entriesOf?_styled {style : String} {make : List Run → Entry} (h : p.HoldsRuns)
    (hstyle : p.style = some style) (hmake : makers.lookup style.toList = some make) :
    entriesOf? (Element.paragraph p).xml = some [make (runsOf p.xml)] := by
  rw [entriesOf?_paragraph, paragraph?, styleOf_xml h, hstyle]
  simp [hmake]

theorem entriesOf?_plain (h : p.HoldsRuns) (hstyle : p.style = none) :
    entriesOf? (Element.paragraph p).xml =
      some (if (runsOf p.xml).isEmpty then [] else [.line (runsOf p.xml)]) := by
  rw [entriesOf?_paragraph, paragraph?, styleOf_xml h, hstyle]
  rfl

theorem entriesOf?_spacer (after : Nat) : entriesOf? (spacer after).xml = some [] := by
  have h : Paragraph.HoldsRuns { spacing := some { after := some after } } := by
    intro c hc
    cases hc
  rw [spacer, entriesOf?_plain h rfl, runsOf_xml h]
  rfl

/-- A heading is told by its style, even one without text. -/
theorem entriesOf?_heading {level : Nat} (hlevel : 1 ≤ level ∧ level ≤ 3) (ht : '\r' ∉ t) :
    entriesOf? (heading level t).xml = some [.heading level t] := by
  have hmake : makers.lookup (headingStyle level).toList =
      some fun rs => .heading level (rs.flatMap Run.text) := by
    obtain rfl | rfl | rfl : level = 1 ∨ level = 2 ∨ level = 3 := by omega
    all_goals rfl
  have hruns : Paragraph.HoldsRuns
      { style := some (headingStyle level)
        content := if t.isEmpty then [] else [.run {} t] } := by
    intro c hc
    cases t with
    | nil => cases hc
    | cons d t => exact ⟨{}, _, List.mem_singleton.1 hc, ht⟩
  rw [heading, entriesOf?_styled hruns rfl hmake, runsOf_xml hruns]
  cases t <;> simp [shownRun]

/-- Elements that are one entry each are read one by one. -/
theorem entries?_map {α : Type} {f : α → Element} {g : α → Entry} {xs : List α}
    (h : ∀ x ∈ xs, entriesOf? (f x).xml = some [g x]) :
    entries? ((xs.map f).map Element.xml) = some (xs.map g) := by
  rw [entries?, List.map_map]
  exact (congrArg _ (mapM_map h)).trans (congrArg some (flatten_map_singleton g xs))

theorem entries?_items (th : Theme) {style : String} {make : List Run → Entry}
    (hmake : makers.lookup style.toList = some make) {ts : List Text} (hts : ∀ t ∈ ts, '\r' ∉ t) :
    entries? ((items th style ts).map Element.xml) =
      some (ts.map fun t => make (Inline.runs t)) := by
  have hitem : ∀ t ∈ ts, entriesOf? (Element.paragraph
      { style := some style, content := bodyRuns th t }).xml = some [make (Inline.runs t)] := by
    intro t ht
    obtain ⟨hruns, hread⟩ := holdsRuns_bodyRuns
      (p := { style := some style, content := bodyRuns th t }) rfl (hts t ht)
    rw [entriesOf?_styled hruns rfl hmake, hread]
  exact entries?_map hitem

end Paragraph

/-! Tables -/

/-- Rows are filled up the same way before and after their texts are cut into runs. -/
theorem map_fillUp (count : Nat) (row : List Text) :
    (fillUp count row).map Inline.runs = Entry.padTo count (row.map Inline.runs) := by
  simp [fillUp, Entry.padTo]

theorem columns_eq_widest (rows : List (List Text)) :
    columns rows = Entry.widest (rows.map fun row => row.map Inline.runs) := by
  have hlengths : (rows.map fun row => row.map Inline.runs).map List.length =
      rows.map List.length := by
    simp [Function.comp_def]
  rw [columns, Entry.widest, hlengths, ← List.foldl_map (g := max)]
  exact List.foldl_eq_foldr ..

theorem cells?_row (th : Theme) (width count : Nat) (head : Bool) {ts : List Text}
    (hts : ∀ t ∈ ts, '\r' ∉ t) :
    cells? (row th width count head ts).xml =
      some ((Entry.padTo count (ts.map Inline.runs)).map fun rs =>
        if head then rs.map Entry.embolden else rs) := by
  have hfilled : ∀ t ∈ fillUp count ts, '\r' ∉ t := forall_mem_fillUp hts (by simp) count
  have hcell : ∀ t ∈ fillUp count ts, cell? (cell th width head t).xml =
      some (if head then (Inline.runs t).map Entry.embolden else Inline.runs t) := by
    intro t ht
    rw [cell?, elements_xml_cell]
    cases head with
    | true => exact congrArg some (holdsRuns_headRuns rfl (hfilled t ht)).2
    | false => exact congrArg some (holdsRuns_bodyRuns rfl (hfilled t ht)).2
  rw [cells?, elements_xml_row, row, List.map_map, ← map_fillUp, List.map_map]
  exact mapM_map hcell

theorem entries?_spaced {t : Table} {e : Entry} (h : table? t.xml = some e) :
    entries? ([.table t, spacer 80].map Element.xml) = some [e] := by
  have ht : entriesOf? (Element.table t).xml = some [e] := by
    have htable : entriesOf? (Element.table t).xml = (table? t.xml).map fun e => [e] := rfl
    rw [htable, h, Option.map_some]
  simp [entries?, ht, entriesOf?_spacer]

theorem table?_xml_of_head {t : Table} {first : Row} {rest : List Row}
    (ht : t.rows = first :: rest) (hfirst : first.head = true) {head : List (List Run)}
    {body : List (List (List Run))} (hhead : cells? first.xml = some head)
    (hbody : (rest.map Row.xml).mapM cells? = some body) :
    table? t.xml = some (.table head body) := by
  rw [table?, elements_xml_table, ht]
  simp only [List.map_cons, isHead_xml, hfirst, hhead, hbody, if_true]

/-- A table is read as its rows, filled up to the widest one. -/
theorem entries?_table (th : Theme) {first : List Text} {rest : List (List Text)}
    (h : ∀ row ∈ first :: rest, ∀ t ∈ row, '\r' ∉ t) :
    entries? ((table th first rest).map Element.xml) =
      some ((Entry.ofBlock (.table (first :: rest))).map Entry.inWord) := by
  obtain ⟨hfirst, hrest⟩ := List.forall_mem_cons.1 h
  have hcount := columns_eq_widest (first :: rest)
  rw [List.map_cons] at hcount
  generalize hn : columns (first :: rest) = count at hcount
  have hhead := cells?_row th (textWidth / count) count true hfirst
  have hbody : ((rest.map (row th (textWidth / count) count false)).map Row.xml).mapM cells? =
      some (rest.map fun ts => Entry.padTo count (ts.map Inline.runs)) := by
    rw [List.map_map]
    exact mapM_map fun ts hts => by
      simpa using cells?_row th (textWidth / count) count false (hrest ts hts)
  -- Both sides are as wide as the widest row, whichever row that is.
  rw [table, hn]
  refine entries?_spaced ((table?_xml_of_head rfl rfl hhead hbody).trans ?_)
  simp [Entry.inWord, ← hcount]

/-! Verbatim lines -/

section Verbatim
variable {size : Nat} {line : Text} {lines : List Text}

theorem holdsRuns_codeLine (h : '\r' ∉ line) : (codeLine size line).HoldsRuns := by
  intro c hc
  refine ⟨_, _, List.mem_singleton.1 hc, ?_⟩
  split
  · decide
  · exact h

theorem runsOf_codeLine (h : '\r' ∉ line) :
    runsOf (codeLine size line).xml = [⟨Entry.spaced line, false⟩] := by
  rw [runsOf_xml (holdsRuns_codeLine h)]
  rfl

theorem sizesOf_codeLine (h : '\r' ∉ line) :
    sizesOf (codeLine size line).xml = [[some (natText size)]] := by
  rw [sizesOf, elements_xml_paragraph (holdsRuns_codeLine h)]
  simp [codeLine, Content.xml, size_runXml]

theorem haveSize_codeLines (hne : lines ≠ []) (h : ∀ l ∈ lines, '\r' ∉ l) (n : Nat) :
    haveSize n (lines.map fun l => (codeLine size l).xml) = true ↔ natText size = natText n := by
  have hline : ∀ l ∈ lines, sizesOf (codeLine size l).xml = [[some (natText n)]] ↔
      natText size = natText n := fun l hl => by
    simp [sizesOf_codeLine (h l hl)]
  rw [haveSize, List.all_eq_true, List.forall_mem_map]
  simp only [decide_eq_true_eq]
  obtain ⟨l, ls, rfl⟩ := List.exists_cons_of_ne_nil hne
  exact ⟨fun hall => (hline l (by simp)).1 (hall l (by simp)),
    fun hsize m hm => (hline m hm).2 hsize⟩

theorem lines_codeLines (h : ∀ l ∈ lines, '\r' ∉ l) :
    (lines.map fun l => (codeLine size l).xml).map (fun p => (runsOf p).flatMap Run.text) =
      lines.map Entry.spaced := by
  rw [List.map_map]
  refine List.map_congr_left fun l hl => ?_
  simp [runsOf_codeLine (h l hl)]

/-- Verbatim lines are read by the size that they are set in. -/
theorem entries?_verbatim (hne : lines ≠ []) {e : Entry}
    (he : verbatim? (lines.map fun l => (codeLine size l).xml) = some e) :
    entries? ((verbatim size lines).map Element.xml) = some [e] := by
  refine entries?_spaced ?_
  have hcell : cellParagraphs (lines.map (codeLine size)) = lines.map (codeLine size) :=
    if_neg (by simpa using hne)
  rw [table?, elements_xml_table]
  simp [isHead_xml, elements_xml_row, elements_xml_cell, hcell, ← he, Function.comp_def]

end Verbatim

/-- The elements of a block are read as its entries. -/
theorem entries?_ofBlock (th : Theme) {b : Block} (hb : b.WellFormed) :
    entries? ((ofBlock th b).map Element.xml) = some ((Entry.ofBlock b).map Entry.inWord) := by
  cases b with
  | heading level t =>
    have hline : '\r' ∉ Inline.shown t := fun h => hb.2.1.2 (Inline.shown_subset t h)
    have hentry := entriesOf?_heading (Block.clampLevel_mem level) hline
    simp [ofBlock, entries?, hentry, Entry.ofBlock, Entry.inWord]
  | paragraph ls =>
    have hline : ∀ l ∈ ls, entriesOf? (Element.paragraph
        { spacing := some { after := some 200 }, content := bodyRuns th l }).xml =
          some [.line (Inline.runs l)] := by
      intro l hl
      have hplain := hb.2 l hl
      obtain ⟨hruns, hread⟩ := holdsRuns_bodyRuns
        (p := { spacing := some { after := some 200 }, content := bodyRuns th l }) rfl
        hplain.trimmed.1.2
      -- Without runs the line would be read as space.
      have hne : Inline.runs l ≠ [] := mt Inline.runs_eq_nil_iff.1 hplain.ne_nil
      rw [entriesOf?_plain hruns rfl, hread, if_neg (by simpa using hne)]
    rw [ofBlock, entries?_map hline, Entry.ofBlock, List.map_map]
    rfl
  | bullets ts =>
    have hts : ∀ t ∈ ts, '\r' ∉ t := fun t ht => (hb.2 t ht).1.2
    rw [ofBlock, entries?_items th rfl hts, Entry.ofBlock, List.map_map]
    rfl
  | numbered ts =>
    have hts : ∀ t ∈ ts, '\r' ∉ t := fun t ht => (hb.2 t ht).1.2
    rw [ofBlock, entries?_items th rfl hts, Entry.ofBlock, List.map_map]
    rfl
  | code t =>
    have hlines : ∀ l ∈ t.splitOn '\n', '\r' ∉ l := fun l hl h =>
      hb.1 (Text.mem_of_mem_splitOn hl h)
    refine entries?_verbatim (List.splitOn_ne_nil _ _) ?_
    rw [verbatim?, lines_codeLines hlines,
      if_pos ((haveSize_codeLines (List.splitOn_ne_nil _ _) hlines 20).2 rfl)]
    rfl
  | diagram ls =>
    have hlines : ∀ l ∈ ls, '\r' ∉ l := fun l hl => (hb.isLine_of_mem_diagram hl).2
    refine entries?_verbatim hb.diagram_ne_nil ?_
    have hsize : ∀ n, haveSize n (ls.map fun l => (codeLine 18 l).xml) = true ↔
        natText 18 = natText n := haveSize_codeLines hb.diagram_ne_nil hlines
    rw [verbatim?, lines_codeLines hlines, if_neg fun h => absurd ((hsize 20).1 h) (by decide),
      if_pos ((hsize 18).2 rfl)]
    rfl
  | table rows =>
    cases rows with
    | nil => rfl
    | cons first rest =>
      exact entries?_table th fun row hrow t ht => ((hb.1.2 row hrow).2 t ht).1.2

end Letterhead.Word
