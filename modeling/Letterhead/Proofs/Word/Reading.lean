import Letterhead.Content.Inline
import Letterhead.Word.Element
import Mathlib.Data.List.Basic

/-! Word elements read back from XML: the style of a paragraph and its runs, the paragraphs of a cell,
the cells of a row and the rows of a table. -/
namespace Letterhead

namespace Xml

def isNamed (name : String) : Xml → Bool
  | element n _ _ => n = name
  | text _ => false

def children : Xml → List Xml
  | element _ _ xs => xs
  | text _ => []

def elements (name : String) (x : Xml) : List Xml := x.children.filter (isNamed name)

def within (outer inner : String) (x : Xml) : List Xml :=
  (x.elements outer).flatMap (elements inner)

def value? : Xml → Option Text
  | element _ attributes _ => attributes.lookup "w:val"
  | text _ => none

end Xml

namespace Word
open Xml

def pieceText (x : Xml) : Text :=
  if x.isNamed "w:tab" then ['\t']
  else if x.isNamed "w:br" then ['\n']
  else if x.isNamed "w:t" then
    x.children.flatMap fun
      | .text t => t
      | .element _ _ _ => []
  else []

def runText (x : Xml) : Text := x.children.flatMap pieceText

def isBold (x : Xml) : Bool := (within "w:rPr" "w:b" x).any fun y => y.value? != some ['0']

def runsOf (x : Xml) : List Run := (x.elements "w:r").map fun y => ⟨runText y, isBold y⟩

def sizesOf (x : Xml) : List (List (Option Text)) :=
  (x.elements "w:r").map fun y => (within "w:rPr" "w:sz" y).map value?

def styleOf (x : Xml) : List (Option Text) := (within "w:pPr" "w:pStyle" x).map value?

def isHead (x : Xml) : Bool := !(within "w:trPr" "w:tblHeader" x).isEmpty

/-! What is written is read -/

theorem pieceText_text (attributes : List (String × Text)) (t : Text) :
    pieceText (.element "w:t" attributes [.text t]) = t := by
  simp [pieceText, isNamed, children]

theorem flatMap_pieceText_stretch (t : Text) : (stretch t).flatMap pieceText = t := by
  cases t with
  | nil => rfl
  | cons c t =>
    rw [stretch, if_neg (by simp)]
    exact (List.append_nil _).trans (pieceText_text _ (c :: t))

theorem pieceText_breakXml {c : Char} (h : isBreak c = true) (hc : c ≠ '\r') :
    pieceText (breakXml c) = [c] := by
  simp only [isBreak, Bool.or_eq_true, beq_iff_eq] at h
  rcases h with (rfl | rfl) | rfl
  · rfl
  · rfl
  · exact absurd rfl hc

theorem flatMap_pieceText_textXmlFrom {t : Text} (h : '\r' ∉ t) (before : Text) :
    (textXmlFrom before t).flatMap pieceText = before.reverse ++ t := by
  induction t generalizing before with
  | nil => simp [textXmlFrom, flatMap_pieceText_stretch]
  | cons c t ih =>
    obtain ⟨hc, ht⟩ := not_or.1 (mt List.mem_cons.2 h)
    rw [textXmlFrom]
    split
    · next hbreak =>
      simp [flatMap_pieceText_stretch, pieceText_breakXml hbreak (Ne.symm hc), ih ht]
    · simp [ih ht]

/-- The content of a run holds nothing but text and breaks. -/
theorem not_isNamed_of_mem_textXmlFrom {name : String} (hname : name ∉ ["w:t", "w:tab", "w:br"])
    {before t : Text} {x : Xml} (hx : x ∈ textXmlFrom before t) : x.isNamed name = false := by
  simp only [List.mem_cons, List.not_mem_nil, not_or] at hname
  obtain ⟨ht, htab, hbr, -⟩ := hname
  have hstretch : ∀ u, x ∈ stretch u → x.isNamed name = false := by
    intro u hu
    rw [stretch] at hu
    split at hu
    · cases hu
    · rw [List.mem_singleton.1 hu]
      simp [isNamed, Ne.symm ht]
  induction t generalizing before with
  | nil => exact hstretch _ hx
  | cons c t ih =>
    rw [textXmlFrom] at hx
    split at hx
    · rcases List.mem_append.1 hx with hx | hx
      · exact hstretch _ hx
      · rcases List.mem_cons.1 hx with rfl | hx
        · rw [breakXml]
          split
          · simp [group, isNamed, Ne.symm htab]
          · simp [group, isNamed, Ne.symm hbr]
        · exact ih hx
    · exact ih hx

theorem filter_textXml {name : String} (hname : name ∉ ["w:t", "w:tab", "w:br"]) (t : Text) :
    (textXml t).filter (isNamed name) = [] :=
  List.filter_eq_nil_iff.2 fun x hx => by simp [not_isNamed_of_mem_textXmlFrom hname hx]

theorem runText_runXml (s : RunStyle) {t : Text} (h : '\r' ∉ t) : runText (runXml s t) = t := by
  have hlook : s.xml.flatMap pieceText = [] := by
    rw [RunStyle.xml]
    split <;> rfl
  have htext : (textXml t).flatMap pieceText = t := flatMap_pieceText_textXmlFrom h []
  rw [runText, runXml, group, children, List.flatMap_append, hlook, htext, List.nil_append]

/-- What is said of the look of a run. -/
theorem within_runXml (inner : String) (s : RunStyle) (t : Text) :
    within "w:rPr" inner (runXml s t) =
      (s.xml.flatMap children).filter (isNamed inner) := by
  have htext : (textXml t).filter (isNamed "w:rPr") = [] := filter_textXml (by decide) t
  rw [within, Xml.elements, runXml, group, children, List.filter_append, htext, List.append_nil,
    RunStyle.xml]
  split
  · rfl
  · simp [isNamed, group, children, elements]

theorem isBold_runXml (s : RunStyle) (t : Text) : isBold (runXml s t) = (s.bold == some true) := by
  obtain ⟨font, bold, colour, size⟩ := s
  rw [isBold, within_runXml]
  rcases bold with _ | _ | _ <;> cases font <;> cases colour <;> cases size <;> rfl

theorem size_runXml (s : RunStyle) (t : Text) :
    (within "w:rPr" "w:sz" (runXml s t)).map value? =
      (s.size.map fun n => some (natText n)).toList := by
  obtain ⟨font, bold, colour, size⟩ := s
  rw [within_runXml]
  rcases bold with _ | _ | _ <;> cases font <;> cases colour <;> cases size <;> rfl

section Filter
variable {α : Type} {name : String} {f : α → Xml} {xs : List α}

theorem filter_map_eq_self (h : ∀ x ∈ xs, (f x).isNamed name = true) :
    (xs.map f).filter (isNamed name) = xs.map f :=
  List.filter_eq_self.2 (List.forall_mem_map.2 h)

theorem filter_map_eq_nil (h : ∀ x ∈ xs, (f x).isNamed name = false) :
    (xs.map f).filter (isNamed name) = [] :=
  List.filter_eq_nil_iff.2 (List.forall_mem_map.2 fun x hx => by simp [h x hx])

end Filter

def shownRun : Content → Run
  | .run s t => ⟨t, s.bold == some true⟩
  | _ => ⟨[], false⟩

def Paragraph.HoldsRuns (p : Paragraph) : Prop :=
  ∀ c ∈ p.content, ∃ s t, c = .run s t ∧ '\r' ∉ t

section Paragraph
variable {p : Paragraph}

theorem elements_xml_paragraph (h : p.HoldsRuns) :
    p.xml.elements "w:r" = p.content.map Content.xml := by
  have hruns : ∀ c ∈ p.content, c.xml.isNamed "w:r" = true := fun c hc => by
    obtain ⟨s, t, rfl, -⟩ := h c hc
    rfl
  rw [Xml.elements, Paragraph.xml, group, children, List.filter_append, filter_map_eq_self hruns]
  split <;> rfl

theorem runsOf_xml (h : p.HoldsRuns) : runsOf p.xml = p.content.map shownRun := by
  rw [runsOf, elements_xml_paragraph h, List.map_map]
  refine List.map_congr_left fun c hc => ?_
  obtain ⟨s, t, rfl, ht⟩ := h c hc
  simp [Content.xml, runText_runXml s ht, isBold_runXml, shownRun]

theorem styleOf_xml (h : p.HoldsRuns) :
    styleOf p.xml = (p.style.map fun s => some s.toList).toList := by
  have hruns : ∀ c ∈ p.content, c.xml.isNamed "w:pPr" = false := fun c hc => by
    obtain ⟨s, t, rfl, -⟩ := h c hc
    rfl
  obtain ⟨style, border, spacing, alignment, content⟩ := p
  rw [styleOf, within, Xml.elements, Paragraph.xml, group, children, List.filter_append,
    filter_map_eq_nil hruns, List.append_nil]
  cases style <;> cases border <;> cases spacing <;> cases alignment <;> rfl

end Paragraph

theorem elements_xml_cell (c : Cell) : c.xml.elements "w:p" = c.paragraphs.map Paragraph.xml :=
  filter_map_eq_self fun _ _ => rfl

theorem elements_xml_row (r : Row) : r.xml.elements "w:tc" = r.cells.map Cell.xml := by
  rw [Xml.elements, Row.xml, group, children, List.filter_append,
    filter_map_eq_self fun _ _ => rfl]
  cases r.head <;> rfl

theorem isHead_xml (r : Row) : isHead r.xml = r.head := by
  rw [isHead, within, Xml.elements, Row.xml, group, children, List.filter_append,
    filter_map_eq_nil fun _ _ => rfl]
  cases r.head <;> rfl

theorem elements_xml_table (t : Table) : t.xml.elements "w:tr" = t.rows.map Row.xml :=
  filter_map_eq_self fun _ _ => rfl

end Word
end Letterhead
