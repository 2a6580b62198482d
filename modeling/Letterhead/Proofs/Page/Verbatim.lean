import Letterhead.Proofs.Content.WellFormed
import Letterhead.Proofs.Markup.Visible
import Letterhead.Proofs.Text.Cut
import Letterhead.Page.Body

/-! Verbatim blocks in a browser. A line feed directly behind the tag of a verbatim element is not
shown, so code that starts with an empty line loses it; drawings never start with one. -/
namespace Letterhead
open Line Text Scan Markup

def Block.verbatim? : Block → Option Text
  | .code t => some t
  | .diagram ls => some (unlines ls)
  | _ => none

namespace Page

def skipBreak : Text → Text
  | '\n' :: t => t
  | t => t

/-- What a browser shows of an element: what stands behind its tag, read, and without a line feed
directly behind the tag if the element is a verbatim one. -/
def displayed (html : Text) : Text :=
  let (tag, rest) := html.cutAt '>'
  reading (if tag.startsWith "<pre".toList then skipBreak rest else rest)

theorem skipBreak_of_head? {t : Text} (h : t.head? ≠ some '\n') : skipBreak t = t := by
  rw [skipBreak]
  rintro u rfl
  exact h rfl

theorem skipBreak_eq_iff {t : Text} : skipBreak t = t ↔ t.head? ≠ some '\n' := by
  refine ⟨fun h hbreak => ?_, skipBreak_of_head?⟩
  obtain ⟨u, rfl⟩ := List.head?_eq_some_iff.1 hbreak
  have hlength := congrArg List.length h
  simp [skipBreak] at hlength

theorem head?_escape_append {t : Text} (w : Text) (h : t.head? ≠ some '\n')
    (hw : w.head? ≠ some '\n') : (escape t ++ w).head? ≠ some '\n' := by
  cases t with
  | nil => exact hw
  | cons c t =>
    rw [escape, List.flatMap_cons]
    rcases escapeChar_cases c with ⟨he, -, -⟩ | ⟨r, -, he, -⟩
    · simpa [he] using h
    · simp [he]

theorem skipBreak_escape_append (t : Text) {w : Text} (hw : w.head? ≠ some '\n') :
    skipBreak (escape t ++ w) = escape (skipBreak t) ++ w := by
  by_cases h : t.head? = some '\n'
  · obtain ⟨u, rfl⟩ := List.head?_eq_some_iff.1 h
    rfl
  · rw [skipBreak_of_head? h, skipBreak_of_head? (head?_escape_append w h hw)]

theorem displayed_verbatim {kind : String} (hkind : '>' ∉ kind.toList) (t : Text) :
    displayed (write (verbatim kind t)) = skipBreak t := by
  let words := " class=\"".toList ++ (kind.toList ++ ['"'])
  have htag : '>' ∉ "<pre".toList ++ words := by simpa [words] using hkind
  have hwrite : write (verbatim kind t) =
      "<pre".toList ++ words ++ '>' :: (escape t ++ "</pre>".toList) := by
    simp [verbatim, element, write, writePiece, writeAttribute, words]
  have hverbatim : startsWith ("<pre".toList ++ words) "<pre".toList = true :=
    List.isPrefixOf_iff_prefix.2 ⟨words, rfl⟩
  have hend : dropTags "</pre>".toList = [] := by decide +kernel
  simp only [displayed, hwrite, cutAt_append_stop htag, hverbatim, if_true]
  rw [skipBreak_escape_append t (by decide +kernel), reading,
    dropTags_append_of_not_mem (not_mem_escape _), hend, unescape_escape_append]
  exact List.append_nil _

theorem displayed_write {b : Block} {t : Text} (h : b.verbatim? = some t) :
    displayed (write (blockMarkup b)) = skipBreak t := by
  cases b with
  | code u =>
    cases h
    exact displayed_verbatim (by decide +kernel) t
  | diagram ls =>
    cases h
    exact displayed_verbatim (by decide +kernel) (unlines ls)
  | _ => cases h

theorem head?_unlines_iff {ls : List Text} (hls : ∀ l ∈ ls, '\n' ∉ l) :
    (unlines ls).head? = some '\n' ↔ ∃ l rest, ls = [] :: l :: rest := by
  have hhead : ∀ l ∈ ls, l.head? ≠ some '\n' := fun l hl h => hls l hl (List.mem_of_mem_head? h)
  cases ls with
  | nil => simp
  | cons l ls =>
    have hl := hhead l (List.mem_cons_self ..)
    cases ls with
    | nil => simpa using hl
    | cons m ls =>
      cases l with
      | nil => simp [unlines_cons_cons]
      | cons c l => simpa [unlines_cons_cons] using hl

/-- A drawing starts with a drawn line. -/
theorem head?_unlines_diagram {ls : List Text} (h : (Block.diagram ls).WellFormed) :
    (unlines ls).head? ≠ some '\n' := by
  intro hbreak
  obtain ⟨l, rest, rfl⟩ := (head?_unlines_iff fun l hl => (h.isLine_of_mem_diagram hl).1).1 hbreak
  obtain ⟨-, ⟨m, hm, hdrawn⟩, -⟩ := h
  obtain rfl := Option.some.inj hm
  exact absurd hdrawn (by decide)

/-- A browser shows the text of a verbatim block as it is. -/
def ShowsText (b : Block) : Prop :=
  ∀ t, b.verbatim? = some t → displayed (write (blockMarkup b)) = t

theorem showsText_code_iff (c : Text) : ShowsText (.code c) ↔ c.head? ≠ some '\n' := by
  have hcode : displayed (write (blockMarkup (.code c))) = skipBreak c := displayed_write rfl
  rw [← skipBreak_eq_iff, ← hcode]
  exact ⟨fun h => h c rfl, fun h t ht => by cases ht; exact h⟩

/-- Drawings are shown as they are. Code is shown without a line feed at its start, and so as it is
exactly if it does not start with one; all blocks of a text are, exactly if no fence in it has an empty
line behind it and then a further line of its code. -/
theorem showsText_segment_iff (t : Text) :
    (∀ ls, .diagram ls ∈ segment t → displayed (write (blockMarkup (.diagram ls))) = unlines ls) ∧
    (∀ c, displayed (write (blockMarkup (.code c))) = skipBreak c ∧
      (displayed (write (blockMarkup (.code c))) = c ↔ c.head? ≠ some '\n')) ∧
    ((∀ b ∈ segment t, ShowsText b) ↔ ∀ (i : Nat) ls, (t.lines.splitOnP isFence)[i]? = some ls →
      i % 2 = 1 → ∀ l rest, ls ≠ [] :: l :: rest) := by
  have hdiagram : ∀ ls, .diagram ls ∈ segment t → ShowsText (.diagram ls) := by
    intro ls hls u hu
    cases hu
    have hhead := head?_unlines_diagram (wellFormed_segment t _ hls)
    rw [displayed_write rfl, skipBreak_of_head? hhead]
  have hchunk : ∀ (i : Nat) (ls : List Text), (t.lines.splitOnP isFence)[i]? = some ls →
      ∀ l ∈ ls, '\n' ∉ l := by
    intro i ls hls l hl
    have hmem := mem_of_mem_splitOnP (List.mem_of_getElem? hls) hl
    exact (isLine_of_mem_lines hmem.1).1
  refine ⟨fun ls hls => hdiagram ls hls _ rfl, fun c => ⟨displayed_write rfl, ?_⟩, ?_⟩
  · rw [displayed_write rfl, skipBreak_eq_iff]
  constructor
  · rintro hall i ls hls hodd l rest heq
    have hcode : .code (unlines ls) ∈ segment t := code_mem_segment_iff.2 ⟨i, ls, hls, hodd, rfl⟩
    have hhead := (head?_unlines_iff (hchunk i ls hls)).2 ⟨l, rest, heq⟩
    exact (showsText_code_iff _).1 (hall _ hcode) hhead
  · intro hfences b hb
    cases b with
    | code c =>
      obtain ⟨i, ls, hls, hodd, rfl⟩ := code_mem_segment_iff.1 hb
      refine (showsText_code_iff _).2 fun hhead => ?_
      obtain ⟨l, rest, heq⟩ := (head?_unlines_iff (hchunk i ls hls)).1 hhead
      exact hfences i ls hls hodd l rest heq
    | diagram ls => exact hdiagram ls hb
    | _ => intro u hu; cases hu

def blankCode : Text := "\x60\x60\x60\n\nx\n\x60\x60\x60".toList

/-- The empty line at the start of the code is not shown. -/
theorem displayed_blankCode :
    segment blankCode = [.code "\nx".toList] ∧
      displayed (write (blockMarkup (.code "\nx".toList))) = "x".toList ∧
        displayed (write (blockMarkup (.code "\nx".toList))) ≠ "\nx".toList := by
  decide +kernel

end Page
end Letterhead
