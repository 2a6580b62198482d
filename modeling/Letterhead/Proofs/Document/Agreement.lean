import Letterhead.Proofs.Content.Invariant
import Letterhead.Proofs.Page.Entries
import Letterhead.Proofs.Word.Characters
import Letterhead.Proofs.Word.Entries

/-! Agreement of formats. Whatever text is laid out, its blocks have the same entries on a printed page
and in a Word document, but for what Word adds to tables and verbatim lines. -/
namespace Letterhead

/-- Of a text whose characters XML can hold each block is laid out alike. Its elements in a Word
document do not fail; its markup on a page, read back as it is written, holds the entries of the
block; and its elements, read back from XML, hold the same entries as Word shows them. -/
theorem formats_agree (th : Word.Theme) (t : Text) (ht : t.all Word.isAllowed = true) :
    ∀ b ∈ segment t,
      (∀ e ∈ Word.ofBlock th b, ∀ p ∈ e.paragraphs, Word.checkParagraph p = .ok ()) ∧
      Page.entries? (Markup.write (Page.blockMarkup b)) = some (Entry.ofBlock b) ∧
      Word.entries? ((Word.ofBlock th b).map Word.Element.xml) =
        some ((Entry.ofBlock b).map Entry.inWord) := by
  intro b hb
  have hwell := wellFormed_segment t b hb
  refine ⟨fun e he p hp => ?_, Page.entries?_write hwell, Word.entries?_ofBlock th hwell⟩
  have hallowed : ∀ c ∈ b.payload, Word.isAllowed c = true := fun c hc => by
    rcases mem_of_mem_payload_segment hb hc with hc | rfl
    · exact List.all_eq_true.1 ht c hc
    · decide
  exact Word.checkParagraph_of_spells
    (Word.spells_ofBlock (by decide) th hallowed e he p hp)

def raggedText : Text := "| A |\n|---|\n| *x* | **y** |".toList

/-- In Word the head of the table is bold and has a second cell, and nothing else differs. -/
theorem formats_agree_raggedText :
    ∃ b ∈ segment raggedText,
      Page.entries? (Markup.write (Page.blockMarkup b)) =
        some [.table [[⟨['A'], false⟩]] [[[⟨['x'], false⟩], [⟨['y'], true⟩]]]] ∧
      Word.entries? ((Word.ofBlock ⟨"Calibri".toList, "003366".toList⟩ b).map Word.Element.xml) =
        some [.table [[⟨['A'], true⟩], []] [[[⟨['x'], false⟩], [⟨['y'], true⟩]]]] := by
  have hmem : Block.table [[['A']], ["*x*".toList, "**y**".toList]] ∈ segment raggedText := by
    decide +kernel
  obtain ⟨-, hpage, hword⟩ := formats_agree ⟨"Calibri".toList, "003366".toList⟩ raggedText
    (by decide +kernel) _ hmem
  have hentry : Entry.ofBlock (.table [[['A']], ["*x*".toList, "**y**".toList]]) =
      [.table [[⟨['A'], false⟩]] [[[⟨['x'], false⟩], [⟨['y'], true⟩]]]] := by
    decide +kernel
  rw [hentry] at hpage hword
  exact ⟨_, hmem, hpage, hword⟩

end Letterhead
