import Letterhead.Proofs.Content.Inline
import Letterhead.Proofs.Content.Substance
import Letterhead.Proofs.Failure
import Letterhead.Proofs.Text.Lines
import Letterhead.Word.Document

/-! Characters of a Word document. The elements of a block spell nothing but characters of the block
and spaces, so that a block whose characters XML can hold is laid out without failure. -/
namespace Letterhead.Word

def Paragraph.Holds (Q : Content → Prop) (p : Paragraph) : Prop := ∀ c ∈ p.content, Q c

def Paragraph.Spells (S : Char → Prop) (p : Paragraph) : Prop :=
  ∀ c ∈ p.content, ∀ x ∈ c.text, S x

theorem forall_mem_fillUp {P : Text → Prop} {ts : List Text} (h : ∀ t ∈ ts, P t) (hnil : P [])
    (count : Nat) : ∀ t ∈ fillUp count ts, P t := by
  refine List.forall_mem_append.2 ⟨h, fun t ht => ?_⟩
  rw [List.eq_of_mem_replicate ht]
  exact hnil

/-- In each way in which blocks set a text, what it is set as has a property if the characters of the
text have another. -/
structure Sets (th : Theme) (S : Char → Prop) (Q : Content → Prop) : Prop where
  body : ∀ r : Run, (∀ x ∈ r.text, S x) → Q (bodyRun th.font r)
  head : ∀ r : Run, (∀ x ∈ r.text, S x) → Q (headRun th.font r)
  code : ∀ size l, (∀ x ∈ l, S x) → (codeLine size l).Holds Q
  plain : ∀ t : Text, (∀ x ∈ t, S x) → Q (.run {} t)

section Blocks
variable {th : Theme} {S : Char → Prop} {Q : Content → Prop}

theorem holds_of_content {p : Paragraph} {t : Text} {f : Run → Content}
    (hp : p.content = (Inline.runs t).map f) (hf : ∀ r, (∀ x ∈ r.text, S x) → Q (f r))
    (ht : ∀ x ∈ t, S x) : p.Holds Q := by
  intro c hc
  rw [hp] at hc
  obtain ⟨r, hr, rfl⟩ := List.mem_map.1 hc
  exact hf r fun x hx => ht x ((Inline.of_mem_runs hr).2 hx)

theorem holds_of_content_nil {p : Paragraph} (hp : p.content = []) : p.Holds Q := by
  intro c hc
  rw [hp] at hc
  cases hc

theorem holds_spacer (after : Nat) : ∀ p ∈ (spacer after).paragraphs, p.Holds Q :=
  List.forall_mem_singleton.2 (holds_of_content_nil rfl)

theorem holds_verbatim (h : Sets th S Q) (size : Nat) {lines : List Text}
    (hlines : ∀ l ∈ lines, ∀ x ∈ l, S x) :
    ∀ e ∈ verbatim size lines, ∀ p ∈ e.paragraphs, p.Holds Q := by
  have hcell : ∀ p ∈ cellParagraphs (lines.map (codeLine size)), p.Holds Q := by
    rw [cellParagraphs]
    split
    · exact List.forall_mem_singleton.2 (holds_of_content_nil rfl)
    · exact List.forall_mem_map.2 fun l hl => h.code size l (hlines l hl)
  rw [verbatim, List.forall_mem_cons, List.forall_mem_singleton]
  exact ⟨by simpa [Element.paragraphs] using hcell, holds_spacer 80⟩

theorem holds_row (h : Sets th S Q) (width count : Nat) (head : Bool) {ts : List Text}
    (hts : ∀ t ∈ ts, ∀ x ∈ t, S x) :
    ∀ c ∈ (row th width count head ts).cells, ∀ p ∈ c.paragraphs, p.Holds Q := by
  refine List.forall_mem_map.2 fun t ht => List.forall_mem_singleton.2 ?_
  have hchars : ∀ x ∈ t, S x := forall_mem_fillUp hts (by simp) count t ht
  cases head with
  | true => exact holds_of_content rfl h.head hchars
  | false => exact holds_of_content rfl h.body hchars

theorem holds_table (h : Sets th S Q) {first : List Text} {rest : List (List Text)}
    (hrows : ∀ ts ∈ first :: rest, ∀ t ∈ ts, ∀ x ∈ t, S x) :
    ∀ e ∈ table th first rest, ∀ p ∈ e.paragraphs, p.Holds Q := by
  obtain ⟨hfirst, hrest⟩ := List.forall_mem_cons.1 hrows
  rw [table, List.forall_mem_cons, List.forall_mem_singleton]
  refine ⟨?_, holds_spacer 80⟩
  intro p hp
  obtain ⟨r, hr, hcells⟩ := List.mem_flatMap.1 hp
  obtain ⟨c, hc, hp⟩ := List.mem_flatMap.1 hcells
  clear hcells
  rcases List.mem_cons.1 hr with rfl | hr
  · exact holds_row h _ _ true hfirst c hc p hp
  · obtain ⟨ts, hts, rfl⟩ := List.mem_map.1 hr
    exact holds_row h _ _ false (hrest ts hts) c hc p hp

theorem holds_items (h : Sets th S Q) (style : String) {ts : List Text}
    (hts : ∀ t ∈ ts, ∀ x ∈ t, S x) :
    ∀ e ∈ items th style ts, ∀ p ∈ e.paragraphs, p.Holds Q :=
  List.forall_mem_map.2 fun t ht => List.forall_mem_singleton.2
    (holds_of_content rfl h.body (hts t ht))

theorem forall_mem_flatten {ts : List Text} (h : ∀ x ∈ ts.flatten, S x) :
    ∀ t ∈ ts, ∀ x ∈ t, S x :=
  fun t ht x hx => h x (List.mem_flatten.2 ⟨t, ht, hx⟩)

/-- The elements of a block hold texts of characters of the block. -/
theorem holds_ofBlock (h : Sets th S Q) {b : Block} (hb : ∀ c ∈ b.payload, S c) :
    ∀ e ∈ ofBlock th b, ∀ p ∈ e.paragraphs, p.Holds Q := by
  cases b with
  | heading level t =>
    refine List.forall_mem_singleton.2 (List.forall_mem_singleton.2 fun c hc => ?_)
    simp only at hc
    split at hc
    · cases hc
    · rw [List.mem_singleton.1 hc]
      exact h.plain _ fun x hx => hb x (Inline.shown_subset t hx)
  | paragraph ls =>
    exact List.forall_mem_map.2 fun l hl => List.forall_mem_singleton.2
      (holds_of_content rfl h.body (forall_mem_flatten hb l hl))
  | bullets ts => exact holds_items h _ (forall_mem_flatten hb)
  | numbered ts => exact holds_items h _ (forall_mem_flatten hb)
  | code t =>
    exact holds_verbatim h _ fun l hl x hx => hb x (Text.mem_of_mem_splitOn hl hx)
  | diagram ls => exact holds_verbatim h _ (forall_mem_flatten hb)
  | table rows =>
    cases rows with
    | nil => simp [ofBlock]
    | cons first rest =>
      refine holds_table h fun ts hts => forall_mem_flatten fun x hx => hb x ?_
      rw [Block.payload, List.flatten_flatten]
      exact List.mem_flatten.2 ⟨ts.flatten, List.mem_map.2 ⟨ts, hts, rfl⟩, hx⟩

end Blocks

section Characters
variable {S : Char → Prop}

theorem spells_of_content_nil {p : Paragraph} (hp : p.content = []) : p.Spells S :=
  holds_of_content_nil hp

theorem spells_spacer (after : Nat) : ∀ p ∈ (spacer after).paragraphs, p.Spells S :=
  holds_spacer after

theorem spells_codeLine (hspace : S ' ') (size : Nat) {line : Text} (h : ∀ x ∈ line, S x) :
    (codeLine size line).Spells S := by
  intro c hc x hx
  rw [List.mem_singleton.1 hc] at hx
  simp only [Content.text] at hx
  split at hx
  · rw [List.mem_singleton.1 hx]
    exact hspace
  · exact h x hx

theorem sets_text (hspace : S ' ') (th : Theme) : Sets th S fun c => ∀ x ∈ c.text, S x where
  body _ h := h
  head _ h := h
  code size _ h := spells_codeLine hspace size h
  plain _ h := h

/-- The elements of a block hold characters of the block, and spaces. -/
theorem spells_ofBlock (hspace : S ' ') (th : Theme) {b : Block} (hb : ∀ c ∈ b.payload, S c) :
    ∀ e ∈ ofBlock th b, ∀ p ∈ e.paragraphs, p.Spells S :=
  holds_ofBlock (sets_text hspace th) hb

end Characters

def IsAllowedText (t : Text) : Prop := ∀ c ∈ t, isAllowed c = true

theorem checkText_eq_ok_iff {t : Text} : checkText t = .ok () ↔ IsAllowedText t := by
  unfold checkText
  split
  · next h => exact iff_of_true rfl (List.all_eq_true.1 h)
  · next h => exact iff_of_false nofun fun hall => h (List.all_eq_true.2 hall)

theorem checkParagraph_eq_ok_iff {p : Paragraph} :
    checkParagraph p = .ok () ↔ p.Spells fun c => isAllowed c = true := by
  unfold checkParagraph
  rw [forM_eq_ok_iff]
  simp only [checkText_eq_ok_iff]
  rfl

theorem checkParagraph_of_spells {p : Paragraph} (h : p.Spells fun c => isAllowed c = true) :
    checkParagraph p = .ok () :=
  checkParagraph_eq_ok_iff.2 h

end Letterhead.Word
