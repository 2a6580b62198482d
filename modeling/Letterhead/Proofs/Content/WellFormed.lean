import Letterhead.Proofs.Content.Invariant

/-! Well-formed blocks: what a block may hold. Segmentation gives no others, since every line that
continues or closes a block leaves it well formed. -/
namespace Letterhead
open Line Text Scan

def Text.IsTrimmedLine (t : Text) : Prop := IsLine t ∧ trimRight t = t

instance (t : Text) : Decidable (IsTrimmedLine t) := inferInstanceAs (Decidable (_ ∧ _))

namespace Line

/-- A line of a paragraph: no mark tells it from plain text. -/
structure IsPlain (l : Text) : Prop where
  trimmed : IsTrimmedLine l
  ne_nil : l ≠ []
  not_fence : isFence l = false
  not_drawn : isDiagram l = false
  not_row : isRow l = false
  not_heading : heading? l = none
  not_bullet : bullet? l = none
  not_numbered : numbered? l = none

theorem isPlain_iff {l : Text} :
    IsPlain l ↔ IsTrimmedLine l ∧ l ≠ [] ∧ isFence l = false ∧ isDiagram l = false ∧
      isRow l = false ∧ heading? l = none ∧ bullet? l = none ∧ numbered? l = none :=
  ⟨fun ⟨h₁, h₂, h₃, h₄, h₅, h₆, h₇, h₈⟩ => ⟨h₁, h₂, h₃, h₄, h₅, h₆, h₇, h₈⟩,
    fun ⟨h₁, h₂, h₃, h₄, h₅, h₆, h₇, h₈⟩ => ⟨h₁, h₂, h₃, h₄, h₅, h₆, h₇, h₈⟩⟩

instance (l : Text) : Decidable (IsPlain l) := decidable_of_iff _ isPlain_iff.symm

def IsDrawn (l : Text) : Prop := IsTrimmedLine l ∧ isDiagram l = true

instance (l : Text) : Decidable (IsDrawn l) := inferInstanceAs (Decidable (_ ∧ _))

def IsCell (c : Text) : Prop := IsLine c ∧ trim c = c ∧ '|' ∉ c

instance (c : Text) : Decidable (IsCell c) := inferInstanceAs (Decidable (_ ∧ _))

def ofCells (cs : List Text) : Text :=
  '|' :: (['|'].intercalate (cs.map fun c => ' ' :: (c ++ [' '])) ++ ['|'])

end Line

/-- What a block may hold. A fence inside code would have ended it, a row after the first that looks
like a separator would have been skipped, and blank lines stand only inside a drawing. -/
def Block.WellFormed : Block → Prop
  | .heading k t => (1 ≤ k ∧ k ≤ 3) ∧ IsTrimmedLine t
  | .paragraph ls => ls ≠ [] ∧ ∀ l ∈ ls, IsPlain l
  | .bullets is => is ≠ [] ∧ ∀ i ∈ is, IsTrimmedLine i
  | .numbered is => is ≠ [] ∧ ∀ i ∈ is, IsTrimmedLine i
  | .code t => '\r' ∉ t ∧ ∀ l ∈ t.splitOn '\n', isFence l = false
  | .table rows =>
    (rows ≠ [] ∧ ∀ r ∈ rows, r ≠ [] ∧ ∀ c ∈ r, IsCell c) ∧
      ∀ r ∈ rows.tail, isSeparator (ofCells r) = false
  | .diagram ls =>
    (∀ l ∈ ls, l = [] ∨ IsDrawn l) ∧ (∃ l ∈ ls.head?, IsDrawn l) ∧ ∃ l ∈ ls.getLast?, IsDrawn l

instance (b : Block) : Decidable b.WellFormed :=
  match b with
  | .heading _ _ => inferInstanceAs (Decidable ((_ ∧ _) ∧ _))
  | .paragraph _ | .bullets _ | .numbered _ => inferInstanceAs (Decidable (_ ∧ _))
  | .code _ => inferInstanceAs (Decidable (_ ∧ _))
  | .table _ => inferInstanceAs (Decidable ((_ ∧ _) ∧ _))
  | .diagram _ => inferInstanceAs (Decidable (_ ∧ _ ∧ _))

theorem Block.WellFormed.isLine_of_mem_diagram {ls : List Text} (h : (Block.diagram ls).WellFormed)
    {l : Text} (hl : l ∈ ls) : IsLine l := by
  rcases h.1 l hl with rfl | hdrawn
  · exact ⟨by simp, by simp⟩
  · exact hdrawn.1.1

theorem Block.WellFormed.diagram_ne_nil {ls : List Text} (h : (Block.diagram ls).WellFormed) :
    ls ≠ [] := by
  rintro rfl
  obtain ⟨-, ⟨l, hl, -⟩, -⟩ := h
  cases hl

namespace Line

theorem isTrimmedLine_trimRight {l : Text} (h : IsLine l) : IsTrimmedLine l.trimRight :=
  ⟨h.of_subset fun _ => mem_of_mem_trimRight, trimRight_trimRight l⟩

theorem isCell_of_mem_cells {l c : Text} (hl : IsLine l) (hc : c ∈ cells l) : IsCell c := by
  have hsubset : ∀ x ∈ c, x ∈ l := fun x => mem_of_mem_cells hc
  obtain ⟨p, hp, rfl⟩ := List.mem_map.1 hc
  exact ⟨hl.of_subset hsubset, trim_trim p,
    fun hx => not_mem_of_mem_splitOn hp (mem_of_mem_trim hx)⟩

theorem cells_ne_nil (l : Text) : cells l ≠ [] := by
  simp [cells, List.splitOn_ne_nil]

theorem filter_ofCells {p : Char → Bool} (hp : ∀ c, isBlank c = true → p c = false)
    (hbar : p '|' = false) (cs : List Text) :
    (ofCells cs).filter p = cs.flatten.filter p := by
  have hsep : ∀ x ∈ ['|'], p x = false := by simpa using hbar
  have hspace : p ' ' = false := hp ' ' (by decide)
  rw [ofCells, List.filter_cons_of_neg (by simp [hbar]), List.filter_append,
    filter_intercalate hsep, List.filter_cons_of_neg (by simp [hbar]), List.filter_nil,
    List.append_nil]
  induction cs with
  | nil => rfl
  | cons c cs ih =>
    rw [List.map_cons, List.flatten_cons, List.flatten_cons, List.filter_append,
      List.filter_append, ih]
    simp [hspace]

/-- A row is a separator line exactly when its cells written anew are one. -/
theorem isSeparator_ofCells_cells {l : Text} (h : isRow l = true) :
    isSeparator (ofCells (cells l)) = isSeparator l := by
  have hbar : isTelling '|' = false := by decide
  rw [Bool.eq_iff_iff, isSeparator_iff, isSeparator_iff,
    filter_ofCells (fun _ => not_isTelling_of_isBlank) hbar,
    filter_cells (fun _ => not_isTelling_of_isBlank) hbar h]

theorem isPlain_of_reads {raw l : Text} (hline : IsLine raw) (hfence : isFence raw = false)
    (h : Reads raw (.plain l)) : IsPlain l := by
  cases h with
  | plain hne hd hr hh hb hn =>
    exact ⟨isTrimmedLine_trimRight hline, hne, isFence_trimRight hfence, hd,
      by rw [isRow_trimRight, hr], heading?_trimRight_eq_none hh, bullet?_trimRight_eq_none hb,
      numbered?_trimRight_eq_none hn⟩

theorem isTrimmedLine_of_reads_bullet {raw i : Text} (hline : IsLine raw)
    (h : Reads raw (.bullet i)) : IsTrimmedLine i := by
  cases h with
  | bullet h =>
    refine isTrimmedLine_trimRight (hline.of_subset fun c hc => ?_)
    rcases h with rfl | rfl <;> simp [hc]

theorem isTrimmedLine_of_reads_numbered {raw i : Text} (hline : IsLine raw)
    (h : Reads raw (.numbered i)) : IsTrimmedLine i := by
  cases h with
  | numbered _ _ h =>
    exact isTrimmedLine_trimRight (hline.of_subset fun c hc => by rw [h]; simp [hc])

end Line

def WellFormed (bs : List Block) : Prop := ∀ b ∈ bs, b.WellFormed

theorem wellFormed_nil : WellFormed [] := by simp [WellFormed]

theorem wellFormed_singleton {b : Block} : WellFormed [b] ↔ b.WellFormed := by
  simp [WellFormed]

theorem wellFormed_kind {raw : Text} (hline : IsLine raw) (hfence : isFence raw = false) :
    WellFormed ((kind raw).emitted ++ (kind raw).opened.close) := by
  have hreads := reads_kind raw
  generalize kind raw = k at hreads
  cases hk : k with
  | drawn l =>
    subst hk
    cases hreads with
    | drawn h =>
      have hd : IsDrawn raw.trimRight := ⟨isTrimmedLine_trimRight hline, h⟩
      refine wellFormed_singleton.2 ⟨by simpa using Or.inr hd, ?_, ?_⟩ <;> exact ⟨_, rfl, hd⟩
  | row cs =>
    subst hk
    cases hreads with
    | row h =>
      refine wellFormed_singleton.2 ⟨⟨by simp, ?_⟩, by simp⟩
      simpa using ⟨cells_ne_nil raw, fun c hc => isCell_of_mem_cells hline hc⟩
  | heading k t =>
    subst hk
    cases hreads with
    | heading hk h =>
      refine wellFormed_singleton.2 ⟨by omega, isTrimmedLine_trimRight ?_⟩
      exact hline.of_subset fun c hc => by rw [h]; simp [hc]
  | bullet i =>
    subst hk
    refine wellFormed_singleton.2 ⟨by simp, ?_⟩
    simpa using isTrimmedLine_of_reads_bullet hline hreads
  | numbered i =>
    subst hk
    refine wellFormed_singleton.2 ⟨by simp, ?_⟩
    simpa using isTrimmedLine_of_reads_numbered hline hreads
  | plain l =>
    subst hk
    refine wellFormed_singleton.2 ⟨by simp, ?_⟩
    simpa using isPlain_of_reads hline hfence hreads
  | blank => exact wellFormed_nil

/-- A drawing may go on with a drawn line after any number of blank ones. -/
theorem wellFormed_diagram_concat {ls : List Text} {l : Text} (n : Nat)
    (h : (Block.diagram ls).WellFormed) (hl : IsDrawn l) :
    (Block.diagram (ls ++ List.replicate n [] ++ [l])).WellFormed := by
  obtain ⟨hall, ⟨f, hhead, hf⟩, -⟩ := h
  rw [Option.mem_def] at hhead
  refine ⟨fun m hm => ?_, ⟨f, by simp [hhead], hf⟩, l, by simp, hl⟩
  simp only [List.mem_append, List.mem_singleton] at hm
  rcases hm with (hm | hm) | rfl
  · exact hall m hm
  · exact Or.inl (List.eq_of_mem_replicate hm)
  · exact Or.inr hl

theorem wellFormed_table_concat {rows : List (List Text)} {r : List Text}
    (h : (Block.table rows).WellFormed) (hr : r ≠ []) (hcells : ∀ c ∈ r, IsCell c)
    (hsep : isSeparator (ofCells r) = false) : (Block.table (rows ++ [r])).WellFormed := by
  obtain ⟨⟨hne, hrows⟩, htail⟩ := h
  refine ⟨⟨by simp, fun q hq => ?_⟩, fun q hq => ?_⟩
  · rcases List.mem_append.1 hq with hq | hq
    · exact hrows q hq
    · rw [List.mem_singleton.1 hq]
      exact ⟨hr, hcells⟩
  · rw [List.tail_append_of_ne_nil hne] at hq
    rcases List.mem_append.1 hq with hq | hq
    · exact htail q hq
    · rw [List.mem_singleton.1 hq]
      exact hsep

theorem OpenBlock.wellFormed_of_extends {raw : Text} {o o' : OpenBlock} (hline : IsLine raw)
    (hfence : isFence raw = false) (h : Extends raw o o') (ho : WellFormed o.close) :
    WellFormed o'.close := by
  have hreads := reads_kind raw
  cases h with
  | line hk =>
    rw [hk] at hreads
    have hls := (wellFormed_singleton.1 ho).2
    refine wellFormed_singleton.2 ⟨by simp, ?_⟩
    simpa [or_imp, forall_and] using ⟨by simpa using hls, isPlain_of_reads hline hfence hreads⟩
  | bullet hk =>
    rw [hk] at hreads
    have his := (wellFormed_singleton.1 ho).2
    refine wellFormed_singleton.2 ⟨by simp, ?_⟩
    simpa [or_imp, forall_and] using
      ⟨by simpa using his, isTrimmedLine_of_reads_bullet hline hreads⟩
  | numbered hk =>
    rw [hk] at hreads
    have his := (wellFormed_singleton.1 ho).2
    refine wellFormed_singleton.2 ⟨by simp, ?_⟩
    simpa [or_imp, forall_and] using
      ⟨by simpa using his, isTrimmedLine_of_reads_numbered hline hreads⟩
  | rule _ => exact ho
  | row hs hr =>
    have hrow := wellFormed_table_concat (wellFormed_singleton.1 ho) (cells_ne_nil raw)
      (fun c hc => isCell_of_mem_cells hline hc) (by rw [isSeparator_ofCells_cells hr, hs])
    exact wellFormed_singleton.2 (by simpa using hrow)
  | gap _ => exact ho
  | @drawn ls n hd =>
    have hdrawn := wellFormed_diagram_concat n (wellFormed_singleton.1 ho)
      ⟨isTrimmedLine_trimRight hline, hd⟩
    exact wellFormed_singleton.2 (by simpa using hdrawn)

theorem wellFormed_code {c : List Text} (hc : ∀ l ∈ c, IsLine l ∧ isFence l = false) :
    (Block.code (unlines c)).WellFormed := by
  refine ⟨not_mem_unlines fun l hl => (hc l hl).1, ?_⟩
  cases c with
  | nil => simp
  | cons l ls =>
    have hsplit : (unlines (l :: ls)).splitOn '\n' = l :: ls :=
      List.splitOn_intercalate _ (fun m hm => (hc m hm).1.1) (by simp)
    rw [hsplit]
    exact fun m hm => (hc m hm).2

theorem wellFormed_segment (t : Text) : WellFormed (segment t) := by
  refine forall_mem_segment (fun l hl hfence => ?_) fun c hc => wellFormed_code fun l hl => ?_
  · have hline := isLine_of_mem_lines hl
    exact ⟨wellFormed_kind hline hfence, OpenBlock.wellFormed_of_extends hline hfence⟩
  · exact ⟨isLine_of_mem_lines (hc l hl).1, (hc l hl).2⟩

end Letterhead
