import Letterhead.Proofs.Content.WellFormed

/-! Written blocks: the text that stands for a block, and the lines that this text is cut into. -/
namespace Letterhead
open Line Text

/-- The blanks that stand for a blank line inside a drawing. -/
def Line.blankLine : Text := List.replicate diagramIndent ' '

namespace Block

def written : Block → Text
  | .heading k t => List.replicate k.toNat '#' ++ ' ' :: t
  | .paragraph ls => unlines ls
  | .bullets is => unlines (is.map fun i => '-' :: ' ' :: i)
  | .numbered is => unlines (is.map fun i => '1' :: '.' :: ' ' :: i)
  | .code t => unlines [fenceMark, t, fenceMark]
  | .table rows => unlines (rows.map ofCells)
  | .diagram ls => unlines (ls.map fun l => if l = [] then blankLine else l)

end Block

/-- The canonical text of blocks: an empty line stands between two of them. -/
def canonical (bs : List Block) : Text := ['\n', '\n'].intercalate (bs.map Block.written)

namespace Line

theorem trim_ofCells (cs : List Text) : trim (ofCells cs) = ofCells cs :=
  trim_framed (by decide) (by decide) _

theorem cells_ofCells {cs : List Text} (hne : cs ≠ []) (hcs : ∀ c ∈ cs, IsCell c) :
    cells (ofCells cs) = cs := by
  have hbar : ∀ p ∈ cs.map fun c => ' ' :: (c ++ [' ']), '|' ∉ p := by
    intro p hp
    obtain ⟨c, hc, rfl⟩ := List.mem_map.1 hp
    simpa using (hcs c hc).2.2
  have hspace : ∀ d ∈ [' '], isBlank d = true := List.forall_mem_singleton.2 (by decide)
  have hpad : ∀ c ∈ cs, trim (' ' :: (c ++ [' '])) = c := by
    intro c hc
    calc
      trim (' ' :: (c ++ [' '])) = trimRight (trimLeft (c ++ [' '])) := by
        rw [trim, trimLeft_cons_of_blank (by decide)]
      _ = trimLeft (trimRight (c ++ [' '])) := (trimLeft_trimRight _).symm
      _ = trim c := by rw [trimRight_append_blanks c hspace, trimLeft_trimRight, trim]
      _ = c := (hcs c hc).2.1
  have hsplit : ((ofCells cs).drop 1).dropLast.splitOn '|' =
      cs.map fun c => ' ' :: (c ++ [' ']) := by
    rw [ofCells, List.drop_one, List.tail_cons, List.dropLast_concat]
    exact List.splitOn_intercalate _ hbar (by simpa using hne)
  rw [cells, trim_ofCells, hsplit, List.map_map]
  exact (List.map_congr_left hpad).trans (List.map_id cs)

theorem isRow_ofCells {cs : List Text} : isRow (ofCells cs) = true := by
  have hhead : (ofCells cs).head? = some '|' := rfl
  have hlast : (ofCells cs).getLast? = some '|' := by
    rw [ofCells, ← List.cons_append, List.getLast?_concat]
  have hcount : 2 ≤ (ofCells cs).count '|' := by simp [ofCells]
  simp [isRow, trim_ofCells, hhead, hlast, hcount]

theorem kind_ofCells {cs : List Text} (hne : cs ≠ []) (hcs : ∀ c ∈ cs, IsCell c) :
    kind (ofCells cs) = .row cs := by
  have hd : isDiagram (trimRight (ofCells cs)) = false := by
    rw [ofCells, trimRight_cons_of_not_blank (by decide)]
    exact isDiagram_cons_of_ne (by decide) _
  simp [kind, hd, isRow_ofCells, cells_ofCells hne hcs]

theorem mem_of_mem_ofCells {c : Char} {cs : List Text} (h : c ∈ ofCells cs) :
    c = '|' ∨ c = ' ' ∨ ∃ d ∈ cs, c ∈ d := by
  simp only [ofCells, List.mem_cons, List.mem_append, List.not_mem_nil, or_false] at h
  rcases h with h | h | h
  · exact Or.inl h
  · rcases mem_of_mem_intercalate h with h | ⟨p, hp, hc⟩
    · exact Or.inl (by simpa using h)
    · obtain ⟨d, hd, rfl⟩ := List.mem_map.1 hp
      simp only [List.mem_cons, List.mem_append, List.not_mem_nil, or_false] at hc
      rcases hc with hc | hc | hc
      · exact Or.inr (Or.inl hc)
      · exact Or.inr (Or.inr ⟨d, hd, hc⟩)
      · exact Or.inr (Or.inl hc)
  · exact Or.inl h

theorem isLine_ofCells {cs : List Text} (h : ∀ c ∈ cs, IsCell c) : IsLine (ofCells cs) := by
  have hmem : ∀ c, c ≠ '|' → c ≠ ' ' → (∀ d ∈ cs, c ∉ d) → c ∉ ofCells cs := by
    intro c hbar hspace hcs hc
    rcases mem_of_mem_ofCells hc with hc | hc | ⟨d, hd, hc⟩
    · exact hbar hc
    · exact hspace hc
    · exact hcs d hd hc
  exact ⟨hmem '\n' (by decide) (by decide) fun d hd => (h d hd).1.1,
    hmem '\r' (by decide) (by decide) fun d hd => (h d hd).1.2⟩

end Line

def Block.writtenLines : Block → List Text
  | .heading k t => [List.replicate k.toNat '#' ++ ' ' :: t]
  | .paragraph ls => ls
  | .bullets is => is.map fun i => '-' :: ' ' :: i
  | .numbered is => is.map fun i => '1' :: '.' :: ' ' :: i
  | .code t => fenceMark :: (t.splitOn '\n' ++ [fenceMark])
  | .table rows => rows.map ofCells
  | .diagram ls => ls.map fun l => if l = [] then blankLine else l

namespace Block

theorem lines_written {b : Block} (h : b.WellFormed) :
    '\r' ∉ b.written ∧ lines b.written = b.writtenLines := by
  have hlines : ∀ ls : List Text, ls ≠ [] → (∀ l ∈ ls, IsLine l) →
      '\r' ∉ unlines ls ∧ lines (unlines ls) = ls := fun ls hne hls =>
    ⟨not_mem_unlines hls, lines_unlines hne hls⟩
  cases b with
  | heading k t =>
    obtain ⟨-, ht, -⟩ := h
    have hrow : IsLine (List.replicate k.toNat '#' ++ ' ' :: t) := by
      simpa [IsLine, List.mem_replicate] using ht
    have hone := hlines [_] (by simp) fun l hl => List.mem_singleton.1 hl ▸ hrow
    rwa [unlines_singleton] at hone
  | paragraph ls => exact hlines ls h.1 fun l hl => (h.2 l hl).trimmed.1
  | bullets is =>
    refine hlines _ (by simpa using h.1) ?_
    simpa [IsLine] using fun i hi => (h.2 i hi).1
  | numbered is =>
    refine hlines _ (by simpa using h.1) ?_
    simpa [IsLine] using fun i hi => (h.2 i hi).1
  | code t =>
    have hmark : '\r' ∉ fenceMark ∧ lines fenceMark = [fenceMark] := by decide
    have hw : written (.code t) = fenceMark ++ '\n' :: (t ++ '\n' :: fenceMark) := by
      simp [written, unlines_cons_cons]
    rw [hw]
    refine ⟨by simp [h.1, hmark.1], ?_⟩
    rw [lines_append_lineFeed hmark.1, lines_append_lineFeed h.1, hmark.2, lines_of_not_mem h.1]
    rfl
  | table rows =>
    refine hlines _ (by simpa using h.1.1) ?_
    simpa using fun r hr => isLine_ofCells (h.1.2 r hr).2
  | diagram ls =>
    obtain ⟨hall, ⟨l, hl, -⟩, -⟩ := h
    have hne : ls ≠ [] := fun he => by
      rw [he] at hl
      cases hl
    refine hlines _ (by simpa using hne) ?_
    intro m hm
    obtain ⟨l, hl, rfl⟩ := List.mem_map.1 hm
    rcases hall l hl with rfl | hd
    · decide
    · split
      · decide
      · exact hd.1.1

end Block

theorem canonical_cons_cons (b c : Block) (bs : List Block) :
    canonical (b :: c :: bs) = b.written ++ '\n' :: ([] ++ '\n' :: canonical (c :: bs)) := by
  simp [canonical, List.intercalate_cons_cons]

end Letterhead
