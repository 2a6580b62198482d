import Letterhead.Proofs.Content.Boundary
import Letterhead.Proofs.Content.Written

/-! The image of segmentation: every list of well-formed blocks is what its canonical text is segmented
to. -/
namespace Letterhead
open Line Text Scan

namespace Scan

theorem step_of_extend? {s : Scan} {raw : Text} {o : OpenBlock} (hs : s.fence = none)
    (hf : isFence raw = false) (h : s.current.extend? raw = some o) :
    s.step raw = { s with current := o } := by
  obtain ⟨done, current, fence⟩ := s
  subst hs
  rw [step_of_not_isFence hf]
  exact takeLine_of_extend? h

theorem step_of_done {done : List Block} {raw : Text} (hf : isFence raw = false) :
    step { done := done } raw =
      { done := (kind raw).emitted ++ done, current := (kind raw).opened } := by
  rw [step_of_not_isFence hf]
  change takeLine { done := done } raw = _
  have hnone : OpenBlock.none.extend? raw = none := by
    cases h : kind raw <;> simp [OpenBlock.extend?, h, Kind.join?]
  rw [takeLine_of_extend?_eq_none hnone]
  rfl

/-- Lines that each continue the open block are all added to it. -/
theorem foldl_step_items {β : Type} (wrap : List β → OpenBlock) (write : β → Text)
    {xs : List β} (hf : ∀ x ∈ xs, isFence (write x) = false)
    (hext : ∀ x ∈ xs, ∀ acc, (wrap acc).extend? (write x) = some (wrap (x :: acc)))
    (done : List Block) (acc : List β) :
    (xs.map write).foldl step { done := done, current := wrap acc } =
      { done := done, current := wrap (xs.reverse ++ acc) } := by
  induction xs generalizing acc with
  | nil => rfl
  | cons x xs ih =>
    rw [List.map_cons, List.foldl_cons, step_of_extend? rfl (hf x (by simp)) (hext x (by simp) acc)]
    have h := ih (fun y hy => hf y (by simp [hy])) (fun y hy => hext y (by simp [hy])) (x :: acc)
    simpa using h

/-- Lines of one kind make one block, where the first of them opens it. -/
theorem foldl_step_block {β : Type} (wrap : List β → OpenBlock) (write : β → Text) {x : β}
    {xs : List β} (hopen : (kind (write x)).emitted = [] ∧ (kind (write x)).opened = wrap [x])
    (hf : ∀ y ∈ x :: xs, isFence (write y) = false)
    (hext : ∀ y ∈ xs, ∀ acc, (wrap acc).extend? (write y) = some (wrap (y :: acc)))
    (done : List Block) :
    ((x :: xs).map write).foldl step { done := done } =
      { done := done, current := wrap (x :: xs).reverse } := by
  rw [List.map_cons, List.foldl_cons, step_of_done (hf x (by simp)), hopen.1, hopen.2,
    List.nil_append, foldl_step_items wrap write (fun y hy => hf y (by simp [hy])) hext]
  simp

theorem foldl_step_paragraph {ls : List Text} (h : (Block.paragraph ls).WellFormed)
    (done : List Block) :
    ls.foldl step { done := done } = { done := done, current := .paragraph ls.reverse } := by
  obtain ⟨hne, hls⟩ := h
  obtain ⟨l, ls, rfl⟩ := List.exists_cons_of_ne_nil hne
  have hkind : ∀ m ∈ l :: ls, kind m = .plain m := by
    intro m hm
    have hp := hls m hm
    simp [kind, hp.trimmed.2, hp.not_drawn, hp.not_row, hp.not_heading, hp.not_bullet,
      hp.not_numbered, hp.ne_nil]
  have hblock : ((l :: ls).map id).foldl step { done := done } =
      { done := done, current := .paragraph (l :: ls).reverse } :=
    foldl_step_block OpenBlock.paragraph id
      (by simp [hkind l (by simp), Kind.emitted, Kind.opened])
      (fun m hm => (hls m hm).not_fence)
      (fun m hm acc => by simp [OpenBlock.extend?, hkind m (by simp [hm]), Kind.join?]) done
  rwa [List.map_id] at hblock

theorem foldl_step_bullets {is : List Text} (h : (Block.bullets is).WellFormed)
    (done : List Block) :
    (is.map fun i => '-' :: ' ' :: i).foldl step { done := done } =
      { done := done, current := .bullets is.reverse } := by
  obtain ⟨hne, his⟩ := h
  obtain ⟨i, is, rfl⟩ := List.exists_cons_of_ne_nil hne
  have hkind : ∀ j ∈ i :: is, kind ('-' :: ' ' :: j) = .bullet j := by
    intro j hj
    rw [kind_bullet, (his j hj).2]
  exact foldl_step_block OpenBlock.bullets (fun j => '-' :: ' ' :: j)
    (by simp [hkind i (by simp), Kind.emitted, Kind.opened])
    (fun j _ => isFence_cons_of_ne (by decide) _)
    (fun j hj acc => by simp [OpenBlock.extend?, hkind j (by simp [hj]), Kind.join?]) done

theorem foldl_step_numbered {is : List Text} (h : (Block.numbered is).WellFormed)
    (done : List Block) :
    (is.map fun i => '1' :: '.' :: ' ' :: i).foldl step { done := done } =
      { done := done, current := .numbered is.reverse } := by
  obtain ⟨hne, his⟩ := h
  obtain ⟨i, is, rfl⟩ := List.exists_cons_of_ne_nil hne
  have hkind : ∀ j ∈ i :: is, kind ('1' :: '.' :: ' ' :: j) = .numbered j := by
    intro j hj
    rw [kind_numbered, (his j hj).2]
  exact foldl_step_block OpenBlock.numbered (fun j => '1' :: '.' :: ' ' :: j)
    (by simp [hkind i (by simp), Kind.emitted, Kind.opened])
    (fun j _ => isFence_cons_of_ne (by decide) _)
    (fun j hj acc => by simp [OpenBlock.extend?, hkind j (by simp [hj]), Kind.join?]) done

theorem foldl_step_table {rows : List (List Text)} (h : (Block.table rows).WellFormed)
    (done : List Block) :
    (rows.map ofCells).foldl step { done := done } =
      { done := done, current := .table rows.reverse } := by
  obtain ⟨⟨hne, hrows⟩, hsep⟩ := h
  obtain ⟨r, rows, rfl⟩ := List.exists_cons_of_ne_nil hne
  have hcells : ∀ q ∈ r :: rows, cells (ofCells q) = q := fun q hq =>
    cells_ofCells (hrows q hq).1 (hrows q hq).2
  have hkind := kind_ofCells (hrows r (by simp)).1 (hrows r (by simp)).2
  exact foldl_step_block OpenBlock.table ofCells
    (by simp [hkind, Kind.emitted, Kind.opened])
    (fun q _ => isFence_cons_of_ne (by decide) _)
    (fun q hq acc => by
      simp [OpenBlock.extend?, hsep q hq, isRow_ofCells, hcells q (by simp [hq])]) done

theorem foldl_step_heading {k : Int} {t : Text} (h : (Block.heading k t).WellFormed)
    (done : List Block) :
    step { done := done } (List.replicate k.toNat '#' ++ ' ' :: t) =
      { done := .heading k t :: done } := by
  obtain ⟨hk, -, ht⟩ := h
  have hnat : 1 ≤ k.toNat ∧ k.toNat ≤ 3 := by omega
  have hlevel : (k.toNat : Int) = k := by omega
  rw [step_of_isBoundary rfl (isBoundary_heading hnat t), kind_heading hnat, ht]
  simp [Kind.emitted, OpenBlock.close, hlevel]

theorem foldl_step_code {ls : List Text} (h : ∀ l ∈ ls, isFence l = false) (done : List Block) :
    (fenceMark :: (ls ++ [fenceMark])).foldl step { done := done } =
      { done := .code (unlines ls) :: done } := by
  have hf : isFence fenceMark = true := by decide
  have hopen : step { done := done } fenceMark = { done := done, fence := some [] } := by
    rw [step_of_isFence hf]
    rfl
  rw [List.foldl_cons, hopen, List.foldl_append, foldl_step_of_fence_eq_some rfl h,
    List.foldl_cons, List.foldl_nil, step_of_isFence hf, ← codeOf_reverse]
  simp [emit]

/-- The open drawing holds the lines read so far; the blank ones at their end are only counted. -/
theorem foldl_step_drawing {l : Text} {ls : List Text} (hl : IsDrawn l)
    (hls : ∀ m ∈ ls, m = [] ∨ IsDrawn m) (done : List Block) :
    ∃ acc n, ((l :: ls).map fun m => if m = [] then blankLine else m).foldl step { done := done } =
        { done := done, current := .diagram acc n } ∧
      List.replicate n [] ++ acc = (l :: ls).reverse := by
  have hne : ∀ m, IsDrawn m → m ≠ [] := fun m hm he => by
    have hd := hm.2
    rw [he, isDiagram_nil] at hd
    exact absurd hd (by decide)
  have hfence : ∀ m, IsDrawn m → isFence m = false := fun m hm => by
    obtain ⟨t, rfl⟩ := exists_eq_cons_of_isDiagram hm.2
    exact isFence_cons_of_ne (by decide) t
  -- From the right, since a blank line joins the drawing only with the next drawn one.
  induction ls using List.reverseRecOn with
  | nil =>
    refine ⟨[l], 0, ?_, rfl⟩
    rw [List.map_singleton, if_neg (hne l hl), List.foldl_cons, List.foldl_nil,
      step_of_done (hfence l hl), kind_drawn hl.2 hl.1.2]
    rfl
  | append_singleton ls m ih =>
    obtain ⟨acc, n, hfold, hacc⟩ := ih fun q hq => hls q (by simp [hq])
    rw [← List.cons_append, List.map_append, List.foldl_append, hfold, List.map_singleton,
      List.foldl_cons, List.foldl_nil]
    rcases hls m (by simp) with rfl | hm
    · refine ⟨acc, n + 1, ?_, by rw [List.replicate_succ, List.cons_append, hacc]; simp⟩
      have hext : (OpenBlock.diagram acc n).extend? blankLine = some (.diagram acc (n + 1)) := by
        have hblank : trimRight blankLine = [] ∧ indent blankLine = diagramIndent := by decide
        simp [OpenBlock.extend?, hblank]
      rw [if_pos rfl, step_of_extend? rfl (by decide) hext]
    · refine ⟨m :: List.replicate n [] ++ acc, 0, ?_, by simp [hacc]⟩
      have hext : (OpenBlock.diagram acc n).extend? m =
          some (.diagram (m :: List.replicate n [] ++ acc) 0) := by
        simp [OpenBlock.extend?, hm.1.2, hne m hm, hm.2]
      rw [if_neg (hne m hm), step_of_extend? rfl (hfence m hm) hext]

theorem foldl_step_diagram {ls : List Text} (h : (Block.diagram ls).WellFormed)
    (done : List Block) :
    (ls.map fun m => if m = [] then blankLine else m).foldl step { done := done } =
      { done := done, current := .diagram ls.reverse 0 } := by
  obtain ⟨hall, ⟨f, hhead, hf⟩, e, hlast, he⟩ := h
  obtain ⟨rest, rfl⟩ := List.head?_eq_some_iff.1 hhead
  have hrest : ∀ m ∈ rest, m = [] ∨ IsDrawn m := fun m hm => hall m (by simp [hm])
  obtain ⟨acc, n, hfold, hacc⟩ := foldl_step_drawing hf hrest done
  cases n with
  | zero =>
    rw [hfold, ← hacc]
    rfl
  | succ n =>
    -- The last line is drawn, so none is left to be counted.
    rw [List.replicate_succ, List.cons_append] at hacc
    rw [← List.head?_reverse, ← hacc, List.head?_cons, Option.mem_some] at hlast
    rw [← hlast] at he
    exact absurd he.2 (by simp)

theorem close_foldl_writtenLines {b : Block} (h : b.WellFormed) (done : List Block) :
    close (b.writtenLines.foldl step { done := done }) = { done := b :: done } := by
  cases b with
  | heading k t =>
    rw [Block.writtenLines, List.foldl_cons, List.foldl_nil, foldl_step_heading h]
    rfl
  | paragraph ls =>
    rw [Block.writtenLines, foldl_step_paragraph h]
    simp [close, OpenBlock.close]
  | bullets is =>
    rw [Block.writtenLines, foldl_step_bullets h]
    simp [close, OpenBlock.close]
  | numbered is =>
    rw [Block.writtenLines, foldl_step_numbered h]
    simp [close, OpenBlock.close]
  | code t =>
    rw [Block.writtenLines, foldl_step_code h.2, unlines, List.intercalate_splitOn]
    rfl
  | table rows =>
    rw [Block.writtenLines, foldl_step_table h]
    simp [close, OpenBlock.close]
  | diagram ls =>
    rw [Block.writtenLines, foldl_step_diagram h]
    simp [close, OpenBlock.close]

theorem step_nil {s : Scan} (hs : s.fence = none) : s.step [] = s.close := by
  rw [step_of_isBoundary hs isBoundary_nil, kind_nil, close, hs]
  rfl

/-- Blocks come out in the order they are written in, after those that were there before. -/
theorem close_foldl_canonical {bs : List Block} (h : WellFormed bs) (done : List Block) :
    close ((lines (canonical bs)).foldl step { done := done }) =
      { done := bs.reverse ++ done } := by
  induction bs generalizing done with
  | nil =>
    have hlines : lines (canonical []) = [[]] := lines_nil
    rw [hlines, List.foldl_cons, List.foldl_nil, step_nil rfl]
    rfl
  | cons b bs ih =>
    have hb : b.WellFormed := h b (by simp)
    obtain ⟨hcr, hlines⟩ := Block.lines_written hb
    have hclose := close_foldl_writtenLines hb done
    cases bs with
    | nil =>
      have hone : canonical [b] = b.written := List.intercalate_singleton
      rw [hone, hlines, hclose]
      rfl
    | cons c bs =>
      have hrest : WellFormed (c :: bs) := fun d hd => h d (by simp [hd])
      have hfence : (b.writtenLines.foldl step { done := done }).fence = none :=
        congrArg Scan.fence hclose
      -- The empty line between two blocks closes the first of them.
      rw [canonical_cons_cons, lines_append_lineFeed hcr, lines_append_lineFeed (by simp),
        lines_nil, hlines, List.foldl_append, List.singleton_append, List.foldl_cons,
        step_nil hfence, hclose, ih hrest]
      simp

end Scan

theorem segment_canonical {bs : List Block} (h : WellFormed bs) : segment (canonical bs) = bs := by
  have hclose := close_foldl_canonical h []
  generalize hs : (lines (canonical bs)).foldl step { done := [] } = s at hclose
  have hfence : s.fence = none := congrArg Scan.fence hclose
  have hdone : s.close.done = bs.reverse ++ [] := congrArg Scan.done hclose
  have hfinish : s.finish = s.close.done.reverse := by rw [finish, hfence]
  calc
    segment (canonical bs) = s.finish := by rw [segment_eq, blocksOf, ← hs]; rfl
    _ = bs := by rw [hfinish, hdone]; simp

/-- Segmentation gives well-formed blocks, and all of them: a list of well-formed blocks is what its
canonical text is segmented to. -/
theorem segment_image :
    (∀ t, WellFormed (segment t)) ∧ ∀ bs, WellFormed bs → segment (canonical bs) = bs :=
  ⟨wellFormed_segment, fun _ h => segment_canonical h⟩

def sampleBlocks : List Block :=
  [.heading 2 "Scope".toList, .paragraph ["First line".toList, "second".toList],
    .bullets ["one".toList, [], "# three".toList], .numbered ["- a".toList],
    .code "# no heading\n\n| a |".toList, .table [["Name".toList, []], ["x".toList]],
    .diagram ["    +---+".toList, [], "    | a |".toList]]

theorem segment_image_sampleBlocks :
    WellFormed sampleBlocks ∧ segment (canonical sampleBlocks) = sampleBlocks := by
  have h : WellFormed sampleBlocks := by
    unfold WellFormed
    decide +kernel
  exact ⟨h, segment_image.2 sampleBlocks h⟩

end Letterhead
