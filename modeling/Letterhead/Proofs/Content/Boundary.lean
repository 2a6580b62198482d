import Letterhead.Proofs.Content.Fence

/-! Boundaries. An empty line and a heading continue no block and open none, so that outside fences
the text before one and the text after it are segmented apart. -/
namespace Letterhead
open Line Text Scan

/-- A line that no block goes on over and that opens none. -/
structure Line.IsBoundary (raw : Text) : Prop where
  not_fence : isFence raw = false
  ends : ∀ o : OpenBlock, o.extend? raw = none
  opens : (kind raw).opened = .none

namespace Line

theorem isBoundary_nil : IsBoundary [] where
  not_fence := rfl
  ends o := by
    cases o with
    | table rows => rfl
    | diagram ls n => simp [OpenBlock.extend?, diagramIndent, indent]
    | _ => rfl
  opens := rfl

theorem isBoundary_heading {k : Nat} (hk : 1 ≤ k ∧ k ≤ 3) (t : Text) :
    IsBoundary (List.replicate k '#' ++ ' ' :: t) := by
  have hkind := kind_heading hk t
  obtain ⟨m, rfl⟩ : ∃ m, k = m + 1 := ⟨k - 1, by omega⟩
  rw [List.replicate_succ, List.cons_append] at hkind ⊢
  generalize List.replicate m '#' ++ ' ' :: t = u at hkind ⊢
  have hrule : isSeparator ('#' :: u) = false := isSeparator_cons_of_not (by decide) u
  have hrow : isRow ('#' :: u) = false := isRow_cons_of_ne (by decide) (by decide) u
  have htrim : trimRight ('#' :: u) = '#' :: trimRight u :=
    trimRight_cons_of_not_blank (by decide) u
  have hdrawn : isDiagram ('#' :: trimRight u) = false := isDiagram_cons_of_ne (by decide) _
  refine ⟨isFence_cons_of_ne (by decide) _, fun o => ?_, by rw [hkind]; rfl⟩
  cases o with
  | table rows => simp [OpenBlock.extend?, hrule, hrow]
  | diagram ls n => simp [OpenBlock.extend?, htrim, hdrawn]
  | _ => simp [OpenBlock.extend?, hkind, Kind.join?]

end Line

namespace Scan

theorem step_of_isBoundary {s : Scan} {raw : Text} (hs : s.fence = none) (h : IsBoundary raw) :
    s.step raw = { done := (kind raw).emitted ++ (s.current.close ++ s.done) } := by
  rw [step_of_not_isFence h.not_fence, hs]
  change s.takeLine raw = _
  rw [takeLine_of_extend?_eq_none (h.ends _), turn, h.opens, hs]

/-- Every fence opens or closes one. -/
theorem isSome_fence_step (s : Scan) (raw : Text) :
    (s.step raw).fence.isSome = (s.fence.isSome ^^ isFence raw) := by
  cases hf : isFence raw with
  | true =>
    rw [step_of_isFence hf]
    cases s.fence <;> rfl
  | false =>
    rw [step_of_not_isFence hf]
    cases hs : s.fence with
    | none => simp [fence_takeLine, hs]
    | some code => rfl

theorem isSome_fence_foldl (s : Scan) (ls : List Text) :
    (ls.foldl step s).fence.isSome = (s.fence.isSome ^^ decide (ls.countP isFence % 2 = 1)) := by
  induction ls generalizing s with
  | nil => simp
  | cons l ls ih =>
    rw [List.foldl_cons, ih, isSome_fence_step, List.countP_cons, Bool.xor_assoc]
    cases isFence l with
    | true =>
      have hodd : decide ((ls.countP isFence + 1) % 2 = 1) =
          !decide (ls.countP isFence % 2 = 1) := by
        rw [← decide_not, decide_eq_decide]
        omega
      simp [hodd]
    | false => simp

theorem fence_foldl_start {ls : List Text} (h : ls.countP isFence % 2 = 0) :
    (ls.foldl step start).fence = none := by
  have hsome := isSome_fence_foldl start ls
  simpa [h, start] using hsome

/-- Nothing that is open before a boundary is known after it. -/
theorem blocksOf_append_boundary {ls : List Text} (hls : ls.countP isFence % 2 = 0) {raw : Text}
    (h : IsBoundary raw) (ms : List Text) :
    blocksOf (ls ++ raw :: ms) = blocksOf ls ++ (kind raw).emitted ++ blocksOf ms := by
  have hfence := fence_foldl_start hls
  rw [blocksOf, List.foldl_append, List.foldl_cons, blocksOf]
  generalize ls.foldl step start = s at hfence ⊢
  rw [step_of_isBoundary hfence h, finish_foldl_of_done, finish_eq, hfence]
  simp [Kind.reverse_emitted, OpenBlock.reverse_close]

end Scan

theorem segment_append_boundary {s : Text} (hs : s.lines.countP isFence % 2 = 0) {raw : Text}
    (hline : IsLine raw) (h : IsBoundary raw) (t : Text) :
    segment (s ++ '\n' :: (raw ++ '\n' :: t)) = segment s ++ (kind raw).emitted ++ segment t := by
  obtain ⟨r, hr, hlines⟩ := exists_lines_append_lineFeed s (raw ++ '\n' :: t)
  rw [segment_eq, segment_eq, segment_eq, hlines, lines_line_append hline]
  rcases hr with rfl | rfl
  · exact blocksOf_append_boundary hs h _
  · -- The return at the end of the first text leaves an empty line behind, which adds nothing.
    rw [lines_concat_carriageReturn] at hs ⊢
    have hr : r.lines.countP isFence % 2 = 0 := by simpa using hs
    have hempty := blocksOf_append_boundary hr isBoundary_nil []
    have hnil : blocksOf [] = [] := rfl
    rw [blocksOf_append_boundary hr h, hempty, hnil, kind_nil]
    simp [Kind.emitted]

/-- Outside fences an empty line ends whatever is open, and so does a heading: what stands before it
and what stands after it are segmented as texts of their own. -/
theorem segment_append_of_even_fences {s : Text} (hs : s.lines.countP isFence % 2 = 0) (t : Text) :
    segment (s ++ '\n' :: '\n' :: t) = segment s ++ segment t ∧
    ∀ k : Nat, 1 ≤ k ∧ k ≤ 3 → ∀ u, IsLine u →
      segment (s ++ '\n' :: (List.replicate k '#' ++ ' ' :: u ++ '\n' :: t)) =
        segment s ++ [.heading k u.trimRight] ++ segment t := by
  refine ⟨?_, fun k hk u hu => ?_⟩
  · have h := segment_append_boundary hs (by decide) isBoundary_nil t
    simpa [Kind.emitted] using h
  · have hline : IsLine (List.replicate k '#' ++ ' ' :: u) := by
      simpa [IsLine, List.mem_replicate] using hu
    rw [segment_append_boundary hs hline (isBoundary_heading hk u), kind_heading hk]
    rfl

def openTable : Text := "\x60\x60\x60\n# x\n\x60\x60\x60\n| a | b |\r".toList

/-- The row after the heading would go on with the table. -/
theorem segment_append_of_even_fences_openTable :
    openTable.lines.countP isFence % 2 = 0 ∧ IsLine "Next  ".toList ∧
      segment (openTable ++
          '\n' :: (List.replicate 2 '#' ++ ' ' :: "Next  ".toList ++ '\n' :: "| c |".toList)) =
        [.code "# x".toList, .table [["a".toList, "b".toList]], .heading 2 "Next".toList,
          .table [["c".toList]]] := by
  have hs : openTable.lines.countP isFence % 2 = 0 := by decide
  have hu : IsLine "Next  ".toList := by decide
  refine ⟨hs, hu, ?_⟩
  rw [(segment_append_of_even_fences hs "| c |".toList).2 2 (by decide) _ hu]
  decide +kernel

end Letterhead
