import Letterhead.Proofs.Content.Fence

/-! Conservation. Blanks, digits and the characters that marks are made of may be dropped from a line;
every other character of it reaches the blocks, once and in its place. -/
namespace Letterhead
open Line Text Scan

def markChars : List Char := ['#', '-', '*', '.', '|', ':']

def isSubstance (c : Char) : Bool := !isBlank c && !isDecimal c && !markChars.contains c

def Block.payload : Block → Text
  | .heading _ t => t
  | .paragraph ls => ls.flatten
  | .bullets is => is.flatten
  | .numbered is => is.flatten
  | .code t => t
  | .table rows => rows.flatten.flatten
  | .diagram ls => ls.flatten

def Text.substance (t : Text) : Text := t.filter isSubstance

def substanceOf (bs : List Block) : Text := substance (bs.flatMap Block.payload)

namespace Text

@[simp] theorem substance_nil : substance [] = [] := rfl

@[simp] theorem substance_append (s t : Text) : substance (s ++ t) = substance s ++ substance t :=
  List.filter_append ..

theorem substance_cons_of_not {c : Char} (h : isSubstance c = false) (t : Text) :
    substance (c :: t) = substance t :=
  List.filter_cons_of_neg (by simp [h])

theorem not_isSubstance_of_isBlank {c : Char} (h : isBlank c = true) : isSubstance c = false := by
  simp [isSubstance, h]

theorem substance_eq_nil {t : Text} (h : ∀ c ∈ t, isSubstance c = false) : substance t = [] :=
  List.filter_eq_nil_iff.2 fun c hc => by simp [h c hc]

@[simp] theorem substance_trimRight (t : Text) : substance (trimRight t) = substance t :=
  filter_trimRight (fun _ => not_isSubstance_of_isBlank) t

theorem substance_trim (t : Text) : substance (trim t) = substance t :=
  filter_trim (fun _ => not_isSubstance_of_isBlank) t

theorem substance_unlines (ls : List Text) : substance (unlines ls) = substance ls.flatten :=
  filter_intercalate (List.forall_mem_singleton.2 (by decide)) ls

end Text

@[simp] theorem substanceOf_nil : substanceOf [] = [] := rfl

theorem substanceOf_append (bs cs : List Block) :
    substanceOf (bs ++ cs) = substanceOf bs ++ substanceOf cs := by
  simp [substanceOf]

theorem substanceOf_singleton (b : Block) : substanceOf [b] = substance b.payload := by
  simp [substanceOf]

namespace Line

theorem substance_cells {l : Text} (h : isRow l = true) :
    substance (cells l).flatten = substance l :=
  filter_cells (fun _ => not_isSubstance_of_isBlank) (by decide) h

theorem substance_of_isSeparator {l : Text} (h : isSeparator l = true) : substance l = [] := by
  rw [isSeparator, Bool.and_eq_true, List.all_eq_true] at h
  rw [← substance_trim]
  refine substance_eq_nil fun c hc => ?_
  have hrule := h.2 c hc
  simp only [isRuleChar, Bool.or_eq_true, beq_iff_eq] at hrule
  rcases hrule with ((hb | rfl) | rfl) | rfl
  · exact not_isSubstance_of_isBlank hb
  all_goals decide

theorem substance_of_trimRight_eq_nil {l : Text} (h : l.trimRight = []) : substance l = [] := by
  rw [← substance_trimRight, h, substance_nil]

def Kind.payload : Kind → Text
  | .drawn l => l
  | .row cs => cs.flatten
  | .heading _ t => t
  | .bullet i => i
  | .numbered i => i
  | .plain l => l
  | .blank => []

theorem substance_of_reads {raw : Text} {k : Kind} (h : Reads raw k) :
    substance k.payload = substance raw := by
  cases h with
  | drawn _ => exact substance_trimRight raw
  | row h => exact substance_cells h
  | @heading k t _ h =>
    have hmarks : substance (List.replicate k '#') = [] :=
      substance_eq_nil fun c hc => by rw [List.eq_of_mem_replicate hc]; decide
    rw [h, substance_append, hmarks, List.nil_append, substance_cons_of_not (by decide)]
    exact substance_trimRight _
  | bullet h =>
    rcases h with rfl | rfl <;>
    · rw [substance_cons_of_not (by decide), substance_cons_of_not (by decide)]
      exact substance_trimRight _
  | @numbered ds t c hds hc h =>
    have hdigits : substance ds = [] :=
      substance_eq_nil fun d hd => by simp [isSubstance, hds d hd]
    rw [h, substance_append, hdigits, List.nil_append, substance_cons_of_not (by decide),
      substance_cons_of_not (not_isSubstance_of_isBlank hc)]
    exact substance_trimRight _
  | plain => exact substance_trimRight raw
  | blank h => exact (substance_of_trimRight_eq_nil h).symm

theorem substance_kind (raw : Text) : substance (kind raw).payload = substance raw :=
  substance_of_reads (reads_kind raw)

end Line

theorem OpenBlock.substance_of_extends {raw : Text} {o o' : OpenBlock} (h : Extends raw o o') :
    substanceOf o'.close = substanceOf o.close ++ substance raw := by
  cases h with
  | line h =>
    rw [← substance_kind raw, h]
    simp [OpenBlock.close, substanceOf, Block.payload, Kind.payload]
  | bullet h =>
    rw [← substance_kind raw, h]
    simp [OpenBlock.close, substanceOf, Block.payload, Kind.payload]
  | numbered h =>
    rw [← substance_kind raw, h]
    simp [OpenBlock.close, substanceOf, Block.payload, Kind.payload]
  | rule h => simp [substance_of_isSeparator h]
  | row _ h =>
    rw [← substance_cells h]
    simp [OpenBlock.close, substanceOf, Block.payload]
  | gap h =>
    rw [substance_of_trimRight_eq_nil h]
    simp [OpenBlock.close]
  | drawn _ => simp [OpenBlock.close, substanceOf, Block.payload]

namespace Scan

theorem substanceOf_kind (raw : Text) :
    substanceOf ((kind raw).emitted ++ (kind raw).opened.close) = substance raw := by
  rw [← substance_kind raw]
  cases kind raw <;> simp [Kind.emitted, Kind.opened, OpenBlock.close, substanceOf, Block.payload,
    Kind.payload]

/-- A line outside fences adds its own substance behind that of the lines before it. -/
theorem substanceOf_finish_takeLine {s : Scan} (hs : s.fence = none) (raw : Text) :
    substanceOf (s.takeLine raw).finish = substanceOf s.finish ++ substance raw := by
  have hf : (s.takeLine raw).fence = none := by rw [fence_takeLine, hs]
  rw [finish_eq, finish_eq, hf, hs]
  cases h : s.current.extend? raw with
  | some o =>
    rw [takeLine_of_extend? h]
    simp only [substanceOf_append, OpenBlock.substance_of_extends (OpenBlock.extends_of_extend? h),
      List.append_assoc]
  | none =>
    rw [takeLine_of_extend?_eq_none h]
    simp only [turn, List.reverse_append, Kind.reverse_emitted, OpenBlock.reverse_close,
      Option.elim_none, List.append_nil, List.append_assoc]
    simp only [substanceOf_append, ← substanceOf_kind raw, List.append_assoc]

theorem substanceOf_finish_foldl {s : Scan} (hs : s.fence = none) (ls : List Text) :
    substanceOf (ls.foldl takeLine s).finish = substanceOf s.finish ++ substance ls.flatten := by
  induction ls generalizing s with
  | nil => simp
  | cons l ls ih =>
    rw [List.foldl_cons, ih (by rw [fence_takeLine, hs]), substanceOf_finish_takeLine hs]
    simp

theorem substanceOf_blocksOf {c : List Text} (hc : ∀ l ∈ c, isFence l = false) :
    substanceOf (blocksOf c) = substance c.flatten := by
  rw [blocksOf, foldl_step_of_fence_eq_none rfl hc, substanceOf_finish_foldl rfl]
  rfl

theorem substanceOf_chunkBlocks {cs : List (List Text)}
    (hcs : ∀ c ∈ cs, ∀ l ∈ c, isFence l = false) (n : Nat) :
    substanceOf (chunkBlocks n cs) = substance cs.flatten.flatten := by
  induction cs generalizing n with
  | nil => rfl
  | cons c cs ih =>
    have hc : substanceOf (if n % 2 = 0 then blocksOf c else [.code (unlines c)]) =
        substance c.flatten := by
      split
      · exact substanceOf_blocksOf (hcs c (by simp))
      · rw [substanceOf_singleton]
        exact substance_unlines c
    rw [chunkBlocks_cons, substanceOf_append, hc, ih fun c hc => hcs c (by simp [hc])]
    simp

end Scan

/-- Segmentation keeps every character that is no blank, no digit and no mark: the blocks in order
hold the same such characters, in the same order, as the lines that are no fences. -/
theorem segment_conserves (t : Text) :
    ((segment t).flatMap Block.payload).filter isSubstance =
      (t.lines.filter fun l => !isFence l).flatten.filter isSubstance := by
  have hchunks : ∀ c ∈ t.lines.splitOnP isFence, ∀ l ∈ c, isFence l = false :=
    fun c hc l hl => (mem_of_mem_splitOnP hc hl).2
  have h := substanceOf_chunkBlocks hchunks 0
  rw [← blocksOf_eq_chunkBlocks, ← segment_eq, flatten_splitOnP] at h
  exact h

end Letterhead
