import Letterhead.Proofs.Content.Scan

/-! Fences. The lines that are fences cut a text into chunks: every second chunk is code as it is
written, and each of the others is segmented as if it were a text of its own. -/
namespace Letterhead
open Line Text Scan

/-- Every list is built from its stretches without separators. -/
@[elab_as_elim]
theorem cutInduction {α : Type} {p : α → Bool} {motive : List α → Prop}
    (free : ∀ c, (∀ x ∈ c, p x = false) → motive c)
    (cut : ∀ c f l, (∀ x ∈ c, p x = false) → p f = true → motive l → motive (c ++ f :: l))
    (l : List α) : motive l := by
  suffices h : ∀ c, (∀ x ∈ c, p x = false) → motive (c ++ l) by simpa using h [] (by simp)
  induction l with
  | nil => exact fun c hc => by simpa using free c hc
  | cons x l ih =>
    intro c hc
    cases hx : p x with
    | true => exact cut c x l hc hx (by simpa using ih [] (by simp))
    | false =>
      have h := ih (c ++ [x]) (by simpa [or_imp, forall_and] using ⟨hc, hx⟩)
      simpa using h

namespace Scan

theorem foldl_step_of_fence_eq_none {s : Scan} {c : List Text} (hs : s.fence = none)
    (hc : ∀ l ∈ c, isFence l = false) : c.foldl step s = c.foldl takeLine s := by
  induction c generalizing s with
  | nil => rfl
  | cons l c ih =>
    have hl : s.step l = s.takeLine l := by rw [step_of_not_isFence (hc l (by simp)), hs]
    rw [List.foldl_cons, List.foldl_cons, hl]
    exact ih (by rw [fence_takeLine, hs]) fun m hm => hc m (by simp [hm])

theorem fence_foldl_takeLine (s : Scan) (c : List Text) :
    (c.foldl takeLine s).fence = s.fence := by
  induction c generalizing s with
  | nil => rfl
  | cons l c ih => rw [List.foldl_cons, ih, fence_takeLine]

theorem foldl_step_of_fence_eq_some {s : Scan} {code c : List Text} (hs : s.fence = some code)
    (hc : ∀ l ∈ c, isFence l = false) :
    c.foldl step s = { s with fence := some (c.reverse ++ code) } := by
  induction c generalizing s code with
  | nil => simp [← hs]
  | cons l c ih =>
    have hl : s.step l = { s with fence := some (l :: code) } := by
      rw [step_of_not_isFence (hc l (by simp)), hs]
    rw [List.foldl_cons, hl, ih rfl fun m hm => hc m (by simp [hm])]
    simp

theorem codeOf_reverse (c : List Text) : codeOf c.reverse = .code (unlines c) := by
  rw [codeOf, List.reverse_reverse, unlines]

def chunkBlocks (n : Nat) (cs : List (List Text)) : List Block :=
  (cs.mapIdx fun i c => if (n + i) % 2 = 0 then blocksOf c else [.code (unlines c)]).flatten

@[simp] theorem chunkBlocks_nil (n : Nat) : chunkBlocks n [] = [] := rfl

theorem chunkBlocks_cons (n : Nat) (c : List Text) (cs : List (List Text)) :
    chunkBlocks n (c :: cs) =
      (if n % 2 = 0 then blocksOf c else [.code (unlines c)]) ++ chunkBlocks (n + 1) cs := by
  simp [chunkBlocks, List.mapIdx_cons, Nat.add_comm, Nat.add_left_comm]

def fenceAt (n : Nat) : Option (List Text) := if n % 2 = 0 then none else some []

/-- What stands in a fence never meets what stands outside, whatever was open before it. -/
theorem finish_foldl_chunks (ls : List Text) (n : Nat) (done : List Block) :
    (ls.foldl step { done := done, fence := fenceAt n }).finish =
      done.reverse ++ chunkBlocks n (ls.splitOnP isFence) := by
  -- One chunk and the fence after it at a time: at each fence the open block is finished.
  induction ls using cutInduction (p := isFence) generalizing n done with
  | free c hc =>
    rw [List.splitOnP_eq_singleton hc, chunkBlocks_cons, chunkBlocks_nil, List.append_nil]
    by_cases hn : n % 2 = 0
    · simp only [fenceAt, if_pos hn]
      exact finish_foldl_of_done done c
    · simp only [fenceAt, if_neg hn]
      rw [foldl_step_of_fence_eq_some rfl hc, finish_eq]
      simp [codeOf_reverse, OpenBlock.close]
  | cut c f l hc hf ih =>
    rw [List.splitOnP_append_cons_of_forall_mem hc f hf, chunkBlocks_cons, List.foldl_append,
      List.foldl_cons]
    by_cases hn : n % 2 = 0
    · have hnext : fenceAt (n + 1) = some [] := by rw [fenceAt, if_neg (by omega)]
      simp only [fenceAt, if_pos hn]
      generalize hs : c.foldl step { done := done } = s
      have hfence : s.fence = none := by
        rw [← hs, foldl_step_of_fence_eq_none rfl hc, fence_foldl_takeLine]
      have hdone : s.done.reverse ++ s.current.close = done.reverse ++ blocksOf c := by
        rw [← finish_foldl_of_done, hs, finish_eq, hfence]
        simp
      have hstep : s.step f =
          { done := s.current.close ++ s.done, fence := fenceAt (n + 1) } := by
        rw [step_of_isFence hf, hfence, hnext]
        rfl
      rw [hstep, ih (n + 1), List.reverse_append, OpenBlock.reverse_close, hdone,
        List.append_assoc]
    · have hnext : fenceAt (n + 1) = none := by rw [fenceAt, if_pos (by omega)]
      simp only [fenceAt, if_neg hn]
      rw [foldl_step_of_fence_eq_some rfl hc, step_of_isFence hf]
      have hstep : ({ done := codeOf (c.reverse ++ []) :: done } : Scan) =
          { done := .code (unlines c) :: done, fence := fenceAt (n + 1) } := by
        rw [hnext, List.append_nil, codeOf_reverse]
      change (l.foldl step { done := codeOf (c.reverse ++ []) :: done }).finish = _
      rw [hstep, ih (n + 1)]
      simp

theorem blocksOf_eq_chunkBlocks (ls : List Text) :
    blocksOf ls = chunkBlocks 0 (ls.splitOnP isFence) :=
  finish_foldl_chunks ls 0 []

theorem segment_unlines {ls : List Text} (h : ∀ l ∈ ls, IsLine l) :
    segment (unlines ls) = blocksOf ls := by
  cases ls with
  | nil => rfl
  | cons l ls => rw [segment_eq, lines_unlines (by simp) h]

end Scan

/-- A text is segmented chunk by chunk: fences cut it, chunks with odd numbers are code word for word,
and every other chunk is segmented alone. -/
theorem segment_eq_flatten_chunks (t : Text) :
    segment t = ((t.lines.splitOnP isFence).mapIdx fun i chunk =>
      if i % 2 = 0 then segment (unlines chunk) else [Block.code (unlines chunk)]).flatten := by
  have hchunk : ∀ chunk ∈ t.lines.splitOnP isFence, segment (unlines chunk) = blocksOf chunk :=
    fun chunk hc => segment_unlines fun l hl => isLine_of_mem_lines (mem_of_mem_splitOnP hc hl).1
  rw [segment_eq, blocksOf_eq_chunkBlocks, chunkBlocks]
  congr 1
  rw [List.mapIdx_eq_mapIdx_iff]
  intro i hi
  rw [hchunk _ (List.getElem_mem hi), Nat.zero_add]

end Letterhead
