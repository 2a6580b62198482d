import Letterhead.Proofs.Content.Substance

/-! Invariants of segmentation. A property that every line gives to its own block, and that a block
keeps when a line continues it, holds of all blocks of a text. So every character of a block is one
of the text. -/
namespace Letterhead
open Line Text Scan

section Invariant
variable {P : Block → Prop}

/-- A line outside fences gives blocks with a property: its own block has it, and a block that the
line continues keeps it. -/
structure Line.Gives (P : Block → Prop) (raw : Text) : Prop where
  own : ∀ b ∈ (kind raw).emitted ++ (kind raw).opened.close, P b
  continued : ∀ {o o' : OpenBlock}, OpenBlock.Extends raw o o' → (∀ b ∈ o.close, P b) →
    ∀ b ∈ o'.close, P b

namespace Scan

theorem forall_mem_finish_takeLine {s : Scan} {raw : Text} (hs : s.fence = none)
    (hraw : Gives P raw) (h : ∀ b ∈ s.finish, P b) : ∀ b ∈ (s.takeLine raw).finish, P b := by
  have hf : (s.takeLine raw).fence = none := by rw [fence_takeLine, hs]
  rw [finish_eq, hs] at h
  rw [finish_eq, hf]
  simp only [Option.elim_none, List.append_nil, List.forall_mem_append] at h ⊢
  cases ho : s.current.extend? raw with
  | some o =>
    rw [takeLine_of_extend? ho]
    exact ⟨h.1, hraw.continued (OpenBlock.extends_of_extend? ho) h.2⟩
  | none =>
    have hown := List.forall_mem_append.1 hraw.own
    rw [takeLine_of_extend?_eq_none ho]
    simp only [turn, List.reverse_append, Kind.reverse_emitted, OpenBlock.reverse_close,
      List.forall_mem_append]
    exact ⟨⟨h, hown.1⟩, hown.2⟩

theorem forall_mem_finish_foldl {ls : List Text} (hls : ∀ l ∈ ls, Gives P l) {s : Scan}
    (hs : s.fence = none) (h : ∀ b ∈ s.finish, P b) :
    ∀ b ∈ (ls.foldl takeLine s).finish, P b := by
  induction ls generalizing s with
  | nil => exact h
  | cons l ls ih =>
    exact ih (fun m hm => hls m (by simp [hm])) (by rw [fence_takeLine, hs])
      (forall_mem_finish_takeLine hs (hls l (by simp)) h)

theorem forall_mem_chunkBlocks {cs : List (List Text)}
    (hfence : ∀ c ∈ cs, ∀ l ∈ c, isFence l = false) (hlines : ∀ c ∈ cs, ∀ l ∈ c, Gives P l)
    (hcode : ∀ c ∈ cs, P (.code (unlines c))) (n : Nat) : ∀ b ∈ chunkBlocks n cs, P b := by
  induction cs generalizing n with
  | nil => simp
  | cons c cs ih =>
    simp only [List.forall_mem_cons] at hfence hlines hcode
    rw [chunkBlocks_cons, List.forall_mem_append]
    refine ⟨?_, ih hfence.2 hlines.2 hcode.2 (n + 1)⟩
    split
    · have hnone : ∀ b ∈ start.finish, P b := by simp [finish_eq, start, OpenBlock.close]
      rw [blocksOf, foldl_step_of_fence_eq_none rfl hfence.1]
      exact forall_mem_finish_foldl hlines.1 rfl hnone
    · exact List.forall_mem_singleton.2 hcode.1

end Scan

/-- All blocks of a text have a property that each of its lines gives and all code has. -/
theorem forall_mem_segment {t : Text}
    (hlines : ∀ l ∈ t.lines, isFence l = false → Gives P l)
    (hcode : ∀ c : List Text, (∀ l ∈ c, l ∈ t.lines ∧ isFence l = false) →
      P (.code (unlines c))) :
    ∀ b ∈ segment t, P b := by
  have hchunks : ∀ c ∈ t.lines.splitOnP isFence, ∀ l ∈ c, l ∈ t.lines ∧ isFence l = false :=
    fun c hc l hl => mem_of_mem_splitOnP hc hl
  rw [segment_eq, blocksOf_eq_chunkBlocks]
  exact forall_mem_chunkBlocks (fun c hc l hl => (hchunks c hc l hl).2)
    (fun c hc l hl => hlines l (hchunks c hc l hl).1 (hchunks c hc l hl).2)
    (fun c hc => hcode c (hchunks c hc)) 0

end Invariant

/-- No line outside fences gives code. -/
theorem Line.gives_not_code (raw : Text) : Gives (fun b => ∀ u, b ≠ .code u) raw where
  own b hb u := by
    rintro rfl
    cases hk : kind raw <;> simp [hk, Kind.emitted, Kind.opened, OpenBlock.close] at hb
  continued h _ b hb u := by
    rintro rfl
    cases h <;> simp [OpenBlock.close] at hb

/-- The code of a text is what stands in its fences. -/
theorem code_mem_segment_iff {t u : Text} :
    .code u ∈ segment t ↔
      ∃ i ls, (t.lines.splitOnP isFence)[i]? = some ls ∧ i % 2 = 1 ∧ u = unlines ls := by
  have hnone : ∀ ls ∈ t.lines.splitOnP isFence, .code u ∉ blocksOf ls := by
    intro ls hls hu
    have hfence : ∀ l ∈ ls, isFence l = false := fun l hl => (mem_of_mem_splitOnP hls hl).2
    have hstart : ∀ b ∈ start.finish, ∀ v, b ≠ .code v := by
      simp [finish_eq, start, OpenBlock.close]
    rw [blocksOf, foldl_step_of_fence_eq_none rfl hfence] at hu
    exact forall_mem_finish_foldl (fun l _ => gives_not_code l) rfl hstart _ hu u rfl
  rw [segment_eq, blocksOf_eq_chunkBlocks, chunkBlocks, List.mem_flatten]
  simp only [List.mem_mapIdx, Nat.zero_add]
  constructor
  · rintro ⟨bs, ⟨i, hi, rfl⟩, hu⟩
    by_cases heven : i % 2 = 0
    · rw [if_pos heven] at hu
      exact absurd hu (hnone _ (List.getElem_mem hi))
    · rw [if_neg heven, List.mem_singleton] at hu
      exact ⟨i, _, List.getElem?_eq_getElem hi, by omega, Block.code.inj hu⟩
  · rintro ⟨i, ls, hls, hodd, rfl⟩
    obtain ⟨hi, rfl⟩ := List.getElem?_eq_some_iff.1 hls
    exact ⟨_, ⟨i, hi, rfl⟩, by rw [if_neg (by omega)]; exact List.mem_singleton_self _⟩

namespace Line

theorem mem_of_mem_cells {l c : Text} (hc : c ∈ cells l) {x : Char} (hx : x ∈ c) : x ∈ l := by
  obtain ⟨p, hp, rfl⟩ := List.mem_map.1 hc
  have hinner := mem_of_mem_splitOn hp (mem_of_mem_trim hx)
  exact mem_of_mem_trim (List.mem_of_mem_drop (List.dropLast_subset _ hinner))

theorem mem_of_mem_payload {raw : Text} {k : Kind} (h : Reads raw k) {c : Char}
    (hc : c ∈ k.payload) : c ∈ raw := by
  cases h with
  | drawn _ | plain => exact mem_of_mem_trimRight hc
  | row _ =>
    obtain ⟨cell, hcell, hc⟩ := List.mem_flatten.1 hc
    exact mem_of_mem_cells hcell hc
  | heading _ h =>
    rw [h]
    simp [mem_of_mem_trimRight hc]
  | bullet h =>
    rcases h with rfl | rfl <;> simp [mem_of_mem_trimRight hc]
  | numbered _ _ h =>
    rw [h]
    simp [mem_of_mem_trimRight hc]
  | blank _ => simp [Kind.payload] at hc

/-- A line adds its own characters to a block, and no others. -/
theorem gives_mem_of_subset {raw : Text} {S : Char → Prop} (hraw : ∀ c ∈ raw, S c) :
    Gives (fun b => ∀ c ∈ b.payload, S c) raw where
  own b hb c hc := by
    refine hraw c (mem_of_mem_payload (reads_kind raw) ?_)
    revert hb hc
    cases kind raw <;> simp +contextual [Kind.emitted, Kind.opened, OpenBlock.close, Block.payload,
      Kind.payload]
  continued := by
    intro o o' h ho
    have hkind : ∀ c ∈ (kind raw).payload, S c := fun c hc =>
      hraw c (mem_of_mem_payload (reads_kind raw) hc)
    cases h with
    | line hk | bullet hk | numbered hk =>
      rw [hk] at hkind
      simp only [OpenBlock.close, List.forall_mem_singleton, Block.payload] at ho ⊢
      rw [List.reverse_cons, List.flatten_append, List.flatten_singleton]
      exact List.forall_mem_append.2 ⟨ho, hkind⟩
    | rule _ => exact ho
    | @row rows _ _ =>
      have hcells : ∀ c ∈ (cells raw).flatten, S c := fun c hc => by
        obtain ⟨cell, hcell, hc⟩ := List.mem_flatten.1 hc
        exact hraw c (mem_of_mem_cells hcell hc)
      simp only [OpenBlock.close, List.forall_mem_singleton, Block.payload] at ho ⊢
      rw [List.reverse_cons, List.flatten_append, List.flatten_append, List.flatten_singleton]
      exact List.forall_mem_append.2 ⟨ho, hcells⟩
    | gap _ => exact ho
    | drawn _ =>
      have hline : ∀ c ∈ raw.trimRight, S c := fun c hc => hraw c (mem_of_mem_trimRight hc)
      simp only [OpenBlock.close, List.forall_mem_singleton, Block.payload] at ho ⊢
      simpa [or_imp, forall_and] using And.intro ho hline

end Line

/-- The characters of a block are characters of the text, or breaks between its lines. -/
theorem mem_of_mem_payload_segment {t : Text} {b : Block} (hb : b ∈ segment t) {c : Char}
    (hc : c ∈ b.payload) : c ∈ t ∨ c = '\n' := by
  refine forall_mem_segment (P := fun b => ∀ c ∈ b.payload, c ∈ t ∨ c = '\n') (fun l hl _ => ?_)
    (fun ls hls c hc => ?_) b hb c hc
  · exact Line.gives_mem_of_subset fun c hc => Or.inl (mem_of_mem_lines hl hc)
  · rcases mem_unlines hc with rfl | ⟨l, hl, hc⟩
    · exact Or.inr rfl
    · exact Or.inl (mem_of_mem_lines (hls l hl).1 hc)

end Letterhead
