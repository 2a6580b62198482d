import Letterhead.Store.Row
import Mathlib.Data.List.Nodup
import Mathlib.Data.Prod.Lex

/-! Orders of rows. Both orders in which rows are listed are linear orders of a moment and a number; rows
in the order of their creation are listed in reverse. -/
namespace Letterhead

/-- In a sorted list exactly those stand before the first exception that have none before them. -/
theorem mem_takeWhile_iff {α : Type} {le : α → α → Prop} {l : List α} (hl : l.Pairwise le)
    (hrefl : ∀ x ∈ l, le x x) (hanti : ∀ x ∈ l, ∀ y ∈ l, le x y → le y x → x = y) (p : α → Bool)
    (x : α) : x ∈ l.takeWhile p ↔ x ∈ l ∧ ∀ y ∈ l, le y x → p y = true := by
  induction l with
  | nil => simp
  | cons a l ih =>
    obtain ⟨ha, hl⟩ := List.pairwise_cons.1 hl
    have htail := ih hl (fun y hy => hrefl y (List.mem_cons_of_mem a hy)) fun y hy z hz =>
      hanti y (List.mem_cons_of_mem a hy) z (List.mem_cons_of_mem a hz)
    -- The first element comes before all others, and only it comes before itself.
    have hleast : ∀ y ∈ a :: l, le y a → y = a := by
      intro y hy hya
      cases List.mem_cons.1 hy with
      | inl he => exact he
      | inr hy => exact hanti y (List.mem_cons_of_mem a hy) a (by simp) hya (ha y hy)
    cases hp : p a with
    | false =>
      rw [List.takeWhile_cons_of_neg (by simp [hp])]
      refine iff_of_false (by simp) fun h => ?_
      have hax : le a x := by
        cases List.mem_cons.1 h.1 with
        | inl he => exact he ▸ hrefl a (by simp)
        | inr hx => exact ha x hx
      exact absurd (h.2 a (by simp) hax) (by simp [hp])
    | true =>
      rw [List.takeWhile_cons_of_pos hp, List.mem_cons, htail, List.mem_cons]
      constructor
      · rintro (rfl | ⟨hx, h⟩)
        · exact ⟨Or.inl rfl, fun y hy hyx => hleast y hy hyx ▸ hp⟩
        · refine ⟨Or.inr hx, fun y hy hyx => ?_⟩
          cases List.mem_cons.1 hy with
          | inl he => exact he ▸ hp
          | inr hy => exact h y hy hyx
      · rintro ⟨rfl | hx, h⟩
        · exact Or.inl rfl
        · exact Or.inr ⟨hx, fun y hy => h y (List.mem_cons_of_mem a hy)⟩

namespace Row

def expiryRank (r : Row) : Int ×ₗ Int ×ₗ Int :=
  match r.expires with
  | none => toLex (1, toLex (0, r.id))
  | some i => toLex (0, toLex (i.micros, r.id))

def creationRank (r : Row) : Int ×ₗ Int ×ₗ Int :=
  match r.created with
  | none => toLex (0, toLex (0, r.id))
  | some i => toLex (1, toLex (i.micros, r.id))

theorem id_eq_of_expiryRank_eq {a b : Row} (h : a.expiryRank = b.expiryRank) : a.id = b.id := by
  have hid : ∀ r : Row, (ofLex (ofLex r.expiryRank).2).2 = r.id := by
    intro r
    unfold expiryRank
    split <;> rfl
  rw [← hid a, h, hid b]

theorem soonerFirst_iff {a b : Row} : soonerFirst a b = true ↔ a.expiryRank ≤ b.expiryRank := by
  unfold soonerFirst expiryRank
  rcases a.expires with _ | ⟨⟨x⟩⟩ <;> rcases b.expires with _ | ⟨⟨y⟩⟩ <;>
    simp [Instant.before, Prod.Lex.toLex_le_toLex]

theorem laterFirst_iff {a b : Row} : laterFirst a b = true ↔ b.creationRank ≤ a.creationRank := by
  unfold laterFirst creationRank
  rcases a.created with _ | ⟨⟨x⟩⟩ <;> rcases b.created with _ | ⟨⟨y⟩⟩
  · simp [Prod.Lex.toLex_le_toLex]
  · simp [Prod.Lex.toLex_le_toLex]
  · simp [Prod.Lex.toLex_le_toLex]
  · simp [Instant.before, Prod.Lex.toLex_le_toLex, eq_comm (a := x)]

theorem pairwise_mergeSort_soonerFirst (rs : List Row) :
    (rs.mergeSort soonerFirst).Pairwise fun a b => a.expiryRank ≤ b.expiryRank := by
  have htrans : ∀ a b c, soonerFirst a b = true → soonerFirst b c = true → soonerFirst a c = true :=
    fun a b c hab hbc => soonerFirst_iff.2 ((soonerFirst_iff.1 hab).trans (soonerFirst_iff.1 hbc))
  have htotal : ∀ a b, (soonerFirst a b || soonerFirst b a) = true := fun a b => by
    simpa [soonerFirst_iff] using le_total a.expiryRank b.expiryRank
  exact (List.pairwise_mergeSort htrans htotal rs).imp soonerFirst_iff.1

theorem pairwise_mergeSort_laterFirst (rs : List Row) :
    (rs.mergeSort laterFirst).Pairwise fun a b => b.creationRank ≤ a.creationRank := by
  have htrans : ∀ a b c, laterFirst a b = true → laterFirst b c = true → laterFirst a c = true :=
    fun a b c hab hbc => laterFirst_iff.2 ((laterFirst_iff.1 hbc).trans (laterFirst_iff.1 hab))
  have htotal : ∀ a b, (laterFirst a b || laterFirst b a) = true := fun a b => by
    simpa [laterFirst_iff] using le_total b.creationRank a.creationRank
  exact (List.pairwise_mergeSort htrans htotal rs).imp laterFirst_iff.1

/-- Rows in the order of their creation are listed in reverse. -/
theorem mergeSort_laterFirst {rs : List Row}
    (h : rs.Pairwise fun a b => a.creationRank < b.creationRank) :
    rs.mergeSort laterFirst = rs.reverse := by
  have hreversed : rs.reverse.Pairwise fun a b => b.creationRank ≤ a.creationRank :=
    List.pairwise_reverse.2 (h.imp le_of_lt)
  refine List.Perm.eq_of_pairwise (fun a b ha hb hab hba => ?_)
    (pairwise_mergeSort_laterFirst rs) hreversed
    ((List.mergeSort_perm rs laterFirst).trans rs.reverse_perm.symm)
  have hinj := List.inj_on_of_nodup_map (f := creationRank) (l := rs)
    (List.pairwise_map.2 (h.imp ne_of_lt))
  exact hinj (by simpa using ha) (by simpa using hb) (le_antisymm hba hab)

end Row
end Letterhead
