import Letterhead.Store.Schema
import Mathlib.Data.List.Forall2
import Mathlib.Data.List.Nodup

/-! Changes of tables that are taken back. Whatever tables there are, the changes that remove the
tables of a store lead back from where the changes that make them lead to. -/
namespace Letterhead.Schema
variable {s s' : Schema} {c d : Change} {name : String} {t u : Table}

inductive Undoes : Change → Change → Prop
  | table (name : String) (t : Table) : Undoes (.dropTable name) (.createTable name t)
  | index (name table : String) (columns : List String) :
      Undoes (.dropIndex name table) (.createIndex name table columns)

def IsKeyed (s : Schema) : Prop := (s.map Prod.fst).Nodup

theorem exists_split (hs : IsKeyed s) (h : s.lookup name = some t) :
    ∃ l r, s = l ++ (name, t) :: r ∧ (∀ e ∈ l, e.1 ≠ name) ∧ ∀ e ∈ r, e.1 ≠ name := by
  obtain ⟨l, r, rfl, hl⟩ := List.lookup_eq_some_iff.1 h
  rw [IsKeyed, List.map_append, List.map_cons] at hs
  have hr : name ∉ r.map Prod.fst := (List.nodup_cons.1 hs.of_append_right).1
  refine ⟨l, r, rfl, fun e he hname => ?_, fun e he hname => hr ?_⟩
  · have := hl e he
    simp [hname] at this
  · exact hname ▸ List.mem_map_of_mem he

theorem replace_split {l r : Schema} (hl : ∀ e ∈ l, e.1 ≠ name) (hr : ∀ e ∈ r, e.1 ≠ name) :
    replace (l ++ (name, t) :: r) name u = l ++ (name, u) :: r := by
  have hkept : ∀ m : Schema, (∀ e ∈ m, e.1 ≠ name) → replace m name u = m := by
    intro m hm
    refine (List.map_congr_left fun e he => ?_).trans (List.map_id m)
    rw [if_neg (by simpa using hm e he), id]
  rw [replace, List.map_append, List.map_cons, ← replace, ← replace, hkept l hl, hkept r hr]
  simp

theorem lookup_split {l r : Schema} (hl : ∀ e ∈ l, e.1 ≠ name) :
    (l ++ (name, t) :: r).lookup name = some t :=
  List.lookup_eq_some_iff.2 ⟨l, r, rfl, fun e he => by simpa using (hl e he).symm⟩

/-- A change that makes something keeps the names of tables apart and can be taken back. -/
theorem make?_of_undoes (h : Undoes d c) (hs : IsKeyed s) (hmade : c.make? s = some s') :
    IsKeyed s' ∧ d.make? s' = some s := by
  cases h with
  | table name t =>
    simp only [Change.make?] at hmade
    split at hmade
    · cases hmade
    · next hnone =>
      cases hmade
      have hfresh : ∀ e ∈ s, e.1 ≠ name := by
        intro e he hname
        have := List.lookup_eq_none_iff.1 (Option.not_isSome_iff_eq_none.1 hnone) e he
        simp [hname] at this
      constructor
      · rw [IsKeyed, List.map_append, List.map_singleton]
        refine hs.append (List.nodup_singleton name) (List.disjoint_singleton.2 fun hmem => ?_)
        obtain ⟨e, he, hname⟩ := List.mem_map.1 hmem
        exact hfresh e he hname
      · have hkept : s.filter (fun e => e.1 != name) = s :=
          List.filter_eq_self.2 fun e he => by simpa using hfresh e he
        rw [Change.make?, lookup_split hfresh]
        simp [hkept]
  | index name table columns =>
    simp only [Change.make?] at hmade
    split at hmade
    · next t hlookup =>
      split at hmade
      · cases hmade
      · next hindex =>
        cases hmade
        obtain ⟨l, r, rfl, hl, hr⟩ := exists_split hs hlookup
        have hkept : t.indexes.filter (fun i => i.1 != name) = t.indexes :=
          List.filter_eq_self.2 fun i hi => by
            simp only [Table.hasIndex, List.any_eq_true, not_exists, not_and] at hindex
            simpa using hindex i hi
        rw [replace_split hl hr]
        refine ⟨by simpa [IsKeyed] using hs, ?_⟩
        rw [Change.make?, lookup_split hl]
        simp [Table.hasIndex, replace_split hl hr, List.filter_append, hkept]
    · cases hmade

theorem makeAll?_append (s : Schema) (cs ds : List Change) :
    makeAll? s (cs ++ ds) = makeAll? s cs >>= fun s' => makeAll? s' ds := by
  simp [makeAll?, List.foldlM_append]

/-- Changes that make something are taken back one by one, the last one first. -/
theorem makeAll?_reverse {cs ds : List Change} (h : List.Forall₂ Undoes ds cs) (hs : IsKeyed s)
    (hmade : makeAll? s cs = some s') : makeAll? s' ds.reverse = some s := by
  induction h generalizing s with
  | nil =>
    cases hmade
    rfl
  | cons hfirst _ ih =>
    rename_i d c ds cs
    obtain ⟨m, hm, hrest⟩ := Option.bind_eq_some_iff.1 hmade
    obtain ⟨hkeyed, hback⟩ := make?_of_undoes hfirst hs hm
    rw [List.reverse_cons, makeAll?_append, ih hkeyed hrest]
    simpa [makeAll?] using hback

/-- Among whatever tables a store is made, removing it leaves them as they were. -/
theorem makeAll?_downgrade (hs : IsKeyed s) (h : makeAll? s upgrade = some s') :
    makeAll? s' downgrade = some s :=
  makeAll?_reverse (.cons (.table _ _) (.cons (.table _ _) (.cons (.index _ _ _)
    (.cons (.index _ _ _) .nil)))) hs h

example : makeAll? [] upgrade = some current := by decide

end Letterhead.Schema
