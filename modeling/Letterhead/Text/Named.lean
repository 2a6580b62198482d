import Letterhead.Text.Basic

/-!
Values under names, in the order in which the names were first set.
-/

namespace Letterhead

abbrev Named (α : Type) := List (Text × α)

namespace Named

variable {α : Type}

def set (name : Text) (value : α) : Named α → Named α
  | [] => [(name, value)]
  | (n, v) :: rest => if n = name then (name, value) :: rest else (n, v) :: set name value rest

def setAll (more : Named α) (vs : Named α) : Named α :=
  more.foldl (fun vs f => set f.1 f.2 vs) vs

theorem lookup_set_self (name : Text) (value : α) (vs : Named α) :
    (set name value vs).lookup name = some value := by
  induction vs with
  | nil => simp [set]
  | cons f rest ih =>
    obtain ⟨n, v⟩ := f
    by_cases h : n = name
    · simp [set, h]
    · have h' : ¬ name = n := fun e => h e.symm
      simp [set, h, List.lookup_cons, beq_eq_false_iff_ne.mpr h', ih]

theorem lookup_set_of_ne {name other : Text} (h : other ≠ name) (value : α) (vs : Named α) :
    (set name value vs).lookup other = vs.lookup other := by
  induction vs with
  | nil => simp [set, List.lookup_cons, beq_eq_false_iff_ne.mpr h]
  | cons f rest ih =>
    obtain ⟨n, v⟩ := f
    by_cases hn : n = name
    · subst hn
      simp [set, List.lookup_cons, beq_eq_false_iff_ne.mpr h]
    · simp [set, hn, List.lookup_cons, ih]

end Named
end Letterhead
