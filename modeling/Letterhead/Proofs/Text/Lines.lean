import Letterhead.Content.Line
import Mathlib.Data.List.Basic

/-! Lines of a text. Lines hold no line breaks, and joining lines with line feeds is undone by cutting
the text again. -/
namespace Letterhead.Text

def unlines (ls : List Text) : Text := ['\n'].intercalate ls

def IsLine (t : Text) : Prop := '\n' ∉ t ∧ '\r' ∉ t

instance (t : Text) : Decidable (IsLine t) := inferInstanceAs (Decidable (_ ∧ _))

theorem IsLine.of_subset {s t : Text} (h : IsLine t) (hs : ∀ c ∈ s, c ∈ t) : IsLine s :=
  ⟨fun hc => h.1 (hs _ hc), fun hc => h.2 (hs _ hc)⟩

@[simp] theorem unlines_nil : unlines [] = [] := rfl

@[simp] theorem unlines_singleton (l : Text) : unlines [l] = l := List.intercalate_singleton

theorem unlines_cons_cons (l m : Text) (ls : List Text) :
    unlines (l :: m :: ls) = l ++ '\n' :: unlines (m :: ls) := by
  simp [unlines, List.intercalate_cons_cons]

theorem mem_of_mem_intercalate {α : Type} {sep : List α} {ls : List (List α)} {x : α}
    (h : x ∈ sep.intercalate ls) : x ∈ sep ∨ ∃ l ∈ ls, x ∈ l := by
  induction ls with
  | nil => simp at h
  | cons l ls ih =>
    cases ls with
    | nil => exact Or.inr ⟨l, by simp, by simpa using h⟩
    | cons m ls =>
      rw [List.intercalate_cons_cons, List.append_assoc, List.mem_append, List.mem_append] at h
      rcases h with h | h | h
      · exact Or.inr ⟨l, by simp, h⟩
      · exact Or.inl h
      · rcases ih h with h | ⟨k, hk, hx⟩
        · exact Or.inl h
        · exact Or.inr ⟨k, List.mem_cons_of_mem _ hk, hx⟩

theorem mem_unlines {c : Char} {ls : List Text} (h : c ∈ unlines ls) :
    c = '\n' ∨ ∃ l ∈ ls, c ∈ l := by
  simpa using mem_of_mem_intercalate h

theorem normalizeBreaks_of_not_mem {t : Text} (h : '\r' ∉ t) : normalizeBreaks t = t := by
  unfold normalizeBreaks
  induction t with
  | nil => rfl
  | cons c t ih =>
    have hc : c ≠ '\r' := fun e => h (by simp [e])
    have ht : '\r' ∉ t := fun e => h (List.mem_cons_of_mem _ e)
    rw [List.foldr_cons, prependBreak, if_neg hc, ih ht]

theorem not_mem_normalizeBreaks (t : Text) : '\r' ∉ normalizeBreaks t := by
  unfold normalizeBreaks
  induction t with
  | nil => simp
  | cons c t ih =>
    rw [List.foldr_cons, prependBreak]
    by_cases hc : c = '\r'
    · rw [if_pos hc]
      split
      · exact ih
      · simpa using ih
    · rw [if_neg hc]
      simpa using ⟨fun e => hc e.symm, ih⟩

theorem mem_of_mem_normalizeBreaks {c : Char} {t : Text} (h : c ∈ normalizeBreaks t) :
    c ∈ t ∨ c = '\n' := by
  unfold normalizeBreaks at h
  induction t with
  | nil => simp at h
  | cons d t ih =>
    rw [List.foldr_cons, prependBreak] at h
    have hstep : c = d ∨ c = '\n' ∨ c ∈ (t.foldr prependBreak ([], false)).1 := by
      split at h
      · split at h
        · exact Or.inr (Or.inr h)
        · exact Or.inr (List.mem_cons.1 h)
      · exact (List.mem_cons.1 h).imp_right Or.inr
    rcases hstep with rfl | rfl | h
    · simp
    · simp
    · exact (ih h).imp_left (List.mem_cons_of_mem d)

section Split
variable {α : Type} {p : α → Bool}

theorem exists_splitOnP_cons (p : α → Bool) (x : α) (xs : List α) :
    ∃ m ms, xs.splitOnP p = m :: ms ∧
      (x :: xs).splitOnP p = if p x then [] :: m :: ms else (x :: m) :: ms := by
  obtain ⟨m, ms, hm⟩ := List.exists_cons_of_ne_nil (List.splitOnP_ne_nil p xs)
  exact ⟨m, ms, hm, by rw [List.splitOnP_cons_eq_if_modifyHead, hm, List.modifyHead_cons]⟩

/-- Only separators are lost where a list is cut. -/
theorem flatten_splitOnP (xs : List α) : (xs.splitOnP p).flatten = xs.filter fun x => !p x := by
  induction xs with
  | nil => simp [List.splitOnP_nil]
  | cons x xs ih =>
    obtain ⟨m, ms, hm, hx⟩ := exists_splitOnP_cons p x xs
    rw [hm, List.flatten_cons] at ih
    rw [hx, List.filter_cons]
    cases p x <;> simp [ih]

theorem mem_of_mem_splitOnP {xs l : List α} (h : l ∈ xs.splitOnP p) {x : α} (hx : x ∈ l) :
    x ∈ xs ∧ p x = false := by
  have hmem : x ∈ xs.filter fun x => !p x := by
    rw [← flatten_splitOnP]
    exact List.mem_flatten.2 ⟨l, h, hx⟩
  simpa using hmem

/-- Only separators are added where lists are joined. -/
theorem filter_intercalate {sep : List α} (h : ∀ x ∈ sep, p x = false) (ls : List (List α)) :
    (sep.intercalate ls).filter p = ls.flatten.filter p := by
  have hsep : sep.filter p = [] := List.filter_eq_nil_iff.2 fun x hx => by simp [h x hx]
  induction ls with
  | nil => rfl
  | cons l ls ih =>
    cases ls with
    | nil => simp
    | cons m ls =>
      rw [List.intercalate_cons_cons, List.filter_append, List.filter_append, hsep, ih,
        List.flatten_cons, List.filter_append]
      simp

end Split

section SplitOn
variable {α : Type} [BEq α] [LawfulBEq α] {a : α}

omit [LawfulBEq α] in
theorem mem_of_mem_splitOn {xs l : List α} (h : l ∈ xs.splitOn a) {x : α} (hx : x ∈ l) :
    x ∈ xs :=
  (mem_of_mem_splitOnP h hx).1

theorem not_mem_of_mem_splitOn {xs l : List α} (h : l ∈ xs.splitOn a) : a ∉ l := by
  intro ha
  simpa using (mem_of_mem_splitOnP h ha).2

theorem splitOn_append_of_not_mem {s : List α} (hs : a ∉ s) (t : List α) :
    (s ++ t).splitOn a = (t.splitOn a).modifyHead (s ++ ·) := by
  induction s with
  | nil =>
    rw [List.nil_append]
    cases t.splitOn a <;> rfl
  | cons x s ih =>
    have hx : (x == a) = false := beq_eq_false_iff_ne.2 fun he => hs (by simp [he])
    rw [List.cons_append, List.splitOn_cons_eq_if_modifyHead, hx, if_neg (by simp),
      ih fun h => hs (List.mem_cons_of_mem x h), List.modifyHead_modifyHead]
    rfl

theorem filter_flatten_splitOn {q : α → Bool} (hq : q a = false) (xs : List α) :
    (xs.splitOn a).flatten.filter q = xs.filter q := by
  rw [List.splitOn_eq_splitOnP, flatten_splitOnP, List.filter_filter]
  apply List.filter_congr
  intro x _
  by_cases hx : x = a
  · simp [hx, hq]
  · simp [hx]

end SplitOn

theorem lines_of_not_mem {t : Text} (h : '\r' ∉ t) : lines t = t.splitOn '\n' := by
  rw [lines, normalizeBreaks_of_not_mem h]

@[simp] theorem lines_nil : lines [] = [[]] := List.splitOn_nil _

theorem isLine_of_mem_lines {t l : Text} (h : l ∈ lines t) : IsLine l :=
  ⟨not_mem_of_mem_splitOn h, fun hc => not_mem_normalizeBreaks t (mem_of_mem_splitOn h hc)⟩

theorem mem_of_mem_lines {t l : Text} (h : l ∈ lines t) {c : Char} (hc : c ∈ l) : c ∈ t := by
  have hbreak : c ≠ '\n' := fun he => (isLine_of_mem_lines h).1 (he ▸ hc)
  exact (mem_of_mem_normalizeBreaks (mem_of_mem_splitOn h hc)).resolve_right hbreak

theorem not_mem_unlines {ls : List Text} (h : ∀ l ∈ ls, IsLine l) : '\r' ∉ unlines ls := by
  intro hc
  rcases mem_unlines hc with hc | ⟨l, hl, hc⟩
  · exact absurd hc (by decide)
  · exact (h l hl).2 hc

theorem lines_unlines {ls : List Text} (hne : ls ≠ []) (h : ∀ l ∈ ls, IsLine l) :
    lines (unlines ls) = ls := by
  rw [lines_of_not_mem (not_mem_unlines h)]
  exact List.splitOn_intercalate _ (fun l hl => (h l hl).1) hne

theorem foldr_prependBreak (s x : Text) :
    s.foldr prependBreak (x, false) =
      (normalizeBreaks s ++ x, (s.foldr prependBreak ([], false)).2) := by
  induction s with
  | nil => rfl
  | cons c s ih =>
    rw [normalizeBreaks, List.foldr_cons, List.foldr_cons, ih]
    by_cases hc : c = '\r'
    · by_cases hfeed : (s.foldr prependBreak ([], false)).2 = true <;>
        simp [prependBreak, hc, hfeed, normalizeBreaks]
    · simp [prependBreak, hc, normalizeBreaks]

/-- A carriage return and the line feed after it are one line break. -/
theorem exists_lines_append_lineFeed (s t : Text) :
    ∃ r, (s = r ∨ s = r ++ ['\r']) ∧ lines (s ++ '\n' :: t) = lines r ++ lines t := by
  have hfeed : ('\n' :: t).foldr prependBreak ([], false) = ('\n' :: normalizeBreaks t, true) := rfl
  have hlines : ∀ r,
      normalizeBreaks (s ++ '\n' :: t) = normalizeBreaks r ++ '\n' :: normalizeBreaks t →
        lines (s ++ '\n' :: t) = lines r ++ lines t := fun r h => by
    rw [lines, h, List.splitOn_append_cons_self, lines, lines]
  rcases List.eq_nil_or_concat' s with rfl | ⟨r, c, rfl⟩
  · exact ⟨[], Or.inl rfl, hlines [] rfl⟩
  by_cases hc : c = '\r'
  · refine ⟨r, Or.inr (by rw [hc]), hlines r ?_⟩
    rw [normalizeBreaks, List.foldr_append, hfeed, List.foldr_append, hc]
    change (r.foldr prependBreak ('\n' :: normalizeBreaks t, false)).1 = _
    rw [foldr_prependBreak]
  · refine ⟨r ++ [c], Or.inl rfl, hlines _ ?_⟩
    -- Only a carriage return asks whether a line feed comes next.
    have hnext : ∀ b, (r ++ [c]).foldr prependBreak ('\n' :: normalizeBreaks t, b) =
        r.foldr prependBreak (c :: '\n' :: normalizeBreaks t, c = '\n') := fun b => by
      simp [List.foldr_append, prependBreak, hc]
    rw [normalizeBreaks, List.foldr_append, hfeed, hnext, ← hnext false, foldr_prependBreak]

theorem lines_concat_carriageReturn (s : Text) : lines (s ++ ['\r']) = lines s ++ [[]] := by
  have h : normalizeBreaks (s ++ ['\r']) = normalizeBreaks s ++ ['\n'] := by
    rw [normalizeBreaks, List.foldr_append]
    change (s.foldr prependBreak (['\n'], false)).1 = _
    rw [foldr_prependBreak]
  rw [lines, h, List.splitOn_append_cons_self, lines, List.splitOn_nil]

theorem lines_append_lineFeed {s : Text} (hs : '\r' ∉ s) (t : Text) :
    lines (s ++ '\n' :: t) = lines s ++ lines t := by
  obtain ⟨r, rfl | rfl, h⟩ := exists_lines_append_lineFeed s t
  · exact h
  · exact absurd (by simp) hs

theorem lines_line_append {l : Text} (hl : IsLine l) (t : Text) :
    lines (l ++ '\n' :: t) = l :: lines t := by
  rw [lines_append_lineFeed hl.2, lines_of_not_mem hl.2, List.splitOn_eq_singleton hl.1,
    List.singleton_append]

/-- What follows the last occurrence of a character is determined. -/
theorem eq_of_append_cons_eq {c : Char} {s s' t t' : Text} (ht : c ∉ t) (ht' : c ∉ t')
    (h : s ++ c :: t = s' ++ c :: t') : t = t' := by
  have hlast := congrArg (fun u => (List.splitOn c u).getLast?) h
  simpa [List.splitOn_append_cons_self, List.splitOn_eq_singleton ht,
    List.splitOn_eq_singleton ht'] using hlast

end Letterhead.Text
