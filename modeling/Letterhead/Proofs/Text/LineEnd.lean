import Letterhead.Proofs.Text.Lines
import Mathlib.Data.List.Chain

/-! Ends of lines. A line feed, a carriage return and the two together end a line alike, and what stands
between two ends is a line. Only a return that meets the line feed of an empty line is not told from a
single end. -/
namespace Letterhead.Text

theorem snd_foldr_prependBreak (t : Text) :
    (t.foldr prependBreak ([], false)).2 = (t.head? == some '\n') := by
  cases t with
  | nil => rfl
  | cons c t =>
    rw [List.foldr_cons, prependBreak, List.head?_cons]
    by_cases hc : c = '\r'
    · simp [hc]
    · simp [hc, beq_eq_decide]

theorem normalizeBreaks_cons (c : Char) (t : Text) :
    normalizeBreaks (c :: t) =
      if c = '\r' then
        if t.head? = some '\n' then normalizeBreaks t else '\n' :: normalizeBreaks t
      else c :: normalizeBreaks t := by
  rw [normalizeBreaks, List.foldr_cons, prependBreak, snd_foldr_prependBreak, normalizeBreaks]
  simp only [beq_iff_eq]
  split <;> rfl

def joinPairs : Text → Text
  | '\r' :: '\n' :: t => '\n' :: joinPairs t
  | c :: t => c :: joinPairs t
  | [] => []

/-- Pairs may be joined first, and the returns that are left be replaced after that. -/
theorem normalizeBreaks_eq_map_joinPairs (t : Text) :
    normalizeBreaks t = (joinPairs t).map fun c => if c = '\r' then '\n' else c := by
  fun_induction joinPairs t with
  | case1 t ih => simp [normalizeBreaks_cons, ih]
  | case2 c t hpair ih =>
    rw [normalizeBreaks_cons, List.map_cons, ih]
    by_cases hc : c = '\r'
    · have hhead : t.head? ≠ some '\n' := by
        intro hhead
        obtain ⟨u, rfl⟩ := List.head?_eq_some_iff.1 hhead
        exact hpair u hc rfl
      rw [if_pos hc, if_neg hhead, if_pos hc]
    · rw [if_neg hc, if_neg hc]
  | case3 => rfl

/-- Texts are normalized apart unless a return and a line feed meet between them. -/
theorem normalizeBreaks_append {s t : Text}
    (h : s.getLast? = some '\r' → t.head? ≠ some '\n') :
    normalizeBreaks (s ++ t) = normalizeBreaks s ++ normalizeBreaks t := by
  induction s with
  | nil => rfl
  | cons c s ih =>
    cases s with
    | nil =>
      rw [List.singleton_append, normalizeBreaks_cons, normalizeBreaks_cons]
      by_cases hc : c = '\r'
      · have hhead := h (by rw [hc]; rfl)
        simp [hc, hhead, normalizeBreaks]
      · simp [hc, normalizeBreaks]
    | cons d s =>
      have hrest := ih (by simpa only [List.getLast?_cons_cons] using h)
      rw [List.cons_append, normalizeBreaks_cons, hrest, normalizeBreaks_cons c]
      rw [List.cons_append, List.head?_cons, List.head?_cons]
      by_cases hc : c = '\r'
      · by_cases hd : d = '\n' <;> simp [hc, hd]
      · simp [hc]

/-- A text is empty or ends with a line break, so that a line starts behind it. -/
def EndsLine (t : Text) : Prop := ∀ c ∈ t.getLast?, c = '\n' ∨ c = '\r'

/-- A text is empty or starts with a line break, so that the line before it ends there. -/
def StartsBreak (t : Text) : Prop := ∀ c ∈ t.head?, c = '\n' ∨ c = '\r'

instance (t : Text) : Decidable (EndsLine t) :=
  decidable_of_iff (t.getLast?.all fun c => c = '\n' ∨ c = '\r')
    (by simp [EndsLine, Option.all_eq_true])

instance (t : Text) : Decidable (StartsBreak t) :=
  decidable_of_iff (t.head?.all fun c => c = '\n' ∨ c = '\r')
    (by simp [StartsBreak, Option.all_eq_true])

theorem IsLine.normalizeBreaks_append {l : Text} (hl : IsLine l) (t : Text) :
    normalizeBreaks (l ++ t) = l ++ normalizeBreaks t := by
  have hlast : l.getLast? ≠ some '\r' := fun h => hl.2 (List.mem_of_getLast? h)
  rw [Text.normalizeBreaks_append fun h => absurd h hlast, normalizeBreaks_of_not_mem hl.2]

theorem IsLine.head?_append_ne {l : Text} (hl : IsLine l) (hne : l ≠ []) (t : Text) :
    (l ++ t).head? ≠ some '\n' := by
  rw [List.head?_append_of_ne_nil _ hne]
  exact fun h => hl.1 (List.mem_of_head? h)

theorem lines_line_append_text {l : Text} (hl : IsLine l) (t : Text) :
    lines (l ++ t) = (lines t).modifyHead (l ++ ·) := by
  rw [lines, hl.normalizeBreaks_append, splitOn_append_of_not_mem hl.1, lines]

theorem exists_normalizeBreaks_concat {c : Char} (hc : c = '\n' ∨ c = '\r') (s : Text) :
    ∃ u, normalizeBreaks (s ++ [c]) = u ++ ['\n'] := by
  induction s with
  | nil =>
    refine ⟨[], ?_⟩
    rcases hc with rfl | rfl <;> rfl
  | cons d s ih =>
    obtain ⟨u, hu⟩ := ih
    rw [List.cons_append, normalizeBreaks_cons, hu]
    split
    · split
      · exact ⟨u, rfl⟩
      · exact ⟨'\n' :: u, rfl⟩
    · exact ⟨d :: u, rfl⟩

/-- Behind the end of a line the lines start anew; the empty line that stood there is filled. -/
theorem lines_append_of_endsLine {s t : Text} (hs : EndsLine s) (ht : t.head? ≠ some '\n') :
    lines (s ++ t) = (lines s).dropLast ++ lines t := by
  rcases List.eq_nil_or_concat' s with rfl | ⟨r, c, rfl⟩
  · simp
  · obtain ⟨u, hu⟩ := exists_normalizeBreaks_concat (hs c (by simp)) r
    have hempty : lines (r ++ [c]) = u.splitOn '\n' ++ [[]] := by
      rw [lines, hu, List.splitOn_append_cons_self, List.splitOn_nil]
    rw [hempty, List.dropLast_concat, lines, normalizeBreaks_append fun _ => ht, hu,
      List.append_assoc, List.singleton_append, List.splitOn_append_cons_self, lines]

theorem lines_eq_dropLast_concat {s : Text} (hs : EndsLine s) :
    lines s = (lines s).dropLast ++ [[]] := by
  simpa using lines_append_of_endsLine hs (t := []) (by simp)

theorem exists_lines_of_startsBreak {t : Text} (ht : StartsBreak t) :
    ∃ ls, lines t = [] :: ls := by
  suffices h : t = [] ∨ ∃ u, normalizeBreaks t = '\n' :: u by
    rcases h with rfl | ⟨u, hu⟩
    · exact ⟨[], lines_nil⟩
    · refine ⟨u.splitOn '\n', ?_⟩
      rw [lines, hu, ← List.nil_append ('\n' :: u), List.splitOn_append_cons_self,
        List.splitOn_nil, List.singleton_append]
  cases t with
  | nil => exact Or.inl rfl
  | cons c t =>
    refine Or.inr ?_
    rw [normalizeBreaks_cons]
    by_cases hc : c = '\r'
    · rw [if_pos hc]
      split
      · next hhead =>
        obtain ⟨u, rfl⟩ := List.head?_eq_some_iff.1 hhead
        exact ⟨normalizeBreaks u, by rw [normalizeBreaks_cons, if_neg (by decide)]⟩
      · exact ⟨_, rfl⟩
    · exact ⟨_, by rw [if_neg hc, (ht c rfl).resolve_right hc]⟩

inductive LineEnd where
  | lineFeed
  | carriageReturn
  | both
deriving DecidableEq, Repr

namespace LineEnd

def text : LineEnd → Text
  | lineFeed => ['\n']
  | carriageReturn => ['\r']
  | both => ['\r', '\n']

theorem normalizeBreaks_text (e : LineEnd) : normalizeBreaks e.text = ['\n'] := by
  cases e <;> rfl

theorem getLast?_text {e : LineEnd} (h : e.text.getLast? = some '\r') : e = carriageReturn := by
  cases e with
  | carriageReturn => rfl
  | _ => exact absurd h (by decide)

end LineEnd

abbrev EndedLine := Text × LineEnd

def ended (ls : List EndedLine) : Text := ls.flatMap fun l => l.1 ++ l.2.text

/-- The first line does not end with a return that the line feed of an empty line follows. -/
def StaysApart (l m : EndedLine) : Prop := l.2 = .carriageReturn → m ≠ ([], .lineFeed)

instance (l m : EndedLine) : Decidable (StaysApart l m) := inferInstanceAs (Decidable (_ → _))

theorem lines_lineEnd_append {l : Text} (hl : IsLine l) {e : LineEnd} {t : Text}
    (ht : e = .carriageReturn → t.head? ≠ some '\n') :
    lines (l ++ e.text ++ t) = l :: lines t := by
  have hbreak : normalizeBreaks (e.text ++ t) = '\n' :: normalizeBreaks t := by
    rw [normalizeBreaks_append fun h => ht (LineEnd.getLast?_text h), e.normalizeBreaks_text]
    rfl
  rw [List.append_assoc, lines, hl.normalizeBreaks_append, hbreak,
    List.splitOn_append_cons_self, List.splitOn_eq_singleton hl.1, List.singleton_append, lines]

theorem head?_ended_append {l : EndedLine} {ls : List EndedLine} {last : Text}
    (hls : ∀ m ∈ ls, IsLine m.1) (hlast : IsLine last) (hapart : ∀ m ∈ ls.head?, StaysApart l m)
    (hl : l.2 = .carriageReturn) : (ended ls ++ last).head? ≠ some '\n' := by
  cases ls with
  | nil => exact fun h => hlast.1 (List.mem_of_head? h)
  | cons m ls =>
    obtain ⟨k, e⟩ := m
    rw [ended, List.flatMap_cons, List.append_assoc, List.append_assoc]
    by_cases hk : k = []
    · have he : e ≠ .lineFeed := fun he => hapart (k, e) rfl hl (by rw [hk, he])
      cases e with
      | lineFeed => exact absurd rfl he
      | carriageReturn | both => simp [hk, LineEnd.text]
    · exact (hls (k, e) (by simp)).head?_append_ne hk _

/-- Whatever ends them, the lines of a text are the lines that it was put together from. -/
theorem lines_ended_append {ls : List EndedLine} (hls : ∀ l ∈ ls, IsLine l.1)
    (hapart : ls.IsChain StaysApart) {last : Text} (hlast : IsLine last) :
    lines (ended ls ++ last) = ls.map Prod.fst ++ [last] := by
  induction ls with
  | nil =>
    rw [ended, List.flatMap_nil, List.nil_append, lines_of_not_mem hlast.2,
      List.splitOn_eq_singleton hlast.1]
    rfl
  | cons l ls ih =>
    obtain ⟨hl, hls⟩ := List.forall_mem_cons.1 hls
    have hnext : ∀ m ∈ ls.head?, StaysApart l m := fun m hm => hapart.rel_head? hm
    have hhead := head?_ended_append hls hlast hnext
    have hcons : ended (l :: ls) ++ last = l.1 ++ l.2.text ++ (ended ls ++ last) := by
      rw [ended, List.flatMap_cons, List.append_assoc]
      rfl
    rw [hcons, lines_lineEnd_append hl hhead, ih hls hapart.tail]
    rfl

end Letterhead.Text
