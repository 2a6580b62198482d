import Letterhead.Content.Line
import Letterhead.Proofs.Text.Lines
import Letterhead.Proofs.Text.Trim

/-! What a line is taken as when it stands alone. The tests on a line are tried in a fixed order;
`Line.kind` is their outcome, and `Line.Reads` says what each outcome tells about the line. -/
namespace Letterhead.Line
open Text

inductive Kind where
  | drawn (line : Text)
  | row (cells : List Text)
  | heading (level : Nat) (text : Text)
  | bullet (item : Text)
  | numbered (item : Text)
  | plain (line : Text)
  | blank
deriving DecidableEq, Repr

/-- Drawings go before rows, rows before headings, headings before items. Marks are sought in the
line as it is written, drawings and rows in what is left when the blanks at its end are dropped. -/
def kind (raw : Text) : Kind :=
  if isDiagram raw.trimRight then .drawn raw.trimRight
  else if isRow raw then .row (cells raw)
  else
    match heading? raw, bullet? raw, numbered? raw with
    | some (level, text), _, _ => .heading level text.trimRight
    | none, some item, _ => .bullet item.trimRight
    | none, none, some item => .numbered item.trimRight
    | none, none, none => if raw.trimRight.isEmpty then .blank else .plain raw.trimRight

@[simp] theorem isSeparator_trimRight (l : Text) : isSeparator l.trimRight = isSeparator l := by
  simp [isSeparator]

@[simp] theorem isRow_trimRight (l : Text) : isRow l.trimRight = isRow l := by
  simp [isRow]

@[simp] theorem cells_trimRight (l : Text) : cells l.trimRight = cells l := by
  simp [cells]

@[simp] theorem isSeparator_nil : isSeparator [] = false := rfl

@[simp] theorem isRow_nil : isRow [] = false := rfl

@[simp] theorem isFence_nil : isFence [] = false := rfl

theorem isDiagram_of_indent_lt {l : Text} (h : indent l < diagramIndent) : isDiagram l = false := by
  have h' : ¬ diagramIndent ≤ indent l := Nat.not_le.2 h
  simp [isDiagram, h']

@[simp] theorem isDiagram_nil : isDiagram [] = false := rfl

theorem indent_cons_of_ne {c : Char} (h : c ≠ ' ') (l : Text) : indent (c :: l) = 0 := by
  simp [indent, h]

theorem isDiagram_cons_of_ne {c : Char} (h : c ≠ ' ') (l : Text) : isDiagram (c :: l) = false :=
  isDiagram_of_indent_lt (by rw [indent_cons_of_ne h]; decide)

theorem exists_eq_cons_of_isDiagram {l : Text} (h : isDiagram l = true) : ∃ t, l = ' ' :: t := by
  cases l with
  | nil => simp at h
  | cons c t =>
    by_cases hc : c = ' '
    · exact ⟨t, by rw [hc]⟩
    · rw [isDiagram_cons_of_ne hc] at h
      exact absurd h (by decide)

theorem isFence_cons_of_ne {c : Char} (h : c ≠ '\x60') (l : Text) : isFence (c :: l) = false := by
  simp [isFence, Text.startsWith, fenceMark, List.isPrefixOf, Ne.symm h]

theorem isFence_of_isSeparator {l : Text} (h : isSeparator l = true) : isFence l = false := by
  by_contra hf
  have hfence : isFence l = true := by simpa using hf
  have hmem : '\x60' ∈ l := by
    have hp : fenceMark <+: l := List.isPrefixOf_iff_prefix.1 hfence
    exact hp.mem (by decide)
  have htrim : '\x60' ∈ l.trim := (mem_trim_iff (by decide)).2 hmem
  rw [isSeparator, Bool.and_eq_true] at h
  exact absurd (List.all_eq_true.1 h.2 _ htrim) (by decide)

/-- A row is what stands between two bars, cut at the bars between them. -/
theorem exists_trim_eq_of_isRow {l : Text} (h : isRow l = true) :
    ∃ t, l.trim = '|' :: (t ++ ['|']) ∧ cells l = (t.splitOn '|').map trim := by
  unfold isRow at h
  simp only [Bool.and_eq_true, beq_iff_eq, decide_eq_true_eq] at h
  obtain ⟨⟨hhead, hlast⟩, hcount⟩ := h
  obtain ⟨u, hu⟩ := List.head?_eq_some_iff.1 hhead
  obtain ⟨v, hv⟩ := List.getLast?_eq_some_iff.1 hlast
  cases v with
  | nil =>
    -- A lone bar would be both ends at once.
    rw [hv] at hcount
    exact absurd hcount (by decide)
  | cons c t =>
    have hc : c = '|' := by
      rw [hu, List.cons_append] at hv
      exact (List.cons.inj hv).1.symm
    refine ⟨t, by rw [hv, hc, List.cons_append], ?_⟩
    rw [cells, hv]
    simp

section Filter
variable {p : Char → Bool}

theorem filter_flatten_map_trim (hp : ∀ c, isBlank c = true → p c = false) (ts : List Text) :
    (ts.map trim).flatten.filter p = ts.flatten.filter p := by
  induction ts with
  | nil => rfl
  | cons t ts ih =>
    rw [List.map_cons, List.flatten_cons, List.flatten_cons, List.filter_append,
      List.filter_append, filter_trim hp, ih]

/-- Cutting a row into cells takes away nothing but blanks and bars. -/
theorem filter_cells (hp : ∀ c, isBlank c = true → p c = false) (hbar : p '|' = false) {l : Text}
    (h : isRow l = true) : (cells l).flatten.filter p = l.filter p := by
  obtain ⟨t, htrim, hcells⟩ := exists_trim_eq_of_isRow h
  calc
    (cells l).flatten.filter p = (t.splitOn '|').flatten.filter p := by
      rw [hcells, filter_flatten_map_trim hp]
    _ = t.filter p := filter_flatten_splitOn hbar t
    _ = l.trim.filter p := by
      rw [htrim, List.filter_cons_of_neg (by simp [hbar]), List.filter_append,
        List.filter_cons_of_neg (by simp [hbar]), List.filter_nil, List.append_nil]
    _ = l.filter p := filter_trim hp l

end Filter

def isTelling (c : Char) : Bool := !isBlank c && c != '|'

theorem not_isTelling_of_isBlank {c : Char} (h : isBlank c = true) : isTelling c = false := by
  simp [isTelling, h]

theorem isSeparator_iff {l : Text} :
    isSeparator l = true ↔
      '-' ∈ l.filter isTelling ∧ ∀ c ∈ l.filter isTelling, isRuleChar c = true := by
  have hmem : ∀ c, isTelling c = true → (c ∈ l.trim ↔ c ∈ l) := by
    intro c hc
    rw [isTelling, Bool.and_eq_true] at hc
    exact mem_trim_iff (by simpa using hc.1)
  rw [isSeparator, Bool.and_eq_true, List.all_eq_true, List.contains_iff_mem,
    hmem '-' (by decide), List.mem_filter]
  constructor
  · rintro ⟨hd, hall⟩
    refine ⟨⟨hd, by decide⟩, fun c hc => ?_⟩
    rw [List.mem_filter] at hc
    exact hall c ((hmem c hc.2).2 hc.1)
  · rintro ⟨hd, hall⟩
    refine ⟨hd.1, fun c hc => ?_⟩
    by_cases ht : isTelling c = true
    · exact hall c (List.mem_filter.2 ⟨mem_of_mem_trim hc, ht⟩)
    · by_cases hb : isBlank c = true
      · simp [isRuleChar, hb]
      · have hbar : c = '|' := by simpa [isTelling, hb] using ht
        rw [hbar]
        rfl

theorem heading?_marks (k : Nat) (t : Text) :
    heading? (List.replicate k '#' ++ ' ' :: t) = if 1 ≤ k ∧ k ≤ 3 then some (k, t) else none := by
  have htake : (List.replicate k '#' ++ ' ' :: t).takeWhile (· == '#') = List.replicate k '#' := by
    rw [List.takeWhile_append_of_pos (by simp), List.takeWhile_cons_of_neg (by decide),
      List.append_nil]
  simp [heading?, htake]

theorem heading?_eq_some_iff {l : Text} {k : Nat} {t : Text} :
    heading? l = some (k, t) ↔ (1 ≤ k ∧ k ≤ 3) ∧ l = List.replicate k '#' ++ ' ' :: t := by
  constructor
  · intro h
    have hmarks : l.takeWhile (· == '#') =
        List.replicate (l.takeWhile (· == '#')).length '#' :=
      List.eq_replicate_of_mem fun c hc => by simpa using List.mem_takeWhile_imp hc
    have hl : l = l.takeWhile (· == '#') ++ l.drop (l.takeWhile (· == '#')).length := by
      conv_lhs => rw [← List.take_append_drop (l.takeWhile (· == '#')).length l]
      rw [← List.prefix_iff_eq_take.1 (List.takeWhile_prefix _)]
    unfold heading? at h
    simp only at h
    split at h
    · next rest hrest =>
      split at h
      · next hk =>
        simp only [Option.some.injEq, Prod.mk.injEq] at h
        obtain ⟨rfl, rfl⟩ := h
        exact ⟨by simpa using hk, by rw [← hmarks, ← hrest]; exact hl⟩
      · simp at h
    · simp at h
  · rintro ⟨hk, rfl⟩
    rw [heading?_marks, if_pos hk]

theorem bullet?_eq_some_iff {l t : Text} :
    bullet? l = some t ↔ l = '-' :: ' ' :: t ∨ l = '*' :: ' ' :: t := by
  constructor
  · intro h
    unfold bullet? at h
    split at h
    · exact Or.inl (by simpa using h)
    · exact Or.inr (by simpa using h)
    · simp at h
  · rintro (rfl | rfl) <;> rfl

theorem numbered?_digits {ds : Text} {c : Char} (hne : ds ≠ [])
    (hds : ∀ d ∈ ds, isDecimal d = true) (hc : isBlank c = true) (t : Text) :
    numbered? (ds ++ '.' :: c :: t) = some t := by
  obtain ⟨d, ds, rfl⟩ := List.exists_cons_of_ne_nil hne
  have hdrop : (d :: ds ++ '.' :: c :: t).dropWhile isDecimal = '.' :: c :: t := by
    rw [List.dropWhile_append_of_pos hds, List.dropWhile_cons_of_neg (by decide)]
  have hd : isDecimal d = true := hds d (by simp)
  rw [numbered?, hdrop]
  simp [hc, hd]

theorem numbered?_eq_some_iff {l t : Text} :
    numbered? l = some t ↔ ∃ ds c, ds ≠ [] ∧ (∀ d ∈ ds, isDecimal d = true) ∧ isBlank c = true ∧
      l = ds ++ '.' :: c :: t := by
  constructor
  · intro h
    have hsplit := List.takeWhile_append_dropWhile (p := isDecimal) (l := l)
    unfold numbered? at h
    split at h
    · next c rest hrest =>
      split at h
      · next hc =>
        obtain rfl := Option.some.inj h
        rw [Bool.and_eq_true] at hc
        refine ⟨l.takeWhile isDecimal, c, ?_, fun d hd => List.mem_takeWhile_imp hd, hc.1, ?_⟩
        · intro hnil
          cases l with
          | nil => simp at hc
          | cons d l =>
            have hd : isDecimal d = true := by simpa using hc.2
            simp [hd] at hnil
        · rw [← hrest, hsplit]
      · simp at h
    · simp at h
  · rintro ⟨ds, c, hne, hds, hc, rfl⟩
    exact numbered?_digits hne hds hc t

inductive Reads (raw : Text) : Kind → Prop where
  | drawn (h : isDiagram raw.trimRight = true) : Reads raw (.drawn raw.trimRight)
  | row (h : isRow raw = true) : Reads raw (.row (cells raw))
  | heading {k : Nat} {t : Text} (hk : 1 ≤ k ∧ k ≤ 3)
      (h : raw = List.replicate k '#' ++ ' ' :: t) : Reads raw (.heading k t.trimRight)
  | bullet {t : Text} (h : raw = '-' :: ' ' :: t ∨ raw = '*' :: ' ' :: t) :
      Reads raw (.bullet t.trimRight)
  | numbered {ds t : Text} {c : Char} (hds : ∀ d ∈ ds, isDecimal d = true)
      (hc : isBlank c = true) (h : raw = ds ++ '.' :: c :: t) : Reads raw (.numbered t.trimRight)
  | plain (hne : raw.trimRight ≠ []) (hd : isDiagram raw.trimRight = false)
      (hr : isRow raw = false) (hh : heading? raw = none) (hb : bullet? raw = none)
      (hn : numbered? raw = none) : Reads raw (.plain raw.trimRight)
  | blank (h : raw.trimRight = []) : Reads raw .blank

/-- Marks at the start of a line do not depend on the blanks at its end. -/
theorem heading?_trimRight_eq_none {l : Text} (h : heading? l = none) :
    heading? l.trimRight = none := by
  obtain ⟨bs, hl, -⟩ := exists_eq_trimRight_append l
  refine Option.eq_none_iff_forall_ne_some.2 fun ⟨k, t⟩ ht => ?_
  obtain ⟨hk, ht⟩ := heading?_eq_some_iff.1 ht
  have hsome : heading? l = some (k, t ++ bs) :=
    heading?_eq_some_iff.2 ⟨hk, by rw [hl, ht, List.append_assoc, List.cons_append]⟩
  rw [h] at hsome
  exact absurd hsome (by simp)

theorem bullet?_trimRight_eq_none {l : Text} (h : bullet? l = none) :
    bullet? l.trimRight = none := by
  obtain ⟨bs, hl, -⟩ := exists_eq_trimRight_append l
  refine Option.eq_none_iff_forall_ne_some.2 fun t ht => ?_
  have hsome : bullet? l = some (t ++ bs) := by
    rw [bullet?_eq_some_iff] at ht ⊢
    rcases ht with ht | ht
    · exact Or.inl (by rw [hl, ht]; rfl)
    · exact Or.inr (by rw [hl, ht]; rfl)
  rw [h] at hsome
  exact absurd hsome (by simp)

theorem numbered?_trimRight_eq_none {l : Text} (h : numbered? l = none) :
    numbered? l.trimRight = none := by
  obtain ⟨bs, hl, -⟩ := exists_eq_trimRight_append l
  refine Option.eq_none_iff_forall_ne_some.2 fun t ht => ?_
  obtain ⟨ds, c, hne, hds, hc, ht⟩ := numbered?_eq_some_iff.1 ht
  have hsome : numbered? l = some (t ++ bs) :=
    numbered?_eq_some_iff.2 ⟨ds, c, hne, hds, hc, by rw [hl, ht]; simp⟩
  rw [h] at hsome
  exact absurd hsome (by simp)

theorem isFence_trimRight {l : Text} (h : isFence l = false) : isFence l.trimRight = false := by
  by_contra hf
  have hfence : isFence l.trimRight = true := by simpa using hf
  have hp : fenceMark <+: l.trimRight := List.isPrefixOf_iff_prefix.1 hfence
  have hl : isFence l = true := List.isPrefixOf_iff_prefix.2 (hp.trans (isPrefix_trimRight l))
  rw [h] at hl
  exact absurd hl (by simp)

theorem reads_kind (raw : Text) : Reads raw (kind raw) := by
  unfold kind
  split
  · next h => exact .drawn h
  next hd =>
  split
  · next h => exact .row h
  next hr =>
  split
  · next k t h => exact .heading (heading?_eq_some_iff.1 h).1 (heading?_eq_some_iff.1 h).2
  · next t _ h => exact .bullet (bullet?_eq_some_iff.1 h)
  · next t _ _ h =>
    obtain ⟨ds, c, -, hds, hc, hl⟩ := numbered?_eq_some_iff.1 h
    exact .numbered hds hc hl
  · next hh hb hn =>
    split
    · next h => exact .blank (by simpa using h)
    · next h =>
      exact .plain (by simpa using h) (by simpa using hd) (by simpa using hr) hh hb hn

@[simp] theorem kind_nil : kind [] = .blank := rfl

theorem kind_drawn {l : Text} (h : isDiagram l = true) (ht : l.trimRight = l) :
    kind l = .drawn l := by
  simp [kind, ht, h]

theorem isRow_cons_of_ne {c : Char} (hc : isBlank c = false) (h : c ≠ '|') (l : Text) :
    isRow (c :: l) = false := by
  simp [isRow, trim, trimLeft_cons_of_not_blank hc, trimRight_cons_of_not_blank hc, h]

theorem isSeparator_cons_of_not {c : Char} (hc : isRuleChar c = false) (l : Text) :
    isSeparator (c :: l) = false := by
  have hb : isBlank c = false := by
    simp only [isRuleChar, Bool.or_eq_false_iff] at hc
    exact hc.1.1.1
  simp [isSeparator, trim, trimLeft_cons_of_not_blank hb, trimRight_cons_of_not_blank hb, hc]

/-- A line whose first character opens neither a drawing nor a row is told by its marks. -/
theorem kind_cons {c : Char} (hs : c ≠ ' ') (hc : isBlank c = false) (hr : c ≠ '|') (l : Text) :
    kind (c :: l) =
      match heading? (c :: l), bullet? (c :: l), numbered? (c :: l) with
      | some (level, text), _, _ => .heading level text.trimRight
      | none, some item, _ => .bullet item.trimRight
      | none, none, some item => .numbered item.trimRight
      | none, none, none => .plain (c :: l.trimRight) := by
  have hd : isDiagram (c :: l.trimRight) = false := isDiagram_cons_of_ne hs _
  unfold kind
  simp only [trimRight_cons_of_not_blank hc, hd, isRow_cons_of_ne hc hr, Bool.false_eq_true,
    if_false, List.isEmpty_cons]

theorem kind_heading {k : Nat} (hk : 1 ≤ k ∧ k ≤ 3) (t : Text) :
    kind (List.replicate k '#' ++ ' ' :: t) = .heading k t.trimRight := by
  have h := heading?_marks k t
  rw [if_pos hk] at h
  obtain ⟨m, rfl⟩ : ∃ m, k = m + 1 := ⟨k - 1, by omega⟩
  rw [List.replicate_succ, List.cons_append] at h ⊢
  rw [kind_cons (by decide) (by decide) (by decide), h]

theorem kind_bullet (t : Text) : kind ('-' :: ' ' :: t) = .bullet t.trimRight := by
  rw [kind_cons (by decide) (by decide) (by decide)]
  rfl

theorem kind_numbered (t : Text) : kind ('1' :: '.' :: ' ' :: t) = .numbered t.trimRight := by
  have hspace : isBlank ' ' = true := by decide
  have hone : ∀ d ∈ ['1'], isDecimal d = true := List.forall_mem_singleton.2 (by decide)
  have h := numbered?_digits (List.cons_ne_nil '1' []) hone hspace t
  rw [List.singleton_append] at h
  rw [kind_cons (by decide) (by decide) (by decide), h]
  rfl

end Letterhead.Line
