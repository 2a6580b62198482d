import Letterhead.Proofs.Content.Boundary
import Letterhead.Proofs.Text.LineEnd

/-! Ends of lines and the blanks before them. Neither the break that ends a line nor the blanks at its end
change the blocks of a text; only a mark with nothing behind it takes a blank for its own. -/
namespace Letterhead
open Line Text Scan

theorem isBlank_of_isDecimal {c : Char} (h : isDecimal c = true) : isBlank c = false := by
  have hzeros : ∀ z ∈ digitZeros, ∀ i < 10, isBlank (Char.ofNat (z + i)) = false := by
    decide +kernel
  obtain ⟨n, hn⟩ := Option.isSome_iff_exists.1 h
  obtain ⟨z, hz, -⟩ := Option.map_eq_some_iff.1 hn
  have hrow := List.find?_some hz
  simp only [Bool.and_eq_true, decide_eq_true_eq] at hrow
  have hblank := hzeros z (List.mem_of_find?_eq_some hz) (c.toNat - z) (by omega)
  rwa [Nat.add_sub_cancel' hrow.1, Char.ofNat_toNat] at hblank

namespace Line

inductive IsBareMark : Text → Prop where
  | heading {k : Nat} (hk : 1 ≤ k ∧ k ≤ 3) : IsBareMark (List.replicate k '#')
  | dash : IsBareMark ['-']
  | star : IsBareMark ['*']
  | number {ds : Text} (hne : ds ≠ []) (hds : ∀ d ∈ ds, isDecimal d = true) :
      IsBareMark (ds ++ ['.'])

theorem isBareMark_iff {t : Text} :
    IsBareMark t ↔ t ∈ [['#'], ['#', '#'], ['#', '#', '#'], ['-'], ['*']] ∨
      t.dropLast ≠ [] ∧ t.dropLast.all isDecimal = true ∧ t.getLast? = some '.' := by
  constructor
  · intro h
    cases h with
    | @heading k hk =>
      obtain rfl | rfl | rfl : k = 1 ∨ k = 2 ∨ k = 3 := by omega
      all_goals exact Or.inl (by simp)
    | dash | star => exact Or.inl (by simp)
    | number hne hds => exact Or.inr (by simpa using ⟨hne, hds⟩)
  · rintro (h | ⟨hne, hds, hlast⟩)
    · simp only [List.mem_cons, List.not_mem_nil, or_false] at h
      rcases h with rfl | rfl | rfl | rfl | rfl
      · exact .heading (k := 1) (by decide)
      · exact .heading (k := 2) (by decide)
      · exact .heading (k := 3) (by decide)
      · exact .dash
      · exact .star
    · rw [← List.dropLast_append_getLast? '.' hlast]
      exact .number hne (List.all_eq_true.1 hds)

instance (t : Text) : Decidable (IsBareMark t) := decidable_of_iff _ isBareMark_iff.symm

theorem IsBareMark.not_blank {m : Text} (h : IsBareMark m) {c : Char} (hc : c ∈ m) :
    isBlank c = false := by
  cases h with
  | heading hk =>
    rw [List.eq_of_mem_replicate hc]
    decide
  | dash | star =>
    rw [List.mem_singleton.1 hc]
    decide
  | number hne hds =>
    rcases List.mem_append.1 hc with hc | hc
    · exact isBlank_of_isDecimal (hds c hc)
    · rw [List.mem_singleton.1 hc]
      decide

theorem isFence_trimRight_eq (l : Text) : isFence l.trimRight = isFence l := by
  cases hl : isFence l with
  | false => exact isFence_trimRight hl
  | true =>
    obtain ⟨t, rfl⟩ : fenceMark <+: l := List.isPrefixOf_iff_prefix.1 hl
    have htrim : fenceMark <+: trimRight (fenceMark ++ t) := by
      rw [trimRight_append]
      split
      · exact List.prefix_refl _
      · exact List.prefix_append _ _
    exact List.isPrefixOf_iff_prefix.2 htrim

section Blanks
variable {l bs : Text} (hbs : ∀ c ∈ bs, isBlank c = true)
include hbs

theorem isFence_append_blanks (l : Text) : isFence (l ++ bs) = isFence l := by
  rw [← isFence_trimRight_eq, trimRight_append_blanks _ hbs, isFence_trimRight_eq]

theorem isSeparator_append_blanks (l : Text) : isSeparator (l ++ bs) = isSeparator l := by
  rw [← isSeparator_trimRight, trimRight_append_blanks _ hbs, isSeparator_trimRight]

theorem isRow_append_blanks (l : Text) : isRow (l ++ bs) = isRow l := by
  rw [← isRow_trimRight, trimRight_append_blanks _ hbs, isRow_trimRight]

theorem cells_append_blanks (l : Text) : cells (l ++ bs) = cells l := by
  rw [← cells_trimRight, trimRight_append_blanks _ hbs, cells_trimRight]

/-- A mark is found before the blanks that are added, unless the line holds nothing else. -/
theorem exists_of_append_blanks (hbare : ¬ IsBareMark l.trimRight) {m t : Text} {c : Char}
    (hm : IsBareMark m) (h : l ++ bs = m ++ c :: t) : ∃ u, l = m ++ c :: u ∧ t = u ++ bs := by
  have htrim : trimRight m = m := by
    rw [trimRight_eq_rdropWhile, List.rdropWhile_eq_self_iff]
    exact fun hne => by simp [hm.not_blank (List.getLast_mem hne)]
  rcases List.append_eq_append_iff.1 h with ⟨u, hu, hbs'⟩ | ⟨u, hl, hu⟩
  · -- The line ends within the mark, so what is left of the mark is blank.
    cases u with
    | nil => exact absurd (by rwa [← List.append_nil l, ← hu, htrim]) hbare
    | cons d u =>
      have hd : isBlank d = false := hm.not_blank (by simp [hu])
      rw [hbs d (by simp [hbs'])] at hd
      cases hd
  · cases u with
    | nil => exact absurd (by rwa [hl, List.append_nil, htrim]) hbare
    | cons d u =>
      obtain ⟨rfl, rfl⟩ := List.cons.inj hu
      exact ⟨u, hl, rfl⟩

theorem heading?_append_blanks (hbare : ¬ IsBareMark l.trimRight) :
    heading? (l ++ bs) = (heading? l).map fun h => (h.1, h.2 ++ bs) := by
  ext ⟨k, t⟩
  simp only [Option.map_eq_some_iff, Prod.exists, Prod.mk.injEq, heading?_eq_some_iff]
  constructor
  · rintro ⟨hk, h⟩
    obtain ⟨u, hu, rfl⟩ := exists_of_append_blanks hbs hbare (.heading hk) h
    exact ⟨k, u, ⟨hk, hu⟩, rfl, rfl⟩
  · rintro ⟨k, u, ⟨hk, rfl⟩, rfl, rfl⟩
    exact ⟨hk, by simp⟩

theorem bullet?_append_blanks (hbare : ¬ IsBareMark l.trimRight) :
    bullet? (l ++ bs) = (bullet? l).map (· ++ bs) := by
  ext t
  simp only [Option.map_eq_some_iff, bullet?_eq_some_iff]
  constructor
  · rintro (h | h)
    · obtain ⟨u, hu, rfl⟩ := exists_of_append_blanks hbs hbare .dash h
      exact ⟨u, Or.inl hu, rfl⟩
    · obtain ⟨u, hu, rfl⟩ := exists_of_append_blanks hbs hbare .star h
      exact ⟨u, Or.inr hu, rfl⟩
  · rintro ⟨u, rfl | rfl, rfl⟩
    · exact Or.inl rfl
    · exact Or.inr rfl

theorem numbered?_append_blanks (hbare : ¬ IsBareMark l.trimRight) :
    numbered? (l ++ bs) = (numbered? l).map (· ++ bs) := by
  ext t
  simp only [Option.map_eq_some_iff, numbered?_eq_some_iff]
  constructor
  · rintro ⟨ds, c, hne, hds, hc, h⟩
    rw [List.append_cons] at h
    obtain ⟨u, hu, rfl⟩ := exists_of_append_blanks hbs hbare (.number hne hds) h
    exact ⟨u, ⟨ds, c, hne, hds, hc, by rw [hu, ← List.append_cons]⟩, rfl⟩
  · rintro ⟨u, ⟨ds, c, hne, hds, hc, rfl⟩, rfl⟩
    exact ⟨ds, c, hne, hds, hc, by simp⟩

theorem kind_append_blanks (hbare : ¬ IsBareMark l.trimRight) : kind (l ++ bs) = kind l := by
  unfold kind
  rw [trimRight_append_blanks _ hbs, isRow_append_blanks hbs, cells_append_blanks hbs,
    heading?_append_blanks hbs hbare, bullet?_append_blanks hbs hbare,
    numbered?_append_blanks hbs hbare]
  cases heading? l <;> cases bullet? l <;> cases numbered? l <;>
    simp [trimRight_append_blanks _ hbs]

theorem extend?_append_blanks (hne : l.trimRight ≠ []) (hbare : ¬ IsBareMark l.trimRight)
    (o : OpenBlock) : o.extend? (l ++ bs) = o.extend? l := by
  have htrim := trimRight_append_blanks l hbs
  cases o with
  | table rows =>
    simp only [OpenBlock.extend?, isSeparator_append_blanks hbs, isRow_append_blanks hbs,
      cells_append_blanks hbs]
  | diagram ls n => simp [OpenBlock.extend?, htrim, hne]
  | _ => simp only [OpenBlock.extend?, kind_append_blanks hbs hbare]

end Blanks

end Line

namespace Scan
variable {l bs : Text} (hbs : ∀ c ∈ bs, isBlank c = true)
include hbs

/-- Outside fences a line is taken alike with blanks at its end and without them. -/
theorem step_append_blanks {s : Scan} (hs : isFence l = false → s.fence = none)
    (hne : l.trimRight ≠ []) (hbare : ¬ IsBareMark l.trimRight) : s.step (l ++ bs) = s.step l := by
  have hfence := isFence_append_blanks hbs l
  cases hl : isFence l with
  | true => rw [step_of_isFence (hfence.trans hl), step_of_isFence hl]
  | false =>
    rw [step_of_not_isFence (hfence.trans hl), step_of_not_isFence hl, hs hl]
    simp only [takeLine_eq, extend?_append_blanks hbs hne hbare, kind_append_blanks hbs hbare]

theorem blocksOf_append_blanks {ls : List Text}
    (hls : isFence l = false → ls.countP isFence % 2 = 0) (hne : l.trimRight ≠ [])
    (hbare : ¬ IsBareMark l.trimRight) (ms : List Text) :
    blocksOf (ls ++ (l ++ bs) :: ms) = blocksOf (ls ++ l :: ms) := by
  have hfence : isFence l = false → (ls.foldl step start).fence = none :=
    fun hl => fence_foldl_start (hls hl)
  rw [blocksOf, blocksOf, List.foldl_append, List.foldl_append, List.foldl_cons, List.foldl_cons,
    step_append_blanks hbs hfence hne hbare]

end Scan

theorem lines_around {s l t : Text} (hs : EndsLine s) (hl : IsLine l) (hne : l ≠ [])
    {ms : List Text} (hms : t.lines = [] :: ms) :
    (s ++ l ++ t).lines = s.lines.dropLast ++ l :: ms := by
  rw [List.append_assoc, lines_append_of_endsLine hs (hl.head?_append_ne hne t),
    lines_line_append_text hl, hms, List.modifyHead_cons, List.append_nil]

theorem countP_isFence_dropLast {s : Text} (hs : EndsLine s) :
    s.lines.dropLast.countP isFence = s.lines.countP isFence := by
  conv_rhs => rw [lines_eq_dropLast_concat hs, List.countP_append]
  rfl

/-- Blanks at the end of a line outside fences change no block, unless the line is blank or a mark with
nothing behind it. -/
theorem segment_append_blanks {before line after bs : Text} (hbefore : EndsLine before)
    (hline : IsLine line) (hafter : StartsBreak after)
    (houtside : isFence line = false → before.lines.countP isFence % 2 = 0)
    (hne : line.trimRight ≠ []) (hbare : ¬ IsBareMark line.trimRight) (hbs : IsLine bs)
    (hblank : ∀ c ∈ bs, isBlank c = true) :
    segment (before ++ (line ++ bs) ++ after) = segment (before ++ line ++ after) := by
  obtain ⟨ms, hms⟩ := exists_lines_of_startsBreak hafter
  have hnil : line ≠ [] := by
    rintro rfl
    exact hne rfl
  have hlong : IsLine (line ++ bs) :=
    ⟨by simp [hline.1, hbs.1], by simp [hline.2, hbs.2]⟩
  rw [segment_eq, segment_eq, lines_around hbefore hlong (by simp [hnil]) hms,
    lines_around hbefore hline hnil hms]
  refine blocksOf_append_blanks hblank (fun hl => ?_) hne hbare ms
  rw [countP_isFence_dropLast hbefore]
  exact houtside hl

def beforeRule : Text := "\x60\x60\x60\r# x\r\n\x60\x60\x60\n| a | b |\r".toList

def ruleLine : Text := "|---|:-:|".toList

def afterRule : Text := "\r\n1. c\n".toList

def wideBlanks : Text := ['\t', '\u3000']

/-- The rule is passed over all the same. -/
theorem segment_append_blanks_rule :
    EndsLine beforeRule ∧ IsLine ruleLine ∧ StartsBreak afterRule ∧
      beforeRule.lines.countP isFence % 2 = 0 ∧ ruleLine.trimRight ≠ [] ∧
      ¬ IsBareMark ruleLine.trimRight ∧ IsLine wideBlanks ∧ (∀ c ∈ wideBlanks, isBlank c = true) ∧
      segment (beforeRule ++ (ruleLine ++ wideBlanks) ++ afterRule) =
        [.code "# x".toList, .table [["a".toList, "b".toList]], .numbered ["c".toList]] := by
  have hbefore : EndsLine beforeRule := by decide
  have hline : IsLine ruleLine := by decide
  have hafter : StartsBreak afterRule := by decide
  have houtside : beforeRule.lines.countP isFence % 2 = 0 := by decide
  have hne : ruleLine.trimRight ≠ [] := by decide
  have hbare : ¬ IsBareMark ruleLine.trimRight := by decide
  have hbs : IsLine wideBlanks := by decide
  have hblank : ∀ c ∈ wideBlanks, isBlank c = true :=
    List.forall_mem_cons.2 ⟨by decide, List.forall_mem_singleton.2 (by decide)⟩
  refine ⟨hbefore, hline, hafter, houtside, hne, hbare, hbs, hblank, ?_⟩
  rw [segment_append_blanks hbefore hline hafter (fun _ => houtside) hne hbare hbs hblank]
  decide +kernel

/-- A bare mark is text, and with a blank behind it a heading. -/
example : segment ['#'] = [.paragraph [['#']]] ∧ segment ['#', ' '] = [.heading 1 []] := by
  decide +kernel

/-- Whichever breaks end the lines of a text, its lines are those that were ended and its blocks are those
of the same lines joined by line feeds. -/
theorem segment_ended {ls : List EndedLine} (hls : ∀ l ∈ ls, IsLine l.1)
    (hapart : ls.IsChain StaysApart) {last : Text} (hlast : IsLine last) :
    (ended ls ++ last).lines = ls.map Prod.fst ++ [last] ∧
      segment (ended ls ++ last) = segment (unlines (ls.map Prod.fst ++ [last])) := by
  have hlines := lines_ended_append hls hapart hlast
  have hall : ∀ l ∈ ls.map Prod.fst ++ [last], IsLine l :=
    List.forall_mem_append.2 ⟨List.forall_mem_map.2 hls, List.forall_mem_singleton.2 hlast⟩
  exact ⟨hlines, by rw [segment_eq, hlines, segment_unlines hall]⟩

def mixedLines : List EndedLine :=
  [("\x60\x60\x60".toList, .carriageReturn), ([], .both), ("x".toList, .carriageReturn),
    ("\x60\x60\x60".toList, .lineFeed), ([], .lineFeed), ("- a".toList, .carriageReturn),
    ([], .carriageReturn)]

theorem segment_ended_mixedLines :
    (∀ l ∈ mixedLines, IsLine l.1) ∧ mixedLines.IsChain StaysApart ∧ IsLine "end".toList ∧
      ended mixedLines ++ "end".toList =
        "\x60\x60\x60\r\r\nx\r\x60\x60\x60\n\n- a\r\rend".toList ∧
      segment (ended mixedLines ++ "end".toList) =
        [.code "\nx".toList, .bullets ["a".toList], .paragraph ["end".toList]] := by
  have hls : ∀ l ∈ mixedLines, IsLine l.1 := by decide
  have hapart : mixedLines.IsChain StaysApart := by decide
  have hlast : IsLine "end".toList := by decide
  refine ⟨hls, hapart, hlast, by decide, ?_⟩
  rw [(segment_ended hls hapart hlast).2]
  decide +kernel

/-- A return that meets the line feed of an empty line ends one line with it. -/
example : segment (ended [(['a'], .carriageReturn), ([], .lineFeed)] ++ ['b']) =
    [.paragraph [['a'], ['b']]] := by
  decide +kernel

end Letterhead
