import Letterhead.Proofs.Branding.Pass

/-! When filling a template name by name is the same as putting all values in at once: exactly when no
value that is put in earlier can become part of the mark of a later name. -/
namespace Letterhead

theorem eq_brace_of_sameLetter {c : Char} (h : sameLetter c '\x7b' = true) : c = '\x7b' :=
  eq_of_foldLetter_eq_brace (beq_iff_eq.1 h)

theorem sameLetter_self (c : Char) : sameLetter c c = true := beq_self_eq_true _

theorem sameLetter_comm (a b : Char) : sameLetter a b = sameLetter b a := Bool.beq_comm

namespace Text

theorem alike_self (s : Text) : alike s s = true := by
  induction s with
  | nil => rfl
  | cons a s ih => rw [alike, sameLetter_self, ih, Bool.and_self]

theorem afterIgnoringCase?_append (s t u : Text) :
    afterIgnoringCase? (s ++ t) (s ++ u) = afterIgnoringCase? t u := by
  induction s with
  | nil => rfl
  | cons a s ih =>
    rw [List.cons_append, List.cons_append, afterIgnoringCase?, if_pos (sameLetter_self a), ih]

theorem afterIgnoringCase?_self_append (s u : Text) : afterIgnoringCase? s (s ++ u) = some u := by
  have h := afterIgnoringCase?_append s [] u
  rwa [List.append_nil] at h

/-- What is alike a text can be completed to it. -/
theorem exists_afterIgnoringCase? {s v : Text} (h : alike s v = true) :
    ∃ r, afterIgnoringCase? s (v ++ s.drop v.length) = some r := by
  induction s generalizing v with
  | nil => exact ⟨_, rfl⟩
  | cons a s ih =>
    cases v with
    | nil => exact ⟨[], by simpa using afterIgnoringCase?_self_append (a :: s) []⟩
    | cons b v =>
      rw [alike, Bool.and_eq_true] at h
      obtain ⟨r, hr⟩ := ih h.2
      exact ⟨r, by rw [List.cons_append, afterIgnoringCase?, if_pos h.1]; exact hr⟩

theorem afterIgnoringCase?_append_right {s t r : Text} (h : afterIgnoringCase? s t = some r)
    (u : Text) : afterIgnoringCase? s (t ++ u) = some (r ++ u) := by
  induction s generalizing t with
  | nil => exact congrArg (fun r => some (r ++ u)) (Option.some.inj h)
  | cons a s ih =>
    cases t with
    | nil => cases h
    | cons b t =>
      rw [List.cons_append, afterIgnoringCase?]
      rw [afterIgnoringCase?] at h
      split at h
      · next hsame => rw [if_pos hsame, ih h]
      · cases h

/-- A text without braces does not go on behind one. -/
theorem afterIgnoringCase?_brace {s : Text} (hs : '\x7b' ∉ s) {p t r : Text}
    (h : afterIgnoringCase? s (p ++ '\x7b' :: t) = some r) : ∃ r, afterIgnoringCase? s p = some r := by
  induction s generalizing p with
  | nil => exact ⟨p, rfl⟩
  | cons a s ih =>
    obtain ⟨ha, hs⟩ := not_or.1 (mt List.mem_cons.2 hs)
    cases p with
    | nil =>
      rw [List.nil_append, afterIgnoringCase?] at h
      split at h
      · next hsame => exact absurd (eq_brace_of_sameLetter hsame).symm ha
      · cases h
    | cons b p =>
      rw [List.cons_append, afterIgnoringCase?] at h
      rw [afterIgnoringCase?]
      split at h
      · next hsame =>
        rw [if_pos hsame]
        exact ih hs h
      · cases h

end Text

namespace Template

/-- Names without braces, none of which is read where another one stands. -/
structure AreDistinct (names : List Text) : Prop where
  bare : ∀ name ∈ names, '\x7b' ∉ name
  unlike : names.Pairwise fun name other => Text.alike (mark name) (mark other) = false

instance (names : List Text) : Decidable (AreDistinct names) :=
  decidable_of_iff (_ ∧ _) ⟨fun h => ⟨h.1, h.2⟩, fun h => ⟨h.1, h.2⟩⟩

theorem not_mem_closed {name : Text} (h : '\x7b' ∉ name) : '\x7b' ∉ name ++ closing := by
  rw [List.mem_append, not_or]
  exact ⟨h, by decide⟩

section Passing
variable {fs : Named Text} {name : Text}

theorem pass_append_of_not_mem {p : Text} (hp : '\x7b' ∉ p) (t : Text) :
    pass fs (p ++ t) = p ++ pass fs t := by
  induction p with
  | nil => rfl
  | cons c p ih =>
    obtain ⟨hc, hp⟩ := not_or.1 (mt List.mem_cons.2 hp)
    have hlead : lead? fs (c :: (p ++ t)) = none := lead?_eq_none_iff.2 fun f _ => by
      refine Option.eq_none_iff_forall_not_mem.2 fun r hr => ?_
      obtain ⟨u, hu⟩ := head_of_afterIgnoringCase? hr
      exact hc (List.cons.inj hu).1.symm
    rw [List.cons_append, pass_of_none hlead, ih hp, List.cons_append]

theorem pass_of_not_mem {t : Text} (h : '\x7b' ∉ t) : pass fs t = t := by
  have happend : pass fs (t ++ []) = t ++ pass fs [] := pass_append_of_not_mem h []
  rwa [List.append_nil, pass_nil, List.append_nil] at happend

/-- A mark starts with two braces, so one brace alone is no mark. -/
theorem lead?_brace {t : Text} (h : t.head? ≠ some '\x7b') : lead? fs ('\x7b' :: t) = none :=
  lead?_eq_none_iff.2 fun f _ => by
    refine Option.eq_none_iff_forall_not_mem.2 fun r hr => h ?_
    have hmark : mark f.1 = '\x7b' :: '\x7b' :: (f.1 ++ closing) := rfl
    rw [hmark, Text.afterIgnoringCase?, if_pos (sameLetter_self _)] at hr
    cases t with
    | nil => cases hr
    | cons c t =>
      rw [Text.afterIgnoringCase?] at hr
      split at hr
      · next hsame =>
        rw [sameLetter_comm] at hsame
        rw [eq_brace_of_sameLetter hsame]
        rfl
      · cases hr

/-- The end of a mark holds no mark. -/
theorem pass_of_suffix {b : Text} (hname : '\x7b' ∉ name) (hb : b <:+ (mark name).tail) :
    pass fs b = b := by
  have htail : (mark name).tail = '\x7b' :: (name ++ closing) := rfl
  rw [htail, List.suffix_cons_iff] at hb
  rcases hb with rfl | hb
  · have hhead : (name ++ closing).head? ≠ some '\x7b' := fun hc =>
      not_mem_closed hname (List.mem_of_mem_head? hc)
    rw [pass_of_none (lead?_brace hhead), pass_of_not_mem (not_mem_closed hname)]
  · exact pass_of_not_mem fun hm => not_mem_closed hname (hb.subset hm)

theorem afterIgnoringCase?_mark_braces (name t : Text) :
    Text.afterIgnoringCase? (mark name) ('\x7b' :: '\x7b' :: t) =
      Text.afterIgnoringCase? (name ++ closing) t :=
  Text.afterIgnoringCase?_append opening (name ++ closing) t

/-- A mark that has begun does not go on over braces. -/
theorem lead?_cut (hbare : ∀ f ∈ fs, '\x7b' ∉ f.1) {p : Text}
    (h : ∀ f ∈ fs, Text.afterIgnoringCase? (f.1 ++ closing) p = none) (t : Text) :
    lead? fs ('\x7b' :: '\x7b' :: (p ++ '\x7b' :: t)) = none :=
  lead?_eq_none_iff.2 fun f hf => Option.eq_none_iff_forall_not_mem.2 fun r hr => by
    rw [Option.mem_def, afterIgnoringCase?_mark_braces] at hr
    obtain ⟨r', hr'⟩ := Text.afterIgnoringCase?_brace (not_mem_closed (hbare f hf)) hr
    rw [h f hf] at hr'
    cases hr'

theorem lead?_three_braces (hbare : ∀ f ∈ fs, '\x7b' ∉ f.1) (t : Text) :
    lead? fs ('\x7b' :: '\x7b' :: '\x7b' :: t) = none :=
  lead?_cut (p := []) hbare (fun f _ => by cases f.1 <;> rfl) t

/-- The start of a mark, with another mark behind it, holds no mark. -/
theorem pass_of_prefix {p s : Text} (hname : '\x7b' ∉ name) (hbare : ∀ f ∈ fs, '\x7b' ∉ f.1)
    (hfs : ∀ f ∈ fs, f.1 = name ∨ Text.alike (mark f.1) (mark name) = false)
    (hp : p ++ s = name ++ closing) (hs : s ≠ []) (t : Text) :
    pass fs ('\x7b' :: '\x7b' :: (p ++ '\x7b' :: '\x7b' :: t)) =
      '\x7b' :: '\x7b' :: (p ++ pass fs ('\x7b' :: '\x7b' :: t)) := by
  have hnone : ∀ f ∈ fs, Text.afterIgnoringCase? (f.1 ++ closing) p = none := by
    intro f hf
    refine Option.eq_none_iff_forall_not_mem.2 fun r hr => ?_
    rcases hfs f hf with rfl | hunlike
    · obtain ⟨u, hu, hlength, -⟩ := Text.exists_of_afterIgnoringCase? hr
      have hshort := congrArg List.length hp
      rw [hu, List.length_append, List.length_append, hlength] at hshort
      exact hs (List.length_eq_zero_iff.1 (by omega))
    · have hlong : Text.afterIgnoringCase? (mark f.1) (mark name ++ []) = some (r ++ s) := by
        have hmark : mark name ++ [] = '\x7b' :: '\x7b' :: (p ++ s) := by
          rw [List.append_nil, hp]
          rfl
        rw [hmark, afterIgnoringCase?_mark_braces]
        exact Text.afterIgnoringCase?_append_right hr s
      rw [Text.alike_of_afterIgnoringCase? hlong] at hunlike
      cases hunlike
  have hpbrace : '\x7b' ∉ p := fun hm =>
    not_mem_closed hname (hp ▸ List.mem_append_left s hm)
  have hsecond : lead? fs ('\x7b' :: (p ++ '\x7b' :: '\x7b' :: t)) = none := by
    cases p with
    | nil => exact lead?_three_braces hbare t
    | cons c p => exact lead?_brace fun hc => hpbrace (by simp_all)
  rw [pass_of_none (lead?_cut hbare hnone _), pass_of_none hsecond, pass_append_of_not_mem hpbrace]

theorem lead?_mark (h : (fs.map Prod.fst).Pairwise fun name other =>
      Text.alike (mark name) (mark other) = false) {f : Text × Text} (hf : f ∈ fs) (t : Text) :
    lead? fs (mark f.1 ++ t) = some (f.2, t) := by
  induction fs with
  | nil => cases hf
  | cons g fs ih =>
    rw [List.map_cons, List.pairwise_cons] at h
    have hcons := lead?_append [g] fs (mark f.1 ++ t)
    rw [List.singleton_append, lead?_singleton] at hcons
    rcases List.mem_cons.1 hf with rfl | hf
    · rw [hcons, Text.afterIgnoringCase?_self_append, Option.map_some, Option.some_or]
    · have hunlike := h.1 f.1 (List.mem_map_of_mem hf)
      rw [hcons, Text.afterIgnoringCase?_eq_none hunlike, Option.map_none, Option.none_or,
        ih h.2 hf]

/-- Between the start and the end of a mark, another mark shows its value. -/
theorem pass_between (hfs : AreDistinct (fs.map Prod.fst)) (hname : '\x7b' ∉ name)
    (hnames : ∀ f ∈ fs, f.1 = name ∨ Text.alike (mark f.1) (mark name) = false) {f : Text × Text}
    (hf : f ∈ fs) {a s b : Text} (ha : a ++ s = mark name) (hs : s ≠ [])
    (hb : b <:+ (mark name).tail) : pass fs (a ++ (mark f.1 ++ b)) = a ++ (f.2 ++ b) := by
  have hbare : ∀ f ∈ fs, '\x7b' ∉ f.1 := fun f hf => hfs.bare f.1 (List.mem_map_of_mem hf)
  have hvalue : pass fs (mark f.1 ++ b) = f.2 ++ b := by
    rw [pass_of_some (lead?_mark hfs.unlike hf b), pass_of_suffix hname hb]
  have hmark : mark f.1 ++ b = '\x7b' :: '\x7b' :: (f.1 ++ closing ++ b) := rfl
  have hstart : mark name = '\x7b' :: '\x7b' :: (name ++ closing) := rfl
  rw [hstart] at ha
  match a, ha with
  | [], _ => exact hvalue
  | [c], ha =>
    obtain rfl : c = '\x7b' := (List.cons.inj ha).1
    rw [hmark] at hvalue ⊢
    rw [List.singleton_append, pass_of_none (lead?_three_braces hbare _), hvalue,
      List.singleton_append]
  | c :: d :: p, ha =>
    simp only [List.cons_append, List.cons.injEq] at ha
    obtain ⟨rfl, rfl, ha⟩ := ha
    rw [hmark] at hvalue ⊢
    rw [List.cons_append, List.cons_append, pass_of_prefix hname hbare hnames ha hs, hvalue,
      List.cons_append, List.cons_append]

end Passing

section Growing
variable {name : Text}

theorem count_ne_zero_of_suffix {t y r : Text} (hy : y <:+ t)
    (h : Text.afterIgnoringCase? (mark name) y = some r) : count name t ≠ 0 := by
  induction t using mark_induction name with
  | hnil =>
    obtain rfl := List.suffix_nil.1 hy
    cases h
  | hkeep c t hnone ih =>
    rw [count_of_none hnone]
    rcases List.suffix_cons_iff.1 hy with rfl | hy
    · rw [hnone] at h
      cases h
    · exact ih hy
  | hput s r hsome _ =>
    rw [count_of_some hsome]
    exact Nat.succ_ne_zero _

theorem length_le_of_count_ne_zero (value : Text) {t : Text} (h : count name t ≠ 0) :
    value.length ≤ (replaceName name value t).length := by
  induction t using mark_induction name with
  | hnil => exact absurd count_nil h
  | hkeep c t hnone ih =>
    rw [count_of_none hnone] at h
    rw [replaceName_of_none hnone, List.length_cons]
    exact (ih h).trans (Nat.le_succ _)
  | hput s r hsome _ =>
    rw [replaceName_of_some hsome, List.length_append]
    exact Nat.le_add_right _ _

end Growing

section Meeting
variable {fs : Named Text} {name : Text} {f : Text × Text}

/-- No mark begins within the mark of a name without braces. -/
theorem alike_mark_of_suffix (hname : '\x7b' ∉ name) {s : Text} (hs : s <:+ (mark name).tail)
    (hne : s ≠ []) (other : Text) : Text.alike s (mark other) = false := by
  have hplain : ∀ {s t : Text}, s ≠ [] → '\x7b' ∉ s → Text.alike s ('\x7b' :: t) = false := by
    intro s t hne hs
    obtain ⟨c, s, rfl⟩ := List.exists_cons_of_ne_nil hne
    have hc : sameLetter c '\x7b' = false := Bool.eq_false_iff.2 fun hsame =>
      hs (eq_brace_of_sameLetter hsame ▸ List.mem_cons_self ..)
    rw [Text.alike, hc, Bool.false_and]
  have hclosed := not_mem_closed hname
  have htail : (mark name).tail = '\x7b' :: (name ++ closing) := rfl
  have hmark : mark other = '\x7b' :: '\x7b' :: (other ++ closing) := rfl
  rw [htail, List.suffix_cons_iff] at hs
  rw [hmark]
  rcases hs with rfl | hs
  · rw [Text.alike, sameLetter_self, Bool.true_and]
    exact hplain (by simp [closing]) hclosed
  · exact hplain hne fun hm => hclosed (hs.subset hm)

/-- A value that is not apart from a mark becomes part of it between a start and an end of the mark. -/
theorem exists_mark_of_not_apart (hname : '\x7b' ∉ name) (h : ¬ Apart f name) :
    ∃ a s b y r, a ++ s = mark name ∧ s ≠ [] ∧ b <:+ (mark name).tail ∧ y <:+ a ++ (f.2 ++ b) ∧
      Text.afterIgnoringCase? (mark name) y = some r := by
  by_cases hwithin : ∀ s ∈ f.2.tails, s ≠ [] → Text.alike (mark name) s = false
  · by_cases hvalue : ∀ s ∈ (mark name).tail.tails, s ≠ [] → Text.alike s f.2 = false
    · refine absurd ⟨hwithin, hvalue, fun s hs hne => ?_⟩ h
      exact alike_mark_of_suffix hname ((List.mem_tails _ _).1 hs) hne f.1
    · -- The mark begins before the value.
      push Not at hvalue
      obtain ⟨s, hs, hne, halike⟩ := hvalue
      obtain ⟨a, ha⟩ := (List.mem_tails _ _).1 hs
      obtain ⟨r, hr⟩ := Text.exists_afterIgnoringCase? (eq_true_of_ne_false halike)
      have hsplit : ('\x7b' :: a) ++ s = mark name := congrArg ('\x7b' :: ·) ha
      refine ⟨'\x7b' :: a, s, s.drop f.2.length, _, r, hsplit, hne, ?_, List.suffix_rfl, ?_⟩
      · exact (List.drop_suffix _ _).trans ⟨a, ha⟩
      · rw [← hsplit, Text.afterIgnoringCase?_append]
        exact hr
  · -- The mark begins in the value.
    push Not at hwithin
    obtain ⟨s, hs, hne, halike⟩ := hwithin
    obtain ⟨v, hv⟩ := (List.mem_tails _ _).1 hs
    obtain ⟨r, hr⟩ := Text.exists_afterIgnoringCase? (eq_true_of_ne_false halike)
    obtain ⟨c, s, rfl⟩ := List.exists_cons_of_ne_nil hne
    refine ⟨[], mark name, (mark name).tail.drop s.length, _, r, rfl, List.cons_ne_nil _ _,
      List.drop_suffix _ _, ?_, hr⟩
    rw [← hv, List.nil_append, List.append_assoc]
    exact List.suffix_append _ _

/-- Where an earlier value is not apart from a later mark, a long value of the later name is put into
the earlier value, and not so in a single pass. -/
theorem exists_replaceName_ne_pass (hnames : AreDistinct (fs.map Prod.fst ++ [name])) (hf : f ∈ fs)
    (h : ¬ Apart f name) :
    ∃ value t, replaceName name value (pass fs t) ≠ pass (fs ++ [(name, value)]) t := by
  have hname : '\x7b' ∉ name := hnames.bare name (by simp)
  have hunlike := (List.pairwise_append.1 hnames.unlike).2.2
  have hothers : AreDistinct (fs.map Prod.fst) :=
    ⟨fun n hn => hnames.bare n (List.mem_append_left _ hn),
      (List.pairwise_append.1 hnames.unlike).1⟩
  obtain ⟨a, s, b, y, r, ha, hs, hb, hy, hr⟩ := exists_mark_of_not_apart hname h
  -- The value is longer than all that a single pass makes of the template.
  let value : Text := 'x' :: (a ++ (f.2 ++ b))
  have hfs : pass fs (a ++ (mark f.1 ++ b)) = a ++ (f.2 ++ b) :=
    pass_between hothers hname
      (fun g hg => .inr (hunlike g.1 (List.mem_map_of_mem hg) name (by simp))) hf ha hs hb
  have hall : pass (fs ++ [(name, value)]) (a ++ (mark f.1 ++ b)) = a ++ (f.2 ++ b) := by
    have hmap : (fs ++ [(name, value)]).map Prod.fst = fs.map Prod.fst ++ [name] := by simp
    refine pass_between (hmap ▸ hnames) hname (fun g hg => ?_) (List.mem_append_left _ hf) ha hs hb
    rcases List.mem_append.1 hg with hg | hg
    · exact .inr (hunlike g.1 (List.mem_map_of_mem hg) name (by simp))
    · exact .inl (congrArg Prod.fst (List.mem_singleton.1 hg))
  refine ⟨value, a ++ (mark f.1 ++ b), fun heq => ?_⟩
  rw [hfs, hall] at heq
  have hlong := length_le_of_count_ne_zero value (count_ne_zero_of_suffix hy hr)
  rw [heq] at hlong
  exact Nat.not_succ_le_self _ hlong

end Meeting

/-- Filling a template name by name puts all values in at once, if no value can become part of the mark
of a later name. A further name without braces is filled so, whatever its value, exactly if no value
before it can become part of its mark. -/
theorem fill_eq_pass (now : Instant) (values : Named Text) :
    ((entries now values).Pairwise (fun f g => Apart f g.1) →
      ∀ t, fill now values t = pass (entries now values) t) ∧
    ∀ name, AreDistinct ((entries now values).map Prod.fst ++ [name]) →
      (entries now values).Pairwise (fun f g => Apart f g.1) →
        ((∀ value t, fill now (values ++ [(name, value)]) t =
            pass (entries now (values ++ [(name, value)])) t) ↔
          ∀ f ∈ entries now values, Apart f name) := by
  refine ⟨fill_eq_pass_of_pairwise, fun name hnames hpairwise => ?_⟩
  have hnew : name ∉ (entries now values).map Prod.fst := fun hm => by
    have hself := (List.pairwise_append.1 hnames.unlike).2.2 name hm name (by simp)
    rw [Text.alike_self] at hself
    cases hself
  have hentries : ∀ value, entries now (values ++ [(name, value)]) =
      entries now values ++ [(name, value)] := Named.setAll_concat hnew
  have hfill : ∀ value t, fill now (values ++ [(name, value)]) t =
      replaceName name value (pass (entries now values) t) := fun value t => by
    rw [fill_concat now values name value t hnew, fill_eq_pass_of_pairwise hpairwise]
  constructor
  · intro hall f hf
    by_contra hmeets
    obtain ⟨value, t, hne⟩ := exists_replaceName_ne_pass hnames hf hmeets
    rw [← hfill, ← hentries] at hne
    exact hne (hall value t)
  · intro hapart value t
    rw [hfill, hentries]
    exact replaceName_pass hapart value t

def midJanuary : Instant := ⟨1705314600000000⟩

def pageValues : Named Text :=
  [("organization".toList, "ACME".toList), ("page".toList, "2".toList)]

/-- The values of a letterhead are put in at once, and so is the number of pages behind them. -/
theorem fill_eq_pass_pageValues :
    ((entries midJanuary pageValues).Pairwise (fun f g => Apart f g.1) ∧
      AreDistinct ((entries midJanuary pageValues).map Prod.fst ++ ["total".toList])) ∧
    (∀ t, fill midJanuary pageValues t = pass (entries midJanuary pageValues) t) ∧
      ∀ value t, fill midJanuary (pageValues ++ [("total".toList, value)]) t =
        pass (entries midJanuary (pageValues ++ [("total".toList, value)])) t := by
  have hpairwise : (entries midJanuary pageValues).Pairwise fun f g => Apart f g.1 := by
    decide +kernel
  have hdistinct : AreDistinct
      ((entries midJanuary pageValues).map Prod.fst ++ ["total".toList]) := by
    decide +kernel
  have hapart : ∀ f ∈ entries midJanuary pageValues, Apart f "total".toList := by decide +kernel
  exact ⟨⟨hpairwise, hdistinct⟩, (fill_eq_pass midJanuary pageValues).1 hpairwise,
    ((fill_eq_pass midJanuary pageValues).2 _ hdistinct hpairwise).2 hapart⟩

def markedValues : Named Text :=
  [("organization".toList, "\x7b\x7bpage\x7d\x7d".toList), ("page".toList, "2".toList)]

/-- The mark in the value is replaced by the number of the page; in a single pass it stays. -/
theorem fill_ne_pass_markedValues :
    fill midJanuary markedValues "\x7b\x7borganization\x7d\x7d".toList = "2".toList ∧
      pass (entries midJanuary markedValues) "\x7b\x7borganization\x7d\x7d".toList =
        "\x7b\x7bpage\x7d\x7d".toList := by
  decide +kernel

end Template
end Letterhead
