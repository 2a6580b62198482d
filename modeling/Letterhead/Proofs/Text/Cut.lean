import Letterhead.Text.Span
import Mathlib.Data.List.Infix

/-! Cuts of a text at spans of a kind. A rule that takes the spans of a kind cuts every text at the
leftmost of them, and a text has no second cut of this sort. What is kept of a text survives the
cut as far as it survives in the parts between the spans. -/
namespace Letterhead.Text

section Stop
variable {x r : Text} {stop : Char}

theorem takeWhile_append_stop (hx : stop ∉ x) : (x ++ stop :: r).takeWhile (· != stop) = x := by
  have hne : ∀ c ∈ x, (c != stop) = true := fun c hc => bne_iff_ne.2 fun he => hx (he ▸ hc)
  rw [List.takeWhile_append_of_pos hne]
  simp

theorem cutAt_append_stop (hx : stop ∉ x) : (x ++ stop :: r).cutAt stop = (x, r) := by
  have hne : ∀ c ∈ x, (c != stop) = true := fun c hc => bne_iff_ne.2 fun he => hx (he ▸ hc)
  rw [cutAt, takeWhile_append_stop hx, List.dropWhile_append_of_pos hne]
  simp

/-- A text is what stands before a character and what goes on from there. -/
theorem takeWhile_append_drop (stop : Char) (t : Text) :
    stop ∉ t.takeWhile (· != stop) ∧
      t.takeWhile (· != stop) ++ t.drop (t.takeWhile (· != stop)).length = t := by
  constructor
  · intro h
    simpa using List.all_eq_true.1 List.all_takeWhile stop h
  · have hfront := List.prefix_iff_eq_take.1 (List.takeWhile_prefix (l := t) (· != stop))
    nth_rewrite 1 [hfront]
    exact List.take_append_drop _ t

end Stop

/-! Scans -/

def startWith (w : Text) : List (Text × Text) × Text → List (Text × Text) × Text
  | ([], s) => ([], w ++ s)
  | ((u, x) :: ps, s) => ((w ++ u, x) :: ps, s)

theorem cutSpans_append (rule : SpanRule) (before w t : Text) :
    cutSpans rule (before ++ w) t = startWith w.reverse (cutSpans rule before t) := by
  fun_induction cutSpans rule before t with
  | case1 before => simp [startWith]
  | case2 before c rest shown n hrule r ih =>
    rw [cutSpans, hrule]
    simp [startWith, r]
  | case3 before c rest hrule ih => rw [cutSpans_of_none _ hrule, ← ih, List.cons_append]

/-- A text is read from left to right: where a reader takes something, what is left is read on, and
elsewhere one character is passed over. -/
theorem scan_induction {α : Type} (take? : Text → Option (α × Text))
    (htake : ∀ t a r, take? t = some (a, r) → r.length < t.length) {P : Text → Prop} (hnil : P [])
    (hkeep : ∀ c t, take? (c :: t) = none → P t → P (c :: t))
    (hput : ∀ t a r, take? t = some (a, r) → P r → P t) (t : Text) : P t := by
  induction hlength : t.length using Nat.strong_induction_on generalizing t with
  | _ n ih =>
    cases t with
    | nil => exact hnil
    | cons c t =>
      cases hc : take? (c :: t) with
      | none => exact hkeep c t hc (ih t.length (by simp [← hlength]) t rfl)
      | some p => exact hput _ p.1 p.2 hc (ih p.2.length (hlength ▸ htake _ p.1 p.2 hc) p.2 rfl)

/-! Kinds of spans -/

abbrev SpanKind := Text → Text → Prop

/-- No span starts in a text with another one behind it, not even a span that reaches into that one. -/
def Unbegun (kind : SpanKind) (s rest : Text) : Prop :=
  ∀ u c v, s = u ++ c :: v → ∀ x w, kind x w → ¬ w <+: c :: (v ++ rest)

def Holds (kind : SpanKind) (t : Text) : Prop := ∃ x w, kind x w ∧ w <:+: t

/-- The rule takes spans of the kind, and it takes each of them. -/
structure Takes (rule : SpanRule) (kind : SpanKind) : Prop where
  ne_nil {x w : Text} : kind x w → w ≠ []
  eq_some_iff {t x : Text} {n : Nat} :
    rule t = some (x, n) ↔ ∃ w r, t = w ++ r ∧ kind x w ∧ n = w.length

/-- A text cut at its leftmost spans: what the spans show, each with the part before it, and the part
behind the last one. -/
inductive Cut (kind : SpanKind) : List (Text × Text) → Text → Text → Prop where
  | last {rest : Text} (h : Unbegun kind rest []) : Cut kind [] rest rest
  | span {p x w t rest : Text} {ps : List (Text × Text)} (hp : Unbegun kind p (w ++ t))
      (hx : kind x w) (h : Cut kind ps rest t) : Cut kind ((p, x) :: ps) rest (p ++ (w ++ t))

def parts (rule : SpanRule) (t : Text) : List Text :=
  (cutSpans rule [] t).1.map Prod.fst ++ [(cutSpans rule [] t).2]

section Unbegun
variable {kind : SpanKind} {s t rest : Text}

theorem unbegun_nil (kind : SpanKind) (rest : Text) : Unbegun kind [] rest := by
  intro u c v h
  simp at h

theorem unbegun_cons {c : Char} :
    Unbegun kind (c :: s) rest ↔
      (∀ x w, kind x w → ¬ w <+: c :: (s ++ rest)) ∧ Unbegun kind s rest := by
  constructor
  · intro h
    exact ⟨h [] c s rfl, fun u d v hs => h (c :: u) d v (by rw [hs, List.cons_append])⟩
  · rintro ⟨hc, hs⟩ u d v h
    cases u with
    | nil =>
      obtain ⟨rfl, rfl⟩ := List.cons.inj h
      exact hc
    | cons e u => exact hs u d v (List.cons.inj h).2

theorem unbegun_append :
    Unbegun kind (s ++ t) rest ↔ Unbegun kind s (t ++ rest) ∧ Unbegun kind t rest := by
  induction s with
  | nil => simp [unbegun_nil]
  | cons c s ih => rw [List.cons_append, unbegun_cons, unbegun_cons, ih, List.append_assoc, and_assoc]

theorem unbegun_of_head {a : Char} (hkind : ∀ x w, kind x w → w.head? = some a) (h : a ∉ s)
    (rest : Text) : Unbegun kind s rest := by
  rintro u c v rfl x w hx ⟨r, hr⟩
  cases w with
  | nil => cases hkind x [] hx
  | cons b w =>
    have hb : b = a := Option.some.inj (hkind x (b :: w) hx)
    have hc : b = c := (List.cons.inj hr).1
    exact h (by simp [← hb, hc])

end Unbegun

section Rule
variable {rule : SpanRule} {kind : SpanKind} {ps : List (Text × Text)} {s t rest : Text}

theorem unbegun_iff_not_holds (h : Takes rule kind) : Unbegun kind t [] ↔ ¬ Holds kind t := by
  constructor
  · rintro hu ⟨x, w, hx, u, v, ht⟩
    cases w with
    | nil => exact h.ne_nil hx rfl
    | cons c w =>
      refine hu u c (w ++ v) (by simpa using ht.symm) x (c :: w) hx ⟨v, by simp⟩
  · rintro hn u c v ht x w hx ⟨r, hr⟩
    exact hn ⟨x, w, hx, u, r, by rw [ht, List.append_assoc, hr, List.append_nil]⟩

theorem Takes.eq_none_iff (h : Takes rule kind) :
    rule t = none ↔ ∀ x w, kind x w → ¬ w <+: t := by
  constructor
  · rintro hn x w hx ⟨r, hr⟩
    rw [h.eq_some_iff.2 ⟨w, r, hr.symm, hx, rfl⟩] at hn
    cases hn
  · intro hall
    refine Option.eq_none_iff_forall_not_mem.2 fun p hp => ?_
    obtain ⟨w, r, ht, hx, -⟩ := h.eq_some_iff.1 (hp : rule t = some (p.1, p.2))
    exact hall _ w hx ⟨r, ht.symm⟩

theorem cutSpans_of_unbegun (h : Takes rule kind) (hs : Unbegun kind s t) (before : Text) :
    cutSpans rule before (s ++ t) = cutSpans rule (s.reverse ++ before) t := by
  induction s generalizing before with
  | nil => rfl
  | cons c s ih =>
    obtain ⟨hc, hs⟩ := unbegun_cons.1 hs
    rw [List.cons_append, cutSpans_of_none _ (h.eq_none_iff.2 hc), ih hs]
    simp

theorem cutSpans_of_span (h : Takes rule kind) {x w : Text} (hx : kind x w) (before t : Text) :
    cutSpans rule before (w ++ t) =
      ((before.reverse, x) :: (cutSpans rule [] t).1, (cutSpans rule [] t).2) := by
  have hrule : rule (w ++ t) = some (x, w.length) := h.eq_some_iff.2 ⟨w, t, rfl, hx, rfl⟩
  cases w with
  | nil => exact absurd rfl (h.ne_nil hx)
  | cons c w =>
    rw [List.cons_append] at hrule ⊢
    rw [cutSpans, hrule]
    simp

theorem cut_cutSpans (h : Takes rule kind) (before t : Text)
    (hbefore : Unbegun kind before.reverse t) :
    Cut kind (cutSpans rule before t).1 (cutSpans rule before t).2 (before.reverse ++ t) := by
  -- What has been read since the last span is kept in reverse, and no span starts in it.
  fun_induction cutSpans rule before t with
  | case1 before => simpa using Cut.last hbefore
  | case2 before c rest shown n hrule r ih =>
    obtain ⟨w, u, ht, hx, rfl⟩ := h.eq_some_iff.1 hrule
    have hdrop : rest.drop (w.length - 1) = u := by
      cases w with
      | nil => exact absurd rfl (h.ne_nil hx)
      | cons d w =>
        obtain ⟨-, rfl⟩ := List.cons.inj ht
        simp
    rw [ht] at hbefore ⊢
    have hrest := ih (unbegun_nil kind _)
    rw [List.reverse_nil, List.nil_append] at hrest
    simp only [r, hdrop] at hrest ⊢
    exact .span hbefore hx hrest
  | case3 before c rest hrule ih =>
    have hmove : Unbegun kind (c :: before).reverse rest := by
      rw [List.reverse_cons, unbegun_append, unbegun_cons]
      exact ⟨hbefore, h.eq_none_iff.1 hrule, unbegun_nil kind rest⟩
    simpa using ih hmove

/-- The cut of a rule is the cut at the leftmost spans, and there is no other. -/
theorem cutSpans_eq_iff (h : Takes rule kind) :
    cutSpans rule [] t = (ps, rest) ↔ Cut kind ps rest t := by
  constructor
  · intro heq
    simpa [heq] using cut_cutSpans h [] t (unbegun_nil kind t)
  · intro hcut
    induction hcut with
    | @last rest hrest =>
      have hall := cutSpans_of_unbegun h hrest []
      simpa using hall
    | span hp hx _ ih => rw [cutSpans_of_unbegun h hp, cutSpans_of_span h hx, ih]; simp

theorem exists_cut (h : Takes rule kind) (t : Text) : ∃ ps rest, Cut kind ps rest t :=
  ⟨_, _, (cutSpans_eq_iff h).1 rfl⟩

theorem cutSpans_of_not_holds (h : Takes rule kind) (ht : ¬ Holds kind t) :
    cutSpans rule [] t = ([], t) :=
  (cutSpans_eq_iff h).2 (.last ((unbegun_iff_not_holds h).2 ht))

theorem holds_iff (h : Takes rule kind) : Holds kind t ↔ (cutSpans rule [] t).1 ≠ [] := by
  constructor
  · intro ht hnone
    obtain ⟨ps, rest, hcut⟩ := exists_cut h t
    rw [(cutSpans_eq_iff h).2 hcut] at hnone
    cases hcut with
    | last hu => exact (unbegun_iff_not_holds h).1 hu ht
    | span _ _ _ => cases hnone
  · intro hne
    by_contra ht
    exact hne (by rw [cutSpans_of_not_holds h ht])

end Rule

theorem unwrapSpans_of_startWith {rule : SpanRule} {s t u : Text}
    (h : cutSpans rule [] u = startWith s (cutSpans rule [] t)) :
    unwrapSpans rule id u = s ++ unwrapSpans rule id t := by
  simp only [unwrapSpans, h]
  rcases cutSpans rule [] t with ⟨_ | ⟨p, ps⟩, rest⟩ <;> simp [startWith]

section Unwrap
variable {rule : SpanRule} {kind : SpanKind} {between : Text → Text} {ps : List (Text × Text)}
  {s t rest : Text}

theorem unwrapSpans_of_cut (h : Takes rule kind) (hcut : Cut kind ps rest t) :
    unwrapSpans rule between t = ps.flatMap (fun p => between p.1 ++ p.2) ++ between rest := by
  simp only [unwrapSpans, (cutSpans_eq_iff h).2 hcut]

theorem parts_of_cut (h : Takes rule kind) (hcut : Cut kind ps rest t) :
    parts rule t = ps.map Prod.fst ++ [rest] := by
  simp only [parts, (cutSpans_eq_iff h).2 hcut]

theorem infix_of_mem_parts (h : Takes rule kind) (hs : s ∈ parts rule t) : s <:+: t := by
  obtain ⟨ps, rest, hcut⟩ := exists_cut h t
  rw [parts_of_cut h hcut] at hs
  induction hcut with
  | last _ => rw [List.mem_singleton.1 hs]
  | @span p x w t rest ps _ _ _ ih =>
    rw [List.map_cons, List.cons_append, List.mem_cons] at hs
    rcases hs with rfl | hs
    · exact (List.prefix_append s (w ++ t)).isInfix
    · exact (ih hs).trans ⟨p ++ w, [], by simp⟩

theorem unwrapSpans_of_not_holds (h : Takes rule kind) (ht : ¬ Holds kind t) :
    unwrapSpans rule between t = between t := by
  simp [unwrapSpans, cutSpans_of_not_holds h ht]

/-- What stands in front of a text stays in front of it, if no span starts there. -/
theorem unwrapSpans_append (h : Takes rule kind) (hs : Unbegun kind s t) :
    unwrapSpans rule id (s ++ t) = s ++ unwrapSpans rule id t := by
  refine unwrapSpans_of_startWith ?_
  rw [cutSpans_of_unbegun h hs, List.append_nil, ← List.nil_append s.reverse, cutSpans_append,
    List.reverse_reverse]

theorem eq_and_eq_of_sublist {a a' b b' : Text} (ha : a.Sublist a') (hb : b.Sublist b')
    (h : a ++ b = a' ++ b') : a = a' ∧ b = b' := by
  have hlength := congrArg List.length h
  have hla := ha.length_le
  have hlb := hb.length_le
  simp only [List.length_append] at hlength
  exact List.append_inj h (by omega)

/-- Spans are written with their own text and with characters that are not kept. What is kept of the
parts between them is then kept of the text. -/
theorem filter_unwrapSpans {keep : Char → Bool} (h : Takes rule kind)
    (hkind : ∀ x w, kind x w → w.filter keep = x.filter keep)
    (hbetween : ∀ s, ((between s).filter keep).Sublist (s.filter keep)) (t : Text) :
    ((unwrapSpans rule between t).filter keep).Sublist (t.filter keep) ∧
      ((unwrapSpans rule between t).filter keep = t.filter keep ↔
        ∀ s ∈ parts rule t, (between s).filter keep = s.filter keep) := by
  obtain ⟨ps, rest, hcut⟩ := exists_cut h t
  rw [unwrapSpans_of_cut h hcut, parts_of_cut h hcut]
  induction hcut with
  | @last rest _ => simpa using hbetween rest
  | @span p x w t rest ps _ hx _ ih =>
    have hfirst : ((between p ++ x).filter keep).Sublist ((p ++ w).filter keep) := by
      rw [List.filter_append, List.filter_append, hkind x w hx]
      exact (hbetween p).append_right _
    have hfirst_iff : (between p ++ x).filter keep = (p ++ w).filter keep ↔
        (between p).filter keep = p.filter keep := by
      rw [List.filter_append, List.filter_append, hkind x w hx, List.append_left_inj]
    rw [List.flatMap_cons, List.append_assoc, ← List.append_assoc p, List.filter_append,
      List.filter_append _ t]
    refine ⟨hfirst.append ih.1, ?_⟩
    rw [List.map_cons, List.cons_append, List.forall_mem_cons, ← ih.2, ← hfirst_iff]
    constructor
    · exact eq_and_eq_of_sublist hfirst ih.1
    · rintro ⟨hp, ht⟩
      rw [hp, ht]

end Unwrap

end Letterhead.Text
