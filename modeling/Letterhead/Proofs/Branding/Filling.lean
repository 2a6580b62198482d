import Letterhead.Proofs.Branding.Template
import Letterhead.Proofs.Number.Numeral
import Letterhead.Proofs.Text.Cut

/-! Filling of templates, name by name and from left to right. Marks stand in an escaped template where
they stand in the template itself, so that escaping can go before or after filling. -/
namespace Letterhead

namespace Template
open Markup

section Equations
variable {name value : Text}

theorem cutSpans_of_none {c : Char} {t : Text}
    (h : Text.afterIgnoringCase? (mark name) (c :: t) = none) :
    Text.cutSpans (placeholder name) [] (c :: t) =
      Text.startWith [c] (Text.cutSpans (placeholder name) [] t) := by
  have hrule : placeholder name (c :: t) = none := Option.map_eq_none_iff.2 h
  rw [Text.cutSpans_of_none _ hrule]
  exact Text.cutSpans_append (placeholder name) [] [c] t

theorem cutSpans_of_some {s r : Text} (h : Text.afterIgnoringCase? (mark name) s = some r) :
    Text.cutSpans (placeholder name) [] s =
      (([], name) :: (Text.cutSpans (placeholder name) [] r).1,
        (Text.cutSpans (placeholder name) [] r).2) := by
  obtain ⟨t, rfl⟩ := head_of_afterIgnoringCase? h
  have hrule : placeholder name ('\x7b' :: t) = some (name, (mark name).length) :=
    Option.map_eq_some_iff.2 ⟨r, h, rfl⟩
  rw [Text.cutSpans, hrule]
  simp only [drop_of_afterIgnoringCase? h]
  rfl

@[simp] theorem replaceName_nil : replaceName name value [] = [] := by
  simp [replaceName]

@[simp] theorem count_nil : count name [] = 0 := by
  simp [count]

theorem replaceName_of_none {c : Char} {t : Text}
    (h : Text.afterIgnoringCase? (mark name) (c :: t) = none) :
    replaceName name value (c :: t) = c :: replaceName name value t := by
  simp only [replaceName, cutSpans_of_none h]
  rcases Text.cutSpans (placeholder name) [] t with ⟨_ | ⟨p, ps⟩, s⟩ <;> simp [Text.startWith]

theorem replaceName_of_some {s r : Text} (h : Text.afterIgnoringCase? (mark name) s = some r) :
    replaceName name value s = value ++ replaceName name value r := by
  simp [replaceName, cutSpans_of_some h]

theorem count_of_none {c : Char} {t : Text}
    (h : Text.afterIgnoringCase? (mark name) (c :: t) = none) : count name (c :: t) = count name t := by
  simp only [count, cutSpans_of_none h]
  rcases Text.cutSpans (placeholder name) [] t with ⟨_ | ⟨p, ps⟩, s⟩ <;> simp [Text.startWith]

theorem count_of_some {s r : Text} (h : Text.afterIgnoringCase? (mark name) s = some r) :
    count name s = count name r + 1 := by
  simp [count, cutSpans_of_some h]

end Equations

/-- What follows a mark is shorter by the mark. -/
theorem exists_of_afterIgnoringCase?_mark {name s r : Text}
    (h : Text.afterIgnoringCase? (mark name) s = some r) : ∃ c u, s = c :: (u ++ r) := by
  obtain ⟨u, rfl, hlength, -⟩ := Text.exists_of_afterIgnoringCase? h
  cases u with
  | nil => cases hlength
  | cons c u => exact ⟨c, u, rfl⟩

theorem length_lt_of_mark {name s r : Text}
    (h : Text.afterIgnoringCase? (mark name) s = some r) : r.length < s.length := by
  obtain ⟨c, u, rfl⟩ := exists_of_afterIgnoringCase?_mark h
  rw [List.length_cons, List.length_append]
  omega

/-- A template is read character by character, and mark by mark where one stands. -/
theorem mark_induction (name : Text) {P : Text → Prop} (hnil : P [])
    (hkeep : ∀ c t, Text.afterIgnoringCase? (mark name) (c :: t) = none → P t → P (c :: t))
    (hput : ∀ s r, Text.afterIgnoringCase? (mark name) s = some r → P r → P s) (t : Text) : P t := by
  refine Text.scan_induction (fun t => (Text.afterIgnoringCase? (mark name) t).map ((), ·)) ?_ hnil
    (fun c t h => hkeep c t (Option.map_eq_none_iff.1 h)) (fun s a r h => hput s r ?_) t
  · intro s a r h
    obtain ⟨r', hr, he⟩ := Option.map_eq_some_iff.1 h
    exact (Prod.mk.inj he).2 ▸ length_lt_of_mark hr
  · obtain ⟨r', hr, he⟩ := Option.map_eq_some_iff.1 h
    rw [hr, (Prod.mk.inj he).2]

section Values
variable {name value : Text}

theorem replaceName_append_of_not_mem (name value : Text) {u : Text} (h : '\x7b' ∉ u) (t : Text) :
    replaceName name value (u ++ t) = u ++ replaceName name value t ∧
      count name (u ++ t) = count name t := by
  induction u with
  | nil => exact ⟨rfl, rfl⟩
  | cons c u ih =>
    obtain ⟨hc, hu⟩ := not_or.1 (mt List.mem_cons.2 h)
    have hnone : Text.afterIgnoringCase? (mark name) (c :: (u ++ t)) = none := by
      refine Option.eq_none_iff_forall_not_mem.2 fun r hr => ?_
      obtain ⟨v, hv⟩ := head_of_afterIgnoringCase? hr
      exact hc (List.cons.inj hv).1.symm
    rw [List.cons_append, replaceName_of_none hnone, count_of_none hnone, (ih hu).1, (ih hu).2]
    exact ⟨rfl, rfl⟩

theorem replaceName_of_count_eq_zero (value : Text) {t : Text} (h : count name t = 0) :
    replaceName name value t = t := by
  induction t using mark_induction name with
  | hnil => exact replaceName_nil
  | hkeep c t hnone ih => rw [replaceName_of_none hnone, ih (count_of_none hnone ▸ h)]
  | hput s r hsome _ =>
    rw [count_of_some hsome] at h
    cases h

/-- Only empty values make nothing of something. -/
theorem eq_nil_of_replaceName_eq_nil {t : Text} (h : replaceName name value t = []) :
    t = [] ∨ value = [] := by
  induction t using mark_induction name with
  | hnil => exact Or.inl rfl
  | hkeep c t hnone _ =>
    rw [replaceName_of_none hnone] at h
    cases h
  | hput s r hsome _ =>
    rw [replaceName_of_some hsome] at h
    exact Or.inr (List.append_eq_nil_iff.1 h).1

/-- Every mark that is replaced takes a brace with it. -/
theorem count_brace_replaceName (name : Text) (hvalue : '\x7b' ∉ value) (t : Text) :
    (replaceName name value t).count '\x7b' + count name t ≤ t.count '\x7b' := by
  induction t using mark_induction name with
  | hnil => simp
  | hkeep c t hnone ih =>
    rw [replaceName_of_none hnone, count_of_none hnone, List.count_cons, List.count_cons]
    omega
  | hput s r hsome ih =>
    obtain ⟨u, hu, hlength, -⟩ := Text.exists_of_afterIgnoringCase? hsome
    obtain ⟨t, ht⟩ := head_of_afterIgnoringCase? hsome
    have hbrace : 1 ≤ u.count '\x7b' := by
      cases u with
      | nil => cases hlength
      | cons c u =>
        obtain rfl := (List.cons.inj (ht.symm.trans hu)).1
        simp
    rw [replaceName_of_some hsome, count_of_some hsome, List.count_append,
      List.count_eq_zero.2 hvalue, hu, List.count_append]
    omega

end Values

section Escaping
variable {name : Text}

def specials : Text := ['&', '<', '>', '"', '\'']

/-- A name in which no letter is a special character in another case. -/
def IsLiteral (name : Text) : Prop := ∀ a ∈ mark name, foldLetter a ∉ specials

instance (name : Text) : Decidable (IsLiteral name) :=
  List.decidableBAll (fun a => foldLetter a ∉ specials) (mark name)

theorem isLiteral_ofList {t : Text} (h : IsLiteral t) : IsLiteral (String.ofList t).toList := by
  rwa [String.toList_ofList]

theorem escapeChar_of_not_mem {c : Char} (h : c ∉ specials) : escapeChar c = [c] := by
  simp only [specials, List.mem_cons, List.not_mem_nil, or_false, not_or] at h
  obtain ⟨hamp, hlt, hgt, hquot, happ⟩ := h
  simp [escapeChar, reference?, hamp, hlt, hgt, hquot, happ]

theorem exists_escapeChar_of_mem {c : Char} (h : c ∈ specials) :
    ∃ w, escapeChar c = '&' :: w ∧ '\x7b' ∉ escapeChar c := by
  have hall : (specials.all fun c => (escapeChar c).head? = some '&' ∧ '\x7b' ∉ escapeChar c) =
      true := by decide
  obtain ⟨hhead, hbrace⟩ := of_decide_eq_true (List.all_eq_true.1 hall c h)
  obtain ⟨w, hw⟩ := List.head?_eq_some_iff.1 hhead
  exact ⟨w, hw, hbrace⟩

theorem foldLetter_special {c : Char} (h : c ∈ specials) : foldLetter c = c := by
  have hall : (specials.all fun c => foldLetter c = c) = true := by decide
  exact of_decide_eq_true (List.all_eq_true.1 hall c h)

theorem count_brace_escape (t : Text) : (escape t).count '\x7b' = t.count '\x7b' := by
  induction t with
  | nil => rfl
  | cons c t ih =>
    rw [escape, List.flatMap_cons, List.count_append, List.count_cons, Nat.add_comm]
    refine congrArg₂ (· + ·) ih ?_
    by_cases hc : c ∈ specials
    · have hne : c ≠ '\x7b' := fun he => absurd (he ▸ hc) (by decide)
      obtain ⟨-, -, hbrace⟩ := exists_escapeChar_of_mem hc
      simp [List.count_eq_zero.2 hbrace, hne]
    · rw [escapeChar_of_not_mem hc, List.count_singleton]

/-- A mark of letters stands in escaped text where it stands in the text. -/
theorem afterIgnoringCase?_escape {s : Text} (hs : ∀ a ∈ s, foldLetter a ∉ specials) (t : Text) :
    Text.afterIgnoringCase? s (escape t) = (Text.afterIgnoringCase? s t).map escape := by
  have hne : ∀ {a c : Char}, foldLetter a ∉ specials → c ∈ specials → sameLetter a c = false := by
    intro a c ha hc
    refine beq_eq_false_iff_ne.2 fun he => ha ?_
    rw [he, foldLetter_special hc]
    exact hc
  induction s generalizing t with
  | nil => rfl
  | cons a s ih =>
    obtain ⟨ha, hs⟩ := List.forall_mem_cons.1 hs
    cases t with
    | nil => rfl
    | cons c t =>
      have hescape : escape (c :: t) = escapeChar c ++ escape t := List.flatMap_cons
      rw [hescape]
      by_cases hc : c ∈ specials
      · obtain ⟨w, hw, -⟩ := exists_escapeChar_of_mem hc
        simp [hw, Text.afterIgnoringCase?, hne ha hc, hne ha (show '&' ∈ specials by decide)]
      · rw [escapeChar_of_not_mem hc, List.singleton_append, Text.afterIgnoringCase?,
          Text.afterIgnoringCase?, ih hs]
        split <;> rfl

theorem replaceName_escape (hname : IsLiteral name) (value t : Text) :
    replaceName name (escape value) (escape t) = escape (replaceName name value t) ∧
      count name (escape t) = count name t := by
  induction t using mark_induction name with
  | hnil => exact ⟨by simp, by simp⟩
  | hkeep c t hnone ih =>
    have hescape : ∀ u, escape (c :: u) = escapeChar c ++ escape u := fun u => List.flatMap_cons
    rw [replaceName_of_none hnone, count_of_none hnone, hescape, hescape]
    by_cases hc : c ∈ specials
    · obtain ⟨-, -, hbrace⟩ := exists_escapeChar_of_mem hc
      obtain ⟨hreplace, hcount⟩ :=
        replaceName_append_of_not_mem name (escape value) hbrace (escape t)
      exact ⟨by rw [hreplace, ih.1], by rw [hcount, ih.2]⟩
    · have hafter := afterIgnoringCase?_escape hname (c :: t)
      rw [hnone, hescape, escapeChar_of_not_mem hc, List.singleton_append] at hafter
      rw [escapeChar_of_not_mem hc, List.singleton_append, replaceName_of_none hafter,
        count_of_none hafter, ih.1, ih.2]
      exact ⟨rfl, rfl⟩
  | hput s r hsome ih =>
    have hafter := afterIgnoringCase?_escape hname s
    rw [hsome] at hafter
    rw [replaceName_of_some hsome, count_of_some hsome, replaceName_of_some hafter,
      count_of_some hafter, ih.1, ih.2, escape_append]
    exact ⟨rfl, rfl⟩

theorem escape_of_forall {t : Text} (h : ∀ c ∈ t, c ∉ specials) : escape t = t := by
  induction t with
  | nil => rfl
  | cons c t ih =>
    obtain ⟨hc, ht⟩ := List.forall_mem_cons.1 h
    rw [escape, List.flatMap_cons, escapeChar_of_not_mem hc]
    exact congrArg (c :: ·) (ih ht)

end Escaping

/-- The value of a single name is put in behind the date and the year. -/
theorem fill_singleton (now : Instant) (value t : Text) :
    fill now [("organization".toList, value)] t =
      replaceName "organization".toList value
        (replaceName "year".toList (intText now.date.year)
          (replaceName "date".toList now.date.long t)) := by
  have hset : Named.setAll [("organization".toList, value)] (clockValues now) =
      clockValues now ++ [("organization".toList, value)] := by
    simp [Named.setAll, Named.set, clockValues]
  rw [fill, hset, clockValues]
  simp only [List.foldl_append, List.foldl_cons, List.foldl_nil]

theorem escape_of_isDateChar {t : Text} (h : ∀ c ∈ t, IsDateChar c) : escape t = t := by
  have hspecials : (specials.all fun c => ¬ IsDateChar c) = true := by decide
  exact escape_of_forall fun c hc hm =>
    of_decide_eq_true (List.all_eq_true.1 hspecials c hm) (h c hc)

/-- Escaping can go before filling, and then the value is escaped as well. -/
theorem fill_escape (now : Instant) (value t : Text) :
    fill now [("organization".toList, escape value)] (escape t) =
      escape (fill now [("organization".toList, value)] t) := by
  have hdate : IsLiteral "date".toList := isLiteral_ofList (by decide)
  have hyear : IsLiteral "year".toList := isLiteral_ofList (by decide)
  have horganization : IsLiteral "organization".toList := isLiteral_ofList (by decide)
  have hdates := (replaceName_escape hdate now.date.long t).1
  have hyears := (replaceName_escape hyear (intText now.date.year)
    (replaceName "date".toList now.date.long t)).1
  rw [escape_of_isDateChar fun _ => isDateChar_of_mem_long] at hdates
  rw [escape_of_isDateChar fun _ => isDateChar_of_mem_intText] at hyears
  rw [fill_singleton, fill_singleton, hdates, hyears, (replaceName_escape horganization value _).1]

/-- A template with nothing in it once it is filled in holds but names of an empty value. -/
theorem eq_nil_of_fill_eq_nil {now : Instant} {value t : Text} (ht : t ≠ [])
    (h : fill now [("organization".toList, value)] t = []) : value = [] := by
  have hyear : intText now.date.year ≠ [] := by
    unfold intText
    split
    · exact List.cons_ne_nil _ _
    · exact Nat.toDigits_ne_nil
  have hlong : now.date.long ≠ [] := by simp [Date.long]
  rw [fill_singleton] at h
  refine (eq_nil_of_replaceName_eq_nil h).resolve_left fun h => ?_
  have hdates := (eq_nil_of_replaceName_eq_nil h).resolve_right hyear
  exact ht ((eq_nil_of_replaceName_eq_nil hdates).resolve_right hlong)

end Template
end Letterhead
