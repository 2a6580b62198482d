import Letterhead.Proofs.Content.Mark

/-! What is kept of inline text. Marks aside, nothing is lost but the addresses of links, and these are
links of what emphasis leaves of a part: a link that emphasis makes need not stand in the text. -/
namespace Letterhead.Inline
open Text

def stripped (t : Text) : Text := t.filter fun c => c != '*' && c != '\x60'

section Stripped
variable {opening closing x w : Text} {stop : Char}

theorem stripped_append (s t : Text) : stripped (s ++ t) = stripped s ++ stripped t :=
  List.filter_append ..

theorem Wrapped.stripped_eq (h : Wrapped opening closing stop x w) (hopening : stripped opening = [])
    (hclosing : stripped closing = []) : stripped w = stripped x := by
  rw [h.1, stripped_append, stripped_append, hopening, hclosing, List.nil_append, List.append_nil]

end Stripped

/-! Stars that are dropped -/

/-- A text, and the same text with some stars in it. -/
inductive Starred : Text → Text → Prop where
  | nil : Starred [] []
  | keep {c : Char} {s t : Text} (h : Starred s t) : Starred (c :: s) (c :: t)
  | star {s t : Text} (h : Starred s t) : Starred s ('*' :: t)

namespace Starred
variable {a b s t : Text} {c : Char}

theorem refl (t : Text) : Starred t t := by
  induction t with
  | nil => exact .nil
  | cons c t ih => exact .keep ih

theorem append (ha : Starred a s) (hb : Starred b t) : Starred (a ++ b) (s ++ t) := by
  induction ha with
  | nil => exact hb
  | keep _ ih => exact .keep ih
  | star _ ih => exact .star ih

theorem stripped_eq (h : Starred s t) : stripped s = stripped t := by
  induction h with
  | nil => rfl
  | keep _ ih => simp only [stripped, List.filter_cons] at ih ⊢; rw [ih]
  | star _ ih => rw [ih]; rfl

theorem not_mem (h : Starred s t) (hc : c ≠ '*') (hs : c ∉ s) : c ∉ t := by
  induction h with
  | nil => exact hs
  | keep _ ih =>
    rw [List.mem_cons, not_or] at hs ⊢
    exact ⟨hs.1, ih hs.2⟩
  | star _ ih =>
    rw [List.mem_cons, not_or]
    exact ⟨hc, ih hs⟩

theorem ne_nil (h : Starred s t) (hs : s ≠ []) : t ≠ [] := by
  rintro rfl
  cases h
  exact hs rfl

theorem exists_of_append (h : Starred (a ++ b) t) :
    ∃ u v, t = u ++ v ∧ Starred a u ∧ Starred b v := by
  generalize hs : a ++ b = s at h
  induction h generalizing a with
  | nil =>
    obtain ⟨rfl, rfl⟩ := List.append_eq_nil_iff.1 hs
    exact ⟨[], [], rfl, .nil, .nil⟩
  | @keep c s t h ih =>
    cases a with
    | nil =>
      subst hs
      exact ⟨[], c :: t, rfl, .nil, .keep h⟩
    | cons d a =>
      obtain ⟨rfl, htail⟩ := List.cons.inj hs
      obtain ⟨u, v, rfl, ha, hb⟩ := ih htail
      exact ⟨d :: u, v, rfl, .keep ha, hb⟩
  | star h ih =>
    obtain ⟨u, v, rfl, ha, hb⟩ := ih hs
    exact ⟨'*' :: u, v, rfl, .star ha, hb⟩

theorem exists_of_cons (h : Starred (c :: s) t) :
    ∃ n v, t = List.replicate n '*' ++ c :: v ∧ Starred s v := by
  generalize hs : c :: s = s' at h
  induction h with
  | nil => cases hs
  | keep h _ =>
    obtain ⟨rfl, rfl⟩ := List.cons.inj hs
    exact ⟨0, _, rfl, h⟩
  | star h ih =>
    obtain ⟨n, v, rfl, hv⟩ := ih hs
    exact ⟨n + 1, v, rfl, hv⟩

end Starred

theorem starred_emphasis (t : Text) : Starred (unwrapSpans emphasis id t) t := by
  obtain ⟨ps, rest, hcut⟩ := exists_cut takes_emphasis t
  rw [unwrapSpans_of_cut takes_emphasis hcut]
  induction hcut with
  | last _ => exact .refl _
  | @span p x w t rest ps _ hx _ ih =>
    obtain ⟨rfl, -⟩ := hx
    have hspan : Starred x (['*'] ++ (x ++ ['*'])) := by
      have hclose := (Starred.refl x).append (.star .nil)
      simpa using hclose.star
    simpa using (Starred.refl p).append (hspan.append ih)

def starredJoint (n : Nat) : Text := ']' :: '*' :: (List.replicate n '*' ++ ['('])

/-- A link that is there without some stars is there with them, unless they part its label from its
address. -/
theorem Starred.holds_link {s t : Text} (h : Starred s t) (hs : Holds IsLink s) :
    Holds IsLink t ∨ ∃ n, starredJoint n <:+: t := by
  obtain ⟨label, -, ⟨address, rfl, ⟨hlabel, hbracket⟩, haddress, hparen⟩, before, after, rfl⟩ := hs
  simp only [List.append_assoc, List.cons_append, List.nil_append] at h
  -- The link is found piece by piece, with stars before each of its brackets and parentheses.
  obtain ⟨t₀, t₁, rfl, -, h₁⟩ := h.exists_of_append
  obtain ⟨n₁, t₂, rfl, h₂⟩ := h₁.exists_of_cons
  obtain ⟨label', t₃, rfl, hl, h₃⟩ := h₂.exists_of_append
  obtain ⟨n₃, t₄, rfl, h₄⟩ := h₃.exists_of_cons
  obtain ⟨n₄, t₅, rfl, h₅⟩ := h₄.exists_of_cons
  obtain ⟨address', t₆, rfl, ha, h₆⟩ := h₅.exists_of_append
  obtain ⟨n₆, t₇, rfl, -⟩ := h₆.exists_of_cons
  cases n₄ with
  | zero =>
    refine Or.inl ⟨label' ++ List.replicate n₃ '*', _, ⟨address' ++ List.replicate n₆ '*', rfl,
      ⟨by simp [hl.ne_nil hlabel], ?_⟩, by simp [ha.ne_nil haddress], ?_⟩,
      t₀ ++ List.replicate n₁ '*', t₇, by simp⟩
    · simp [hl.not_mem (by decide) hbracket, List.mem_replicate]
    · simp [ha.not_mem (by decide) hparen, List.mem_replicate]
  | succ n =>
    refine Or.inr ⟨n, t₀ ++ List.replicate n₁ '*' ++ '[' :: (label' ++ List.replicate n₃ '*'),
      address' ++ List.replicate n₆ '*' ++ ')' :: t₇, ?_⟩
    simp [starredJoint, List.replicate_succ]

/-! Addresses that are dropped -/

theorem sublist_unwrapSpans_link (t : Text) : (unwrapSpans link id t).Sublist t := by
  obtain ⟨ps, rest, hcut⟩ := exists_cut takes_link t
  rw [unwrapSpans_of_cut takes_link hcut]
  induction hcut with
  | last _ => simp
  | @span p x w t rest ps _ hx _ ih =>
    obtain ⟨address, rfl, -⟩ := hx
    have hlabel : x.Sublist ('[' :: (x ++ ']' :: '(' :: (address ++ [')']))) :=
      (List.sublist_append_left x _).cons '['
    simpa using (List.Sublist.refl p).append (hlabel.append ih)

theorem count_unwrapSpans_link (t : Text) :
    (unwrapSpans link id t).count ')' + (cutSpans link [] t).1.length ≤ t.count ')' := by
  obtain ⟨ps, rest, hcut⟩ := exists_cut takes_link t
  rw [unwrapSpans_of_cut takes_link hcut, (cutSpans_eq_iff takes_link).2 hcut]
  induction hcut with
  | last _ => simp
  | @span p x w t rest ps _ hx _ ih =>
    obtain ⟨address, rfl, -⟩ := hx
    simp only [List.flatMap_cons, List.count_append, List.count_cons, id_eq, List.length_cons] at ih ⊢
    simp
    omega

/-- A text without marks is left as it is where no link stands in it; a link loses at least the
parenthesis that closes its address. -/
theorem stripped_unwrapSpans_link (t : Text) :
    stripped (unwrapSpans link id t) = stripped t ↔ ¬ Holds IsLink t := by
  constructor
  · intro heq ht
    have hlength := List.length_pos_iff.2 ((holds_iff takes_link).1 ht)
    have hcount := count_unwrapSpans_link t
    have hkept : ∀ s : Text, (stripped s).count ')' = s.count ')' :=
      fun s => List.count_filter (by decide)
    rw [← hkept, ← hkept t, heq] at hcount
    omega
  · intro ht
    rw [unwrapSpans_of_not_holds takes_link ht]
    rfl

theorem stripped_cleanMarkup (t : Text) :
    (stripped (cleanMarkup t)).Sublist (stripped t) ∧
      (stripped (cleanMarkup t) = stripped t ↔ ¬ Holds IsLink (unwrapSpans emphasis id t)) := by
  rw [← (starred_emphasis t).stripped_eq, ← stripped_unwrapSpans_link]
  exact ⟨(sublist_unwrapSpans_link _).filter _, Iff.rfl⟩

theorem stripped_clean (t : Text) :
    (stripped (clean t)).Sublist (stripped t) ∧
      (stripped (clean t) = stripped t ↔
        ∀ p ∈ parts code t, ¬ Holds IsLink (unwrapSpans emphasis id p)) := by
  obtain ⟨hsub, hiff⟩ := filter_unwrapSpans takes_code
    (fun _ _ h => h.stripped_eq (by decide) (by decide)) (fun s => (stripped_cleanMarkup s).1) t
  refine ⟨hsub, hiff.trans ?_⟩
  exact forall₂_congr fun p _ => (stripped_cleanMarkup p).2

/-- Marks aside, a text is shown whole exactly if emphasis leaves no link in any part between its bold
and its code spans; in particular, if no link stands in the text and stars never part a closing bracket
from an opening parenthesis. -/
theorem stripped_shown_iff (t : Text) :
    (stripped (shown t) = stripped t ↔ ∀ p ∈ parts bold t, ∀ q ∈ parts code p,
      ¬ Holds IsLink (unwrapSpans emphasis id q)) ∧
    (¬ Holds IsLink t → (∀ n, ¬ starredJoint n <:+: t) → stripped (shown t) = stripped t) := by
  have hiff : stripped (shown t) = stripped t ↔ ∀ p ∈ parts bold t, ∀ q ∈ parts code p,
      ¬ Holds IsLink (unwrapSpans emphasis id q) := by
    rw [shown_eq_unwrapSpans]
    obtain ⟨-, hbold⟩ := filter_unwrapSpans takes_bold
      (fun _ _ h => h.stripped_eq (by decide) (by decide)) (fun s => (stripped_clean s).1) t
    exact hbold.trans (forall₂_congr fun p _ => (stripped_clean p).2)
  refine ⟨hiff, fun hlink hjoint => hiff.2 fun p hp q hq hemerges => ?_⟩
  have hq : q <:+: t := (infix_of_mem_parts takes_code hq).trans (infix_of_mem_parts takes_bold hp)
  rcases (starred_emphasis q).holds_link hemerges with ⟨x, w, hx, hw⟩ | ⟨n, hn⟩
  · exact hlink ⟨x, w, hx, hw.trans hq⟩
  · exact hjoint n (hn.trans hq)

def sampleText : Text := "*[note]* and \x602*3\x60 (see **below**)".toList

theorem stripped_shown_sampleText :
    (¬ Holds IsLink sampleText ∧ ∀ n, ¬ starredJoint n <:+: sampleText) ∧
      stripped (shown sampleText) = stripped sampleText := by
  have hlink : ¬ Holds IsLink sampleText := by decide +kernel
  have hshort : ∀ n < sampleText.length, ¬ starredJoint n <:+: sampleText := by decide +kernel
  have hjoint : ∀ n, ¬ starredJoint n <:+: sampleText := by
    intro n h
    have hlength := h.length_le
    simp only [starredJoint, List.length_cons, List.length_append, List.length_replicate] at hlength
    exact hshort n (by omega) h
  exact ⟨⟨hlink, hjoint⟩, (stripped_shown_iff sampleText).2 hlink hjoint⟩

/-- No link stands in this text; without the stars around its bracket one does, and its address is
lost. -/
theorem stripped_shown_crossedText :
    ¬ Holds IsLink "[a*]*(b)".toList ∧
      stripped (shown "[a*]*(b)".toList) ≠ stripped "[a*]*(b)".toList := by
  decide +kernel

end Letterhead.Inline
