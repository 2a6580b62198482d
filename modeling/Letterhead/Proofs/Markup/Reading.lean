import Letterhead.Markup.Piece
import Mathlib.Data.List.Basic

/-! Markup read back. Written markup is cut at its tags: they are those of its pieces, and what
stands between them is its text, once references are read. -/
namespace Letterhead

namespace Text

/-- Every occurrence of a character starts one of some words. -/
def EachStarts (c : Char) (ws : List Text) (t : Text) : Prop :=
  ∀ u, c :: u <:+ t → ∃ w ∈ ws, w <+: c :: u

theorem eachStarts_of_not_mem {c : Char} {t : Text} (h : c ∉ t) (ws : List Text) :
    EachStarts c ws t := by
  intro u hu
  exact absurd (hu.subset (List.mem_cons_self ..)) h

theorem eachStarts_of_mem {c : Char} {ws : List Text} {t : Text} (h : c :: t ∈ ws) (ht : c ∉ t) :
    EachStarts c ws (c :: t) := by
  intro u hu
  rcases List.suffix_cons_iff.1 hu with he | hu
  · exact ⟨c :: t, h, he ▸ List.prefix_rfl⟩
  · exact absurd (hu.subset (List.mem_cons_self ..)) ht

theorem EachStarts.append {c : Char} {ws : List Text} {s t : Text} (hs : EachStarts c ws s)
    (ht : EachStarts c ws t) : EachStarts c ws (s ++ t) := by
  rintro u ⟨v, hv⟩
  rcases List.append_eq_append_iff.1 hv with ⟨a, hsv, htu⟩ | ⟨a, -, htu⟩
  · cases a with
    | nil => exact ht u ⟨[], htu⟩
    | cons d a =>
      obtain ⟨rfl, rfl⟩ := List.cons.inj htu
      obtain ⟨w, hw, hprefix⟩ := hs a ⟨v, hsv.symm⟩
      exact ⟨w, hw, hprefix.trans (List.prefix_append (c :: a) t)⟩
  · exact ht u ⟨a, htu.symm⟩

theorem eachStarts_flatMap {α : Type} {c : Char} {ws : List Text} {f : α → Text} {xs : List α}
    (h : ∀ x ∈ xs, EachStarts c ws (f x)) : EachStarts c ws (xs.flatMap f) := by
  induction xs with
  | nil => exact eachStarts_of_not_mem (by simp) ws
  | cons x xs ih =>
    rw [List.flatMap_cons]
    exact (h x (by simp)).append (ih fun y hy => h y (List.mem_cons_of_mem x hy))

end Text

namespace Markup

def references : List Text := ["&amp;", "&lt;", "&gt;", "&quot;", "&#x27;"].map String.toList

def unescape : Text → Text
  | '&' :: 'a' :: 'm' :: 'p' :: ';' :: t => '&' :: unescape t
  | '&' :: 'l' :: 't' :: ';' :: t => '<' :: unescape t
  | '&' :: 'g' :: 't' :: ';' :: t => '>' :: unescape t
  | '&' :: 'q' :: 'u' :: 'o' :: 't' :: ';' :: t => '"' :: unescape t
  | '&' :: '#' :: 'x' :: '2' :: '7' :: ';' :: t => '\'' :: unescape t
  | c :: t => c :: unescape t
  | [] => []

/-- Markup cut at its tags: the text outside of them, and the tags. The first argument is what was
read of a tag that has begun. -/
def cutTags : Option Text → Text → Text × List Text
  | _, [] => ([], [])
  | none, c :: t =>
    if c = '<' then cutTags (some [c]) t
    else
      let r := cutTags none t
      (c :: r.1, r.2)
  | some tag, c :: t =>
    if c = '>' then
      let r := cutTags none t
      (r.1, (tag ++ [c]) :: r.2)
    else cutTags (some (tag ++ [c])) t

def dropTags (t : Text) : Text := (cutTags none t).1

def tags (t : Text) : List Text := (cutTags none t).2

theorem unescape_cons_of_ne {c : Char} (h : c ≠ '&') (t : Text) :
    unescape (c :: t) = c :: unescape t := by
  rw [unescape] <;> intros <;> exact absurd ‹_› h

/-- A character is written as it is, or as a reference that is read as that character. -/
theorem escapeChar_cases (c : Char) : escapeChar c = [c] ∧ c ≠ '&' ∧ c ≠ '<' ∨
    ∃ w, '&' :: w ∈ references ∧ escapeChar c = '&' :: w ∧
      ∀ t, unescape ('&' :: w ++ t) = c :: unescape t := by
  by_cases hamp : c = '&'
  · subst hamp
    exact Or.inr ⟨"amp;".toList, by decide +kernel, by decide +kernel, fun t => rfl⟩
  by_cases hlt : c = '<'
  · subst hlt
    exact Or.inr ⟨"lt;".toList, by decide +kernel, by decide +kernel, fun t => rfl⟩
  by_cases hgt : c = '>'
  · subst hgt
    exact Or.inr ⟨"gt;".toList, by decide +kernel, by decide +kernel, fun t => rfl⟩
  by_cases hquot : c = '"'
  · subst hquot
    exact Or.inr ⟨"quot;".toList, by decide +kernel, by decide +kernel, fun t => rfl⟩
  by_cases happ : c = '\''
  · subst happ
    exact Or.inr ⟨"#x27;".toList, by decide +kernel, by decide +kernel, fun t => rfl⟩
  · refine Or.inl ⟨?_, hamp, hlt⟩
    simp [escapeChar, reference?, hamp, hlt, hgt, hquot, happ]

theorem not_mem_of_mem_references {w : Text} (h : '&' :: w ∈ references) : '&' ∉ w ∧ '<' ∉ w := by
  have hall : ∀ r ∈ references, '&' ∉ r.drop 1 ∧ '<' ∉ r.drop 1 := by decide +kernel
  exact hall _ h

theorem unescape_escape_append (s t : Text) : unescape (escape s ++ t) = s ++ unescape t := by
  induction s with
  | nil => rfl
  | cons c s ih =>
    rw [escape, List.flatMap_cons, List.append_assoc]
    rcases escapeChar_cases c with ⟨he, hamp, -⟩ | ⟨w, -, he, hread⟩
    · rw [he, List.singleton_append, unescape_cons_of_ne hamp]
      exact congrArg (c :: ·) ih
    · rw [he, hread]
      exact congrArg (c :: ·) ih

theorem escape_eq_nil_iff {t : Text} : escape t = [] ↔ t = [] := by
  constructor
  · intro h
    have hread := unescape_escape_append t []
    rw [h] at hread
    simpa [unescape] using hread.symm
  · rintro rfl
    rfl

theorem not_mem_escape (t : Text) : '<' ∉ escape t := by
  intro h
  obtain ⟨c, -, hc⟩ := List.mem_flatMap.1 h
  rcases escapeChar_cases c with ⟨he, -, hlt⟩ | ⟨w, hw, he, -⟩
  · rw [he, List.mem_singleton] at hc
    exact hlt hc.symm
  · rw [he, List.mem_cons] at hc
    rcases hc with hc | hc
    · exact absurd hc (by decide)
    · exact (not_mem_of_mem_references hw).2 hc

/-- Every ampersand of escaped text starts a reference. -/
theorem eachStarts_escape (t : Text) : Text.EachStarts '&' references (escape t) := by
  refine Text.eachStarts_flatMap fun c _ => ?_
  rcases escapeChar_cases c with ⟨he, hamp, -⟩ | ⟨w, hw, he, -⟩
  · rw [he]
    exact Text.eachStarts_of_not_mem (by simpa using Ne.symm hamp) references
  · rw [he]
    exact Text.eachStarts_of_mem hw (not_mem_of_mem_references hw).1

theorem cutTags_append_of_not_mem {s : Text} (h : '<' ∉ s) (t : Text) :
    cutTags none (s ++ t) = (s ++ (cutTags none t).1, (cutTags none t).2) := by
  induction s with
  | nil => rfl
  | cons c s ih =>
    have hc : c ≠ '<' := fun he => h (by simp [he])
    rw [List.cons_append, cutTags, if_neg hc, ih fun hm => h (List.mem_cons_of_mem c hm)]
    rfl

theorem cutTags_some_append {r : Text} (h : '>' ∉ r) (tag t : Text) :
    cutTags (some tag) (r ++ '>' :: t) =
      ((cutTags none t).1, (tag ++ r ++ ['>']) :: (cutTags none t).2) := by
  induction r generalizing tag with
  | nil => simp [cutTags]
  | cons c r ih =>
    have hc : c ≠ '>' := fun he => h (by simp [he])
    rw [List.cons_append, cutTags, if_neg hc, ih fun hm => h (List.mem_cons_of_mem c hm)]
    simp

def angled (r : Text) : Text := '<' :: (r ++ ['>'])

theorem cutTags_angled {r : Text} (h : '>' ∉ r) (t : Text) :
    cutTags none (angled r ++ t) = ((cutTags none t).1, angled r :: (cutTags none t).2) := by
  have hcut := cutTags_some_append h ['<'] t
  simpa [angled, cutTags] using hcut

/-- Tags: texts between angles, without other angles and without references. -/
def AreTags (ws : List Text) : Prop :=
  ∀ w ∈ ws, ∃ r, w = angled r ∧ '<' ∉ r ∧ '>' ∉ r ∧ '&' ∉ r

theorem areTags_map_angled {rs : List Text} (h : ∀ r ∈ rs, '<' ∉ r ∧ '>' ∉ r ∧ '&' ∉ r) :
    AreTags (rs.map angled) := by
  intro w hw
  obtain ⟨r, hr, rfl⟩ := List.mem_map.1 hw
  exact ⟨r, rfl, h r hr⟩

def IsPlain (t : Text) : Prop := '<' ∉ t ∧ '&' ∉ t

instance (t : Text) : Decidable (IsPlain t) := inferInstanceAs (Decidable (_ ∧ _))

section Pieces
variable {ws : List Text}

/-- A piece is a tag of a list, or text. -/
inductive Inner (ws : List Text) : Piece → Prop where
  | tag {p : Piece} (h : writePiece p ∈ ws) : Inner ws p
  | text (t : Text) : Inner ws (.text t)

/-- A piece is a tag of a list, text, or a literal without angles and references. -/
inductive Drawn (ws : List Text) : Piece → Prop where
  | inner {p : Piece} (h : Inner ws p) : Drawn ws p
  | literal {t : Text} (h : IsPlain t) : Drawn ws (.literal t)

theorem AreTags.not_mem (hws : AreTags ws) {t : Text} (h : '<' ∉ t) : t ∉ ws := by
  intro hm
  obtain ⟨r, rfl, -⟩ := hws t hm
  exact h (List.mem_cons_self ..)

/-- A piece is a tag, or it is written without angles. -/
theorem Drawn.cases {p : Piece} (h : Drawn ws p) : writePiece p ∈ ws ∨ '<' ∉ writePiece p := by
  cases h with
  | inner h =>
    cases h with
    | tag h => exact Or.inl h
    | text t => exact Or.inr (not_mem_escape t)
  | literal h => exact Or.inr h.1

/-- Every angle of the markup starts a tag of the list. -/
theorem eachStarts_write (hws : AreTags ws) {m : Markup} (h : ∀ p ∈ m, Drawn ws p) :
    Text.EachStarts '<' ws (write m) := by
  refine Text.eachStarts_flatMap fun p hp => ?_
  rcases (h p hp).cases with hm | hlt
  · obtain ⟨r, hr, hlt, -⟩ := hws _ hm
    rw [hr] at hm ⊢
    exact Text.eachStarts_of_mem hm (by simpa using hlt)
  · exact Text.eachStarts_of_not_mem hlt ws

theorem eachStarts_references_write (hws : AreTags ws) {m : Markup} (h : ∀ p ∈ m, Drawn ws p) :
    Text.EachStarts '&' references (write m) := by
  refine Text.eachStarts_flatMap fun p hp => ?_
  cases h p hp with
  | inner h =>
    cases h with
    | tag hm =>
      obtain ⟨r, hr, -, -, hamp⟩ := hws _ hm
      rw [hr]
      exact Text.eachStarts_of_not_mem (by simpa [angled] using hamp) references
    | text t => exact eachStarts_escape t
  | literal h => exact Text.eachStarts_of_not_mem h.2 references

/-- The tags of the markup are those of its pieces, whatever stands between them. -/
theorem cutTags_write (hws : AreTags ws) {m : Markup} (h : ∀ p ∈ m, Drawn ws p) :
    cutTags none (write m) =
      (((m.map writePiece).filter fun w => w ∉ ws).flatten,
        (m.map writePiece).filter fun w => w ∈ ws) := by
  induction m with
  | nil => rfl
  | cons p m ih =>
    have hrest := ih fun q hq => h q (List.mem_cons_of_mem p hq)
    have hwrite : write (p :: m) = writePiece p ++ write m := List.flatMap_cons
    rw [hwrite, List.map_cons]
    rcases (h p (by simp)).cases with hm | hlt
    · obtain ⟨r, hr, -, hgt, -⟩ := hws _ hm
      rw [hr] at hm ⊢
      simp [cutTags_angled hgt, hrest, hm]
    · simp [cutTags_append_of_not_mem hlt, hrest, hws.not_mem hlt]

theorem tags_write (hws : AreTags ws) {m : Markup} (h : ∀ p ∈ m, Drawn ws p) :
    tags (write m) = (m.map writePiece).filter fun w => w ∈ ws := by
  rw [tags, cutTags_write hws h]

theorem unescape_dropTags_write (hws : AreTags ws) {m : Markup} (h : ∀ p ∈ m, Inner ws p) :
    unescape (dropTags (write m)) = shown m := by
  rw [dropTags, cutTags_write hws fun p hp => .inner (h p hp)]
  induction m with
  | nil => rfl
  | cons p m ih =>
    have hrest := ih fun q hq => h q (List.mem_cons_of_mem p hq)
    have hshown : shown (p :: m) = shown [p] ++ shown m := by simp [shown]
    rw [hshown, ← hrest]
    -- A piece that is cut out shows nothing, and one that stays is text.
    by_cases hm : writePiece p ∈ ws
    · have hnone : shown [p] = [] := by
        cases p with
        | text t => exact absurd hm (hws.not_mem (not_mem_escape t))
        | _ => rfl
      simp [hm, hnone]
    · cases h p (by simp) with
      | tag hm' => exact absurd hm' hm
      | text t =>
        have hwrite : writePiece (.text t) = escape t := rfl
        rw [hwrite] at hm
        simp [hwrite, hm, unescape_escape_append, shown]

end Pieces

end Markup
end Letterhead
