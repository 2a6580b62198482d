import Letterhead.Proofs.Markup.Reading
import Letterhead.Proofs.Number.Numeral

/-! Text with tags in it. A text is woven from tags and from characters that are neither angles nor
double quotes; its tags are then the ones that it is woven from. -/
namespace Letterhead

namespace Markup

def marks : Text := ['<', '>', '"']

theorem not_mem_singleton_of_not_mem_marks {c : Char} (h : c ∉ marks) : '<' ∉ [c] := by
  rw [List.mem_singleton]
  rintro rfl
  exact h (by decide)

def IsBare (t : Text) : Prop := ∀ c ∈ t, c ∉ marks

instance (t : Text) : Decidable (IsBare t) := List.decidableBAll (fun c => c ∉ marks) t

theorem isBare_cons {c : Char} {t : Text} : IsBare (c :: t) ↔ c ∉ marks ∧ IsBare t :=
  List.forall_mem_cons

theorem isBare_append {s t : Text} : IsBare (s ++ t) ↔ IsBare s ∧ IsBare t :=
  List.forall_mem_append

/-- A literal text has no marks where the characters that it stands for are none. -/
theorem isBare_ofList {t : Text} (h : IsBare t) : IsBare (String.ofList t).toList := by
  rwa [String.toList_ofList]

theorem isBare_flatMap {α : Type} {f : α → Text} {xs : List α} (h : ∀ x ∈ xs, IsBare (f x)) :
    IsBare (xs.flatMap f) := by
  intro c hc
  obtain ⟨x, hx, hc⟩ := List.mem_flatMap.1 hc
  exact h x hx c hc

theorem isBare_of_isDigit {t : Text} (h : ∀ c ∈ t, c = '-' ∨ c.isDigit = true) : IsBare t := by
  have hmarks : (marks.all fun c => c ≠ '-' ∧ c.isDigit = false) = true := by decide
  intro c hc hm
  obtain ⟨hdash, hdigit⟩ := of_decide_eq_true (List.all_eq_true.1 hmarks c hm)
  cases h c hc with
  | inl h => exact hdash h
  | inr h => simp [hdigit] at h

theorem isBare_intText (n : Int) : IsBare (intText n) := isBare_of_isDigit fun _ => mem_intText

theorem isBare_escape (t : Text) : IsBare (escape t) := by
  have hmarks : (marks.all fun c => escapeChar c ≠ [c]) = true := by decide
  have hreferences : ∀ r ∈ references, IsBare r := by decide
  refine isBare_flatMap fun c _ d hd => ?_
  obtain ⟨he, -⟩ | ⟨w, hw, he, -⟩ := escapeChar_cases c
  · rw [he, List.mem_singleton] at hd
    rw [hd]
    exact fun hm => of_decide_eq_true (List.all_eq_true.1 hmarks c hm) he
  · exact hreferences _ hw d (he ▸ hd)

section Weaving
variable {α : Type} {f : α → Text}

/-- A text is made of some things as they are written, in order, and of characters that are no
marks. -/
inductive Woven (f : α → Text) : List α → Text → Prop where
  | nil : Woven f [] []
  | plain {c : Char} {xs : List α} {t : Text} (hc : c ∉ marks) (h : Woven f xs t) :
      Woven f xs (c :: t)
  | tag {x : α} {xs : List α} {w t : Text} (hx : f x = '<' :: w) (h : Woven f xs t) :
      Woven f (x :: xs) ('<' :: (w ++ t))

theorem Woven.append {xs ys : List α} {s t : Text} (hs : Woven f xs s) (ht : Woven f ys t) :
    Woven f (xs ++ ys) (s ++ t) := by
  induction hs with
  | nil => exact ht
  | plain hc _ ih => exact .plain hc ih
  | tag hx _ ih =>
    rw [List.cons_append, List.cons_append, List.append_assoc]
    exact .tag hx ih

theorem IsBare.woven {t : Text} (h : IsBare t) : Woven f [] t := by
  induction t with
  | nil => exact .nil
  | cons c t ih =>
    obtain ⟨hc, ht⟩ := isBare_cons.1 h
    exact .plain hc (ih ht)

theorem Woven.isBare {t : Text} (h : Woven f [] t) : IsBare t := by
  generalize hxs : ([] : List α) = xs at h
  induction h with
  | nil => simp [IsBare]
  | plain hc _ ih => exact isBare_cons.2 ⟨hc, ih hxs⟩
  | tag => cases hxs

theorem woven_singleton {x : α} {w : Text} (hx : f x = '<' :: w) : Woven f [x] (f x) := by
  have h := Woven.tag hx .nil
  rwa [List.append_nil, ← hx] at h

/-- A text starts with a character that is no mark, or with the first thing that it is made of. -/
theorem Woven.of_cons {c : Char} {xs : List α} {t : Text} (h : Woven f xs (c :: t)) :
    (c ∉ marks ∧ Woven f xs t) ∨ ∃ x ys w u, xs = x :: ys ∧ f x = c :: w ∧ c = '<' ∧ t = w ++ u ∧
      Woven f ys u := by
  generalize hs : c :: t = s at h
  cases h with
  | nil => cases hs
  | plain hc h =>
    obtain ⟨rfl, rfl⟩ := List.cons.inj hs
    exact Or.inl ⟨hc, h⟩
  | tag hx h =>
    obtain ⟨rfl, rfl⟩ := List.cons.inj hs
    exact Or.inr ⟨_, _, _, _, rfl, hx, rfl, rfl, h⟩

/-- What has no marks stands before the first tag, and can go. -/
theorem Woven.of_append {xs : List α} {s t : Text} (hs : IsBare s) (h : Woven f xs (s ++ t)) :
    Woven f xs t := by
  induction s with
  | nil => exact h
  | cons c s ih =>
    obtain ⟨hc, hs⟩ := isBare_cons.1 hs
    obtain ⟨-, h⟩ | ⟨x, ys, w, u, -, -, rfl, -⟩ := h.of_cons
    · exact ih hs h
    · exact absurd (by decide) hc

end Weaving

end Markup

def Piece.isTag : Piece → Bool
  | opening .. | closing _ | void .. => true
  | text _ | literal _ => false

/-- The name of a tag and its attributes have no marks. -/
def Piece.IsClean : Piece → Prop
  | opening tag attributes | void tag attributes =>
    Markup.IsBare tag.toList ∧ ∀ a ∈ attributes, Markup.IsBare a.1.toList ∧ Markup.IsBare a.2
  | closing tag => Markup.IsBare tag.toList
  | text _ | literal _ => True

namespace Markup

theorem not_mem_writeAttribute {a : String × Text} (hname : IsBare a.1.toList) (hvalue : IsBare a.2) :
    '>' ∉ writeAttribute a := by
  have hnot : ∀ {t : Text}, IsBare t → '>' ∉ t := fun h hm => h _ hm (by decide)
  simp [writeAttribute, hnot hname, hnot hvalue]

/-- A clean tag is written between angles, and ends at the first one that closes. -/
theorem exists_angled {p : Piece} (htag : p.isTag = true) (h : p.IsClean) :
    ∃ r, writePiece p = angled r ∧ '>' ∉ r := by
  have hnot : ∀ {t : Text}, IsBare t → '>' ∉ t := fun h hm => h _ hm (by decide)
  have hattributes : ∀ {as : List (String × Text)},
      (∀ a ∈ as, IsBare a.1.toList ∧ IsBare a.2) → '>' ∉ as.flatMap writeAttribute := by
    intro as has hm
    obtain ⟨a, ha, hm⟩ := List.mem_flatMap.1 hm
    exact not_mem_writeAttribute (has a ha).1 (has a ha).2 hm
  cases p with
  | opening tag as =>
    refine ⟨tag.toList ++ as.flatMap writeAttribute, by simp [writePiece, angled], ?_⟩
    exact List.not_mem_append (hnot h.1) (hattributes h.2)
  | closing tag =>
    exact ⟨'/' :: tag.toList, rfl, by simpa using hnot h⟩
  | void tag as =>
    refine ⟨tag.toList ++ as.flatMap writeAttribute ++ " /".toList, by simp [writePiece, angled], ?_⟩
    exact List.not_mem_append (List.not_mem_append (hnot h.1) (hattributes h.2)) (by decide)
  | text t => cases htag
  | literal t => cases htag

theorem Woven.tags_eq {ps : List Piece} {t : Text} (h : Woven writePiece ps t)
    (hps : ∀ p ∈ ps, p.isTag = true ∧ p.IsClean) : tags t = ps.map writePiece := by
  induction h with
  | nil => rfl
  | @plain c ps t hc _ ih =>
    have hcut := cutTags_append_of_not_mem (not_mem_singleton_of_not_mem_marks hc) t
    rw [List.singleton_append] at hcut
    rw [tags, hcut]
    exact ih hps
  | @tag p ps w t hx _ ih =>
    obtain ⟨hp, hps⟩ := List.forall_mem_cons.1 hps
    obtain ⟨r, hr, hgt⟩ := exists_angled hp.1 hp.2
    rw [List.map_cons, ← List.cons_append, ← hx, hr, tags, cutTags_angled hgt]
    exact congrArg _ (ih hps)

theorem woven_write {m : Markup} (h : ∀ p ∈ m, p.isTag = true ∧ p.IsClean) :
    Woven writePiece m (write m) := by
  induction m with
  | nil => exact .nil
  | cons p m ih =>
    obtain ⟨hp, hm⟩ := List.forall_mem_cons.1 h
    obtain ⟨r, hr, -⟩ := exists_angled hp.1 hp.2
    exact (woven_singleton hr).append (ih hm)

/-- A text that is woven from blocks of tags is woven from their tags. -/
theorem Woven.flatten {ms : List Markup} {t : Text} (h : Woven write ms t)
    (hms : ∀ m ∈ ms, ∀ p ∈ m, p.isTag = true ∧ p.IsClean) : Woven writePiece ms.flatten t := by
  induction h with
  | nil => exact .nil
  | plain hc _ ih => exact .plain hc (ih hms)
  | tag hx _ ih =>
    obtain ⟨hm, hms⟩ := List.forall_mem_cons.1 hms
    rw [List.flatten_cons, ← List.cons_append, ← hx]
    exact (woven_write hm).append (ih hms)

/-- A text has the tags of some markup, and no mark stands outside of them. -/
structure HasTags (m : Markup) (t : Text) : Prop where
  clean : ∀ p ∈ m, p.IsClean
  woven : Woven writePiece (m.filter Piece.isTag) t

namespace HasTags

theorem tags_eq {m : Markup} {t : Text} (h : HasTags m t) :
    tags t = (m.filter Piece.isTag).map writePiece :=
  h.woven.tags_eq fun p hp => ⟨(List.mem_filter.1 hp).2, h.clean p (List.mem_filter.1 hp).1⟩

theorem nil : HasTags [] (write []) := ⟨by simp, .nil⟩

theorem append {m n k l : Markup} (hm : HasTags m (write k)) (hn : HasTags n (write l)) :
    HasTags (m ++ n) (write (k ++ l)) := by
  refine ⟨List.forall_mem_append.2 ⟨hm.clean, hn.clean⟩, ?_⟩
  rw [List.filter_append, write_append]
  exact hm.woven.append hn.woven

theorem text (t : Text) : HasTags [.text t] (write [.text t]) := by
  refine ⟨by simp [Piece.IsClean], ?_⟩
  have hwrite : write [.text t] = escape t := by simp [write, writePiece]
  rw [hwrite]
  exact (isBare_escape t).woven

theorem tag {p : Piece} (htag : p.isTag = true) (h : p.IsClean) : HasTags [p] (write [p]) := by
  have hall : ∀ q ∈ [p], q.isTag = true ∧ q.IsClean := by simpa using ⟨htag, h⟩
  refine ⟨fun q hq => (hall q hq).2, ?_⟩
  rw [List.filter_eq_self.2 fun q hq => (hall q hq).1]
  exact woven_write hall

/-- Around what has the tags of some markup, an element has its own two as well. -/
theorem element {name : String} {attributes : List (String × Text)} {m inner : Markup}
    (hname : IsBare name.toList) (hattributes : ∀ a ∈ attributes, IsBare a.1.toList ∧ IsBare a.2)
    (h : HasTags m (write inner)) :
    HasTags (element name attributes m) (write (element name attributes inner)) := by
  have hopening := tag (p := .opening name attributes) rfl ⟨hname, hattributes⟩
  have hclosing := tag (p := .closing name) rfl hname
  exact hopening.append (h.append hclosing)

end HasTags
end Markup
end Letterhead
