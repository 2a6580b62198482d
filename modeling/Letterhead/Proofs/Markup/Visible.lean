import Letterhead.Proofs.Markup.Woven

/-! What is read of markup: the text outside of its tags, with its references read. Pieces are read one
by one, and reading makes no braces. -/
namespace Letterhead.Markup

def reading (t : Text) : Text := unescape (dropTags t)

/-! Pieces -/

theorem dropTags_append_of_not_mem {s : Text} (h : '<' ∉ s) (t : Text) :
    dropTags (s ++ t) = s ++ dropTags t := by
  rw [dropTags, cutTags_append_of_not_mem h]
  rfl

theorem dropTags_tag_append {p : Piece} (htag : p.isTag = true) (h : p.IsClean) (t : Text) :
    dropTags (writePiece p ++ t) = dropTags t := by
  obtain ⟨r, hr, hgt⟩ := exists_angled htag h
  rw [hr, dropTags, cutTags_angled hgt]
  rfl

/-- No tag of a woven text reaches into what stands behind it. -/
theorem Woven.dropTags_append {ps : List Piece} {t : Text} (h : Woven writePiece ps t)
    (hps : ∀ p ∈ ps, p.isTag = true ∧ p.IsClean) (rest : Text) :
    dropTags (t ++ rest) = dropTags t ++ dropTags rest := by
  induction h with
  | nil => rfl
  | @plain c ps t hc _ ih =>
    have hplain : ∀ s, dropTags (c :: s) = c :: dropTags s :=
      dropTags_append_of_not_mem (not_mem_singleton_of_not_mem_marks hc)
    rw [List.cons_append, hplain, hplain, ih hps, List.cons_append]
  | @tag p ps w t hx _ ih =>
    obtain ⟨⟨htag, hclean⟩, hps⟩ := List.forall_mem_cons.1 hps
    rw [← List.cons_append, ← hx, List.append_assoc, dropTags_tag_append htag hclean,
      dropTags_tag_append htag hclean, ih hps]

theorem HasTags.dropTags_append {m : Markup} {t : Text} (h : HasTags m t) (rest : Text) :
    dropTags (t ++ rest) = dropTags t ++ dropTags rest :=
  h.woven.dropTags_append
    (fun p hp => ⟨(List.mem_filter.1 hp).2, h.clean p (List.mem_filter.1 hp).1⟩) rest

def leftOf : Piece → Text
  | .text t => escape t
  | .literal t => dropTags t
  | _ => []

/-- A piece is a clean tag, text, or a literal with tags of its own. -/
def IsWhole : Piece → Prop
  | .literal t => ∃ m, HasTags m t
  | p => p.IsClean

theorem isWhole_of_isClean {p : Piece} (h : p.IsClean) (hliteral : ∀ t, p ≠ .literal t) :
    IsWhole p := by
  cases p with
  | literal t => exact absurd rfl (hliteral t)
  | _ => exact h

theorem dropTags_piece_append {p : Piece} (h : IsWhole p) (rest : Text) :
    dropTags (writePiece p ++ rest) = leftOf p ++ dropTags rest := by
  cases p with
  | text t => exact dropTags_append_of_not_mem (not_mem_escape t) rest
  | literal t =>
    obtain ⟨m, hm⟩ := h
    exact hm.dropTags_append rest
  | opening tag as => exact dropTags_tag_append (p := .opening tag as) rfl h rest
  | closing tag => exact dropTags_tag_append (p := .closing tag) rfl h rest
  | void tag as => exact dropTags_tag_append (p := .void tag as) rfl h rest

theorem dropTags_write {m : Markup} (h : ∀ p ∈ m, IsWhole p) :
    dropTags (write m) = m.flatMap leftOf := by
  induction m with
  | nil => rfl
  | cons p m ih =>
    obtain ⟨hp, hm⟩ := List.forall_mem_cons.1 h
    rw [write, List.flatMap_cons, List.flatMap_cons, dropTags_piece_append hp, ← ih hm]
    rfl

@[simp] theorem flatMap_leftOf_element (name : String) (attributes : List (String × Text))
    (m : Markup) : (element name attributes m).flatMap leftOf = m.flatMap leftOf := by
  simp [element, leftOf]

theorem unescape_dropTags_escape (s t : Text) :
    unescape (dropTags (escape s) ++ t) = s ++ unescape t := by
  have hdrop := dropTags_append_of_not_mem (not_mem_escape s) []
  have hnil : dropTags [] = [] := rfl
  rw [hnil, List.append_nil] at hdrop
  rw [hdrop, unescape_escape_append]

theorem reading_escape (t : Text) : reading (escape t) = t := by
  have hread := unescape_dropTags_escape t []
  rwa [List.append_nil, show unescape [] = [] from rfl, List.append_nil] at hread

/-! Braces -/

theorem sublist_cutTags (tag : Option Text) (t : Text) : (cutTags tag t).1.Sublist t := by
  fun_induction cutTags tag t with
  | case1 => exact List.Sublist.refl []
  | case2 t ih => exact ih.cons _
  | case3 c t _ r ih => exact ih.cons_cons c
  | case4 tag t r ih => exact ih.cons _
  | case5 tag c t _ ih => exact ih.cons c

theorem count_brace_unescape_le (t : Text) : (unescape t).count '\x7b' ≤ t.count '\x7b' := by
  fun_induction unescape t with
  | case7 => exact le_rfl
  | case6 c t _ _ _ _ _ ih =>
    rw [List.count_cons, List.count_cons]
    exact Nat.add_le_add_right ih _
  | _ t ih => simpa using ih

theorem count_brace_reading_le (s t : Text) :
    (unescape (dropTags s ++ t)).count '\x7b' ≤ s.count '\x7b' + t.count '\x7b' := by
  calc
    (unescape (dropTags s ++ t)).count '\x7b' ≤ (dropTags s ++ t).count '\x7b' :=
      count_brace_unescape_le _
    _ = (dropTags s).count '\x7b' + t.count '\x7b' := List.count_append
    _ ≤ s.count '\x7b' + t.count '\x7b' :=
      Nat.add_le_add_right ((sublist_cutTags none s).count_le '\x7b') _

end Letterhead.Markup
