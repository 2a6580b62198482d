import Letterhead.Branding.Template
import Letterhead.Proofs.Document.Slug
import Letterhead.Proofs.Markup.Woven

/-! Filling of templates. Where a name stands, its value is put in, and all else stays. A name has no
marks and starts with a brace, so it stands in no tag, and no tag is assembled around it. -/
namespace Letterhead

/-- A brace has no other case. -/
theorem eq_of_foldLetter_eq_brace {c : Char} (h : foldLetter c = '\x7b') : c = '\x7b' := by
  have hvariants : ∀ v ∈ letterVariants, Char.ofNat v.2 ≠ '\x7b' := by decide
  have hrows : ∀ r ∈ caseRows, (r.last : Int) + r.shift < 123 ∨ 123 < (r.first : Int) + r.shift := by
    decide +kernel
  have hascii : ∀ n < 128, (Char.ofNat n).toLower = '\x7b' → n = 123 := by decide +kernel
  have hlower : simpleLower c = '\x7b' := by
    simp only [foldLetter] at h
    cases hl : letterVariants.lookup (simpleLower c).toNat with
    | none => rwa [hl] at h
    | some n =>
      rw [hl] at h
      obtain ⟨before, after, hmem, -⟩ := List.lookup_eq_some_iff.1 hl
      exact absurd h (hvariants ((simpleLower c).toNat, n) (by simp [hmem]))
  unfold simpleLower at hlower
  split at hlower
  · next hlt =>
    have hn := hascii c.toNat hlt (by rwa [Char.ofNat_toNat])
    rw [← Char.ofNat_toNat c, hn]
  · split at hlower
    · next r hr =>
      have hrow := List.find?_some hr
      simp only [Bool.and_eq_true, decide_eq_true_eq] at hrow
      have hsum := toNat_ofNat_or ((c.toNat : Int) + r.shift).toNat
      have hbrace : ('\x7b' : Char).toNat = 123 := rfl
      rw [hlower, hbrace] at hsum
      have havoids := hrows r (List.mem_of_find?_eq_some hr)
      omega
    · exact hlower

namespace Text

theorem exists_of_afterIgnoringCase? {s t r : Text} (h : afterIgnoringCase? s t = some r) :
    ∃ u, t = u ++ r ∧ u.length = s.length ∧ ∀ c ∈ u, ∃ a ∈ s, foldLetter a = foldLetter c := by
  induction s generalizing t with
  | nil => exact ⟨[], Option.some.inj h, rfl, by simp⟩
  | cons a s ih =>
    cases t with
    | nil => cases h
    | cons b t =>
      rw [afterIgnoringCase?] at h
      split at h
      · next hsame =>
        obtain ⟨u, rfl, hlength, hu⟩ := ih h
        refine ⟨b :: u, rfl, by simp [hlength], ?_⟩
        rw [List.forall_mem_cons]
        refine ⟨⟨a, by simp, by simpa [sameLetter] using hsame⟩, fun c hc => ?_⟩
        obtain ⟨d, hd, he⟩ := hu c hc
        exact ⟨d, List.mem_cons_of_mem a hd, he⟩
      · cases h

end Text

namespace Named
variable {α : Type}

theorem set_of_not_mem {name : Text} {vs : Named α} (h : name ∉ vs.map Prod.fst) (value : α) :
    set name value vs = vs ++ [(name, value)] := by
  induction vs with
  | nil => rfl
  | cons f vs ih =>
    rw [List.map_cons, List.mem_cons, not_or] at h
    rw [set, if_neg (Ne.symm h.1), ih h.2, List.cons_append]

theorem setAll_concat {more vs : Named α} {name : Text} (h : name ∉ (setAll more vs).map Prod.fst)
    (value : α) : setAll (more ++ [(name, value)]) vs = setAll more vs ++ [(name, value)] := by
  rw [setAll, List.foldl_append]
  exact set_of_not_mem h value

theorem forall_set {P : Text × α → Prop} {vs : Named α} (hvs : ∀ f ∈ vs, P f) {name : Text}
    {value : α} (h : P (name, value)) : ∀ f ∈ set name value vs, P f := by
  induction vs with
  | nil => simpa [set] using h
  | cons f vs ih =>
    obtain ⟨hf, hvs⟩ := List.forall_mem_cons.1 hvs
    rw [set]
    split
    · exact List.forall_mem_cons.2 ⟨h, hvs⟩
    · exact List.forall_mem_cons.2 ⟨hf, ih hvs⟩

theorem forall_setAll {P : Text × α → Prop} {more vs : Named α} (hvs : ∀ f ∈ vs, P f)
    (hmore : ∀ f ∈ more, P f) : ∀ f ∈ setAll more vs, P f := by
  induction more generalizing vs with
  | nil => exact hvs
  | cons g more ih =>
    obtain ⟨hg, hmore⟩ := List.forall_mem_cons.1 hmore
    exact ih (forall_set hvs hg) hmore

end Named

namespace Template
open Markup

def mark (name : Text) : Text := opening ++ name ++ closing

def count (name t : Text) : Nat := (Text.cutSpans (placeholder name) [] t).1.length

/-- A text with a value in so many places of a name, and otherwise as it was. -/
inductive Filled (name value : Text) : Nat → Text → Text → Prop where
  | nil : Filled name value 0 [] []
  | keep {n : Nat} {c : Char} {s t : Text} (h : Filled name value n s t) :
      Filled name value n (c :: s) (c :: t)
  | put {n : Nat} {s r t : Text} (hs : Text.afterIgnoringCase? (mark name) s = some r)
      (h : Filled name value n r t) : Filled name value (n + 1) s (value ++ t)

section Filling
variable {name value : Text}

theorem head_of_afterIgnoringCase? {s r : Text}
    (h : Text.afterIgnoringCase? (mark name) s = some r) : ∃ t, s = '\x7b' :: t := by
  have hmark : mark name = '\x7b' :: '\x7b' :: (name ++ closing) := rfl
  have hbrace : foldLetter '\x7b' = '\x7b' := by decide
  rw [hmark] at h
  cases s with
  | nil => cases h
  | cons c s =>
    rw [Text.afterIgnoringCase?] at h
    split at h
    · next hsame =>
      have hfold : foldLetter c = '\x7b' := by
        rw [← hbrace]
        exact (beq_iff_eq.1 hsame).symm
      exact ⟨s, by rw [eq_of_foldLetter_eq_brace hfold]⟩
    · cases h

theorem drop_of_afterIgnoringCase? {c : Char} {rest r : Text}
    (h : Text.afterIgnoringCase? (mark name) (c :: rest) = some r) :
    rest.drop ((mark name).length - 1) = r := by
  obtain ⟨u, hu, hlength, -⟩ := Text.exists_of_afterIgnoringCase? h
  have hcons : (c :: rest).drop u.length = r := by rw [hu, List.drop_left]
  rw [← hcons, hlength]
  rfl

theorem filled_cutSpans (before t : Text) :
    ∃ u, Filled name value (Text.cutSpans (placeholder name) before t).1.length t u ∧
      (Text.cutSpans (placeholder name) before t).1.flatMap (fun p => p.1 ++ value) ++
        (Text.cutSpans (placeholder name) before t).2 = before.reverse ++ u := by
  fun_induction Text.cutSpans (placeholder name) before t with
  | case1 before => exact ⟨[], .nil, by simp⟩
  | case2 before c rest shown n hrule r ih =>
    obtain ⟨u, hu, he⟩ := ih
    obtain ⟨tail, htail, hspan⟩ := Option.map_eq_some_iff.1 hrule
    obtain ⟨-, rfl⟩ := Prod.mk.inj hspan
    have hdrop : rest.drop ((opening ++ name ++ closing).length - 1) = tail :=
      drop_of_afterIgnoringCase? htail
    have hr : r = Text.cutSpans (placeholder name) [] tail := by rw [← hdrop]
    rw [hdrop, ← hr] at hu he
    refine ⟨value ++ u, .put htail hu, ?_⟩
    rw [List.flatMap_cons, List.append_assoc, he, List.reverse_nil, List.nil_append,
      List.append_assoc]
  | case3 before c rest hrule ih =>
    obtain ⟨u, hu, he⟩ := ih
    exact ⟨c :: u, .keep hu, by rw [he]; simp⟩

theorem filled_replaceName (name value t : Text) :
    Filled name value (count name t) t (replaceName name value t) := by
  obtain ⟨u, hu, he⟩ := filled_cutSpans [] t
  have hreplace : replaceName name value t = u := he
  rwa [hreplace]

theorem Filled.eq_of_not_mem {n : Nat} {s t : Text} (h : Filled name value n s t) (hs : '\x7b' ∉ s) :
    n = 0 ∧ t = s := by
  induction h with
  | nil => exact ⟨rfl, rfl⟩
  | keep _ ih =>
    obtain ⟨rfl, rfl⟩ := ih fun hm => hs (List.mem_cons_of_mem _ hm)
    exact ⟨rfl, rfl⟩
  | put hmark _ _ =>
    obtain ⟨u, rfl⟩ := head_of_afterIgnoringCase? hmark
    exact absurd (List.mem_cons_self ..) hs

def IsSafe (name : Text) : Prop := ∀ a ∈ mark name, foldLetter a ∉ marks

instance (name : Text) : Decidable (IsSafe name) :=
  List.decidableBAll (fun a => foldLetter a ∉ marks) (mark name)

theorem isSafe_ofList {t : Text} (h : IsSafe t) : IsSafe (String.ofList t).toList := by
  rwa [String.toList_ofList]

theorem isBare_of_afterIgnoringCase? (hname : IsSafe name) {s r : Text}
    (h : Text.afterIgnoringCase? (mark name) s = some r) : ∃ u, s = u ++ r ∧ IsBare u := by
  have hmarks : (marks.all fun c => foldLetter c = c) = true := by decide
  obtain ⟨u, hs, -, hu⟩ := Text.exists_of_afterIgnoringCase? h
  refine ⟨u, hs, fun c hc hm => ?_⟩
  obtain ⟨a, ha, he⟩ := hu c hc
  rw [of_decide_eq_true (List.all_eq_true.1 hmarks c hm)] at he
  exact hname a ha (he ▸ hm)

variable {α : Type} {f : α → Text} {vs : List α}

/-- Putting a value in adds what the value is made of, once for every place; the text may start
within a tag. -/
theorem Filled.exists_woven (hname : IsSafe name) (hvalue : Woven f vs value) {n : Nat} {s t : Text}
    (h : Filled name value n s t) {w rest : Text} {xs : List α} (hs : s = w ++ rest)
    (hw : '\x7b' ∉ w) (hrest : Woven f xs rest) (hxs : ∀ x ∈ xs, '\x7b' ∉ f x) :
    ∃ u ys, t = w ++ u ∧ Woven f ys u ∧ ys.Perm (xs ++ (List.replicate n vs).flatten) := by
  induction h generalizing w rest xs with
  | nil =>
    obtain ⟨rfl, rfl⟩ := List.append_eq_nil_iff.1 hs.symm
    cases hrest
    exact ⟨[], [], rfl, .nil, .refl []⟩
  | @keep n c s t _ ih =>
    cases w with
    | cons d w =>
      obtain ⟨rfl, rfl⟩ := List.cons.inj hs
      obtain ⟨u, ys, ht, hu, hperm⟩ := ih rfl (fun hm => hw (List.mem_cons_of_mem c hm)) hrest hxs
      exact ⟨u, ys, congrArg (c :: ·) ht, hu, hperm⟩
    | nil =>
      obtain rfl : c :: s = rest := hs
      obtain ⟨hc, hrest⟩ | ⟨x, zs, v, r, rfl, hx, rfl, rfl, hr⟩ := hrest.of_cons
      · obtain ⟨u, ys, ht, hu, hperm⟩ := ih rfl hw hrest hxs
        exact ⟨c :: u, ys, congrArg (c :: ·) ht, .plain hc hu, hperm⟩
      · -- The tag that begins here is passed over as a whole.
        obtain ⟨hxbrace, hzs⟩ := List.forall_mem_cons.1 hxs
        rw [hx] at hxbrace
        obtain ⟨u, ys, ht, hu, hperm⟩ :=
          ih rfl (fun hm => hxbrace (List.mem_cons_of_mem _ hm)) hr hzs
        exact ⟨'<' :: (v ++ u), x :: ys, congrArg ('<' :: ·) ht, .tag hx hu, hperm.cons x⟩
  | @put n s r t hmark _ ih =>
    cases w with
    | cons d w =>
      obtain ⟨v, rfl⟩ := head_of_afterIgnoringCase? hmark
      exact absurd ((List.cons.inj hs).1 ▸ List.mem_cons_self ..) hw
    | nil =>
      obtain rfl : s = rest := hs
      obtain ⟨v, rfl, hv⟩ := isBare_of_afterIgnoringCase? hname hmark
      obtain ⟨u, ys, ht, hu, hperm⟩ := ih (w := []) rfl (by simp) (hrest.of_append hv) hxs
      refine ⟨value ++ u, vs ++ ys, congrArg (value ++ ·) ht, hvalue.append hu, ?_⟩
      calc
        (vs ++ ys).Perm (vs ++ (xs ++ (List.replicate n vs).flatten)) := hperm.append_left vs
        _ = (vs ++ xs) ++ (List.replicate n vs).flatten := (List.append_assoc ..).symm
        (vs ++ xs ++ (List.replicate n vs).flatten).Perm
            (xs ++ vs ++ (List.replicate n vs).flatten) := List.perm_append_comm.append_right _
        _ = xs ++ (List.replicate (n + 1) vs).flatten := by
          rw [List.replicate_succ, List.flatten_cons, List.append_assoc]

theorem exists_woven_replaceName (hname : IsSafe name) (hvalue : Woven f vs value) {t : Text}
    {xs : List α} (ht : Woven f xs t) (hxs : ∀ x ∈ xs, '\x7b' ∉ f x) :
    ∃ ys, Woven f ys (replaceName name value t) ∧
      ys.Perm (xs ++ (List.replicate (count name t) vs).flatten) := by
  obtain ⟨u, ys, hu, hys, hperm⟩ :=
    (filled_replaceName name value t).exists_woven hname hvalue (w := []) rfl (by simp) ht hxs
  exact ⟨ys, hu ▸ hys, hperm⟩

theorem isBare_replaceName (hname : IsSafe name) (hvalue : IsBare value) {t : Text} (ht : IsBare t) :
    IsBare (replaceName name value t) := by
  obtain ⟨ys, hys, hperm⟩ := exists_woven_replaceName (f := writePiece) hname hvalue.woven ht.woven
    (by simp)
  obtain rfl : ys = [] := by simpa using hperm
  exact hys.isBare

theorem replaceName_of_not_mem {t : Text} (h : '\x7b' ∉ t) : replaceName name value t = t :=
  ((filled_replaceName name value t).eq_of_not_mem h).2

theorem count_of_not_mem {t : Text} (h : '\x7b' ∉ t) : count name t = 0 :=
  ((filled_replaceName name [] t).eq_of_not_mem h).1

end Filling

theorem fill_of_not_mem {t : Text} (h : '\x7b' ∉ t) (now : Instant) (values : Named Text) :
    fill now values t = t := by
  unfold fill
  induction Named.setAll values (clockValues now) with
  | nil => rfl
  | cons f fs ih => rw [List.foldl_cons, replaceName_of_not_mem h, ih]

/-- The value of a further name is put in last. -/
theorem fill_concat (now : Instant) (values : Named Text) (name value t : Text)
    (h : name ∉ (Named.setAll values (clockValues now)).map Prod.fst) :
    fill now (values ++ [(name, value)]) t = replaceName name value (fill now values t) := by
  rw [fill, Named.setAll_concat h, List.foldl_append]
  rfl

def IsDateChar (c : Char) : Prop := c.isAlphanum = true ∨ c ∈ [' ', ',', '-']

instance (c : Char) : Decidable (IsDateChar c) := inferInstanceAs (Decidable (_ ∨ _))

theorem isDateChar_of_isDigit {c : Char} (h : c.isDigit = true) : IsDateChar c :=
  Or.inl (by simp [Char.isAlphanum, h])

theorem isDateChar_of_mem_intText {c : Char} {n : Int} (h : c ∈ intText n) : IsDateChar c := by
  cases mem_intText h with
  | inl h => exact Or.inr (by simp [h])
  | inr h => exact isDateChar_of_isDigit h

theorem isDateChar_of_mem_long {d : Date} {c : Char} (h : c ∈ d.long) : IsDateChar c := by
  have hnames : (Date.monthNames.all fun name => name.toList.all Char.isAlphanum) = true := by
    decide +kernel
  have hmonth : ∀ c ∈ d.monthName, c.isAlphanum = true := by
    unfold Date.monthName
    cases hname : Date.monthNames[d.month - 1]? with
    | none => exact fun c hc => by cases hc
    | some name =>
      exact List.all_eq_true.1 (List.all_eq_true.1 hnames name (List.mem_of_getElem? hname))
  have hcomma : ", ".toList = [',', ' '] := String.toList_ofList
  rw [Date.long, hcomma] at h
  simp only [List.mem_append, List.mem_cons, List.not_mem_nil, or_false] at h
  rcases h with ((h | h | h) | h | h) | h
  · exact Or.inl (hmonth c h)
  · exact Or.inr (by simp [h])
  · exact isDateChar_of_isDigit (isDigit_of_mem_natText h)
  · exact Or.inr (by simp [h])
  · exact Or.inr (by simp [h])
  · exact isDateChar_of_mem_intText h

theorem isBare_long (d : Date) : IsBare d.long := by
  have hmarks : (marks.all fun c => ¬ IsDateChar c) = true := by decide
  exact fun c hc hm =>
    of_decide_eq_true (List.all_eq_true.1 hmarks c hm) (isDateChar_of_mem_long hc)

/-- A template without marks is filled in without marks, where the values have none. -/
theorem isBare_fill {values : Named Text} (hvalues : ∀ f ∈ values, IsSafe f.1 ∧ IsBare f.2)
    (now : Instant) {t : Text} (ht : IsBare t) : IsBare (fill now values t) := by
  have hclock : ∀ f ∈ clockValues now, IsSafe f.1 ∧ IsBare f.2 := by
    simp only [clockValues, List.forall_mem_cons, List.not_mem_nil, IsEmpty.forall_iff,
      implies_true, and_true]
    exact ⟨⟨isSafe_ofList (by decide), isBare_long _⟩, isSafe_ofList (by decide), isBare_intText _⟩
  have hall := Named.forall_setAll hclock hvalues
  unfold fill
  generalize Named.setAll values (clockValues now) = fs at hall
  induction fs generalizing t with
  | nil => exact ht
  | cons f fs ih =>
    obtain ⟨⟨hname, hvalue⟩, hfs⟩ := List.forall_mem_cons.1 hall
    exact ih (isBare_replaceName hname hvalue ht) hfs

end Template
end Letterhead
