import Mathlib.Data.List.Infix
import Letterhead.Proofs.Branding.Filling

/-! A template that is read once, with all values put in on the way. Filling it name by name comes to the
same as long as no value can become part of a mark that is replaced later. -/
namespace Letterhead

namespace Text

def alike : Text → Text → Bool
  | a :: s, b :: t => sameLetter a b && alike s t
  | _, _ => true

theorem alike_of_afterIgnoringCase? {s v u r : Text}
    (h : afterIgnoringCase? s (v ++ u) = some r) : alike s v = true := by
  induction s generalizing v with
  | nil => rfl
  | cons a s ih =>
    cases v with
    | nil => rfl
    | cons b v =>
      rw [List.cons_append, afterIgnoringCase?] at h
      split at h
      · next hsame => simp [alike, hsame, ih h]
      · cases h

theorem alike_of_both {s s' t r r' : Text} (h : afterIgnoringCase? s t = some r)
    (h' : afterIgnoringCase? s' t = some r') : alike s s' = true := by
  induction s generalizing s' t with
  | nil => rfl
  | cons a s ih =>
    cases s' with
    | nil => rfl
    | cons b s' =>
      cases t with
      | nil => cases h
      | cons c t =>
        rw [afterIgnoringCase?] at h h'
        split at h
        · next ha =>
          split at h'
          · next hb =>
            have hsame : sameLetter a b = true :=
              beq_iff_eq.2 ((beq_iff_eq.1 ha).trans (beq_iff_eq.1 hb).symm)
            simp [alike, hsame, ih h h']
          · cases h'
        · cases h

theorem afterIgnoringCase?_eq_none {s v : Text} (h : alike s v = false) (u : Text) :
    afterIgnoringCase? s (v ++ u) = none := by
  refine Option.eq_none_iff_forall_not_mem.2 fun r hr => ?_
  rw [alike_of_afterIgnoringCase? hr] at h
  cases h

end Text

namespace Template

/-- The value of the first name whose mark a text starts with, and what follows the mark. -/
def lead? (fs : Named Text) (t : Text) : Option (Text × Text) :=
  fs.findSome? fun f => (Text.afterIgnoringCase? (mark f.1) t).map fun r => (f.2, r)

def anyMark (fs : Named Text) : SpanRule := fun t =>
  (lead? fs t).map fun p => (p.1, t.length - p.2.length)

/-- A template with the values of all names put in at once: what is put in is not read again. -/
def pass (fs : Named Text) (t : Text) : Text := Text.unwrapSpans (anyMark fs) id t

section Reading
variable {fs gs : Named Text}

theorem lead?_eq_none_iff {t : Text} :
    lead? fs t = none ↔ ∀ f ∈ fs, Text.afterIgnoringCase? (mark f.1) t = none := by
  simp [lead?, List.findSome?_eq_none_iff]

theorem exists_of_lead? {t v r : Text} (h : lead? fs t = some (v, r)) :
    ∃ f ∈ fs, f.2 = v ∧ Text.afterIgnoringCase? (mark f.1) t = some r := by
  obtain ⟨f, hf, hlead⟩ := List.exists_of_findSome?_eq_some h
  obtain ⟨r', hr, he⟩ := Option.map_eq_some_iff.1 hlead
  obtain ⟨hv, rfl⟩ := Prod.mk.inj he
  exact ⟨f, hf, hv, hr⟩

theorem lead?_append (fs gs : Named Text) (t : Text) :
    lead? (fs ++ gs) t = (lead? fs t).or (lead? gs t) :=
  List.findSome?_append

theorem lead?_singleton (f : Text × Text) (t : Text) :
    lead? [f] t = (Text.afterIgnoringCase? (mark f.1) t).map fun r => (f.2, r) := by
  simp [lead?]

@[simp] theorem pass_nil (fs : Named Text) : pass fs [] = [] := by
  simp [pass, Text.unwrapSpans]

theorem pass_of_none {c : Char} {t : Text} (h : lead? fs (c :: t) = none) :
    pass fs (c :: t) = c :: pass fs t := by
  have hrule : anyMark fs (c :: t) = none := by rw [anyMark, h, Option.map_none]
  refine Text.unwrapSpans_of_startWith (s := [c]) ?_
  rw [Text.cutSpans_of_none _ hrule]
  exact Text.cutSpans_append (anyMark fs) [] [c] t

theorem pass_of_some {t v r : Text} (h : lead? fs t = some (v, r)) :
    pass fs t = v ++ pass fs r := by
  obtain ⟨f, -, -, hafter⟩ := exists_of_lead? h
  obtain ⟨c, u, rfl⟩ := exists_of_afterIgnoringCase?_mark hafter
  have hrule : anyMark fs (c :: (u ++ r)) = some (v, u.length + 1) := by
    have hlength : (c :: (u ++ r)).length - r.length = u.length + 1 := by
      rw [List.length_cons, List.length_append]
      omega
    simp only [anyMark, h, Option.map_some, hlength]
  have hrest : (u ++ r).drop (u.length + 1 - 1) = r := by simp
  rw [pass, Text.unwrapSpans, Text.cutSpans, hrule]
  simp only [hrest, List.flatMap_cons, List.reverse_nil, id_eq, List.nil_append, List.append_assoc]
  rfl

/-- A template is read character by character, and mark by mark where one of any name stands. -/
theorem pass_induction (fs : Named Text) {P : Text → Prop} (hnil : P [])
    (hkeep : ∀ c t, lead? fs (c :: t) = none → P t → P (c :: t))
    (hput : ∀ t v r, lead? fs t = some (v, r) → P r → P t) (t : Text) : P t :=
  Text.scan_induction (lead? fs)
    (fun _ _ _ h => have ⟨_, _, _, hafter⟩ := exists_of_lead? h; length_lt_of_mark hafter)
    hnil hkeep hput t

end Reading

/-- The value of a name can neither hold the mark of another name nor become part of one, and no mark of
the name begins within one of the other name. -/
structure Apart (f : Text × Text) (name : Text) : Prop where
  within : ∀ s ∈ f.2.tails, s ≠ [] → Text.alike (mark name) s = false
  value : ∀ s ∈ (mark name).tail.tails, s ≠ [] → Text.alike s f.2 = false
  mark : ∀ s ∈ (mark name).tail.tails, s ≠ [] → Text.alike s (mark f.1) = false

instance (f : Text × Text) (name : Text) : Decidable (Apart f name) :=
  decidable_of_iff (_ ∧ _ ∧ _) ⟨fun h => ⟨h.1, h.2.1, h.2.2⟩, fun h => ⟨h.1, h.2, h.3⟩⟩

section Putting
variable {fs : Named Text} {name : Text}

theorem replaceName_append_of_within {v : Text}
    (h : ∀ s ∈ v.tails, s ≠ [] → Text.alike (mark name) s = false) (value t : Text) :
    replaceName name value (v ++ t) = v ++ replaceName name value t := by
  induction v with
  | nil => rfl
  | cons c v ih =>
    rw [List.tails_cons] at h
    obtain ⟨hc, hv⟩ := List.forall_mem_cons.1 h
    have hnone : Text.afterIgnoringCase? (mark name) (c :: (v ++ t)) = none :=
      Text.afterIgnoringCase?_eq_none (hc (List.cons_ne_nil c v)) t
    rw [List.cons_append, replaceName_of_none hnone, ih hv, List.cons_append]

/-- A part of a mark, which no value meets, follows in what has been filled exactly where it follows in
the template. -/
theorem afterIgnoringCase?_pass {m : Text} (hm : ∀ s ∈ m.tails, s ≠ [] →
      ∀ f ∈ fs, Text.alike s f.2 = false ∧ Text.alike s (mark f.1) = false) (t : Text) :
    Text.afterIgnoringCase? m (pass fs t) = (Text.afterIgnoringCase? m t).map (pass fs) := by
  induction m generalizing t with
  | nil => rfl
  | cons a m ih =>
    rw [List.tails_cons] at hm
    obtain ⟨hapart, hm⟩ := List.forall_mem_cons.1 hm
    cases t with
    | nil => simp [Text.afterIgnoringCase?]
    | cons c t =>
      cases hlead : lead? fs (c :: t) with
      | none =>
        rw [pass_of_none hlead, Text.afterIgnoringCase?, Text.afterIgnoringCase?, ih hm]
        split <;> rfl
      | some p =>
        -- A mark of another name stands here, and its value stands there: neither is like the part.
        obtain ⟨v, r⟩ := p
        obtain ⟨f, hf, rfl, hafter⟩ := exists_of_lead? hlead
        obtain ⟨hvalue, hmark⟩ := hapart (List.cons_ne_nil a m) f hf
        have hnone : Text.afterIgnoringCase? (a :: m) (c :: t) = none := by
          refine Option.eq_none_iff_forall_not_mem.2 fun r' hr' => ?_
          rw [Text.alike_of_both hr' hafter] at hmark
          cases hmark
        rw [pass_of_some hlead, Text.afterIgnoringCase?_eq_none hvalue, hnone, Option.map_none]

/-- To put in the value of a further name afterwards is to put it in with the others. -/
theorem replaceName_pass (h : ∀ f ∈ fs, Apart f name) (value t : Text) :
    replaceName name value (pass fs t) = pass (fs ++ [(name, value)]) t := by
  have htail : ∀ s ∈ (mark name).tail.tails, s ≠ [] →
      ∀ f ∈ fs, Text.alike s f.2 = false ∧ Text.alike s (mark f.1) = false :=
    fun s hs hne f hf => ⟨(h f hf).value s hs hne, (h f hf).mark s hs hne⟩
  -- Where none of the other marks stands, the mark of the name stands where it stood.
  have hafter : ∀ c t, Text.afterIgnoringCase? (mark name) (c :: pass fs t) =
      (Text.afterIgnoringCase? (mark name) (c :: t)).map (pass fs) := by
    intro c t
    have hmark : mark name = '\x7b' :: (mark name).tail := rfl
    rw [hmark, Text.afterIgnoringCase?, Text.afterIgnoringCase?, afterIgnoringCase?_pass htail]
    split <;> rfl
  have hlead : ∀ t, lead? (fs ++ [(name, value)]) t =
      (lead? fs t).or ((Text.afterIgnoringCase? (mark name) t).map fun r => (value, r)) := by
    intro t
    rw [lead?_append, lead?_singleton]
  induction t using pass_induction (fs ++ [(name, value)]) with
  | hnil => simp
  | hkeep c t hnone ih =>
    have hnone' := hnone
    rw [hlead, Option.or_eq_none_iff, Option.map_eq_none_iff] at hnone'
    obtain ⟨hothers, hname⟩ := hnone'
    have hstays : Text.afterIgnoringCase? (mark name) (c :: pass fs t) = none := by
      rw [hafter, hname, Option.map_none]
    rw [pass_of_none hnone, pass_of_none hothers, replaceName_of_none hstays, ih]
  | hput t v r hsome ih =>
    rw [pass_of_some hsome, ← ih]
    rw [hlead] at hsome
    cases hothers : lead? fs t with
    | some p =>
      rw [hothers, Option.some_or] at hsome
      obtain rfl := Option.some.inj hsome
      obtain ⟨f, hf, rfl, -⟩ := exists_of_lead? hothers
      rw [pass_of_some hothers, replaceName_append_of_within (h f hf).within]
    | none =>
      rw [hothers, Option.none_or, Option.map_eq_some_iff] at hsome
      obtain ⟨r', hr, he⟩ := hsome
      obtain ⟨rfl, rfl⟩ := Prod.mk.inj he
      obtain ⟨c, u, ht⟩ := exists_of_afterIgnoringCase?_mark hr
      rw [ht] at hr hothers ⊢
      have hput := hafter c (u ++ r')
      rw [hr, Option.map_some] at hput
      rw [pass_of_none hothers, replaceName_of_some hput]

end Putting

theorem pass_of_no_names (t : Text) : pass [] t = t := by
  induction t with
  | nil => exact pass_nil []
  | cons c t ih => rw [pass_of_none rfl, ih]

theorem foldl_replaceName (done : Named Text) {fs : Named Text}
    (h : (done ++ fs).Pairwise fun f g => Apart f g.1) (t : Text) :
    fs.foldl (fun t f => replaceName f.1 f.2 t) (pass done t) = pass (done ++ fs) t := by
  induction fs generalizing done with
  | nil => rw [List.foldl_nil, List.append_nil]
  | cons f fs ih =>
    have hf : ∀ e ∈ done, Apart e f.1 := fun e he =>
      (List.pairwise_append.1 h).2.2 e he f (List.mem_cons_self ..)
    have hsplit : done ++ f :: fs = done ++ [f] ++ fs := by simp
    rw [hsplit] at h ⊢
    rw [List.foldl_cons, replaceName_pass hf, ih _ h]

def entries (now : Instant) (values : Named Text) : Named Text :=
  Named.setAll values (clockValues now)

theorem fill_eq_pass_of_pairwise {now : Instant} {values : Named Text}
    (h : (entries now values).Pairwise fun f g => Apart f g.1) (t : Text) :
    fill now values t = pass (entries now values) t := by
  have hall := foldl_replaceName [] h t
  rwa [pass_of_no_names] at hall

end Template
end Letterhead
