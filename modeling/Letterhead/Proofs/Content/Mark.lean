import Letterhead.Proofs.Content.Inline
import Letterhead.Proofs.Text.Cut

/-! Inline marks. Bold, emphasised and code spans stand between two marks, a link is a label with an
address behind it. The runs of a text are its cut at the leftmost bold spans. -/
namespace Letterhead.Inline
open Text

/-- Spans between two marks; what they show is not empty and free of one character. -/
def Wrapped (opening closing : Text) (stop : Char) : SpanKind := fun x w =>
  w = opening ++ (x ++ closing) ∧ x ≠ [] ∧ stop ∉ x

def IsBold : SpanKind := Wrapped ['*', '*'] ['*', '*'] '*'

def IsEmphasis : SpanKind := Wrapped ['*'] ['*'] '*'

def IsCode : SpanKind := Wrapped ['\x60'] ['\x60'] '\x60'

def IsLink : SpanKind := fun x w =>
  ∃ address, w = '[' :: (x ++ ']' :: '(' :: (address ++ [')'])) ∧
    (x ≠ [] ∧ ']' ∉ x) ∧ address ≠ [] ∧ ')' ∉ address

section Kinds
variable {opening closing x t : Text} {stop : Char} {n : Nat}

theorem delimited_eq_some_iff :
    delimited opening (stop :: closing) stop t = some (x, n) ↔
      ∃ w r, t = w ++ r ∧ Wrapped opening (stop :: closing) stop x w ∧ n = w.length := by
  constructor
  · intro h
    simp only [delimited] at h
    split at h
    · cases h
    next rest hrest =>
    split at h
    · next hbody =>
      rw [Bool.and_eq_true] at hbody
      obtain ⟨r, hr⟩ := List.isPrefixOf_iff_prefix.1 hbody.2
      obtain ⟨hstop, hjoin⟩ := takeWhile_append_drop stop rest
      rw [← hr] at hjoin
      cases h
      refine ⟨opening ++ (rest.takeWhile (· != stop) ++ stop :: closing), r, ?_,
        ⟨rfl, by simpa using hbody.1, hstop⟩, ?_⟩
      · rw [← List.append_eq_of_isPrefixOf?_eq_some hrest, List.append_assoc, List.append_assoc,
          hjoin]
      · simp only [List.length_append, Nat.add_assoc]
    · cases h
  · rintro ⟨w, r, rfl, ⟨rfl, hne, hstop⟩, rfl⟩
    have hafter : after? opening (opening ++ (x ++ stop :: (closing ++ r))) =
        some (x ++ stop :: (closing ++ r)) :=
      List.isPrefixOf?_eq_some_iff_append_eq.2 rfl
    have hcloses : startsWith (stop :: (closing ++ r)) (stop :: closing) = true :=
      List.isPrefixOf_iff_prefix.2 ⟨r, rfl⟩
    simp [delimited, hafter, takeWhile_append_stop hstop, hne, hcloses, Nat.add_assoc]

theorem takes_delimited (opening closing : Text) (stop : Char) :
    Takes (delimited opening (stop :: closing) stop) (Wrapped opening (stop :: closing) stop) where
  ne_nil := by
    rintro x w ⟨rfl, -⟩ hnil
    simp at hnil
  eq_some_iff := delimited_eq_some_iff

theorem takes_bold : Takes bold IsBold := takes_delimited ..

theorem takes_emphasis : Takes emphasis IsEmphasis := takes_delimited ..

theorem takes_code : Takes code IsCode := takes_delimited ..

theorem link_eq_some_iff :
    link t = some (x, n) ↔ ∃ w r, t = w ++ r ∧ IsLink x w ∧ n = w.length := by
  have hlabel : ∀ label m, delimited ['['] [']', '('] ']' t = some (label, m) ↔
      ∃ w r, t = w ++ r ∧ Wrapped ['['] [']', '('] ']' label w ∧ m = w.length :=
    fun _ _ => delimited_eq_some_iff
  constructor
  · intro h
    simp only [link] at h
    split at h
    · cases h
    next label m hlink =>
    obtain ⟨w, r, rfl, ⟨rfl, hne, hstop⟩, rfl⟩ := (hlabel label m).1 hlink
    rw [← List.drop_drop, List.drop_left] at h
    obtain ⟨hfree, hjoin⟩ := takeWhile_append_drop ')' r
    generalize r.takeWhile (· != ')') = address at h hfree hjoin
    split at h
    · next haddress =>
      rw [Bool.and_eq_true, beq_iff_eq] at haddress
      obtain ⟨u, hu⟩ := List.head?_eq_some_iff.1 haddress.2
      cases h
      refine ⟨'[' :: (x ++ ']' :: '(' :: (address ++ [')'])), u, ?_,
        ⟨address, rfl, ⟨hne, hstop⟩, by simpa using haddress.1, hfree⟩, ?_⟩
      · rw [← hjoin, hu]
        simp
      · simp +arith
    · cases h
  · rintro ⟨w, r, rfl, ⟨address, rfl, hx, hne, hfree⟩, rfl⟩
    have hsplit : '[' :: (x ++ ']' :: '(' :: (address ++ [')'])) ++ r =
        ['['] ++ (x ++ [']', '(']) ++ (address ++ ')' :: r) := by
      simp
    have hopen := (hlabel x _).2 ⟨_, _, hsplit, ⟨rfl, hx⟩, rfl⟩
    rw [hsplit] at hopen ⊢
    simp only [link, hopen, ← List.drop_drop, List.drop_left, takeWhile_append_stop hfree]
    simp +arith [hne]

theorem takes_link : Takes link IsLink where
  ne_nil := by
    rintro x w ⟨address, rfl, -⟩ hnil
    simp at hnil
  eq_some_iff := link_eq_some_iff

end Kinds

instance (t : Text) : Decidable (Holds IsBold t) := decidable_of_iff _ (holds_iff takes_bold).symm

instance (t : Text) : Decidable (Holds IsLink t) := decidable_of_iff _ (holds_iff takes_link).symm

theorem flatMap_plainRun (t : Text) : (plainRun t).flatMap Run.text = clean t := by
  rw [plainRun]
  split
  · next h => simpa using (List.isEmpty_iff.1 h).symm
  · simp

/-- What is shown is the text between bold spans without its marks, and what the spans show. -/
theorem shown_eq_unwrapSpans (t : Text) : shown t = unwrapSpans bold clean t := by
  simp only [shown, runs, unwrapSpans, List.flatMap_append, List.flatMap_assoc, flatMap_plainRun]
  simp

/-- Bold spans as they are written, each behind the part before it, and the part behind the last one. -/
def boldText (ps : List (Text × Text)) (rest : Text) : Text :=
  ps.flatMap (fun p => p.1 ++ (['*', '*'] ++ (p.2 ++ ['*', '*']))) ++ rest

theorem eq_boldText_of_cut {ps : List (Text × Text)} {rest t : Text} (h : Cut IsBold ps rest t) :
    t = boldText ps rest ∧ ∀ p ∈ ps, p.2 ≠ [] ∧ '*' ∉ p.2 := by
  induction h with
  | last _ => simp [boldText]
  | @span p x w t rest ps _ hx _ ih =>
    obtain ⟨rfl, hx⟩ := hx
    have hjoin : boldText ((p, x) :: ps) rest =
        p ++ (['*', '*'] ++ (x ++ ['*', '*']) ++ boldText ps rest) := by
      simp [boldText]
    rw [hjoin, ← ih.1]
    exact ⟨rfl, List.forall_mem_cons.2 ⟨hx, ih.2⟩⟩

/-- A text has one cut at its leftmost bold spans. Its runs are what the spans show, in bold, and what is
left of the parts between them without marks, where something is left. -/
theorem runs_leftmost (t : Text) :
    ∃ ps rest, Cut IsBold ps rest t ∧
      (∀ qs rest', Cut IsBold qs rest' t → qs = ps ∧ rest' = rest) ∧
      (t = boldText ps rest ∧ ∀ p ∈ ps, p.2 ≠ [] ∧ '*' ∉ p.2) ∧
      runs t = ps.flatMap (fun p => plainRun p.1 ++ [⟨p.2, true⟩]) ++ plainRun rest ∧
      (∀ r ∈ runs t, r.text ≠ []) ∧ Alternates (runs t) ∧
      shown t = ps.flatMap (fun p => clean p.1 ++ p.2) ++ clean rest := by
  obtain ⟨ps, rest, hcut⟩ := exists_cut takes_bold t
  have heq := (cutSpans_eq_iff takes_bold).2 hcut
  have honly : ∀ qs rest', Cut IsBold qs rest' t → qs = ps ∧ rest' = rest := by
    intro qs rest' hother
    have hboth := (cutSpans_eq_iff takes_bold).2 hother
    rw [heq] at hboth
    obtain ⟨rfl, rfl⟩ := Prod.mk.inj hboth
    exact ⟨rfl, rfl⟩
  have hruns : runs t = ps.flatMap (fun p => plainRun p.1 ++ [⟨p.2, true⟩]) ++ plainRun rest := by
    rw [runs, heq]
  refine ⟨ps, rest, hcut, honly, eq_boldText_of_cut hcut, hruns, ?_, alternates_runs t, ?_⟩
  · exact fun r hr => (of_mem_runs hr).1
  · rw [shown_eq_unwrapSpans, unwrapSpans_of_cut takes_bold hcut]

end Letterhead.Inline
