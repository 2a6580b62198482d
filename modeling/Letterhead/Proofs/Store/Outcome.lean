import Letterhead.Proofs.Store.Run

/-! Outcomes of generation. A failure that is documented leaves no trace in the store; a document of a
thread adds one row, and is found again under its number. -/
namespace Letterhead

/-- Failures that callers of generation have to expect: a value that cannot be read, a format that is
not enabled, a thread that there is not, a document that is too large, and a missing renderer. -/
def Failure.isDocumented : Failure → Bool
  | faulty _ | formatDisabled _ _ | threadMissing _ | tooLarge _ _ | rendererUnavailable _ => true
  | _ => false

namespace Store

/-- The only failure after a file has been written and before its row is recorded. -/
theorem eq_overflow_of_expiry {settings : Settings} {now : Instant} {e : Failure}
    (h : expiry settings now = .error e) : e = .overflow := by
  unfold expiry at h
  split at h
  · cases h
  · split at h
    · cases h
    · exact (Except.error.inj h).symm

theorem row?_insert {s : Store} {r : Row} (h : ∀ q ∈ s.rows, q.id ≠ r.id) :
    (s.insert r).row? r.id = if isKey r.id then .ok (some r) else .error .overflow := by
  have hnone : s.rows.find? (fun q => q.id = r.id) = none :=
    List.find?_eq_none.2 fun q hq => by simpa using h q hq
  have hfind : (s.insert r).rows.find? (fun q => q.id = r.id) = some r := by
    simp [insert, List.find?_append, hnone]
  rw [row?, hfind]

/-- What is told about a row under a number of its own is told again under that number. -/
theorem get?_insert {s : Store} {r : Row} {d : Descriptor} (hid : ∀ q ∈ s.rows, q.id ≠ r.id)
    (hd : r.descriptor = .ok d) :
    (s.insert r).get? r.id = if isKey r.id then .ok (some d) else .error .overflow := by
  rw [get?, row?_insert hid]
  split
  · simp only [bind, Except.bind, hd]
    rfl
  · rfl

section Generation
variable {s t : Store} {p : Press} {now : Instant} {recording : Recording} {r : Request}
  {numbering : Numbering}

/-- What has failed in a documented way has failed before anything was written. -/
theorem eq_of_generate_error {e : Failure}
    (h : s.generate p now recording r numbering = (.error e, t)) (he : e.isDocumented = true) :
    t = s.afterMake p now r := by
  have hgen := s.generates_generate p now recording r numbering
  generalize s.generate p now recording r numbering = x at h hgen
  cases hgen with
  | refused => exact (Prod.mk.inj h).2.symm
  | unrecorded => cases h
  | overflows _ _ hexpiry =>
    obtain ⟨herror, -⟩ := Prod.mk.inj h
    rw [← Except.error.inj herror, eq_overflow_of_expiry hexpiry] at he
    cases he
  | full =>
    obtain ⟨herror, -⟩ := Prod.mk.inj h
    rw [← Except.error.inj herror] at he
    cases he
  | recorded =>
    cases recording with
    | succeeds =>
      rw [record, descriptor_rowOf] at h
      cases h
    | notAdded | notCommitted | notReadBack =>
      obtain ⟨herror, -⟩ := Prod.mk.inj h
      rw [← Except.error.inj herror] at he
      cases he

/-- What is told about a document without a thread has been written, and what is told about one of a
thread has been recorded too. -/
theorem told_of_generate {d : Descriptor}
    (h : s.generate p now recording r numbering = (.ok d, t)) :
    ∃ l b rendering, s.Writes p now r l b rendering ∧
      (r.thread = none ∧ d = unrecorded now r (r.filename now) l rendering ∧
          t = s.afterWrite p now r l rendering ∨
        ∃ thread expires id, r.thread = some thread ∧ s.number? numbering = some id ∧
          d = descriptorOf id now r thread (r.filename now) l rendering expires ∧
          t = (s.afterWrite p now r l rendering).insert
            (rowOf id now r thread (r.filename now) l b rendering expires)) := by
  have hgen := s.generates_generate p now recording r numbering
  generalize s.generate p now recording r numbering = x at h hgen
  cases hgen with
  | refused => cases h
  | @unrecorded l b rendering hw hnone =>
    obtain ⟨hd, ht⟩ := Prod.mk.inj h
    exact ⟨l, b, rendering, hw, Or.inl ⟨hnone, (Except.ok.inj hd).symm, ht.symm⟩⟩
  | overflows => cases h
  | full => cases h
  | @recorded l b rendering thread expires id hw hthread _ hnumber =>
    cases recording with
    | succeeds =>
      rw [record, descriptor_rowOf] at h
      obtain ⟨hd, ht⟩ := Prod.mk.inj h
      exact ⟨l, b, rendering, hw,
        Or.inr ⟨thread, expires, id, hthread, hnumber, (Except.ok.inj hd).symm, ht.symm⟩⟩
    | notAdded | notCommitted | notReadBack => cases h

theorem threads_generate (s : Store) (p : Press) (now : Instant) (recording : Recording)
    (r : Request) (numbering : Numbering) :
    (s.generate p now recording r numbering).2.threads = s.threads := by
  have hgen := s.generates_generate p now recording r numbering
  generalize s.generate p now recording r numbering = x at hgen
  cases hgen with
  | refused => rfl
  | unrecorded => rfl
  | overflows => rfl
  | full => rfl
  | recorded => cases recording <;> rfl

end Generation

/-- An answer to a request, and the store after it, leave no other trace than they should: a documented
failure leaves threads, rows and files as they were. What is told where a thread was asked for is told
of that thread; it stands in one new row, under a number that no row had, and is told again under it. -/
structure IsTraceless (s : Store) (thread : Option Text) (x : Except Failure Descriptor × Store) :
    Prop where
  threads : x.2.threads = s.threads
  failed : ∀ e, x.1 = .error e → e.isDocumented = true → x.2.rows = s.rows ∧ x.2.files = s.files
  recorded : ∀ d, x.1 = .ok d → ∀ t, thread = some t → d.thread = some t ∧
    (∃ row, x.2.rows = s.rows ++ [row] ∧ row.id = d.id ∧ row.thread = t) ∧
      (∀ q ∈ s.rows, q.id ≠ d.id) ∧ x.2.get? d.id = .ok (some d)
  unrecorded : ∀ d, x.1 = .ok d → thread = none → d.thread = none ∧ x.2.rows = s.rows

theorem isTraceless_generate (s : Store) (p : Press) (now : Instant) (recording : Recording)
    (r : Request) (draw : List Int → Option Int) :
    s.IsTraceless r.thread (s.generate p now recording r (.keyed draw)) := by
  have hthreads := s.threads_generate p now recording r (.keyed draw)
  obtain ⟨answer, t, hgen⟩ : ∃ answer t, s.generate p now recording r (.keyed draw) = (answer, t) :=
    ⟨_, _, rfl⟩
  rw [hgen] at hthreads ⊢
  refine ⟨hthreads, ?_, ?_, ?_⟩
  · rintro e rfl he
    obtain rfl := eq_of_generate_error hgen he
    exact ⟨rfl, rfl⟩
  · rintro d rfl thread hthread
    obtain ⟨l, b, rendering, -, ⟨hnone, -⟩ | ⟨asked, expires, id, hasked, hnumber, rfl, rfl⟩⟩ :=
      told_of_generate hgen
    · cases hthread.symm.trans hnone
    · obtain rfl := Option.some.inj (hasked.symm.trans hthread)
      have hfresh : ∀ q ∈ s.rows, q.id ≠ id := fun q hq => id_ne_of_number? hnumber hq
      have hrow := descriptor_rowOf id now r asked (r.filename now) l b rendering expires
      have hget := get?_insert (s := s.afterWrite p now r l rendering)
        (r := rowOf id now r asked (r.filename now) l b rendering expires) hfresh hrow
      exact ⟨rfl, ⟨_, rfl, rfl, rfl⟩, hfresh, hget.trans (if_pos (isKey_of_number? hnumber))⟩
  · rintro d rfl hthread
    obtain ⟨l, b, rendering, -, ⟨-, rfl, rfl⟩ | ⟨asked, _, _, hasked, -⟩⟩ := told_of_generate hgen
    · exact ⟨rfl, rfl⟩
    · cases hthread.symm.trans hasked

def writtenThread (v : Json) : Option Text :=
  match Request.read v with
  | .ok r => r.thread
  | .faulty _ => none

/-- Generation leaves no trace of a documented failure, and one row of a document of a thread, for
requests that are given and for those that are read first, whatever numbers are drawn. -/
theorem traceless_generate (s : Store) (p : Press) (now : Instant) (recording : Recording)
    (draw : List Int → Option Int) :
    (∀ r, s.IsTraceless r.thread (s.generate p now recording r (.keyed draw))) ∧
      ∀ v, s.IsTraceless (writtenThread v) (s.generateWritten p now recording v (.keyed draw)) := by
  refine ⟨fun r => s.isTraceless_generate p now recording r draw, fun v => ?_⟩
  unfold generateWritten writtenThread
  cases Request.read v with
  | ok r => exact s.isTraceless_generate p now recording r draw
  | faulty faults =>
    refine ⟨rfl, fun e _ _ => ⟨rfl, rfl⟩, fun d hd => ?_, fun d hd => ?_⟩
    · cases hd
    · cases hd

end Store
end Letterhead
