import Letterhead.Proofs.Store.Folder

/-! Recordings that fail. The file that was written is removed again, and with it one that stood in its
place before; a row that cannot be read back has been committed and stays. -/
namespace Letterhead

/-- Writing a file and removing it leaves all files as they were exactly where none was in its
place. -/
theorem Files.get?_erase_put_iff (fs : Files) (l : Location) (b : ByteArray) :
    (∀ m, ((fs.put l b).erase l).get? m = fs.get? m) ↔ fs.get? l = none := by
  constructor
  · intro h
    rw [← h l, get?_erase_self]
  · intro h m
    by_cases hm : m = l
    · rw [hm, get?_erase_self, h]
    · rw [get?_erase_of_ne hm, get?_put_of_ne hm]

namespace Store

structure Agrees (s t : Store) : Prop where
  rows : t.rows = s.rows
  files : ∀ l, t.files.get? l = s.files.get? l

/-- What is kept of logos makes no difference. -/
theorem agrees_afterMake_iff {s t : Store} {p : Press} {now : Instant} {r : Request} :
    (s.afterMake p now r).Agrees t ↔ s.Agrees t :=
  ⟨fun h => ⟨h.rows, h.files⟩, fun h => ⟨h.rows, h.files⟩⟩

/-- A recording that fails is undone exactly where the row was not committed and no file was
overwritten. -/
theorem agrees_record_iff {s : Store} {row : Row} {recording : Recording} (b : ByteArray)
    (hfails : recording ≠ .succeeds) :
    s.Agrees ((s.putFile row.path b).record recording row).2 ↔
      recording ≠ .notReadBack ∧ s.files.get? row.path = none := by
  have hfiles := s.files.get?_erase_put_iff row.path b
  have herased : s.Agrees ((s.putFile row.path b).eraseFile row.path) ↔
      s.files.get? row.path = none :=
    ⟨fun h => hfiles.1 h.files, fun h => ⟨rfl, hfiles.2 h⟩⟩
  cases recording with
  | succeeds => exact absurd rfl hfails
  | notAdded => exact herased.trans (by simp)
  | notCommitted => exact herased.trans (by simp)
  | notReadBack =>
    refine iff_of_false (fun h => ?_) fun h => h.1 rfl
    have hrows : s.rows ++ [row] = s.rows := h.rows
    simp at hrows

theorem record_of_ne_succeeds (s : Store) {recording : Recording} (hfails : recording ≠ .succeeds)
    (row : Row) : (s.record recording row).1 = .error .commitFailed := by
  cases recording with
  | succeeds => exact absurd rfl hfails
  | notAdded | notCommitted | notReadBack => rfl

theorem get?_delete_ne_none {commits : Bool} {s : Store} {id : Int} {l : Location}
    (h : (s.delete commits id).2.files.get? l ≠ none) : s.files.get? l ≠ none := by
  have herase : ∀ m, (s.files.erase m).get? l ≠ none → s.files.get? l ≠ none := by
    intro m hm
    by_cases hl : l = m
    · rw [hl, Files.get?_erase_self] at hm
      exact absurd rfl hm
    · rwa [Files.get?_erase_of_ne hl] at hm
  unfold delete at h
  split at h
  · exact h
  · exact h
  · split at h
    · exact herase _ h
    · exact herase _ h

/-- Every file that is there after a run has been written by a request of the run. -/
theorem exists_stamped_of_file (threads : List Text) {as : List Action} {l : Location}
    (h : ((ofThreads threads).run as).files.get? l ≠ none) :
    ∃ m ∈ as.filterMap Action.stamp?, Filename.Stamped l.name m := by
  induction as using List.reverseRecOn with
  | nil => exact absurd rfl h
  | append_singleton as a ih =>
    rw [run, List.foldl_concat] at h
    change (((ofThreads threads).run as).act a).files.get? l ≠ none at h
    rw [List.filterMap_append]
    -- A file that was there before has a stamp of an earlier request.
    have hold : ((ofThreads threads).run as).files.get? l ≠ none →
        ∃ m ∈ as.filterMap Action.stamp? ++ [a].filterMap Action.stamp?,
          Filename.Stamped l.name m := by
      intro hl
      obtain ⟨m, hm, hstamp⟩ := ih hl
      exact ⟨m, List.mem_append_left _ hm, hstamp⟩
    cases a with
    | generate p now recording r =>
      by_cases hsame : (((ofThreads threads).run as).generate p now recording r).2.files.get? l =
          ((ofThreads threads).run as).files.get? l
      · exact hold (hsame ▸ h)
      · obtain ⟨b, d, hw⟩ := exists_writes_of_changed hsame
        exact ⟨_, List.mem_append_right _ (by simp [Action.stamp?]), hw.stamped⟩
    | delete commits id => exact hold (get?_delete_ne_none h)
    | sweep commits now =>
      refine hold (rel_sweep (R := fun s t => t.files.get? l ≠ none → s.files.get? l ≠ none)
        (fun _ hs => hs) (fun _ _ _ hst htu hu => hst (htu hu))
        (fun s id => get?_delete_ne_none) _ now h)
    | countUp commits id => exact hold (files_countUp commits _ id ▸ h)
    | replaceLogos logos => exact hold h

/-- Where recording fails, whatever the step, generation fails with the cause. Rows and files are as
they were exactly where the row was not committed and the file took no other file's place; no file
stands there unless a document of the format was asked for in the same millisecond. -/
theorem agrees_generate_iff (threads : List Text) (as : List Action) {s : Store}
    (hs : s = (ofThreads threads).run as) {p : Press} {now : Instant} {recording : Recording}
    {r : Request} {l : Location} {b : Branding} {d : Rendering} {thread : Text}
    {expires : Option Instant} (hw : s.Writes p now r l b d) (hthread : r.thread = some thread)
    (hexpiry : expiry p.settings now = .ok expires) (hfails : recording ≠ .succeeds) :
    (s.generate p now recording r).1 = .error .commitFailed ∧
      (s.Agrees (s.generate p now recording r).2 ↔
        recording ≠ .notReadBack ∧ s.files.get? l = none) ∧
      ((now.millis, r.format) ∉ as.filterMap Action.stamp? → s.files.get? l = none) := by
  have hgen := generate_of_writes recording .unbounded hw
  rw [hthread, hexpiry] at hgen
  simp only [number?] at hgen
  rw [hgen]
  refine ⟨record_of_ne_succeeds _ hfails _,
    agrees_afterMake_iff.symm.trans (agrees_record_iff d.bytes hfails), fun hnew => ?_⟩
  by_contra hl
  rw [hs] at hl
  obtain ⟨m, hm, hstamp⟩ := exists_stamped_of_file threads hl
  exact hnew (hw.stamped.unique hstamp ▸ hm)

def oneDocument : Store :=
  (ofThreads [sampleThread]).run [.generate {} ⟨1705314600000000⟩ .succeeds (sampleRequest "x")]

/-- A document of the next millisecond that is not committed leaves no trace. -/
theorem agrees_generate_iff_oneDocument :
    oneDocument.Agrees
      (oneDocument.generate {} ⟨1705314600001000⟩ .notCommitted (sampleRequest "y")).2 := by
  have hsome : ((oneDocument.generate {} ⟨1705314600001000⟩ .succeeds
      (sampleRequest "y")).2.files.get?
        ⟨.output, "thread-1_doc_1705314600001.md".toList⟩).isSome = true := by
    decide +kernel
  have hnone : (oneDocument.files.get?
      ⟨.output, "thread-1_doc_1705314600001.md".toList⟩).isNone = true := by
    decide +kernel
  have hchanged : (oneDocument.generate {} ⟨1705314600001000⟩ .succeeds
      (sampleRequest "y")).2.files.get? ⟨.output, "thread-1_doc_1705314600001.md".toList⟩ ≠
        oneDocument.files.get? ⟨.output, "thread-1_doc_1705314600001.md".toList⟩ := by
    rw [Option.isNone_iff_eq_none.1 hnone]
    exact Option.isSome_iff_ne_none.1 hsome
  obtain ⟨b, d, hw⟩ := exists_writes_of_changed hchanged
  have hfails : Recording.notCommitted ≠ .succeeds := by decide
  obtain ⟨-, hiff, hfree⟩ := agrees_generate_iff [sampleThread] _ rfl hw rfl rfl hfails
  exact hiff.2 ⟨by decide, hfree (by decide)⟩

/-- A document of the same millisecond that is not committed takes the file of the first one with
it. -/
theorem not_agrees_oneDocument :
    (oneDocument.generate {} ⟨1705314600000000⟩ .notCommitted (sampleRequest "y")).1 =
        .error .commitFailed ∧
      ¬ oneDocument.Agrees
        (oneDocument.generate {} ⟨1705314600000000⟩ .notCommitted (sampleRequest "y")).2 := by
  refine ⟨by decide +kernel, fun h => ?_⟩
  have hgone : ((oneDocument.generate {} ⟨1705314600000000⟩ .notCommitted
      (sampleRequest "y")).2.files.get?
        ⟨.output, "thread-1_doc_1705314600000.md".toList⟩).isNone = true := by
    decide +kernel
  have hthere : (oneDocument.files.get?
      ⟨.output, "thread-1_doc_1705314600000.md".toList⟩).isSome = true := by
    decide +kernel
  rw [h.files, Option.isNone_iff_eq_none] at hgone
  rw [hgone] at hthere
  cases hthere

end Store
end Letterhead
