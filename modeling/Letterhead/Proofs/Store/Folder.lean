import Letterhead.Proofs.Document.Filename
import Letterhead.Proofs.Document.Slug
import Letterhead.Proofs.Store.Integrity

/-! The folder of a document. What a title adds to a file name leads nowhere; the start of the
thread is taken as it is, and its slashes and points lead through folders. -/
namespace Letterhead

structure Layout.IsOneWay (t : Layout) : Prop where
  parent : ∀ f, t.parent f ≠ .output
  step : ∀ f s, t.step? f s ≠ some .output

/-- Where no folders are known, a name only leads away from the output folder. -/
theorem Layout.isOneWay_default : ({} : Layout).IsOneWay where
  parent f := by cases f <;> simp [Folder.up, Folder.output]
  step f s := nofun

namespace Location

theorem origin_eq_output_iff {name : Text} : origin name = .output ↔ name.head? ≠ some '/' := by
  unfold origin
  split
  · next h => exact iff_of_false (fun he => by cases he) fun hne => hne h
  · next h => exact iff_of_true rfl h

/-- Where no step leads back to the output folder, only no steps at all end there. -/
theorem walk_eq_output_iff {t : Layout} (ht : t.IsOneWay) {f : Folder} {ss : List Text} :
    walk t f ss = some .output ↔ f = .output ∧ ss = [] := by
  induction ss generalizing f with
  | nil => simp [walk]
  | cons s ss ih =>
    refine iff_of_false (fun h => ?_) (by simp)
    rw [walk] at h
    split at h
    · exact ht.parent f (ih.1 h).1
    · obtain ⟨g, hg, hwalk⟩ := Option.bind_eq_some_iff.1 h
      exact ht.step f s (hg.trans (congrArg some (ih.1 hwalk).1))

end Location

namespace Filename

/-- The steps that stand before the last slash of the start of a name and lead somewhere. -/
def folders (start : Text) : List Text :=
  (start.splitOn '/').dropLast.filter fun s => !Location.isIdle s

/-- The steps of a start lead to the output folder. -/
def Returns (t : Layout) (start : Text) : Prop :=
  Location.walk t (Location.origin start) (folders start) = some .output

/-- A text that starts a name leaves it in the folder where it is looked up: it does not start with
a slash, and what stands before its other slashes moves nowhere. -/
def Stays (t : Text) : Prop :=
  t.head? ≠ some '/' ∧ ∀ s ∈ (t.splitOn '/').dropLast, Location.isIdle s = true

instance (t : Text) : Decidable (Stays t) := inferInstanceAs (Decidable (_ ∧ _))

theorem stays_iff {start : Text} :
    Stays start ↔ Location.origin start = .output ∧ folders start = [] := by
  simp [Stays, Location.origin_eq_output_iff, folders, List.filter_eq_nil_iff]

theorem Stays.returns {start : Text} (h : Stays start) (t : Layout) : Returns t start := by
  obtain ⟨horigin, hfolders⟩ := stays_iff.1 h
  rw [Returns, horigin, hfolders]
  rfl

theorem returns_iff_of_isOneWay {t : Layout} (ht : t.IsOneWay) {start : Text} :
    Returns t start ↔ Stays start := by
  rw [stays_iff, Returns, Location.walk_eq_output_iff ht]

theorem not_mem_slug {title : Text} : '/' ∉ slug title := by
  intro h
  rcases mem_slug h with h | h | h | h
  · cases h
  · exact absurd h (by decide)
  · exact absurd h (by decide)
  · exact absurd h (by decide)

theorem exists_make_eq (title : Text) (f : Format) (thread : Option Text) (now : Instant) :
    ∃ t, make title f.name thread now = threadStart thread ++ t ∧ '/' ∉ t ∧ '_' ∈ t := by
  have hstamp : '/' ∉ stamp (now.millis, f) :=
    not_mem_stamp (by decide) (by decide) (by decide) (fun f => by cases f <;> decide) _
  obtain ⟨t, hthread, ht⟩ := exists_threadPart_eq thread
  have hslash : '/' ∉ t := fun h => absurd (ht _ h) (by decide)
  refine ⟨t ++ slug title ++ '_' :: stamp (now.millis, f), ?_, ?_, by simp⟩
  · simp [make, stamp, hthread]
  · simp [hslash, not_mem_slug, hstamp]

theorem origin_append {start t : Text} (ht : '/' ∉ t) :
    Location.origin (start ++ t) = Location.origin start := by
  have hhead : (start ++ t).head? = some '/' ↔ start.head? = some '/' := by
    cases start with
    | nil => exact iff_of_false (fun hm => ht (List.mem_of_head? hm)) (by simp)
    | cons c cs => simp
  simp only [Location.origin, hhead]

/-- A file is written in the output folder itself exactly if the start of its thread leads there. -/
theorem isDirect_iff_of_target {fs : Files} {title : Text} {f : Format} {thread : Option Text}
    {now : Instant} {layout : Layout} {l : Location}
    (h : fs.target (make title f.name thread now) layout = .ok l) :
    l.isDirect = true ↔ Returns layout (threadStart thread) := by
  obtain ⟨t, hmake, hslash, hline⟩ := exists_make_eq title f thread now
  obtain ⟨before, p, hsplit, hsteps⟩ :=
    Location.exists_steps_append hslash hline (threadStart thread)
  obtain ⟨init, hinit, hwalk⟩ := Files.exists_of_target h
  rw [hmake, hsteps] at hinit
  obtain rfl := (List.append_inj' hinit rfl).1
  rw [hmake, origin_append hslash] at hwalk
  rw [Returns, folders, hsplit, List.dropLast_concat, hwalk, Location.isDirect, decide_eq_true_iff,
    Option.some.injEq]

end Filename

namespace Store

theorem get?_record_of_ne {l : Location} {row : Row} (h : l ≠ row.path) (s : Store)
    (recording : Recording) : (s.record recording row).2.files.get? l = s.files.get? l := by
  cases recording with
  | succeeds => rfl
  | notAdded => exact Files.get?_erase_of_ne h _
  | notCommitted => exact Files.get?_erase_of_ne h _
  | notReadBack => exact Files.get?_erase_of_ne h _

/-- Where a file has changed, generation has written one. -/
theorem exists_writes_of_changed {s : Store} {p : Press} {now : Instant} {recording : Recording}
    {r : Request} {numbering : Numbering} {l : Location}
    (h : (s.generate p now recording r numbering).2.files.get? l ≠ s.files.get? l) :
    ∃ b d, s.Writes p now r l b d := by
  have hwritten : ∀ {m b d}, s.Writes p now r m b d → (l ≠ m →
      (s.generate p now recording r numbering).2.files.get? l = s.files.get? l) → l = m := by
    intro m b d hw hframe
    by_contra hne
    exact h (hframe hne)
  have hgen := s.generates_generate p now recording r numbering
  generalize s.generate p now recording r numbering = x at h hgen hwritten
  cases hgen with
  | refused => exact absurd rfl h
  | unrecorded hw => exact ⟨_, _, hwritten hw (fun hne => Files.get?_put_of_ne hne _ _) ▸ hw⟩
  | overflows hw => exact ⟨_, _, hwritten hw (fun hne => Files.get?_put_of_ne hne _ _) ▸ hw⟩
  | full hw =>
    refine ⟨_, _, hwritten hw (fun hne => ?_) ▸ hw⟩
    exact (Files.get?_erase_of_ne hne _).trans (Files.get?_put_of_ne hne _ _)
  | recorded hw =>
    refine ⟨_, _, hwritten hw (fun hne => ?_) ▸ hw⟩
    exact (get?_record_of_ne hne _ recording).trans (Files.get?_put_of_ne hne _ _)

/-- Generation changes a file only where it writes, and it writes in the output folder itself exactly
when the start of the thread leads there. So it does when that start leads nowhere else; where no step
leads back to the output folder, it does only then. -/
theorem isDirect_generate_iff (s : Store) (p : Press) (now : Instant) (recording : Recording)
    (r : Request) (numbering : Numbering) :
    (∀ l, (s.generate p now recording r numbering).2.files.get? l ≠ s.files.get? l →
      ∃ b d, s.Writes p now r l b d) ∧
    ∀ l b d, s.Writes p now r l b d →
      (l.isDirect = true ↔ Filename.Returns p.layout (Filename.threadStart r.thread)) ∧
      (Filename.Stays (Filename.threadStart r.thread) → l.isDirect = true) ∧
      (p.layout.IsOneWay →
        (l.isDirect = true ↔ Filename.Stays (Filename.threadStart r.thread))) := by
  refine ⟨fun _ h => exists_writes_of_changed h, fun l b d hw => ?_⟩
  have hiff := Filename.isDirect_iff_of_target hw.target
  exact ⟨hiff, fun hstays => hiff.2 (hstays.returns _),
    fun hlayout => hiff.trans (Filename.returns_iff_of_isOneWay hlayout)⟩

/-- The file of a thread whose name has no slash stands in the output folder. -/
theorem isDirect_generate_iff_sampleThread :
    ∃ l, ((ofThreads [sampleThread]).generate {} ⟨1705314600000000⟩ .succeeds
      (sampleRequest "x")).2.files.get? l ≠ none ∧ l.isDirect = true := by
  have hiff := isDirect_generate_iff (ofThreads [sampleThread]) {} ⟨1705314600000000⟩ .succeeds
    (sampleRequest "x") .unbounded
  have hsome : (((ofThreads [sampleThread]).generate {} ⟨1705314600000000⟩ .succeeds
      (sampleRequest "x")).2.files.get?
        ⟨.output, "thread-1_doc_1705314600000.md".toList⟩).isSome = true := by
    decide +kernel
  have hnew := Option.isSome_iff_ne_none.1 hsome
  obtain ⟨b, d, hw⟩ := hiff.1 _ hnew
  obtain ⟨-, -, honly⟩ := hiff.2 _ b d hw
  exact ⟨_, hnew, (honly Layout.isOneWay_default).2 (by decide)⟩

def climbingRequest : Request := { sampleRequest "x" with thread := some "../up".toList }

/-- Its file stands beside the output folder. -/
theorem not_isDirect_climbingRequest :
    ∃ l, ((ofThreads ["../up".toList]).generate {} ⟨1705314600000000⟩ .succeeds
      climbingRequest).2.files.get? l ≠ none ∧ l.isDirect = false := by
  refine ⟨⟨.above 1, "up_doc_1705314600000.md".toList⟩, ?_, rfl⟩
  rw [← Option.isSome_iff_ne_none]
  decide +kernel

end Store
end Letterhead
