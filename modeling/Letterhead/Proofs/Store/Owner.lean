import Letterhead.Proofs.Store.Folder

/-! Owners of files. Rows come and go while their files are written, overwritten and removed, and what is
committed may fail to be; a file that no row has was left by a request without a thread. -/
namespace Letterhead

namespace Store

/-- Some row has its file at a location. -/
def Owns (s : Store) (l : Location) : Prop := ∃ q ∈ s.rows, q.path = l

instance (s : Store) (l : Location) : Decidable (s.Owns l) :=
  inferInstanceAs (Decidable (∃ q ∈ s.rows, _))

theorem owns_iff {s : Store} {l : Location} : s.Owns l ↔ l ∈ s.places.map Prod.snd := by
  simp [Owns, places]

theorem Owns.generate {s : Store} {l : Location} (h : s.Owns l) (p : Press) (now : Instant)
    (recording : Recording) (r : Request) : (s.generate p now recording r).2.Owns l := by
  rw [owns_iff] at h ⊢
  cases s.places_generate p now recording r with
  | inl hsame => rwa [hsame]
  | inr hadded =>
    obtain ⟨m, b, d, -, hplaces⟩ := hadded
    rw [hplaces, List.map_append]
    exact List.mem_append_left _ h

/-- Files have gone, and rows only with their files. -/
structure Sheds (s t : Store) : Prop where
  files : ∀ l b, t.files.get? l = some b → s.files.get? l = some b
  owns : ∀ l b, t.files.get? l = some b → s.Owns l → t.Owns l

theorem Sheds.refl (s : Store) : Sheds s s := ⟨fun _ _ h => h, fun _ _ _ h => h⟩

theorem Sheds.trans {s t u : Store} (h : Sheds s t) (h' : Sheds t u) : Sheds s u where
  files l b hl := h.files l b (h'.files l b hl)
  owns l b hl ho := h'.owns l b hl (h.owns l b (h'.files l b hl) ho)

theorem Purged.sheds {s t : Store} (h : Purged s t) : Sheds s t := by
  have hkept : ∀ {l b}, t.files.get? l = some b → ∀ q ∈ s.rows, q.path = l → q ∈ t.rows := by
    intro l b hl q hq hpath
    by_contra hgone
    have hnone := h.gone q hq hgone
    rw [hpath, hl] at hnone
    cases hnone
  refine ⟨fun l b hl => ?_, fun l b hl ho => ?_⟩
  · rw [← h.frame l (hkept hl)]
    exact hl
  · obtain ⟨q, hq, hpath⟩ := ho
    exact ⟨q, hkept hl q hq hpath, hpath⟩

theorem sheds_eraseFile (s : Store) (m : Location) : Sheds s (s.eraseFile m) := by
  refine ⟨fun l b hl => ?_, fun l b _ ho => ho⟩
  change (s.files.erase m).get? l = some b at hl
  by_cases hm : l = m
  · rw [hm, Files.get?_erase_self] at hl
    cases hl
  · rwa [Files.get?_erase_of_ne hm] at hl

theorem sheds_delete {s : Store} (hs : s.Keyed) (commits : Bool) (id : Int) :
    Sheds s (s.delete commits id).2 := by
  cases commits with
  | true => exact (purged_delete hs id).sheds
  | false =>
    unfold delete
    split
    · exact Sheds.refl s
    · exact Sheds.refl s
    · exact sheds_eraseFile s _

theorem sheds_sweep {s : Store} (hs : s.Keyed) (commits : Int → Bool) (now : Instant) :
    Sheds s (s.sweep commits now).2 := by
  refine (rel_sweep (R := fun s t => s.Keyed → t.Keyed ∧ Sheds s t)
    (fun s hs => ⟨hs, Sheds.refl s⟩) (fun s t u hst htu hs => ?_) (fun s id hs => ?_) s now hs).2
  · obtain ⟨ht, hfirst⟩ := hst hs
    obtain ⟨hu, hsecond⟩ := htu ht
    exact ⟨hu, hfirst.trans hsecond⟩
  · exact ⟨hs.act (.delete (commits id) id), sheds_delete hs (commits id) id⟩

theorem sheds_countUp (s : Store) (commits : Bool) (id : Int) : Sheds s (s.countUp commits id) := by
  obtain ⟨f, hrows, hf⟩ := rows_countUp commits s id
  refine ⟨fun l b hl => files_countUp commits s id ▸ hl, fun l b _ ho => ?_⟩
  obtain ⟨q, hq, hpath⟩ := ho
  obtain ⟨n, hn⟩ := hf q
  exact ⟨f q, hrows ▸ List.mem_map_of_mem hq, by rw [hn]; exact hpath⟩

end Store

def Action.IsDated : Action → Prop
  | generate p now _ r => r.thread ≠ none → ∃ expires, Store.expiry p.settings now = .ok expires
  | _ => True

def Action.WritesAt (s : Store) (l : Location) : Action → Prop
  | generate p now _ r => ∃ b d, s.Writes p now r l b d
  | _ => False

/-- The last operation of a run that wrote at a location was a request without a thread, and it wrote
these bytes. -/
inductive Unclaimed (threads : List Text) (l : Location) : List Action → ByteArray → Prop where
  | written {as : List Action} {p : Press} {now : Instant} {recording : Recording} {r : Request}
      {b : Branding} {d : Rendering} (h : ((Store.ofThreads threads).run as).Writes p now r l b d)
      (hthread : r.thread = none) :
      Unclaimed threads l (as ++ [.generate p now recording r]) d.bytes
  | kept {as : List Action} {a : Action} {bytes : ByteArray} (h : Unclaimed threads l as bytes)
      (hnot : ¬ a.WritesAt ((Store.ofThreads threads).run as) l) :
      Unclaimed threads l (as ++ [a]) bytes

namespace Store

/-- Where generation writes, the file that stays belongs to the new row or to nobody. -/
theorem owns_of_writes {s : Store} {p : Press} {now : Instant} {recording : Recording} {r : Request}
    {l : Location} {b : Branding} {d : Rendering} {bytes : ByteArray} (hw : s.Writes p now r l b d)
    (hdated : (Action.generate p now recording r).IsDated)
    (h : (s.generate p now recording r).2.files.get? l = some bytes) :
    r.thread = none ∧ bytes = d.bytes ∨ (s.generate p now recording r).2.Owns l := by
  have hgen := generate_of_writes recording .unbounded hw
  cases hthread : r.thread with
  | none =>
    rw [hthread] at hgen
    rw [hgen] at h
    have hput : (s.afterWrite p now r l d).files.get? l = some d.bytes := Files.get?_put_self _ _ _
    exact Or.inl ⟨rfl, Option.some.inj (h.symm.trans hput)⟩
  | some thread =>
    obtain ⟨expires, hexpiry⟩ := hdated (by simp [hthread])
    rw [hthread, hexpiry] at hgen
    simp only [number?] at hgen
    rw [hgen] at h ⊢
    have hadded : ∀ t : Store,
        t.rows = s.rows ++ [rowOf s.nextId now r thread (r.filename now) l b d expires] →
        t.Owns l := fun t ht => ⟨_, ht ▸ List.mem_append_right _ (List.mem_singleton_self _), rfl⟩
    cases recording with
    | succeeds | notReadBack => exact Or.inr (hadded _ rfl)
    | notAdded | notCommitted =>
      have hnone := Files.get?_erase_self (s.files.put l d.bytes) l
      exact absurd (h.symm.trans hnone) (by simp)

theorem sheds_act {s : Store} (hs : s.Keyed) {a : Action}
    (ha : ∀ p now recording r, a ≠ .generate p now recording r) : Sheds s (s.act a) := by
  cases a with
  | generate p now recording r => exact absurd rfl (ha p now recording r)
  | delete commits id => exact sheds_delete hs commits id
  | sweep commits now => exact sheds_sweep hs commits now
  | countUp commits id => exact sheds_countUp s commits id
  | replaceLogos logos => exact ⟨fun _ _ h => h, fun _ _ _ h => h⟩

/-- A file that is there after an operation belongs to a row, or has just been written without a
thread, or was there before and has not lost its owner. -/
theorem owns_act {s : Store} (hs : s.Keyed) {a : Action} (ha : a.IsDated) {l : Location}
    {bytes : ByteArray} (h : (s.act a).files.get? l = some bytes) :
    (s.act a).Owns l ∨
      (∃ p now recording r b d, a = .generate p now recording r ∧ r.thread = none ∧
        s.Writes p now r l b d ∧ bytes = d.bytes) ∨
      ¬ a.WritesAt s l ∧ s.files.get? l = some bytes ∧ (s.Owns l → (s.act a).Owns l) := by
  have hsheds := sheds_act (a := a) hs
  cases a with
  | generate p now recording r =>
    by_cases hw : ∃ b d, s.Writes p now r l b d
    · obtain ⟨b, d, hw⟩ := hw
      cases owns_of_writes hw ha h with
      | inl hloose => exact Or.inr (Or.inl ⟨p, now, recording, r, b, d, rfl, hloose.1, hw, hloose.2⟩)
      | inr howns => exact Or.inl howns
    · have hsame : (s.generate p now recording r).2.files.get? l = s.files.get? l := by
        by_contra hne
        exact hw (exists_writes_of_changed hne)
      exact Or.inr (Or.inr ⟨hw, hsame.symm.trans h, fun ho => ho.generate p now recording r⟩)
  | delete | sweep | countUp | replaceLogos =>
    have hshed := hsheds (by simp)
    exact Or.inr (Or.inr ⟨fun hw => hw, hshed.files l bytes h, hshed.owns l bytes h⟩)

/-- Whatever was made, deleted and swept, and whichever changes could not be committed: a file that is
there after a run belongs to a row, or a request without a thread was the last to write it. -/
theorem owns_of_file (threads : List Text) {as : List Action} (has : ∀ a ∈ as, a.IsDated)
    {l : Location} {bytes : ByteArray}
    (h : ((ofThreads threads).run as).files.get? l = some bytes) :
    ((ofThreads threads).run as).Owns l ∨ Unclaimed threads l as bytes := by
  induction as using List.reverseRecOn generalizing bytes with
  | nil => cases h
  | append_singleton as a ih =>
    rw [run_concat] at h ⊢
    obtain howns | ⟨p, now, recording, r, b, d, rfl, hthread, hw, rfl⟩ | ⟨hnot, hold, hkeeps⟩ :=
      owns_act (keyed_run threads as) (has a (by simp)) h
    · exact Or.inl howns
    · exact Or.inr (.written hw hthread)
    · cases ih (fun c hc => has c (List.mem_append_left _ hc)) hold with
      | inl howns => exact Or.inl (hkeeps howns)
      | inr hloose => exact Or.inr (.kept hloose hnot)

def looseRun : List Action :=
  [.generate {} ⟨1705314600000000⟩ .succeeds { sampleRequest "x" with thread := none },
    .generate {} ⟨1705314600001000⟩ .succeeds (sampleRequest "y"), .delete false 1]

theorem owns_of_file_looseRun :
    (∀ a ∈ looseRun, a.IsDated) ∧
      ∃ bytes, ((ofThreads [sampleThread]).run looseRun).files.get?
          ⟨.output, "doc_1705314600000.md".toList⟩ = some bytes ∧
        Unclaimed [sampleThread] ⟨.output, "doc_1705314600000.md".toList⟩ looseRun bytes := by
  have has : ∀ a ∈ looseRun, a.IsDated := by
    simp only [looseRun, List.forall_mem_cons, List.not_mem_nil, IsEmpty.forall_iff, implies_true,
      and_true]
    exact ⟨fun _ => ⟨_, rfl⟩, fun _ => ⟨_, rfl⟩, trivial⟩
  have hsome : (((ofThreads [sampleThread]).run looseRun).files.get?
      ⟨.output, "doc_1705314600000.md".toList⟩).isSome = true := by
    decide +kernel
  have hnobody : ¬ ((ofThreads [sampleThread]).run looseRun).Owns
      ⟨.output, "doc_1705314600000.md".toList⟩ := by
    decide +kernel
  obtain ⟨bytes, hbytes⟩ := Option.isSome_iff_exists.1 hsome
  exact ⟨has, bytes, hbytes, (owns_of_file [sampleThread] has hbytes).resolve_left hnobody⟩

end Store
end Letterhead
