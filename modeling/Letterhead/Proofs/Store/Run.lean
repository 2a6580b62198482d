import Letterhead.Store.Generation
import Mathlib.Data.List.Nodup

/-! Runs of a store. For each operation one lemma says what it does to rows and files; a run is a list
of operations on a store that has threads and nothing else. -/
namespace Letterhead

abbrev Request.filename (r : Request) (now : Instant) : Text :=
  Filename.make r.title r.format.name r.thread now

namespace Store

def Keyed (s : Store) : Prop := (s.rows.map Row.id).Nodup

/-- A request is rendered, its thread is there, and its file has a place. -/
structure Writes (s : Store) (p : Press) (now : Instant) (r : Request) (l : Location) (b : Branding)
    (d : Rendering) : Prop where
  make : (p.make s.logos now r).1 = .ok (b, d)
  thread : s.checkThread r.thread = .ok ()
  target : s.files.target (r.filename now) p.layout = .ok l

theorem Writes.unique {s : Store} {p : Press} {now : Instant} {r : Request} {l m : Location}
    {b c : Branding} {d e : Rendering} (h : s.Writes p now r l b d) (h' : s.Writes p now r m c e) :
    l = m ∧ b = c ∧ d = e := by
  have hmake := h.make.symm.trans h'.make
  have htarget := h.target.symm.trans h'.target
  simp only [Except.ok.injEq, Prod.mk.injEq] at hmake htarget
  exact ⟨htarget, hmake⟩

def putFile (s : Store) (l : Location) (b : ByteArray) : Store :=
  { s with files := s.files.put l b }

abbrev afterWrite (s : Store) (p : Press) (now : Instant) (r : Request) (l : Location)
    (d : Rendering) : Store :=
  (s.afterMake p now r).putFile l d.bytes

inductive Generates (s : Store) (p : Press) (now : Instant) (recording : Recording) (r : Request)
    (numbering : Numbering) : Except Failure Descriptor × Store → Prop where
  | refused (e : Failure) (h : ∀ l b d, ¬ s.Writes p now r l b d) :
      Generates s p now recording r numbering (.error e, s.afterMake p now r)
  | unrecorded {l : Location} {b : Branding} {d : Rendering} (h : s.Writes p now r l b d)
      (hthread : r.thread = none) :
      Generates s p now recording r numbering
        (.ok (Store.unrecorded now r (r.filename now) l d), s.afterWrite p now r l d)
  | overflows {l : Location} {b : Branding} {d : Rendering} {thread : Text} {e : Failure}
      (h : s.Writes p now r l b d) (hthread : r.thread = some thread)
      (hexpiry : expiry p.settings now = .error e) :
      Generates s p now recording r numbering (.error e, s.afterWrite p now r l d)
  | full {l : Location} {b : Branding} {d : Rendering} {thread : Text} {expires : Option Instant}
      (h : s.Writes p now r l b d) (hthread : r.thread = some thread)
      (hexpiry : expiry p.settings now = .ok expires) (hnumber : s.number? numbering = none) :
      Generates s p now recording r numbering
        (.error .commitFailed, (s.afterWrite p now r l d).eraseFile l)
  | recorded {l : Location} {b : Branding} {d : Rendering} {thread : Text}
      {expires : Option Instant} {id : Int} (h : s.Writes p now r l b d)
      (hthread : r.thread = some thread) (hexpiry : expiry p.settings now = .ok expires)
      (hnumber : s.number? numbering = some id) :
      Generates s p now recording r numbering
        ((s.afterWrite p now r l d).record recording
          (rowOf id now r thread (r.filename now) l b d expires))

section Generation
variable {s : Store} {p : Press} {now : Instant} {r : Request} {l : Location} {b : Branding}
  {d : Rendering}

theorem generate_of_not_writes (recording : Recording) (numbering : Numbering)
    (h : ∀ l b d, ¬ s.Writes p now r l b d) :
    ∃ e, s.generate p now recording r numbering = (.error e, s.afterMake p now r) := by
  cases hmake : (p.make s.logos now r).1 with
  | error e => exact ⟨e, by simp [generate, hmake]⟩
  | ok made =>
    obtain ⟨b, d⟩ := made
    cases hcheck : s.checkThread r.thread with
    | error e => exact ⟨e, by simp [generate, hmake, hcheck]⟩
    | ok u =>
      cases htarget : s.files.target (r.filename now) p.layout with
      | error e => exact ⟨e, by simp [generate, hmake, hcheck, keep, Files.write, afterMake, htarget,
          bind, Except.bind]⟩
      | ok l => exact absurd ⟨hmake, hcheck, htarget⟩ (h l b d)

theorem generate_of_writes (recording : Recording) (numbering : Numbering)
    (h : s.Writes p now r l b d) :
    s.generate p now recording r numbering =
      match r.thread with
      | none => (.ok (Store.unrecorded now r (r.filename now) l d), s.afterWrite p now r l d)
      | some thread =>
        match expiry p.settings now with
        | .error e => (.error e, s.afterWrite p now r l d)
        | .ok expires =>
          match s.number? numbering with
          | none => (.error .commitFailed, (s.afterWrite p now r l d).eraseFile l)
          | some id => (s.afterWrite p now r l d).record recording
              (rowOf id now r thread (r.filename now) l b d expires) := by
  have htarget : (s.afterMake p now r).files.target (r.filename now) p.layout = .ok l := h.target
  simp only [generate, h.make, h.thread, keep, Files.write, htarget]
  rfl

end Generation

theorem generates_generate (s : Store) (p : Press) (now : Instant) (recording : Recording)
    (r : Request) (numbering : Numbering) :
    s.Generates p now recording r numbering (s.generate p now recording r numbering) := by
  by_cases hw : ∃ l b d, s.Writes p now r l b d
  · obtain ⟨l, b, d, hw⟩ := hw
    rw [generate_of_writes recording numbering hw]
    split
    · next hthread => exact .unrecorded hw hthread
    · next thread hthread =>
      split
      · next e hexpiry => exact .overflows hw hthread hexpiry
      · next expires hexpiry =>
        split
        · next hnumber => exact .full hw hthread hexpiry hnumber
        · next id hnumber => exact .recorded hw hthread hexpiry hnumber
  · obtain ⟨e, he⟩ := generate_of_not_writes recording numbering
      fun l b d h => hw ⟨l, b, d, h⟩
    rw [he]
    exact .refused e fun l b d h => hw ⟨l, b, d, h⟩

def descriptorOf (id : Int) (now : Instant) (r : Request) (thread filename : Text) (l : Location)
    (d : Rendering) (expires : Option Instant) : Descriptor :=
  { Store.unrecorded now r filename l d with
    id := id
    thread := some thread
    url := Descriptor.urlOf id
    expires := expires }

theorem descriptor_rowOf (id : Int) (now : Instant) (r : Request) (thread filename : Text)
    (l : Location) (b : Branding) (d : Rendering) (expires : Option Instant) :
    (rowOf id now r thread filename l b d expires).descriptor =
      .ok (descriptorOf id now r thread filename l d expires) := by
  have hformat : (rowOf id now r thread filename l b d expires).knownFormat = .ok r.format := by
    simp [Row.knownFormat, rowOf, Format.ofName?_name]
  have hpages : (rowOf id now r thread filename l b d expires).pages =
      .ok (.ok (d.pages.map fun n => (n : Int))) := by
    obtain ⟨bytes, pages⟩ := d
    cases pages <;> rfl
  rw [Row.descriptor, hformat, hpages]
  rfl

/-- Some rows have gone with their files; nothing else has changed. -/
structure Purged (s t : Store) : Prop where
  rows : t.rows.Sublist s.rows
  threads : t.threads = s.threads
  frame : ∀ l, (∀ r ∈ s.rows, r.path = l → r ∈ t.rows) → t.files.get? l = s.files.get? l
  gone : ∀ r ∈ s.rows, r ∉ t.rows → t.files.get? r.path = none
  fewer : ∀ l, s.files.get? l = none → t.files.get? l = none

theorem Purged.refl (s : Store) : Purged s s :=
  ⟨List.Sublist.refl _, rfl, fun _ _ => rfl, fun _ h h' => absurd h h', fun _ h => h⟩

theorem Purged.trans {s t u : Store} (h : Purged s t) (h' : Purged t u) : Purged s u where
  rows := h'.rows.trans h.rows
  threads := h'.threads.trans h.threads
  frame l hl := by
    have hst := h.frame l fun r hr hp => h'.rows.subset (hl r hr hp)
    have htu := h'.frame l fun r hr hp => hl r (h.rows.subset hr) hp
    rw [htu, hst]
  gone r hr hu := by
    by_cases ht : r ∈ t.rows
    · exact h'.gone r ht hu
    · exact h'.fewer _ (h.gone r hr ht)
  fewer l hl := h'.fewer l (h.fewer l hl)

theorem Keyed.purged {s t : Store} (hs : s.Keyed) (h : Purged s t) : t.Keyed :=
  hs.sublist (h.rows.map Row.id)

theorem Keyed.eq_of_id_eq {s : Store} (hs : s.Keyed) {r q : Row} (hr : r ∈ s.rows)
    (hq : q ∈ s.rows) (h : r.id = q.id) : r = q :=
  List.inj_on_of_nodup_map hs hr hq h

theorem mem_rows_of_row? {s : Store} {id : Int} {r : Row} (h : s.row? id = .ok (some r)) :
    r ∈ s.rows ∧ r.id = id := by
  unfold row? at h
  split at h
  · have hfind : s.rows.find? (fun r => r.id = id) = some r := Except.ok.inj h
    exact ⟨List.mem_of_find?_eq_some hfind, by simpa using List.find?_some hfind⟩
  · cases h

theorem purged_delete {s : Store} (hs : s.Keyed) (id : Int) : Purged s (s.delete true id).2 := by
  unfold delete
  split
  · exact Purged.refl s
  · exact Purged.refl s
  · next r hrow =>
    obtain ⟨hr, hid⟩ := mem_rows_of_row? hrow
    have hmem : ∀ {q}, q ∈ ((s.eraseFile r.path).erase id).rows ↔ q ∈ s.rows ∧ q.id ≠ id := by
      intro q
      rw [mem_rows_erase, rows_eraseFile]
    -- Of all rows with this number the file of one is removed, and numbers are unique.
    refine ⟨List.filter_sublist, rfl, fun l hl => ?_, fun q hq hgone => ?_, fun l hl => ?_⟩
    · have hne : l ≠ r.path := by
        intro he
        exact (hmem.1 (hl r hr he.symm)).2 hid
      exact Files.get?_erase_of_ne hne _
    · have hqid : q.id = id := by
        by_contra hne
        exact hgone (hmem.2 ⟨hq, hne⟩)
      rw [hs.eq_of_id_eq hq hr (hqid.trans hid.symm)]
      exact Files.get?_erase_self _ _
    · by_cases he : l = r.path
      · rw [he]
        exact Files.get?_erase_self _ _
      · exact (Files.get?_erase_of_ne he _).trans hl

/-- A sweep is a series of deletions: what holds across each of them holds across the sweep. -/
theorem rel_sweep {R : Store → Store → Prop} {commits : Int → Bool} (hrefl : ∀ s, R s s)
    (htrans : ∀ s t u, R s t → R t u → R s u)
    (hdelete : ∀ s id, R s (s.delete (commits id) id).2) (s : Store) (now : Instant) :
    R s (s.sweep commits now).2 := by
  have hall : ∀ ids n s, R s (deleteAll commits s ids n).2 := by
    intro ids
    induction ids with
    | nil => exact fun n s => hrefl s
    | cons id ids ih =>
      intro n s
      have hfirst := hdelete s id
      rw [deleteAll]
      split
      · next e t h =>
        rw [h] at hfirst
        exact hfirst
      · next deleted t h =>
        rw [h] at hfirst
        exact htrans s t _ hfirst (ih _ t)
  unfold sweep
  split
  · exact hrefl s
  · exact hall _ _ _

theorem purged_sweep {commits : Int → Bool} (hc : ∀ id, commits id = true) {s : Store}
    (hs : s.Keyed) (now : Instant) : Purged s (s.sweep commits now).2 := by
  refine rel_sweep (R := fun s t => s.Keyed → Purged s t) (fun s _ => Purged.refl s)
    (fun s t u hst htu hs => ?_) (fun s id hs => ?_) s now hs
  · have hfirst := hst hs
    exact hfirst.trans (htu (hs.purged hfirst))
  · rw [hc id]
    exact purged_delete hs id

theorem sublist_rows_delete (commits : Bool) (s : Store) (id : Int) :
    (s.delete commits id).2.rows.Sublist s.rows := by
  unfold delete
  split
  · exact List.Sublist.refl _
  · exact List.Sublist.refl _
  · split
    · exact List.filter_sublist
    · exact List.Sublist.refl _

theorem sublist_rows_sweep (commits : Int → Bool) (s : Store) (now : Instant) :
    (s.sweep commits now).2.rows.Sublist s.rows :=
  rel_sweep (R := fun s t => t.rows.Sublist s.rows) (fun _ => List.Sublist.refl _)
    (fun _ _ _ hst htu => htu.trans hst) (fun s id => sublist_rows_delete (commits id) s id) s now

theorem rows_countUp (commits : Bool) (s : Store) (id : Int) :
    ∃ f : Row → Row, (s.countUp commits id).rows = s.rows.map f ∧
      ∀ r, ∃ n, f r = { r with downloads := n } := by
  unfold countUp
  split
  · refine ⟨_, rfl, fun r => ?_⟩
    split
    · exact ⟨_, rfl⟩
    · exact ⟨r.downloads, rfl⟩
  · exact ⟨fun r => r, by simp, fun r => ⟨r.downloads, rfl⟩⟩

theorem files_countUp (commits : Bool) (s : Store) (id : Int) :
    (s.countUp commits id).files = s.files := by
  unfold countUp
  split <;> rfl

end Store

/-- An operation on a store. What it commits may fail to be; and what is kept of logos may become
anything in between. -/
inductive Action where
  | generate (p : Press) (now : Instant) (recording : Recording) (r : Request)
  | delete (commits : Bool) (id : Int)
  | sweep (commits : Int → Bool) (now : Instant)
  | countUp (commits : Bool) (id : Int)
  | replaceLogos (logos : Logo.Cache)

/-- No change that moves a row or a file fails. -/
def Action.IsReliable : Action → Prop
  | generate _ _ recording _ => recording = .succeeds
  | delete commits _ => commits = true
  | sweep commits _ => ∀ id, commits id = true
  | countUp _ _ | replaceLogos _ => True

namespace Store

def act (s : Store) : Action → Store
  | .generate p now recording r => (s.generate p now recording r).2
  | .delete commits id => (s.delete commits id).2
  | .sweep commits now => (s.sweep commits now).2
  | .countUp commits id => s.countUp commits id
  | .replaceLogos logos => { s with logos := logos }

def places (s : Store) : List (Int × Location) := s.rows.map fun r => (r.id, r.path)

theorem places_generate (s : Store) (p : Press) (now : Instant) (recording : Recording)
    (r : Request) : (s.generate p now recording r).2.places = s.places ∨
      ∃ l b d, s.Writes p now r l b d ∧
        (s.generate p now recording r).2.places = s.places ++ [(s.nextId, l)] := by
  have hgen := s.generates_generate p now recording r .unbounded
  generalize s.generate p now recording r = x at hgen
  cases hgen with
  | refused => exact Or.inl rfl
  | unrecorded => exact Or.inl rfl
  | overflows => exact Or.inl rfl
  | full => exact Or.inl rfl
  | @recorded l b d thread expires id h _ _ hnumber =>
    obtain rfl : s.nextId = id := Option.some.inj hnumber
    have hinsert : ∀ q : Row, (s.insert q).places = s.places ++ [(q.id, q.path)] := fun q => by
      simp [places, insert]
    cases recording with
    | succeeds => exact Or.inr ⟨l, b, d, h, hinsert _⟩
    | notAdded => exact Or.inl rfl
    | notCommitted => exact Or.inl rfl
    | notReadBack => exact Or.inr ⟨l, b, d, h, hinsert _⟩

/-- Only requests add a place. -/
theorem places_act (s : Store) (a : Action) : (s.act a).places.Sublist s.places ∨
    ∃ p now recording r l b d, a = .generate p now recording r ∧ s.Writes p now r l b d ∧
      (s.act a).places = s.places ++ [(s.nextId, l)] := by
  cases a with
  | generate p now recording r =>
    rcases s.places_generate p now recording r with h | ⟨l, b, d, hw, h⟩
    · exact Or.inl (h ▸ List.Sublist.refl _)
    · exact Or.inr ⟨p, now, recording, r, l, b, d, rfl, hw, h⟩
  | delete commits id => exact Or.inl ((sublist_rows_delete commits s id).map _)
  | sweep commits now => exact Or.inl ((sublist_rows_sweep commits s now).map _)
  | countUp commits id =>
    obtain ⟨f, hrows, hf⟩ := rows_countUp commits s id
    have hplace : ∀ r, ((f r).id, (f r).path) = (r.id, r.path) := fun r => by
      obtain ⟨n, hn⟩ := hf r
      rw [hn]
    have hsame : (s.act (.countUp commits id)).places = s.places := by
      simp [places, act, hrows, hplace]
    exact Or.inl (hsame ▸ List.Sublist.refl _)
  | replaceLogos logos => exact Or.inl (List.Sublist.refl _)

theorem keyed_iff {s : Store} : s.Keyed ↔ (s.places.map Prod.fst).Nodup := by
  simp [Keyed, places, Function.comp_def]

theorem Keyed.act {s : Store} (hs : s.Keyed) (a : Action) : (s.act a).Keyed := by
  rw [keyed_iff] at hs ⊢
  rcases s.places_act a with h | ⟨p, now, recording, r, l, b, d, -, -, h⟩
  · exact hs.sublist (h.map _)
  · have hnew : ∀ x ∈ s.places, x.1 ≠ s.nextId := by
      intro x hx
      obtain ⟨q, hq, rfl⟩ := List.mem_map.1 hx
      exact Int.ne_of_lt (id_lt_nextId hq)
    rw [h, List.map_append, List.nodup_append]
    refine ⟨hs, by simp, ?_⟩
    simpa using hnew

def ofThreads (threads : List Text) : Store := { threads := threads }

def run (s : Store) (as : List Action) : Store := as.foldl act s

theorem run_concat (s : Store) (as : List Action) (a : Action) :
    s.run (as ++ [a]) = (s.run as).act a := by
  simp [run]

theorem keyed_run (threads : List Text) (as : List Action) : ((ofThreads threads).run as).Keyed := by
  suffices h : ∀ s : Store, s.Keyed → (s.run as).Keyed from h _ List.nodup_nil
  induction as with
  | nil => exact fun s hs => hs
  | cons a as ih => exact fun s hs => ih _ (hs.act a)

end Store
end Letterhead
