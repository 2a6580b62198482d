import Letterhead.Proofs.Store.Numbering
import Letterhead.Proofs.Store.Order
import Letterhead.Proofs.Store.Sweep
import Mathlib.Data.List.Forall2

/-! Changes of rows. For each operation one lemma says which rows there are after it and what is told
about them, also where something cannot be committed. -/
namespace Letterhead

namespace Row

def describe (r : Row) (format : Format) (created : Instant) (pages : Option Int) : Descriptor where
  id := r.id
  thread := some r.thread
  message := r.message
  filename := r.filename
  path := r.path
  format := format
  size := r.size
  url := Descriptor.urlOf r.id
  expires := r.expires
  downloads := r.downloads
  created := created
  pages := pages

theorem descriptor_eq_ok_iff {r : Row} {d : Descriptor} : r.descriptor = .ok d ↔
    ∃ format pages created, r.knownFormat = .ok format ∧ r.pages = .ok (.ok pages) ∧
      r.created = some created ∧ r.describe format created pages = d := by
  unfold descriptor
  cases hformat : r.knownFormat with
  | error e => simp [bind, Except.bind]
  | ok format =>
    cases hpages : r.pages with
    | error e => simp [bind, Except.bind]
    | ok checked =>
      cases hcreated : r.created <;> cases checked <;>
        simp [moment, hcreated, describe, Checked.under, Checked.fault, Checked.ap, bind,
          Except.bind, Seq.seq, Functor.map]

/-- The number of downloads is told as it stands in the row. -/
theorem descriptor_countUp {r : Row} {d : Descriptor} (h : r.descriptor = .ok d) :
    { r with downloads := r.downloads + 1 }.descriptor =
      .ok { d with downloads := d.downloads + 1 } := by
  obtain ⟨format, pages, created, hformat, hpages, hcreated, rfl⟩ := descriptor_eq_ok_iff.1 h
  exact descriptor_eq_ok_iff.2 ⟨format, pages, created, hformat, hpages, hcreated, rfl⟩

def Tell (rs : List Row) (ds : List Descriptor) : Prop :=
  List.Forall₂ (fun r d => r.descriptor = .ok d) rs ds

namespace Tell
variable {rs : List Row} {ds : List Descriptor}

@[simp] theorem nil : Tell [] [] := List.Forall₂.nil

@[simp] theorem singleton_iff {r : Row} {d : Descriptor} :
    Tell [r] [d] ↔ r.descriptor = .ok d := by
  simp [Tell]

theorem map_eq (h : Tell rs ds) : rs.map descriptor = ds.map .ok := by
  rw [← List.forall₂_eq_eq_eq, List.forall₂_map_left_iff, List.forall₂_map_right_iff]
  exact h

theorem exists_document (h : Tell rs ds) {r : Row} (hr : r ∈ rs) :
    ∃ d ∈ ds, r.descriptor = .ok d := by
  have hmem : r.descriptor ∈ ds.map Except.ok := h.map_eq ▸ List.mem_map_of_mem hr
  obtain ⟨d, hd, he⟩ := List.mem_map.1 hmem
  exact ⟨d, hd, he.symm⟩

theorem exists_row (h : Tell rs ds) {d : Descriptor} (hd : d ∈ ds) :
    ∃ r ∈ rs, r.descriptor = .ok d := by
  have hmem : Except.ok d ∈ rs.map descriptor := h.map_eq ▸ List.mem_map_of_mem hd
  exact List.mem_map.1 hmem

theorem filter (h : Tell rs ds) {p : Row → Bool} {q : Descriptor → Bool}
    (hpq : ∀ r d, r.descriptor = .ok d → p r = q d) : Tell (rs.filter p) (ds.filter q) :=
  List.rel_filter (fun r d hrd => iff_of_eq (congrArg (· = true) (hpq r d hrd))) h

theorem map (h : Tell rs ds) {f : Row → Row} {g : Descriptor → Descriptor}
    (hfg : ∀ r d, r.descriptor = .ok d → (f r).descriptor = .ok (g d)) :
    Tell (rs.map f) (ds.map g) :=
  List.forall₂_map_left_iff.2 (List.forall₂_map_right_iff.2 (List.Forall₂.imp hfg h))

theorem mapM_eq (h : Tell rs ds) : rs.mapM descriptor = .ok ds := by
  induction h with
  | nil => rfl
  | cons hrd _ ih => simp [List.mapM_cons, hrd, ih, bind, Except.bind, pure, Except.pure]

end Tell
end Row

def Recording.isCommitted : Recording → Bool
  | .succeeds | .notReadBack => true
  | .notAdded | .notCommitted => false

namespace Store

/-- A change of the row of a number is made: it is committed, and the number fits. -/
def isMade (commits : Bool) (id : Int) : Bool := commits && isKey id

def created? (s : Store) (p : Press) (now : Instant) (recording : Recording) (r : Request) :
    Option Descriptor :=
  match (s.generate p now .succeeds r).1 with
  | .ok d => if recording.isCommitted && d.thread.isSome then some d else none
  | .error _ => none

theorem rows_delete (commits : Bool) (s : Store) (id : Int) :
    (s.delete commits id).2.rows = s.rows.filter fun r => !(isMade commits id && r.id == id) := by
  have hsame : (∀ r ∈ s.rows, (isMade commits id && r.id == id) = false) →
      s.rows = s.rows.filter fun r => !(isMade commits id && r.id == id) := fun h =>
    (List.filter_eq_self.2 fun r hr => by rw [h r hr]; rfl).symm
  unfold delete row?
  by_cases hkey : isKey id = true
  · rw [if_pos hkey]
    cases hfind : s.rows.find? fun r => r.id = id with
    | none =>
      refine hsame fun r hr => ?_
      have hne := List.find?_eq_none.1 hfind r hr
      simpa using fun _ => hne
    | some r =>
      cases commits with
      | true => simp [isMade, hkey, erase, bne]
      | false => exact hsame fun r _ => rfl
  · rw [if_neg hkey]
    exact hsame fun r _ => by simp [isMade, hkey]

theorem exists_find?_of_mem {s : Store} {id : Int} (h : id ∈ s.numbers) :
    ∃ r, (s.rows.find? fun r => r.id = id) = some r := by
  obtain ⟨r, hr, hid⟩ := List.mem_map.1 h
  exact Option.isSome_iff_exists.1 (List.find?_isSome.2 ⟨r, hr, decide_eq_true hid⟩)

/-- A deletion of a row that is there succeeds exactly if it is made. -/
theorem delete_of_mem_numbers {s : Store} {id : Int} (hmem : id ∈ s.numbers) (commits : Bool) :
    (isMade commits id = true ∧ (s.delete commits id).1 = .ok true) ∨
      (isMade commits id = false ∧ ∃ e, (s.delete commits id).1 = .error e) := by
  obtain ⟨r, hr⟩ := exists_find?_of_mem hmem
  rw [delete, row?, hr]
  cases hkey : isKey id with
  | false => exact Or.inr ⟨by simp [isMade, hkey], _, rfl⟩
  | true =>
    cases commits with
    | true => exact Or.inl ⟨by simp [isMade, hkey], rfl⟩
    | false => exact Or.inr ⟨rfl, _, rfl⟩

/-- Deletions go on until the first one that is not made. -/
theorem rows_deleteAll (commits : Int → Bool) {s : Store} {ids : List Int} (hids : ids.Nodup)
    (hmem : ∀ id ∈ ids, id ∈ s.numbers) (n : Nat) :
    (deleteAll commits s ids n).2.rows =
      s.rows.filter fun r => r.id ∉ ids.takeWhile fun id => isMade (commits id) id := by
  induction ids generalizing s n with
  | nil => simp [deleteAll]
  | cons id ids ih =>
    obtain ⟨hnew, hrest⟩ := List.nodup_cons.1 hids
    have hid := hmem id (by simp)
    have hrows := rows_delete (commits id) s id
    cases delete_of_mem_numbers hid (commits id) with
    | inl hdone =>
      obtain ⟨hmade, htrue⟩ := hdone
      rw [deleteAll]
      generalize s.delete (commits id) id = x at hrows htrue
      obtain ⟨answer, t⟩ := x
      obtain rfl : answer = .ok true := htrue
      have hleft : ∀ m ∈ ids, m ∈ t.numbers := by
        intro m hm
        obtain ⟨r, hr, rfl⟩ := List.mem_map.1 (hmem m (List.mem_cons_of_mem id hm))
        refine List.mem_map_of_mem ?_
        rw [hrows, List.mem_filter]
        have hne : r.id ≠ id := fun he => hnew (he ▸ hm)
        exact ⟨hr, by simp [hne]⟩
      simp only [if_true]
      rw [ih hrest hleft, hrows, List.filter_filter, List.takeWhile_cons_of_pos (by exact hmade)]
      refine List.filter_congr fun r _ => ?_
      by_cases hr : r.id = id <;> simp [hr, hmade]
    | inr hundone =>
      obtain ⟨hmade, e, herror⟩ := hundone
      rw [deleteAll]
      generalize s.delete (commits id) id = x at hrows herror
      obtain ⟨answer, t⟩ := x
      obtain rfl : answer = .error e := herror
      rw [List.takeWhile_cons_of_neg (by simp [hmade])]
      simpa [hmade] using hrows

/-- The deletions of a sweep reach a row that has expired if all that come before it are made. -/
theorem mem_takeWhile_due_iff {s : Store} (hs : s.Keyed) {r : Row} (hr : r ∈ s.rows)
    (commits : Int → Bool) (now : Instant) :
    r.id ∈ ((s.due now).map Row.id).takeWhile (fun id => isMade (commits id) id) ↔
      r.isExpired now = true ∧ ∀ q ∈ s.rows, q.isExpired now = true →
        q.expiryRank ≤ r.expiryRank → isMade (commits q.id) q.id = true := by
  have hrows : ∀ {q}, q ∈ s.due now → q ∈ s.rows := fun hq => (mem_due.1 hq).1
  have hsorted : (s.due now).Pairwise fun a b => a.expiryRank ≤ b.expiryRank :=
    Row.pairwise_mergeSort_soonerFirst _
  have hprefix := mem_takeWhile_iff hsorted (fun q _ => le_refl _)
    (fun x hx y hy hxy hyx => hs.eq_of_id_eq (hrows hx) (hrows hy)
      (Row.id_eq_of_expiryRank_eq (le_antisymm hxy hyx)))
    (fun q => isMade (commits q.id) q.id) r
  have hid : r.id ∈ ((s.due now).map Row.id).takeWhile (fun id => isMade (commits id) id) ↔
      r ∈ (s.due now).takeWhile fun q => isMade (commits q.id) q.id := by
    rw [List.takeWhile_map, List.mem_map]
    constructor
    · rintro ⟨q, hq, hid⟩
      exact hs.eq_of_id_eq (hrows (List.takeWhile_subset _ hq)) hr hid ▸ hq
    · exact fun hm => ⟨r, hm, rfl⟩
  rw [hid, hprefix]
  simp [mem_due, hr]

/-- A sweep deletes rows in the order of their expiry until a deletion is not made. -/
theorem rows_sweep {s : Store} (hs : s.Keyed) (htold : ∀ r ∈ s.rows, ∃ d, r.descriptor = .ok d)
    (commits : Int → Bool) (now : Instant) :
    (s.sweep commits now).2.rows = s.rows.filter fun r =>
      r.id ∉ ((s.due now).map Row.id).takeWhile fun id => isMade (commits id) id := by
  have hdue : ∀ r ∈ s.due now, ∃ d, r.descriptor = .ok d ∧ d.id = r.id := by
    intro r hr
    obtain ⟨d, hd⟩ := htold r (mem_due.1 hr).1
    exact ⟨d, hd, (Row.told_of_descriptor hd).1⟩
  obtain ⟨ds, hds, hids⟩ := exists_mapM_eq_ok hdue
  have hlisted : s.expired now = .ok ds := hds
  have hpresent : ∀ id ∈ (s.due now).map Row.id, id ∈ s.numbers := by
    intro id hid
    obtain ⟨r, hr, rfl⟩ := List.mem_map.1 hid
    exact List.mem_map_of_mem (mem_due.1 hr).1
  rw [sweep, hlisted]
  simp only
  rw [hids]
  exact rows_deleteAll commits (nodup_due hs now) hpresent 0

theorem rows_countUp_eq (commits : Bool) (s : Store) (id : Int) :
    (s.countUp commits id).rows = s.rows.map fun r =>
      if isMade commits id && r.id == id then { r with downloads := r.downloads + 1 } else r := by
  unfold countUp
  cases hmade : isMade commits id with
  | true =>
    rw [isMade] at hmade
    rw [if_pos hmade]
    exact List.map_congr_left fun r _ => by simp
  | false =>
    rw [isMade] at hmade
    rw [if_neg (by simp [hmade])]
    simp

/-- A request adds the row of the document that it creates. -/
theorem rows_generate (s : Store) (p : Press) (now : Instant) (recording : Recording)
    (r : Request) : ∃ rows, (s.generate p now recording r).2.rows = s.rows ++ rows ∧
      Row.Tell rows (s.created? p now recording r).toList ∧
      ∀ d ∈ s.created? p now recording r,
        d.id = s.nextId ∧ d.created = now ∧ d.downloads = 0 := by
  by_cases hw : ∃ l b d, s.Writes p now r l b d
  · obtain ⟨l, b, d, hw⟩ := hw
    have hrows : (s.afterWrite p now r l d).rows = s.rows := rfl
    rw [generate_of_writes recording .unbounded hw, created?,
      generate_of_writes .succeeds .unbounded hw]
    cases hthread : r.thread with
    | none => exact ⟨[], by simp [hrows], by simp [unrecorded], by simp [unrecorded]⟩
    | some thread =>
      cases hexpiry : expiry p.settings now with
      | error e => exact ⟨[], by simp [hrows], by simp, by simp⟩
      | ok expires =>
        have hrow := descriptor_rowOf s.nextId now r thread (r.filename now) l b d expires
        simp only [number?, record, hrow]
        cases recording with
        | succeeds | notReadBack =>
          refine ⟨[rowOf s.nextId now r thread (r.filename now) l b d expires], rfl, ?_, ?_⟩
          · simpa [Recording.isCommitted, descriptorOf] using hrow
          · simp [Recording.isCommitted, descriptorOf, unrecorded]
        | notAdded | notCommitted =>
          exact ⟨[], by simp [hrows], by simp [Recording.isCommitted],
            by simp [Recording.isCommitted]⟩
  · have hnone : ∀ l b d, ¬ s.Writes p now r l b d := fun l b d h => hw ⟨l, b, d, h⟩
    have hrows : (s.afterMake p now r).rows = s.rows := rfl
    obtain ⟨e, he⟩ := generate_of_not_writes recording .unbounded hnone
    obtain ⟨e', he'⟩ := generate_of_not_writes .succeeds .unbounded hnone
    rw [he, created?, he']
    exact ⟨[], by simp [hrows], by simp, by simp⟩

end Store
end Letterhead
