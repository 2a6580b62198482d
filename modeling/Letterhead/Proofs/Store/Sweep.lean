import Letterhead.Proofs.Store.Run

/-! Sweeps. The rows that have expired are described first and deleted then, one after the other; where
all of them can be described, exactly they go. -/
namespace Letterhead

/-- A row keeps its number and its expiry when it is described. -/
theorem Row.told_of_descriptor {r : Row} {d : Descriptor} (h : r.descriptor = .ok d) :
    d.id = r.id ∧ d.expires = r.expires := by
  unfold descriptor at h
  cases hformat : r.knownFormat with
  | error e => simp [hformat, bind, Except.bind] at h
  | ok f =>
    cases hpages : r.pages with
    | error e => simp [hformat, hpages, bind, Except.bind] at h
    | ok pages =>
      simp only [hformat, hpages, bind, Except.bind] at h
      split at h
      · next made hmade =>
        obtain rfl := Except.ok.inj h
        obtain ⟨g, n, hg, -, rfl⟩ := Checked.seq_ok_iff.1 hmade
        obtain ⟨created, -, rfl⟩ := Checked.map_ok_iff.1 hg
        exact ⟨rfl, rfl⟩
      · cases h

section Mapped
variable {α β γ ε : Type} {f : α → Except ε β}

theorem exists_mapM_eq_ok {g : α → γ} {k : β → γ} {xs : List α}
    (h : ∀ x ∈ xs, ∃ y, f x = .ok y ∧ k y = g x) :
    ∃ ys, xs.mapM f = .ok ys ∧ ys.map k = xs.map g := by
  induction xs with
  | nil => exact ⟨[], rfl, rfl⟩
  | cons x xs ih =>
    obtain ⟨y, hy, hk⟩ := h x (by simp)
    obtain ⟨ys, hys, hks⟩ := ih fun z hz => h z (List.mem_cons_of_mem x hz)
    exact ⟨y :: ys, by simp [List.mapM_cons, hy, hys, bind, Except.bind, pure, Except.pure],
      by rw [List.map_cons, List.map_cons, hk, hks]⟩

theorem exists_mapM_eq_error {xs : List α} {x : α} (hx : x ∈ xs) (h : ∀ y, f x ≠ .ok y) :
    ∃ e, xs.mapM f = .error e := by
  induction xs with
  | nil => cases hx
  | cons z xs ih =>
    rw [List.mapM_cons]
    cases hz : f z with
    | error e => exact ⟨e, rfl⟩
    | ok y =>
      cases List.mem_cons.1 hx with
      | inl he => exact absurd (he ▸ hz) (h y)
      | inr hx =>
        obtain ⟨e, he⟩ := ih hx
        exact ⟨e, by simp [he, bind, Except.bind]⟩

end Mapped

namespace Store

/-- Numbers are keys: no two rows have the same one, and each fits. -/
structure IsTable (s : Store) : Prop where
  keyed : s.Keyed
  keys : ∀ r ∈ s.rows, isKey r.id = true

theorem IsTable.of_sublist {s t : Store} (hs : s.IsTable) (h : t.rows.Sublist s.rows) : t.IsTable :=
  ⟨hs.keyed.sublist (h.map _), fun r hr => hs.keys r (h.subset hr)⟩

theorem row?_of_keyed {s : Store} (hs : s.Keyed) {r : Row} (hr : r ∈ s.rows)
    (hkey : isKey r.id = true) : s.row? r.id = .ok (some r) := by
  rw [row?, if_pos hkey]
  cases hfind : s.rows.find? fun q => q.id = r.id with
  | none => exact absurd (List.find?_eq_none.1 hfind r hr) (by simp)
  | some q =>
    have hid : q.id = r.id := by simpa using List.find?_some hfind
    rw [hs.eq_of_id_eq (List.mem_of_find?_eq_some hfind) hr hid]

theorem row?_of_mem {s : Store} (hs : s.IsTable) {r : Row} (hr : r ∈ s.rows) :
    s.row? r.id = .ok (some r) :=
  row?_of_keyed hs.keyed hr (hs.keys r hr)

theorem delete_of_mem {s : Store} (hs : s.IsTable) {r : Row} (hr : r ∈ s.rows) :
    s.delete true r.id = (.ok true, (s.eraseFile r.path).erase r.id) := by
  rw [delete, row?_of_mem hs hr]
  rfl

/-- Deleting rows one after the other removes exactly these, and counts them. -/
theorem deleteAll_of_mem {rs : List Row} {s : Store} (hs : s.IsTable) (hrs : (rs.map Row.id).Nodup)
    (hmem : ∀ r ∈ rs, r ∈ s.rows) (n : Nat) :
    ∃ t, deleteAll (fun _ => true) s (rs.map Row.id) n = (.ok (n + rs.length), t) ∧
      t.rows = s.rows.filter fun q => q.id ∉ rs.map Row.id := by
  induction rs generalizing s n with
  | nil => exact ⟨s, rfl, by simp⟩
  | cons r rs ih =>
    obtain ⟨hnew, hrest⟩ := List.nodup_cons.1 hrs
    have hrows : ((s.eraseFile r.path).erase r.id).rows = s.rows.filter fun q => q.id != r.id := rfl
    have hleft : ∀ q ∈ rs, q ∈ ((s.eraseFile r.path).erase r.id).rows := by
      intro q hq
      rw [mem_rows_erase, rows_eraseFile]
      exact ⟨hmem q (List.mem_cons_of_mem r hq), fun he => hnew (he ▸ List.mem_map_of_mem hq)⟩
    obtain ⟨t, ht, htrows⟩ := ih (hs.of_sublist (hrows ▸ List.filter_sublist)) hrest hleft (n + 1)
    refine ⟨t, ?_, ?_⟩
    · rw [List.map_cons, deleteAll, delete_of_mem hs (hmem r (by simp))]
      simp only [if_true]
      rw [ht, List.length_cons, Nat.add_assoc, Nat.add_comm 1]
    · rw [htrows, hrows, List.filter_filter]
      refine List.filter_congr fun q _ => ?_
      by_cases hq : q.id = r.id <;> simp [hq]

def due (s : Store) (now : Instant) : List Row :=
  (s.rows.filter fun r => r.isExpired now).mergeSort Row.soonerFirst

theorem mem_due {s : Store} {now : Instant} {r : Row} :
    r ∈ s.due now ↔ r ∈ s.rows ∧ r.isExpired now = true := by
  simp [due]

theorem nodup_due {s : Store} (hs : s.Keyed) (now : Instant) : ((s.due now).map Row.id).Nodup := by
  have hperm := (List.mergeSort_perm (s.rows.filter fun r => r.isExpired now) Row.soonerFirst).map
    Row.id
  exact hperm.nodup_iff.2 (hs.sublist (List.filter_sublist.map _))

theorem sweep_eq_error {s : Store} {now : Instant} {r : Row} (hr : r ∈ s.rows)
    (hexpired : r.isExpired now = true) (h : ∀ d, r.descriptor ≠ .ok d) (commits : Int → Bool) :
    ∃ e, s.sweep commits now = (.error e, s) := by
  obtain ⟨e, he⟩ := exists_mapM_eq_error (mem_due.2 ⟨hr, hexpired⟩) h
  have hlisted : s.expired now = .error e := he
  exact ⟨e, by rw [sweep, hlisted]⟩

/-- Where what has expired can be described, a sweep removes exactly that, and counts it. -/
theorem sweep_eq_ok {s : Store} (hs : s.IsTable) {now : Instant}
    (h : ∀ r ∈ s.rows, r.isExpired now = true → ∃ d, r.descriptor = .ok d) :
    ∃ t, s.sweep (fun _ => true) now = (.ok (s.rows.countP fun r => r.isExpired now), t) ∧
      t.rows = s.rows.filter fun r => !r.isExpired now := by
  have htold : ∀ r ∈ s.due now, ∃ d, r.descriptor = .ok d ∧ d.id = r.id := by
    intro r hr
    obtain ⟨d, hd⟩ := h r (mem_due.1 hr).1 (mem_due.1 hr).2
    exact ⟨d, hd, (Row.told_of_descriptor hd).1⟩
  obtain ⟨ds, hds, hids⟩ := exists_mapM_eq_ok htold
  have hlisted : s.expired now = .ok ds := hds
  obtain ⟨t, ht, hrows⟩ := deleteAll_of_mem hs (nodup_due hs.keyed now)
    (fun r hr => (mem_due.1 hr).1) 0
  refine ⟨t, ?_, ?_⟩
  · rw [sweep, hlisted]
    simp only
    rw [hids, ht, due, List.length_mergeSort, Nat.zero_add, List.countP_eq_length_filter]
  · rw [hrows]
    refine List.filter_congr fun r hr => ?_
    have hdue : r.id ∈ (s.due now).map Row.id ↔ r.isExpired now = true := by
      constructor
      · intro hm
        obtain ⟨q, hq, hid⟩ := List.mem_map.1 hm
        obtain ⟨hq, hexpired⟩ := mem_due.1 hq
        exact hs.keyed.eq_of_id_eq hq hr hid ▸ hexpired
      · exact fun hexpired => List.mem_map_of_mem (mem_due.2 ⟨hr, hexpired⟩)
    cases hexpired : r.isExpired now <;> simp [hdue, hexpired]

/-- A sweep right after a sweep finds nothing. -/
theorem sweep_of_rows_eq {s t : Store} {now : Instant}
    (h : t.rows = s.rows.filter fun r => !r.isExpired now) (commits : Int → Bool) :
    t.sweep commits now = (.ok 0, t) := by
  have hnone : t.due now = [] := by
    refine List.eq_nil_iff_forall_not_mem.2 fun r hr => ?_
    obtain ⟨hr, hexpired⟩ := mem_due.1 hr
    rw [h, List.mem_filter] at hr
    simp [hexpired] at hr
  have hlisted : t.expired now = .ok [] := by
    change (t.due now).mapM Row.descriptor = .ok []
    rw [hnone]
    rfl
  rw [sweep, hlisted]
  rfl

end Store
end Letterhead
