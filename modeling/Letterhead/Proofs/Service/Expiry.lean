import Letterhead.Proofs.Service.Download
import Letterhead.Proofs.Store.Sweep

/-! Expiry. What a sweep removes is what a download at the same moment refuses as expired; a row that
cannot be described is not refused so, and where one has expired the sweep removes nothing. -/
namespace Letterhead

namespace Store

/-- Some rows have gone with their files, and nothing else has changed. -/
structure Drops (s t : Store) (gone : Row → Bool) : Prop where
  rows : t.rows = s.rows.filter fun r => !gone r
  threads : t.threads = s.threads
  files : ∀ r ∈ s.rows, gone r = true → t.files.get? r.path = none
  frame : ∀ l, (∀ r ∈ s.rows, gone r = true → r.path ≠ l) → t.files.get? l = s.files.get? l

theorem Purged.drops {s t : Store} (h : Purged s t) {gone : Row → Bool}
    (hrows : t.rows = s.rows.filter fun r => !gone r) : s.Drops t gone := by
  refine ⟨hrows, h.threads, fun r hr hgone => h.gone r hr ?_, fun l hl => h.frame l ?_⟩
  · simp [hrows, hgone]
  · intro r hr hpath
    rw [hrows, List.mem_filter]
    refine ⟨hr, ?_⟩
    by_contra hgone
    exact hl r hr (by simpa using hgone) hpath

end Store

namespace Service

def statusOf (w : Service) (now : Instant) (s : Store) (r : Row) : Nat :=
  (w.respond now s ⟨"GET".toList, Descriptor.urlOf r.id, [], .absent⟩).1.status

theorem statusOf_eq (w : Service) (now : Instant) (s : Store) (r : Row) :
    w.statusOf now s r = (download now s r.id).1.status := by
  have hget : "GET".toList ≠ "OPTIONS".toList := by decide
  have hagrees := (respond_of_not_options w now s
    (c := ⟨"GET".toList, Descriptor.urlOf r.id, [], .absent⟩) hget).1
  rw [answerCall_download] at hagrees
  exact hagrees.status

theorem status_handOut_ne (d : Descriptor) (b : ByteArray) : (handOut d b).status ≠ 410 := by
  unfold handOut
  split
  · simp [Answer.file]
  · simp [Answer.broken, Answer.plain]

/-- A download is refused as expired exactly where the row has expired and can be described. -/
theorem statusOf_eq_iff {s : Store} (hs : s.IsTable) {r : Row} (hr : r ∈ s.rows) (w : Service)
    (now : Instant) :
    w.statusOf now s r = 410 ↔ r.isExpired now = true ∧ ∃ d, r.descriptor = .ok d := by
  have hget : s.get? r.id = r.descriptor.map some := by
    simp only [Store.get?, Store.row?_of_mem hs hr, bind, Except.bind]
    cases r.descriptor <;> rfl
  rw [statusOf_eq, download, hget]
  cases hd : r.descriptor with
  | error e => simp [Except.map, Answer.broken, Answer.plain]
  | ok d =>
    have hsame : d.isExpired now = r.isExpired now := by
      rw [Descriptor.isExpired, Row.isExpired, (Row.told_of_descriptor hd).2]
    simp only [Except.map, hsame]
    cases r.isExpired now with
    | true => simp [Answer.refused, Answer.detail, Answer.json]
    | false =>
      simp only [Bool.false_eq_true, if_false, false_and, iff_false]
      split
      · simp [Answer.refused, Answer.detail, Answer.json]
      · exact status_handOut_ne d _

/-- A download is refused as expired exactly where a row that can be described has a limit strictly
before the moment. A sweep at that moment removes exactly the rows that are refused so, counts them,
and finds nothing when it is repeated; where a row has expired that cannot be described, it fails and
changes nothing. -/
theorem drops_sweep_iff_refused (w : Service) (now : Instant) {s : Store} (hs : s.IsTable) :
    (∀ r ∈ s.rows, w.statusOf now s r = 410 ↔
      (∃ l, r.expires = some l ∧ l.micros < now.micros) ∧ ∃ d, r.descriptor = .ok d) ∧
    ((∀ r ∈ s.rows, r.isExpired now = true → ∃ d, r.descriptor = .ok d) →
      ∃ t, s.sweep (fun _ => true) now =
          (.ok (s.rows.countP fun r => w.statusOf now s r == 410), t) ∧
        s.Drops t (fun r => w.statusOf now s r == 410) ∧
        t.sweep (fun _ => true) now = (.ok 0, t)) ∧
    ((∃ r ∈ s.rows, r.isExpired now = true ∧ ∀ d, r.descriptor ≠ .ok d) →
      ∃ e, s.sweep (fun _ => true) now = (.error e, s)) := by
  refine ⟨fun r hr => ?_, fun htold => ?_, fun hspoilt => ?_⟩
  · rw [statusOf_eq_iff hs hr, Row.isExpired, Instant.hasPassed_iff]
  · have hstatus : ∀ r ∈ s.rows, (w.statusOf now s r == 410) = r.isExpired now := by
      intro r hr
      rw [Bool.eq_iff_iff, beq_iff_eq, statusOf_eq_iff hs hr]
      exact ⟨fun h => h.1, fun h => ⟨h, htold r hr h⟩⟩
    obtain ⟨t, ht, hrows⟩ := Store.sweep_eq_ok hs htold
    have hpurged : s.Purged (s.sweep (fun _ => true) now).2 :=
      Store.purged_sweep (fun _ => rfl) hs.keyed now
    rw [ht] at hpurged
    have hcount : (s.rows.countP fun r => w.statusOf now s r == 410) =
        s.rows.countP fun r => r.isExpired now :=
      List.countP_congr fun r hr => by rw [hstatus r hr]
    refine ⟨t, by rw [ht, hcount], hpurged.drops ?_, Store.sweep_of_rows_eq hrows _⟩
    · rw [hrows]
      exact List.filter_congr fun r hr => by rw [hstatus r hr]
  · obtain ⟨r, hr, hexpired, h⟩ := hspoilt
    exact Store.sweep_eq_error hr hexpired h _

def limitedRow (id : Int) (limit : Instant) : Row where
  id := id
  thread := sampleThread
  message := none
  filename := intText id
  path := ⟨.output, intText id⟩
  format := ['m', 'd']
  size := 0
  origin := .null
  expires := some limit
  downloads := 0
  created := some ⟨0⟩

theorem descriptor_limitedRow (id : Int) (limit : Instant) :
    ∃ d, (limitedRow id limit).descriptor = .ok d := ⟨_, rfl⟩

def agedStore : Store where
  threads := [sampleThread]
  rows := [limitedRow 1 ⟨5⟩, limitedRow 2 ⟨6⟩]

/-- At the limit of the second document only the first one is swept. -/
theorem drops_sweep_iff_refused_agedStore :
    agedStore.IsTable ∧ ∃ t, agedStore.sweep (fun _ => true) ⟨6⟩ = (.ok 1, t) ∧
      t.rows.map Row.id = [2] ∧ t.sweep (fun _ => true) ⟨6⟩ = (.ok 0, t) := by
  have hs : agedStore.IsTable := ⟨by simp [Store.Keyed, agedStore, limitedRow], by decide⟩
  have htold : ∀ r ∈ agedStore.rows, r.isExpired ⟨6⟩ = true → ∃ d, r.descriptor = .ok d := by
    simp only [agedStore, List.forall_mem_cons, List.not_mem_nil, IsEmpty.forall_iff, implies_true,
      and_true]
    exact ⟨fun _ => descriptor_limitedRow 1 _, fun _ => descriptor_limitedRow 2 _⟩
  obtain ⟨t, ht, hdrops, hagain⟩ := (drops_sweep_iff_refused {} ⟨6⟩ hs).2.1 htold
  have hstatus := funext (statusOf_eq {} ⟨6⟩ agedStore)
  have hcount : (agedStore.rows.countP fun r => statusOf {} ⟨6⟩ agedStore r == 410) = 1 := by
    rw [hstatus]
    decide
  have hids : (agedStore.rows.filter fun r => !statusOf {} ⟨6⟩ agedStore r == 410).map Row.id =
      [2] := by
    rw [hstatus]
    decide
  rw [hcount] at ht
  exact ⟨hs, t, ht, by rw [hdrops.rows, hids], hagain⟩

def spoiltStore : Store where
  threads := [sampleThread]
  rows := [{ limitedRow 1 ⟨5⟩ with format := ['t', 'x', 't'] }, limitedRow 2 ⟨5⟩]

/-- The download of the second document is refused as expired, and the sweep fails and keeps it. -/
theorem not_drops_spoiltStore :
    spoiltStore.IsTable ∧ (∃ r ∈ spoiltStore.rows, statusOf {} ⟨6⟩ spoiltStore r = 410) ∧
      ∃ e, spoiltStore.sweep (fun _ => true) ⟨6⟩ = (.error e, spoiltStore) := by
  have hs : spoiltStore.IsTable := ⟨by simp [Store.Keyed, spoiltStore, limitedRow], by decide⟩
  refine ⟨hs, ⟨limitedRow 2 ⟨5⟩, by simp [spoiltStore], ?_⟩, ?_⟩
  · exact (statusOf_eq_iff hs (by simp [spoiltStore]) {} ⟨6⟩).2
      ⟨by decide, descriptor_limitedRow 2 _⟩
  · refine Store.sweep_eq_error (r := { limitedRow 1 ⟨5⟩ with format := ['t', 'x', 't'] })
      (by simp [spoiltStore]) (by decide) (fun d hd => ?_) _
    cases hd

end Service
end Letterhead
