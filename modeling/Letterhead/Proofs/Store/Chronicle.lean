import Letterhead.Proofs.Store.Change

/-! Chronicles: a store beside the documents that have been created and not yet removed, in the order of
their generation. At every moment of a run the rows tell of exactly these, and a listing of a thread
gives them in reverse. -/
namespace Letterhead

namespace Descriptor

/-- A document expires before another one, or at the same moment under a smaller number. -/
def isDueBy (e d : Descriptor) : Bool :=
  match e.expires, d.expires with
  | some x, some y => x.before y || (x == y && e.id ≤ d.id)
  | _, _ => false

end Descriptor

def Action.makes? : Action → Option Instant
  | .generate _ now _ _ => some now
  | _ => none

/-- A store, and the documents that have been created and not yet removed in the order of their
generation. -/
structure Chronicle where
  store : Store
  documents : List Descriptor

namespace Chronicle
open Store

/-- A sweep removes a document: it has expired, and all deletions up to its own are made. -/
def isSwept (commits : Int → Bool) (now : Instant) (ds : List Descriptor) (d : Descriptor) : Bool :=
  d.isExpired now && ds.all fun e => !(e.isExpired now && e.isDueBy d) || isMade (commits e.id) e.id

def after (w : Chronicle) : Action → List Descriptor
  | .generate p now recording r => w.documents ++ (w.store.created? p now recording r).toList
  | .delete commits id => w.documents.filter fun d => !(isMade commits id && d.id == id)
  | .sweep commits now => w.documents.filter fun d => !isSwept commits now w.documents d
  | .countUp commits id => w.documents.map fun d =>
      if isMade commits id && d.id == id then { d with downloads := d.downloads + 1 } else d
  | .replaceLogos _ => w.documents

/-- The chronicle after an operation. -/
def act (w : Chronicle) (a : Action) : Chronicle := ⟨w.store.act a, w.after a⟩

def run (threads : List Text) (as : List Action) : Chronicle :=
  as.foldl act ⟨.ofThreads threads, []⟩

theorem run_concat (threads : List Text) (as : List Action) (a : Action) :
    run threads (as ++ [a]) = (run threads as).act a := by
  simp [run]

theorem store_run (threads : List Text) (as : List Action) :
    (run threads as).store = (Store.ofThreads threads).run as := by
  induction as using List.reverseRecOn with
  | nil => rfl
  | append_singleton as a ih => rw [run_concat, act, ih, Store.run_concat]

/-- The rows tell of the documents, and what was made later has a greater number. -/
structure IsTold (w : Chronicle) : Prop where
  told : Row.Tell w.store.rows w.documents
  ordered : w.documents.Pairwise fun d e => d.id < e.id

theorem IsTold.keyed {w : Chronicle} (h : w.IsTold) : w.store.Keyed := by
  have hids : w.store.rows.map Row.id = w.documents.map Descriptor.id := by
    rw [← List.forall₂_eq_eq_eq, List.forall₂_map_left_iff, List.forall₂_map_right_iff]
    exact h.told.imp fun r d hrd => (Row.told_of_descriptor hrd).1.symm
  rw [Store.Keyed, hids]
  exact List.pairwise_map.2 (h.ordered.imp Int.ne_of_lt)

theorem isDueBy_iff {q r : Row} {e d : Descriptor} (he : q.descriptor = .ok e)
    (hd : r.descriptor = .ok d) {now : Instant} (hexpired : r.isExpired now = true)
    (hdue : q.isExpired now = true) : e.isDueBy d = true ↔ q.expiryRank ≤ r.expiryRank := by
  obtain ⟨x, hx, -⟩ := Instant.hasPassed_iff.1 hdue
  obtain ⟨y, hy, -⟩ := Instant.hasPassed_iff.1 hexpired
  obtain ⟨heid, heexpires⟩ := Row.told_of_descriptor he
  obtain ⟨hdid, hdexpires⟩ := Row.told_of_descriptor hd
  rw [← Row.soonerFirst_iff, Descriptor.isDueBy, Row.soonerFirst, heexpires, hdexpires, hx, hy,
    heid, hdid]

theorem isExpired_eq {r : Row} {d : Descriptor} (h : r.descriptor = .ok d) (now : Instant) :
    r.isExpired now = d.isExpired now := by
  rw [Row.isExpired, Descriptor.isExpired, (Row.told_of_descriptor h).2]

theorem isSwept_iff {w : Chronicle} (h : w.IsTold) {r : Row} {d : Descriptor}
    (hrd : r.descriptor = .ok d) (commits : Int → Bool) (now : Instant) :
    isSwept commits now w.documents d = true ↔ r.isExpired now = true ∧
      ∀ q ∈ w.store.rows, q.isExpired now = true → q.expiryRank ≤ r.expiryRank →
        isMade (commits q.id) q.id = true := by
  rw [isSwept, Bool.and_eq_true, List.all_eq_true, ← isExpired_eq hrd]
  refine and_congr_right fun hexpired => ?_
  constructor
  · intro hall q hq hdue hrank
    obtain ⟨e, he, hqe⟩ := h.told.exists_document hq
    have hmade := hall e he
    rw [← isExpired_eq hqe, hdue, (isDueBy_iff hqe hrd hexpired hdue).2 hrank,
      (Row.told_of_descriptor hqe).1] at hmade
    simpa using hmade
  · intro hall e he
    obtain ⟨q, hq, hqe⟩ := h.told.exists_row he
    rw [← isExpired_eq hqe, (Row.told_of_descriptor hqe).1]
    cases hdue : q.isExpired now with
    | false => simp
    | true =>
      cases hby : e.isDueBy d with
      | false => simp
      | true => simpa using hall q hq hdue ((isDueBy_iff hqe hrd hexpired hdue).1 hby)

/-- What the rows tell after a sweep. -/
theorem IsTold.sweep {w : Chronicle} (h : w.IsTold) (commits : Int → Bool) (now : Instant) :
    Row.Tell (w.store.sweep commits now).2.rows
      (w.documents.filter fun d => !isSwept commits now w.documents d) := by
  have htold : ∀ r ∈ w.store.rows, ∃ d, r.descriptor = .ok d := by
    intro r hr
    obtain ⟨d, -, hd⟩ := h.told.exists_document hr
    exact ⟨d, hd⟩
  -- The rule for documents is the one for rows, read through the number.
  have hsame : (w.documents.filter fun d => !isSwept commits now w.documents d) =
      w.documents.filter fun d => d.id ∉ ((w.store.due now).map Row.id).takeWhile
        fun id => isMade (commits id) id := by
    refine List.filter_congr fun d hd => ?_
    obtain ⟨r, hr, hrd⟩ := h.told.exists_row hd
    have hiff := (isSwept_iff h hrd commits now).trans
      (mem_takeWhile_due_iff h.keyed hr commits now).symm
    rw [(Row.told_of_descriptor hrd).1]
    cases hswept : isSwept commits now w.documents d <;> simp [← hiff, hswept]
  rw [rows_sweep h.keyed htold, hsame]
  exact h.told.filter fun r d hrd => by rw [(Row.told_of_descriptor hrd).1]

theorem IsTold.act {w : Chronicle} (h : w.IsTold) (a : Action) : (w.act a).IsTold := by
  cases a with
  | generate p now recording r =>
    obtain ⟨rows, hrows, htold, hcreated⟩ := rows_generate w.store p now recording r
    constructor
    · change Row.Tell (w.store.generate p now recording r).2.rows _
      rw [hrows]
      exact List.rel_append h.told htold
    · refine List.pairwise_append.2 ⟨h.ordered, by cases w.store.created? p now recording r <;> simp,
        fun d hd e he => ?_⟩
      obtain ⟨q, hq, hqd⟩ := h.told.exists_row hd
      rw [(hcreated e (Option.mem_toList.1 he)).1, (Row.told_of_descriptor hqd).1]
      exact id_lt_nextId hq
  | delete commits id =>
    constructor
    · change Row.Tell (w.store.delete commits id).2.rows _
      rw [rows_delete]
      exact h.told.filter fun r d hrd => by rw [(Row.told_of_descriptor hrd).1]
    · exact h.ordered.filter _
  | sweep commits now => exact ⟨h.sweep commits now, h.ordered.filter _⟩
  | countUp commits id =>
    constructor
    · change Row.Tell (w.store.countUp commits id).rows _
      rw [rows_countUp_eq]
      refine h.told.map fun r d hrd => ?_
      have hid : (d.id == id) = (r.id == id) := by rw [(Row.told_of_descriptor hrd).1]
      rw [hid]
      split
      · exact Row.descriptor_countUp hrd
      · exact hrd
    · refine List.pairwise_map.2 (h.ordered.imp fun hlt => ?_)
      split <;> split <;> exact hlt
  | replaceLogos logos => exact ⟨h.told, h.ordered⟩

theorem isTold_run (threads : List Text) (as : List Action) : (run threads as).IsTold := by
  induction as using List.reverseRecOn with
  | nil => exact ⟨Row.Tell.nil, List.Pairwise.nil⟩
  | append_singleton as a ih =>
    rw [run_concat]
    exact ih.act a

/-- Only a request makes a document, at its own moment. -/
theorem sublist_created_act (w : Chronicle) (a : Action) :
    ((w.act a).documents.map Descriptor.created).Sublist
      (w.documents.map Descriptor.created ++ a.makes?.toList) := by
  have hkept : ∀ p : Descriptor → Bool, ((w.documents.filter p).map Descriptor.created).Sublist
      (w.documents.map Descriptor.created ++ []) := fun p => by
    rw [List.append_nil]
    exact List.filter_sublist.map _
  cases a with
  | generate p now recording r =>
    obtain ⟨-, -, -, hcreated⟩ := rows_generate w.store p now recording r
    change ((w.documents ++ (w.store.created? p now recording r).toList).map _).Sublist _
    rw [List.map_append]
    refine (List.Sublist.refl _).append ?_
    cases hd : w.store.created? p now recording r with
    | none => exact List.nil_sublist _
    | some d => simp [Action.makes?, (hcreated d hd).2.1]
  | delete commits id => exact hkept _
  | sweep commits now => exact hkept _
  | countUp commits id =>
    have hsame : (w.after (.countUp commits id)).map Descriptor.created =
        w.documents.map Descriptor.created := by
      rw [after, List.map_map]
      refine List.map_congr_left fun d _ => ?_
      simp only [Function.comp_apply]
      split <;> rfl
    change ((w.after (.countUp commits id)).map _).Sublist _
    rw [hsame]
    exact List.sublist_append_left _ _
  | replaceLogos logos => exact List.sublist_append_left _ _

/-- The documents that are there were made by requests of the run, in their order. -/
theorem sublist_created_run (threads : List Text) (as : List Action) :
    ((run threads as).documents.map Descriptor.created).Sublist (as.filterMap Action.makes?) := by
  induction as using List.reverseRecOn with
  | nil => exact List.Sublist.refl _
  | append_singleton as a ih =>
    rw [run_concat, List.filterMap_append]
    have hlast : [a].filterMap Action.makes? = a.makes?.toList := by
      cases a <;> rfl
    rw [hlast]
    exact ((run threads as).sublist_created_act a).trans (ih.append (List.Sublist.refl _))

end Chronicle

namespace Store

theorem creationRank_eq {r : Row} {d : Descriptor} (h : r.descriptor = .ok d) :
    r.creationRank = toLex (1, toLex (d.created.micros, d.id)) := by
  obtain ⟨format, pages, created, -, -, hcreated, rfl⟩ := Row.descriptor_eq_ok_iff.1 h
  rw [Row.creationRank, hcreated]
  rfl

/-- On a clock that does not go back, a listing gives the documents of a thread that have been created
and not yet removed, each once, in the reverse order of their generation. -/
theorem documents_run (threads : List Text) (as : List Action)
    (hclock : (as.filterMap Action.makes?).Pairwise fun i j => i.micros ≤ j.micros)
    (thread : Text) :
    ((ofThreads threads).run as).documents thread =
        .ok ((Chronicle.run threads as).documents.filter fun d => d.thread = some thread).reverse ∧
      ((Chronicle.run threads as).documents.map Descriptor.id).Nodup := by
  have htold := Chronicle.isTold_run threads as
  have hmade := Chronicle.sublist_created_run threads as
  rw [← Chronicle.store_run threads as]
  generalize Chronicle.run threads as = w at htold hmade
  have hchosen : Row.Tell (w.store.rows.filter fun r => r.thread = thread)
      (w.documents.filter fun d => d.thread = some thread) := by
    refine htold.told.filter fun r d hrd => ?_
    obtain ⟨format, pages, created, -, -, -, rfl⟩ := Row.descriptor_eq_ok_iff.1 hrd
    simp [Row.describe]
  have hranks : (w.store.rows.map Row.creationRank).Pairwise (· < ·) := by
    have hmap : w.store.rows.map Row.creationRank =
        w.documents.map fun d => toLex (1, toLex (d.created.micros, d.id)) := by
      rw [← List.forall₂_eq_eq_eq, List.forall₂_map_left_iff, List.forall₂_map_right_iff]
      exact htold.told.imp fun r d => creationRank_eq
    rw [hmap, List.pairwise_map]
    have htimes := List.pairwise_map.1 (hclock.sublist hmade)
    refine (htimes.and htold.ordered).imp fun h => ?_
    simp only [Prod.Lex.toLex_lt_toLex, lt_self_iff_false, false_or, true_and]
    exact (lt_or_eq_of_le h.1).imp_right fun he => ⟨he, h.2⟩
  have hsorted := (List.pairwise_map.1 hranks).filter fun r => r.thread = thread
  rw [documents, Row.mergeSort_laterFirst hsorted]
  refine ⟨Row.Tell.mapM_eq (List.rel_reverse hchosen), ?_⟩
  exact List.pairwise_map.2 (htold.ordered.imp Int.ne_of_lt)

def crowdedRun : List Action :=
  [.generate {} ⟨1705314600000000⟩ .succeeds (sampleRequest "x"),
    .generate {} ⟨1705314600000000⟩ .succeeds (sampleRequest "y"), .delete true 2,
    .generate {} ⟨1705314600000000⟩ .succeeds (sampleRequest "longer than y"),
    .generate {} ⟨1705314600001000⟩ .succeeds (sampleRequest "z"), .delete true 1]

theorem documents_run_crowdedRun :
    (crowdedRun.filterMap Action.makes?).Pairwise (fun i j => i.micros ≤ j.micros) ∧
      ∃ ds, ((ofThreads [sampleThread]).run crowdedRun).documents sampleThread = .ok ds ∧
        ds.map (fun d => (d.id, d.size)) = [(3, 9), (2, 21)] := by
  have hclock : (crowdedRun.filterMap Action.makes?).Pairwise
      (fun i j => i.micros ≤ j.micros) := by decide
  exact ⟨hclock, _, (documents_run [sampleThread] crowdedRun hclock sampleThread).1,
    by decide +kernel⟩

end Store
end Letterhead
