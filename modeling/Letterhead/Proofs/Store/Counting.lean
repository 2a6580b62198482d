import Letterhead.Proofs.Store.Chronicle

/-! Counting of downloads. What is told of a document counts the downloads since its row was added, over
any run and whatever could not be committed in it. -/
namespace Letterhead

def Action.countsUp (id : Int) : Action → Bool
  | .countUp commits n => commits && n == id
  | _ => false

namespace Store

/-- The operations of a run since the row that now has a number was added: it was added right before
them, and has been there after each of them. -/
inductive Since (threads : List Text) (as : List Action) (id : Int) : List Action → Prop where
  | added {bs : List Action} {a : Action} {cs : List Action} (hrun : as = bs ++ a :: cs)
      (hadded : id ∈ ((ofThreads threads).run bs).given a)
      (hstays : ∀ ds, ds <+: cs → id ∈ ((ofThreads threads).run (bs ++ a :: ds)).numbers) :
      Since threads as id cs

theorem exists_since {threads : List Text} {as : List Action} {id : Int}
    (h : id ∈ ((ofThreads threads).run as).numbers) : ∃ cs, Since threads as id cs := by
  induction as using List.reverseRecOn with
  | nil => cases h
  | append_singleton as a ih =>
    have hnow := h
    rw [run_concat] at h
    -- A row that was there before is still the same one, since only new numbers are added.
    have hold : id ∈ ((ofThreads threads).run as).numbers →
        ∃ cs, Since threads (as ++ [a]) id cs := by
      intro hbefore
      obtain ⟨cs, hcs⟩ := ih hbefore
      cases hcs with
      | @added bs b _ hrun hadded hstays =>
        refine ⟨cs ++ [a], .added (by rw [hrun, List.append_assoc, List.cons_append]) hadded ?_⟩
        intro ds hds
        cases List.prefix_concat_iff.1 hds with
        | inl hall =>
          rw [hall, ← List.cons_append, ← List.append_assoc, ← hrun]
          exact hnow
        | inr hds => exact hstays ds hds
    cases given_cases ((ofThreads threads).run as) a with
    | inl hnone => exact hold (hnone.2 h)
    | inr hone =>
      rw [hone.2.1] at h
      cases List.mem_append.1 h with
      | inl hbefore => exact hold hbefore
      | inr hid =>
        refine ⟨[], .added rfl (hone.1 ▸ hid) fun ds hds => ?_⟩
        rw [List.prefix_nil.1 hds]
        exact hnow

end Store

namespace Chronicle
open Store

theorem IsTold.mem_numbers_iff {w : Chronicle} (h : w.IsTold) {id : Int} :
    id ∈ w.store.numbers ↔ ∃ d ∈ w.documents, d.id = id := by
  constructor
  · intro hid
    obtain ⟨r, hr, rfl⟩ := List.mem_map.1 hid
    obtain ⟨d, hd, hrd⟩ := h.told.exists_document hr
    exact ⟨d, hd, (Row.told_of_descriptor hrd).1⟩
  · rintro ⟨d, hd, rfl⟩
    obtain ⟨r, hr, hrd⟩ := h.told.exists_row hd
    exact List.mem_map.2 ⟨r, hr, (Row.told_of_descriptor hrd).1.symm⟩

theorem IsTold.eq_of_id_eq {w : Chronicle} (h : w.IsTold) {d e : Descriptor}
    (hd : d ∈ w.documents) (he : e ∈ w.documents) (hid : d.id = e.id) : d = e :=
  List.inj_on_of_nodup_map (List.pairwise_map.2 (h.ordered.imp Int.ne_of_lt)) hd he hid

/-- A document that has just been created has no downloads. -/
theorem exists_created {w : Chronicle} (h : w.IsTold) {a : Action} {id : Int}
    (hid : id ∈ w.store.given a) : ∃ d ∈ (w.act a).documents, d.id = id ∧ d.downloads = 0 := by
  obtain ⟨hnow, hnew⟩ := List.mem_filter.1 hid
  obtain ⟨d, hd, rfl⟩ := (h.act a).mem_numbers_iff.1 hnow
  have hbefore : d ∉ w.documents := fun hm =>
    (of_decide_eq_true hnew) (h.mem_numbers_iff.2 ⟨d, hm, rfl⟩)
  cases given_cases w.store a with
  | inl hnone =>
    rw [hnone.1] at hid
    cases hid
  | inr hone =>
    obtain ⟨-, -, p, now, recording, r, rfl⟩ := hone
    obtain ⟨-, -, -, hcreated⟩ := rows_generate w.store p now recording r
    have hadded := (List.mem_append.1 hd).resolve_left hbefore
    exact ⟨d, hd, rfl, (hcreated d (Option.mem_toList.1 hadded)).2.2⟩

/-- As long as a document is there, an operation changes the number of its downloads by what it
counts. -/
theorem exists_counted {w : Chronicle} (h : w.IsTold) {d : Descriptor} (hd : d ∈ w.documents)
    (hkey : isKey d.id = true) {a : Action} (hstays : d.id ∈ (w.act a).store.numbers) :
    ∃ e ∈ (w.act a).documents,
      e.id = d.id ∧ e.downloads = d.downloads + ([a].countP (Action.countsUp d.id) : Nat) := by
  have hkept : ∀ p : Descriptor → Bool, (w.act a).documents = w.documents.filter p →
      a.countsUp d.id = false → ∃ e ∈ (w.act a).documents, e.id = d.id ∧
        e.downloads = d.downloads + ([a].countP (Action.countsUp d.id) : Nat) := by
    intro p hfilter hcounts
    obtain ⟨e, he, hid⟩ := (h.act a).mem_numbers_iff.1 hstays
    rw [hfilter] at he
    obtain rfl := h.eq_of_id_eq (List.mem_of_mem_filter he) hd hid
    exact ⟨e, hfilter ▸ he, rfl, by simp [hcounts]⟩
  cases a with
  | generate p now recording r =>
    exact ⟨d, List.mem_append_left _ hd, rfl, by simp [Action.countsUp]⟩
  | delete commits id => exact hkept _ rfl rfl
  | sweep commits now => exact hkept _ rfl rfl
  | countUp commits id =>
    refine ⟨_, List.mem_map_of_mem hd, ?_, ?_⟩
    · split <;> rfl
    · by_cases hid : d.id = id
      · subst hid
        cases commits <;> simp [isMade, hkey, Action.countsUp]
      · simp [hid, Ne.symm hid, Action.countsUp]
  | replaceLogos logos => exact ⟨d, hd, rfl, by simp [Action.countsUp]⟩

/-- A document has the downloads that were counted since its row was added. -/
theorem exists_of_since {threads : List Text} {as cs : List Action} {id : Int}
    (h : Since threads as id cs) (hkey : isKey id = true) :
    ∃ d ∈ (run threads as).documents,
      d.id = id ∧ d.downloads = (cs.countP (Action.countsUp id) : Nat) := by
  obtain @⟨bs, a, _, rfl, hadded, hstays⟩ := h
  induction cs using List.reverseRecOn with
  | nil =>
    rw [run_concat]
    rw [← store_run] at hadded
    exact exists_created (isTold_run threads bs) hadded
  | append_singleton cs c ih =>
    obtain ⟨d, hd, rfl, hcount⟩ := ih fun ds hds => hstays ds (hds.trans (List.prefix_append cs [c]))
    have hrun : run threads (bs ++ a :: (cs ++ [c])) = (run threads (bs ++ a :: cs)).act c := by
      rw [← List.cons_append, ← List.append_assoc, run_concat]
    have hstay := hstays (cs ++ [c]) List.prefix_rfl
    rw [← store_run, hrun] at hstay
    rw [hrun]
    obtain ⟨e, he, hid, hnext⟩ := exists_counted (isTold_run threads _) hd hkey hstay
    refine ⟨e, he, hid, ?_⟩
    rw [hnext, hcount, List.countP_append]
    push_cast
    rfl

/-- A document is told under its number with the downloads of its row. -/
theorem IsTold.get?_eq {w : Chronicle} (h : w.IsTold) {d : Descriptor} (hd : d ∈ w.documents)
    (hkey : isKey d.id = true) :
    w.store.get? d.id = .ok (some d) ∧ w.store.downloads d.id = .ok d.downloads := by
  obtain ⟨r, hr, hrd⟩ := h.told.exists_row hd
  have hid := (Row.told_of_descriptor hrd).1
  have hcount : d.downloads = r.downloads := by
    obtain ⟨format, pages, created, -, -, -, rfl⟩ := Row.descriptor_eq_ok_iff.1 hrd
    rfl
  have hrow : w.store.row? d.id = .ok (some r) := by
    rw [hid] at hkey ⊢
    exact row?_of_keyed h.keyed hr hkey
  constructor
  · rw [get?, hrow]
    simp only [bind, Except.bind, hrd]
    rfl
  · rw [downloads, hrow, hcount]
    rfl

end Chronicle

namespace Store

/-- Counting leaves everything but the downloads of the row of its number. -/
structure CountsOnly (s t : Store) (id : Int) : Prop where
  threads : t.threads = s.threads
  files : t.files = s.files
  rows : ∃ n : Row → Int, t.rows = s.rows.map (fun r => { r with downloads := n r }) ∧
    ∀ r, r.id ≠ id → n r = r.downloads

theorem countsOnly_countUp (commits : Bool) (s : Store) (id : Int) :
    s.CountsOnly (s.countUp commits id) id := by
  have hrows := rows_countUp_eq commits s id
  refine ⟨?_, files_countUp commits s id,
    fun r => if isMade commits id && r.id == id then r.downloads + 1 else r.downloads, ?_, ?_⟩
  · unfold countUp
    split <;> rfl
  · rw [hrows]
    refine List.map_congr_left fun r _ => ?_
    cases hcounts : isMade commits id && r.id == id <;> simp [hcounts]
  · intro r hr
    simp [hr]

theorem downloads_of_not_mem {s : Store} {id : Int} (hkey : isKey id = true)
    (h : id ∉ s.numbers) : s.downloads id = .ok 0 := by
  rw [downloads, row?_of_not_mem hkey h]
  rfl

/-- Over any run, whatever could not be committed in it: the downloads of a number are how often one was
counted since the row that now has it was added, none where no row has it, and the document is told with
as many. A number beyond 64 bits cannot be asked for. A count that is not made changes nothing, and none
changes more than the downloads of its row. -/
theorem downloads_run (threads : List Text) (as : List Action) (id : Int) :
    (isKey id = true →
      (id ∉ ((ofThreads threads).run as).numbers →
        ((ofThreads threads).run as).downloads id = .ok 0 ∧
          ((ofThreads threads).run as).get? id = .ok none) ∧
      (id ∈ ((ofThreads threads).run as).numbers → ∃ cs, Since threads as id cs) ∧
      ∀ cs, Since threads as id cs →
        ((ofThreads threads).run as).downloads id = .ok (cs.countP (Action.countsUp id) : Nat) ∧
          ∃ d, ((ofThreads threads).run as).get? id = .ok (some d) ∧
            d.downloads = (cs.countP (Action.countsUp id) : Nat)) ∧
    (isKey id = false →
      ((ofThreads threads).run as).downloads id = .error .overflow ∧
        ((ofThreads threads).run as).get? id = .error .overflow) ∧
    ∀ s : Store, (∀ commits, commits = false ∨ isKey id = false → s.countUp commits id = s) ∧
      ∀ commits, s.CountsOnly (s.countUp commits id) id := by
  refine ⟨fun hkey => ⟨fun hnone => ?_, exists_since, fun cs hcs => ?_⟩, fun hkey => ?_, fun s => ?_⟩
  · exact ⟨downloads_of_not_mem hkey hnone, get?_of_not_mem hkey hnone⟩
  · obtain ⟨d, hd, rfl, hcount⟩ := Chronicle.exists_of_since hcs hkey
    have htold := (Chronicle.isTold_run threads as).get?_eq hd hkey
    rw [Chronicle.store_run] at htold
    exact ⟨hcount ▸ htold.2, d, htold.1, hcount⟩
  · rw [downloads, get?, row?_of_not_isKey hkey]
    exact ⟨rfl, rfl⟩
  · refine ⟨fun commits hfails => ?_, fun commits => s.countsOnly_countUp commits id⟩
    have hnot : (commits && isKey id) = false := by
      rcases hfails with hfails | hfails <;> simp [hfails]
    rw [countUp, if_neg (by simp [hnot])]

def countedRun : List Action :=
  [.generate {} ⟨1705314600000000⟩ .succeeds (sampleRequest "x"), .countUp true 1, .delete true 1,
    .generate {} ⟨1705314600001000⟩ .succeeds (sampleRequest "y"), .countUp true 1,
    .countUp false 1, .countUp true 1]

theorem downloads_run_countedRun :
    isKey 1 = true ∧ ((ofThreads [sampleThread]).run countedRun).downloads 1 = .ok 2 := by
  have hkey : isKey 1 = true := by decide
  have hstays : ∀ n < 4, 1 ∈ ((ofThreads [sampleThread]).run
      (countedRun.take 3 ++ .generate {} ⟨1705314600001000⟩ .succeeds (sampleRequest "y") ::
        (countedRun.drop 4).take n)).numbers := by
    decide +kernel
  have hsince : Since [sampleThread] countedRun 1 (countedRun.drop 4) := by
    have hrun : countedRun = countedRun.take 3 ++ .generate {} ⟨1705314600001000⟩ .succeeds
        (sampleRequest "y") :: countedRun.drop 4 := rfl
    refine .added hrun (by decide +kernel) fun ds hds => ?_
    rw [List.prefix_iff_eq_take.1 hds]
    exact hstays _ (Nat.lt_succ_of_le hds.length_le)
  exact ⟨hkey, (((downloads_run [sampleThread] countedRun 1).1 hkey).2.2 _ hsince).1⟩

/-- The first number beyond 64 bits has no row, and its downloads are not told. -/
theorem downloads_keyLimit :
    keyLimit ∉ ((ofThreads []).run []).numbers ∧
      ((ofThreads []).run []).downloads keyLimit = .error .overflow := by
  decide

end Store
end Letterhead
