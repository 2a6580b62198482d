import Letterhead.Proofs.Document.Filename
import Letterhead.Proofs.Store.Ledger

/-! Integrity of a store over runs. Two documents share a file only if they have the millisecond and the
format in common; where that never happens, every row keeps its file. -/
namespace Letterhead

def Action.stamp? : Action → Option (Int × Format)
  | .generate _ now _ r => some (now.millis, r.format)
  | _ => none

/-- A stamp that occurs once is none of those before it. -/
theorem Action.stamp_not_mem {as : List Action} {p : Press} {now : Instant}
    {recording : Recording} {r : Request}
    (h : ((as ++ [generate p now recording r]).filterMap stamp?).Nodup) :
    (now.millis, r.format) ∉ as.filterMap stamp? := by
  rw [List.filterMap_append] at h
  intro hm
  exact List.disjoint_of_nodup_append h hm (by simp [stamp?])

/-- The files of a store come from operations, each from another one. -/
structure Store.Stamped (s : Store) (as : List Action) : Prop where
  stamp : ∀ x ∈ s.places, ∃ m ∈ as.filterMap Action.stamp?, Filename.Stamped x.2.name m
  apart : (s.places.map Prod.snd).Nodup

namespace Store

theorem Writes.stamped {s : Store} {p : Press} {now : Instant} {r : Request} {l : Location}
    {b : Branding} {d : Rendering} (h : s.Writes p now r l b d) :
    Filename.Stamped l.name (now.millis, r.format) :=
  Filename.stamped_of_target h.target

/-- A document with a stamp of its own goes to a file of its own. -/
theorem Stamped.ne_of_writes {s : Store} {as : List Action} (h : s.Stamped as) {p : Press}
    {now : Instant} {r : Request} {l : Location} {b : Branding} {d : Rendering}
    (hw : s.Writes p now r l b d)
    (hnew : (now.millis, r.format) ∉ as.filterMap Action.stamp?) {x : Int × Location}
    (hx : x ∈ s.places) : x.2 ≠ l := by
  rintro rfl
  obtain ⟨m, hm, hstamp⟩ := h.stamp x hx
  exact hnew (hw.stamped.unique hstamp ▸ hm)

theorem Stamped.act {s : Store} {as : List Action} (h : s.Stamped as) {a : Action}
    (hnew : ((as ++ [a]).filterMap Action.stamp?).Nodup) : (s.act a).Stamped (as ++ [a]) := by
  have hstamp : ∀ x ∈ s.places,
      ∃ m ∈ (as ++ [a]).filterMap Action.stamp?, Filename.Stamped x.2.name m := by
    intro x hx
    obtain ⟨m, hm, hxm⟩ := h.stamp x hx
    exact ⟨m, by rw [List.filterMap_append]; exact List.mem_append_left _ hm, hxm⟩
  rcases s.places_act a with hsub | ⟨p, now, recording, r, l, b, d, rfl, hw, hplaces⟩
  · exact ⟨fun x hx => hstamp x (hsub.subset hx), h.apart.sublist (hsub.map _)⟩
  · refine ⟨fun x hx => ?_, ?_⟩
    · rw [hplaces, List.mem_append, List.mem_singleton] at hx
      rcases hx with hx | rfl
      · exact hstamp x hx
      · exact ⟨_, by simp [Action.stamp?], hw.stamped⟩
    · rw [hplaces, List.map_append, List.nodup_append]
      refine ⟨h.apart, by simp, fun k hk m hm => ?_⟩
      obtain ⟨x, hx, rfl⟩ := List.mem_map.1 hk
      rw [show m = l by simpa using hm]
      exact h.ne_of_writes hw (Action.stamp_not_mem hnew) hx

/-- With stamps of their own no operation spoils a file. -/
theorem Stamped.not_spoils {s : Store} {as : List Action} (h : s.Stamped as) {a : Action}
    (hnew : ((as ++ [a]).filterMap Action.stamp?).Nodup) : ¬ s.Spoils a := by
  have hpaths : (s.rows.map Row.path).Nodup := by
    simpa [places, Function.comp_def] using h.apart
  have hremove : ∀ t : Store, t.rows.Sublist s.rows →
      ¬ ∃ r ∈ s.rows, r ∉ t.rows ∧ ∃ q ∈ t.rows, q.path = r.path := by
    rintro t hsub ⟨r, hr, hgone, q, hq, hpath⟩
    have hqr : q = r := List.inj_on_of_nodup_map hpaths (hsub.subset hq) hr hpath
    exact hgone (hqr ▸ hq)
  cases a with
  | generate p now recording r =>
    rintro ⟨l, b, d, hw, q, hq, hpath, -⟩
    exact h.ne_of_writes hw (Action.stamp_not_mem hnew) (List.mem_map_of_mem hq) hpath
  | delete commits id => exact hremove _ (sublist_rows_delete commits s id)
  | sweep commits now => exact hremove _ (sublist_rows_sweep commits s now)
  | countUp commits id => exact fun hs => hs
  | replaceLogos logos => exact fun hs => hs

theorem stamped_run (threads : List Text) {as : List Action}
    (h : (as.filterMap Action.stamp?).Nodup) : ((ofThreads threads).run as).Stamped as := by
  induction as using List.reverseRecOn with
  | nil => exact ⟨by simp [ofThreads, run, places], by simp [ofThreads, run, places]⟩
  | append_singleton as a ih =>
    have has : (as.filterMap Action.stamp?).Nodup := by
      rw [List.filterMap_append] at h
      exact (List.nodup_append.1 h).1
    have hact := (ih has).act h
    rwa [run, List.foldl_concat]

end Store

/-- A run keeps the file of every row exactly as long as no operation of it writes other bytes over
one, or removes a row that shares one with a row that stays. So it is where no two documents of one
format are made in one millisecond. -/
theorem intact_run_iff (threads : List Text) (as : List Action) (has : ∀ a ∈ as, a.IsReliable) :
    ((∀ bs, bs <+: as → (Ledger.run threads bs).Intact) ↔
      ∀ bs a, bs ++ [a] <+: as → ¬ (Ledger.run threads bs).store.Spoils a) ∧
    ((as.filterMap Action.stamp?).Nodup → (Ledger.run threads as).Intact) := by
  have hiff := Ledger.intact_prefixes_iff threads has
  refine ⟨hiff, fun hnodup => ?_⟩
  refine hiff.2 (fun bs a hp => ?_) as List.prefix_rfl
  obtain ⟨cs, rfl⟩ := hp
  rw [List.filterMap_append] at hnodup
  have hbs := (List.nodup_append.1 hnodup).1
  rw [Ledger.store_run]
  refine (Store.stamped_run threads ?_).not_spoils hbs
  rw [List.filterMap_append] at hbs
  exact (List.nodup_append.1 hbs).1

def Action.moment? : Action → Option Instant
  | .generate _ now _ _ => some now
  | .sweep _ now => some now
  | _ => none

def sampleThread : Text := "thread-1234567890".toList

def sampleRequest (content : String) : Request where
  title := "Doc".toList
  content := content.toList
  format := .md
  thread := some sampleThread

def steadyRun : List Action :=
  [.generate {} ⟨1705314600000000⟩ .succeeds (sampleRequest "x"),
    .generate {} ⟨1705314600001000⟩ .succeeds (sampleRequest "y"), .delete true 2]

theorem intact_run_iff_steadyRun :
    (∀ a ∈ steadyRun, a.IsReliable) ∧ (Ledger.run [sampleThread] steadyRun).Intact ∧
      (Ledger.run [sampleThread] steadyRun).store.rows.length = 1 := by
  have has : ∀ a ∈ steadyRun, a.IsReliable := by simp [steadyRun, Action.IsReliable]
  refine ⟨has, (intact_run_iff [sampleThread] steadyRun has).2 (by decide), ?_⟩
  rw [Ledger.store_run]
  decide +kernel

def clashingRun : List Action :=
  [.generate {} ⟨1705314600000000⟩ .succeeds (sampleRequest "x"),
    .generate {} ⟨1705314600000000⟩ .succeeds (sampleRequest "y"), .delete true 2]

/-- With the second document the file of the first one is gone. -/
theorem not_intact_clashingRun :
    (∀ a ∈ clashingRun, a.IsReliable) ∧
      (clashingRun.filterMap Action.moment?).Pairwise (fun i j => i.micros ≤ j.micros) ∧
      ¬ (Ledger.run [sampleThread] clashingRun).Intact := by
  refine ⟨by simp [clashingRun, Action.IsReliable], by decide, fun h => ?_⟩
  have hgone : ∃ r ∈ ((Store.ofThreads [sampleThread]).run clashingRun).rows,
      (((Store.ofThreads [sampleThread]).run clashingRun).files.get? r.path).isNone := by
    decide +kernel
  rw [← Ledger.store_run] at hgone
  obtain ⟨r, hr, hnone⟩ := hgone
  obtain ⟨b, -, hfile, -⟩ := h r hr
  rw [hfile] at hnone
  cases hnone

end Letterhead
