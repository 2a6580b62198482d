import Letterhead.Proofs.Content.Trays

/-! Tidy trays. Whatever the text, the trays hold what the scan with one open block holds: its open block
lies in one of them and the others are empty. So no two trays are ever full, and it makes no difference
in which order they are emptied. -/
namespace Letterhead
open Line Text

namespace OpenBlock

def tray? : OpenBlock → Option Tray
  | .none => Option.none
  | .paragraph _ | .bullets _ | .numbered _ => some .text
  | .table _ => some .table
  | .diagram _ _ => some .diagram

/-- A block is open only with something in it. -/
def IsFilled : OpenBlock → Prop
  | .none => True
  | .paragraph ls => ls ≠ []
  | .bullets is => is ≠ []
  | .numbered is => is ≠ []
  | .table rows => rows ≠ []
  | .diagram ls _ => ls ≠ []

theorem Extends.isFilled {raw : Text} {o o' : OpenBlock} (h : Extends raw o o')
    (ho : o.IsFilled) : o'.IsFilled := by
  cases h with
  | rule _ => exact ho
  | gap _ => exact ho
  | _ => exact List.cons_ne_nil _ _

theorem Extends.tray?_eq {raw : Text} {o o' : OpenBlock} (h : Extends raw o o') :
    o'.tray? = o.tray? := by
  cases h <;> rfl

end OpenBlock

/-- Only a row that is not drawn opens a table. -/
theorem Line.isRow_of_opened {raw : Text} (h : (kind raw).opened.tray? = some .table) :
    isDiagram raw.trimRight = false ∧ isRow raw = true := by
  constructor
  · by_contra hd
    have hk : kind raw = .drawn raw.trimRight := by rw [kind, if_pos (by simpa using hd)]
    simp [hk, Kind.opened, OpenBlock.tray?] at h
  · have hreads := reads_kind raw
    cases hk : kind raw with
    | row cs =>
      rw [hk] at hreads
      cases hreads with
      | row hr => exact hr
    | _ => simp [hk, Kind.opened, OpenBlock.tray?] at h

theorem Line.Kind.isFilled_opened (k : Kind) : k.opened.IsFilled := by
  cases k <;> simp [Kind.opened, OpenBlock.IsFilled]

namespace Scan

/-- The open block holds something, and none is open in a fence. -/
structure IsSound (s : Scan) : Prop where
  filled : s.current.IsFilled
  apart : s.fence ≠ none → s.current = .none

theorem isSound_start : start.IsSound := ⟨trivial, fun _ => rfl⟩

theorem IsSound.step {s : Scan} (h : s.IsSound) (raw : Text) : (s.step raw).IsSound := by
  cases hf : isFence raw with
  | true =>
    rw [step_of_isFence hf]
    cases hs : s.fence with
    | some code => exact ⟨h.filled, fun hne => absurd rfl hne⟩
    | none => exact ⟨trivial, fun _ => rfl⟩
  | false =>
    rw [step_of_not_isFence hf]
    cases hs : s.fence with
    | some code =>
      have hnone : s.current = .none := h.apart (by simp [hs])
      exact ⟨h.filled, fun _ => hnone⟩
    | none =>
      have hout : (s.takeLine raw).fence = none := by rw [fence_takeLine, hs]
      refine ⟨?_, fun hne => absurd hout hne⟩
      cases ho : s.current.extend? raw with
      | some o =>
        rw [takeLine_of_extend? ho]
        exact (OpenBlock.extends_of_extend? ho).isFilled h.filled
      | none =>
        rw [takeLine_of_extend?_eq_none ho]
        exact (kind raw).isFilled_opened

/-- A line opens a table if one is open after it and none was before. -/
theorem opensTable_iff {s : Scan} {raw : Text} :
    s.opensTable raw = true ↔
      s.current.tray? ≠ some .table ∧ (s.step raw).current.tray? = some .table := by
  constructor
  · intro h
    refine ⟨fun hopen => ?_, by rw [(step_of_opensTable h).2]; rfl⟩
    cases hc : s.current <;> simp_all [opensTable, OpenBlock.tray?]
  · -- Neither a fence nor a line that continues the open block opens a table.
    rintro ⟨hclosed, hopen⟩
    have hf : isFence raw = false := by
      by_contra hf
      rw [step_of_isFence (by simpa using hf)] at hopen
      cases hfence : s.fence with
      | some code =>
        rw [hfence] at hopen
        exact hclosed hopen
      | none => simp [hfence, close, OpenBlock.tray?] at hopen
    rw [step_of_not_isFence hf] at hopen
    cases hfence : s.fence with
    | some code => exact absurd (by simpa [hfence] using hopen) hclosed
    | none =>
      simp only [hfence] at hopen
      cases ho : s.current.extend? raw with
      | some o =>
        rw [takeLine_of_extend? ho, (OpenBlock.extends_of_extend? ho).tray?_eq] at hopen
        exact absurd hopen hclosed
      | none =>
        rw [takeLine_of_extend?_eq_none ho] at hopen
        obtain ⟨hd, hr⟩ := isRow_of_opened hopen
        cases hc : s.current <;> simp_all [opensTable, OpenBlock.tray?]

end Scan

namespace Trays
variable {s : Scan}

def ofOpen : OpenBlock → Trays
  | .none => {}
  | .paragraph ls => { kind := some .paragraph, items := ls.reverse }
  | .bullets is => { kind := some .bullet, items := is.reverse }
  | .numbered is => { kind := some .numbered, items := is.reverse }
  | .table rows => { inTable := true, rows := rows.reverse }
  | .diagram ls n => { inDiagram := true, drawn := ls.reverse, gaps := List.replicate n [] }

def ofScan (s : Scan) : Trays :=
  { ofOpen s.current with
    blocks := s.done.reverse
    inCode := s.fence.isSome
    code := (s.fence.getD []).reverse }

@[simp] theorem inCode_ofScan (s : Scan) : (ofScan s).inCode = s.fence.isSome := rfl

theorem flush_ofScan (h : s.current.IsFilled) (tray : Tray) :
    (ofScan s).flush tray = ofScan (if s.current.tray? = some tray then s.close else s) := by
  obtain ⟨done, current, fence⟩ := s
  cases current <;> cases tray <;>
    simp_all [ofScan, ofOpen, flush, Scan.close, OpenBlock.close, OpenBlock.tray?,
      OpenBlock.IsFilled, ItemKind.block]

/-- Of all trays only the one of the open block holds anything to be moved. -/
theorem flushAll_ofScan {order : List Tray} (h : s.current.IsFilled)
    (horder : ∀ tray, s.current.tray? = some tray → tray ∈ order) :
    (ofScan s).flushAll order = ofScan s.close := by
  induction order generalizing s with
  | nil =>
    have hnone : s.current = .none := by
      cases hc : s.current <;> simp_all [OpenBlock.tray?]
    obtain ⟨done, current, fence⟩ := s
    obtain rfl : current = .none := hnone
    rfl
  | cons tray order ih =>
    rw [flushAll, List.foldl_cons, flush_ofScan h]
    by_cases htray : s.current.tray? = some tray
    · rw [if_pos htray]
      exact ih trivial fun other hother => by cases hother
    · rw [if_neg htray]
      refine ih h fun other hother => (List.mem_cons.1 (horder other hother)).resolve_left ?_
      rintro rfl
      exact htray hother

section Items
variable (h : s.current.IsFilled) (ht : ∀ tray, s.current.tray? = some tray → tray = .text)
include h ht

theorem flush_text_ofScan : (ofScan s).flush .text = ofScan s.close :=
  flushAll_ofScan h fun tray htray => List.mem_singleton.2 (ht tray htray)

theorem append_ofScan (k : ItemKind) (item : Text) :
    (ofScan s).append k item = ofScan
      (match k with
      | .paragraph => s.addLine item
      | .bullet => s.addBullet item
      | .numbered => s.addNumbered item) := by
  have hflush := flush_text_ofScan h ht
  rw [append, hflush]
  obtain ⟨done, current, fence⟩ := s
  cases current with
  | table rows => exact absurd (ht .table rfl) (by decide)
  | diagram ls n => exact absurd (ht .diagram rfl) (by decide)
  | _ =>
    cases k <;> simp [ofScan, ofOpen, Scan.addLine, Scan.addBullet, Scan.addNumbered,
      Scan.reopen, Scan.close]

theorem begin_ofScan (raw : Text) : (ofScan s).begin raw = ofScan (s.begin raw) := by
  have hflush := flush_text_ofScan h ht
  rw [begin, Scan.begin_eq_of_kind, hflush]
  cases Line.kind raw with
  | drawn l => rfl
  | row cs => rfl
  | heading k t => simp [ofScan, emit, Scan.emit, Scan.close]
  | bullet i => exact append_ofScan h ht .bullet i
  | numbered i => exact append_ofScan h ht .numbered i
  | plain l => exact append_ofScan h ht .paragraph l
  | blank => rfl

end Items

/-- A line goes on with what lies in the trays just where it goes on with the open block. -/
theorem takeLine_ofScan (h : s.current.IsFilled) (raw : Text) :
    (ofScan s).takeLine raw = ofScan (s.takeLine raw) := by
  -- Once its tray is empty, a line that does not go on with it is taken like the first line of a text.
  have hbegin : (ofScan s.close).begin raw = ofScan (s.close.begin raw) :=
    begin_ofScan (s := s.close) trivial (fun tray htray => by cases htray) raw
  have hflush : ∀ tray, s.current.tray? = some tray → (ofScan s).flush tray = ofScan s.close :=
    fun tray htray => by rw [flush_ofScan h, if_pos htray]
  obtain ⟨done, current, fence⟩ := s
  cases current with
  | table rows =>
    have hrow : ((ofScan ⟨done, .table rows, fence⟩).flush .table).takeDrawn raw =
        ofScan ((Scan.close ⟨done, .table rows, fence⟩).begin raw) := by
      rw [hflush .table rfl]
      exact hbegin
    unfold takeLine Scan.takeLine
    rw [hrow]
    simp only [ofScan, ofOpen, if_true]
    split
    · rfl
    · split
      · simp
      · rfl
  | diagram ls n =>
    have hdrawn : ((ofScan ⟨done, .diagram ls n, fence⟩).flush .diagram).begin raw =
        ofScan ((Scan.close ⟨done, .diagram ls n, fence⟩).begin raw) := by
      rw [hflush .diagram rfl]
      exact hbegin
    unfold takeLine takeDrawn Scan.takeLine
    rw [hdrawn]
    simp only [ofScan, ofOpen, if_true, Bool.false_eq_true, if_false]
    split
    · simp [List.replicate_succ']
    · split
      · simp
      · rfl
  | _ => exact begin_ofScan h (fun tray htray => by simpa [OpenBlock.tray?] using htray.symm) raw

theorem isFull_ofScan (h : s.current.IsFilled) (tray : Tray) :
    (ofScan s).isFull tray = (s.current.tray? == some tray) := by
  obtain ⟨done, current, fence⟩ := s
  cases current <;> cases tray <;>
    simp_all [ofScan, ofOpen, isFull, OpenBlock.tray?, OpenBlock.IsFilled]

theorem isMarked_ofScan (s : Scan) (tray : Tray) :
    (ofScan s).isMarked tray = (s.current.tray? == some tray) := by
  obtain ⟨done, current, fence⟩ := s
  cases current <;> cases tray <;> rfl

theorem isTidy_ofScan (hs : s.IsSound) : (ofScan s).IsTidy where
  one a b ha hb := by
    rw [isFull_ofScan hs.filled, beq_iff_eq] at ha hb
    exact Option.some.inj (ha.symm.trans hb)
  marked tray := by rw [isFull_ofScan hs.filled, isMarked_ofScan]
  gaps hne := by
    cases hc : s.current with
    | diagram ls n => simp [ofScan, ofOpen, hc]
    | _ => exact absurd (by simp [ofScan, ofOpen, hc]) hne
  code hcode := by
    have hnone : s.current = .none := hs.apart (Option.isSome_iff_ne_none.1 hcode)
    refine ⟨fun tray => ?_, by simp [ofScan, ofOpen, hnone]⟩
    rw [isFull_ofScan hs.filled, hnone]
    rfl

theorem closeFence_ofScan {code : List Text} (h : s.fence = some code) :
    (ofScan s).closeFence = ofScan { s.emit (Scan.codeOf code) with fence := none } := by
  simp [ofScan, closeFence, emit, Scan.emit, Scan.codeOf, unlines, h]

section Order
variable {order : List Tray} (horder : ∀ tray : Tray, tray ∈ order)
include horder

theorem step_ofScan (hs : s.IsSound) (raw : Text) :
    (ofScan s).step order raw = ofScan (s.step raw) := by
  have hflush : (ofScan s).flushAll order = ofScan s.close :=
    flushAll_ofScan hs.filled fun tray _ => horder tray
  have htake := takeLine_ofScan hs.filled raw
  cases hfence : s.fence with
  | none =>
    simp only [step, Scan.step, inCode_ofScan, hfence, Option.isSome_none, hflush, htake,
      Bool.false_eq_true, if_false]
    split
    · simp [ofScan, Scan.close, hfence]
    · rfl
  | some code =>
    simp only [step, Scan.step, inCode_ofScan, hfence, Option.isSome_some, if_true,
      closeFence_ofScan hfence]
    split
    · rfl
    · simp [ofScan, hfence]

/-- The table that a line opens is the one that was not open before it. -/
theorem opensTable_ofScan (hs : s.IsSound) (raw : Text) :
    (!(ofScan s).inTable && ((ofScan s).step order raw).inTable) = s.opensTable raw := by
  have hmark : ∀ m : Scan, (ofScan m).inTable = (m.current.tray? == some .table) :=
    fun m => isMarked_ofScan m .table
  rw [step_ofScan horder hs, hmark, hmark, Bool.eq_iff_iff]
  simpa using Scan.opensTable_iff.symm

/-- The trays go through what the scan goes through. -/
theorem through_ofScan (hs : s.IsSound) (ls : List Text) :
    ∃ scans : List Scan, (∀ m ∈ scans, m.IsSound) ∧
      (ofScan s).through order ls = scans.map ofScan ∧ scans.getLast? = some (s.run ls) := by
  fun_induction Scan.run s ls with
  | case1 s => exact ⟨[s], List.forall_mem_singleton.2 hs, rfl, rfl⟩
  | case2 s l =>
    refine ⟨[s, s.step l], by simpa using ⟨hs, hs.step l⟩, ?_, rfl⟩
    rw [through, step_ofScan horder hs]
    rfl
  | case3 s l next rest h ih | case4 s l next rest h ih =>
    -- The same line is passed over on both sides, so the induction goes on behind it.
    obtain ⟨scans, hsound, hthrough, hlast⟩ := ih (hs.step l)
    refine ⟨s :: scans, List.forall_mem_cons.2 ⟨hs, hsound⟩, ?_, ?_⟩
    · rw [through, opensTable_ofScan horder hs, step_ofScan horder hs]
      simp [h, hthrough]
    · rw [List.getLast?_cons, hlast]
      rfl

theorem finish_ofScan (h : s.current.IsFilled) : (ofScan s).finish order = s.finish := by
  have hblocks : ∀ m : Scan, m.current.IsFilled →
      ((ofScan m).flushAll order).blocks = m.close.done.reverse := fun m hm => by
    rw [flushAll_ofScan hm fun tray _ => horder tray]
    rfl
  cases hfence : s.fence with
  | none =>
    rw [finish, inCode_ofScan, Scan.finish, hfence]
    exact hblocks s h
  | some code =>
    rw [finish, inCode_ofScan, Scan.finish, hfence, Option.isSome_some, if_pos rfl,
      closeFence_ofScan hfence]
    exact hblocks _ h

end Order

/-- Before each line of a text at most one tray is full, the marks tell which one, and in a fence none is.
Hence the order in which the trays are emptied makes no difference, neither there nor for the blocks
that are gathered. -/
theorem isTidy_of_mem_through {order : List Tray} (horder : order.Perm [.diagram, .table, .text])
    (t : Text) :
    (∀ s ∈ through order {} t.lines, s.IsTidy ∧
      ∀ other : List Tray, other.Perm order → s.flushAll other = s.flushAll order) ∧
    gather order t = segment t := by
  have hall : ∀ other : List Tray, other.Perm order → ∀ tray, tray ∈ other := by
    intro other hother tray
    rw [(hother.trans horder).mem_iff]
    cases tray <;> decide
  have horder' := hall order (.refl order)
  obtain ⟨scans, hsound, hthrough, hlast⟩ :=
    through_ofScan horder' Scan.isSound_start t.lines
  have hstart : through order {} t.lines = scans.map ofScan := hthrough
  rw [hstart]
  constructor
  · refine List.forall_mem_map.2 fun s hs => ⟨isTidy_ofScan (hsound s hs), fun other hother => ?_⟩
    rw [flushAll_ofScan (hsound s hs).filled fun tray _ => hall other hother tray,
      flushAll_ofScan (hsound s hs).filled fun tray _ => horder' tray]
  · have hend := hsound _ (List.mem_of_getLast? hlast)
    rw [gather, hstart, List.getLastD_eq_getLast?, List.getLast?_map, hlast]
    exact finish_ofScan horder' hend.filled

def trayText : Text := "- a\n| b | c |\n|---|---|\n    x --> y\n    \n\x60\x60\x60\n| d |".toList

def openDrawing : Trays where
  blocks := [.bullets ["a".toList], .table [["b".toList, "c".toList]]]
  inDiagram := true
  drawn := ["    x --> y".toList]
  gaps := [[]]

theorem isTidy_of_mem_through_trayText :
    [Tray.text, .diagram, .table].Perm [.diagram, .table, .text] ∧
      openDrawing ∈ through [.text, .diagram, .table] {} trayText.lines ∧ openDrawing.IsTidy ∧
      openDrawing.flushAll [.diagram, .table, .text] =
        openDrawing.flushAll [.text, .diagram, .table] ∧
      gather [.text, .diagram, .table] trayText =
        [.bullets ["a".toList], .table [["b".toList, "c".toList]], .diagram ["    x --> y".toList],
          .code "| d |".toList] := by
  have horder : [Tray.text, .diagram, .table].Perm [.diagram, .table, .text] := by decide
  have hmem : openDrawing ∈ through [.text, .diagram, .table] {} trayText.lines := by
    decide +kernel
  have h := isTidy_of_mem_through horder trayText
  refine ⟨horder, hmem, (h.1 _ hmem).1, (h.1 _ hmem).2 _ horder.symm, ?_⟩
  rw [h.2]
  decide +kernel

/-- With two full trays the order would show. -/
example :
    flushAll [.text, .table] { kind := some .paragraph, items := [[]], inTable := true, rows := [[]] } ≠
      flushAll [.table, .text]
        { kind := some .paragraph, items := [[]], inTable := true, rows := [[]] } := by
  decide

end Trays
end Letterhead
